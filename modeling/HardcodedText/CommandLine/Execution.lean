import HardcodedText.CommandLine.Command
import HardcodedText.Report.Files
import HardcodedText.Report.Listing
import HardcodedText.Rule.ConfigFile
import HardcodedText.Run

/-!
# Execution of commands

What a command line comes to: the texts that are written to the two outputs, the code that the
program ends with, and the workspace that it leaves behind.
-/

namespace HardcodedText.CommandLine

/-- A failure that nobody deals with. -/
inductive Abort
  /-- A path cannot be used. -/
  | access (cause : AccessError)
  /-- The configuration has an error that is not noticed as such. -/
  | config (cause : ConfigFileError)

/-- The wording of a failure. -/
def Abort.message : Abort → String
  | access cause => cause.message
  | config cause => cause.message

/-- What a command line came to. -/
structure Outcome where
  /-- The code that the program ends with, or a failure that nobody deals with. -/
  exit : Except Abort Nat
  /-- What is written to the standard output. -/
  stdout : String := ""
  /-- What is written to the error output. -/
  stderr : String := ""
  /-- The workspace afterwards. -/
  workspace : Workspace

/-- What a command needs to know besides its arguments. -/
structure Setting where
  /-- The files. -/
  workspace : Workspace
  /-- The characters that have a name. -/
  characters : CharacterNames
  /-- How long a run takes, in seconds. -/
  elapsed : Binary64
  /-- The time of day. -/
  now : String

namespace Exit

/-- Nothing is hardcoded. -/
def clean : Nat := 0

/-- Something is hardcoded. -/
def hardcoded : Nat := 1

/-- Nothing was checked. -/
def unchecked : Nat := 2

end Exit

namespace CheckOptions

/-- The least important level that is logged. -/
def level (o : CheckOptions) : Level :=
  if o.verbose then .debug else if o.quiet then .warning else .info

/-- The checks that are made. -/
def checks (o : CheckOptions) : List Check :=
  if o.markupOnly then [.markup] else if o.callsOnly then [.calls] else Check.all

/-- The directory that the patterns are relative to. -/
def rootPath (o : CheckOptions) : Path := .ofText o.root

/-- The configuration with what the options change in it. -/
def adjust (o : CheckOptions) (config : Configuration) : Configuration :=
  { config with freeStanding := config.freeStanding || o.freeStanding }

/-- The configuration that a check goes by. -/
def configuration (o : CheckOptions) (characters : CharacterNames) (ws : Workspace) :
    Except AccessError (Except ConfigFileError Configuration) :=
  if o.config = "" then .ok (.ok .standard) else ws.loadConfiguration characters (.ofText o.config)

/-- The run that a check asks for. -/
def request (o : CheckOptions) (ws : Workspace) (config : Configuration) (elapsed : Binary64) :
    RunRequest where
  patterns := Discovery.patternsOf ws o.rootPath o.patterns
  config := o.adjust config
  checks := o.checks.map Check.name
  root := o.rootPath
  elapsed := elapsed

/-- The lines of the log that are shown. -/
def logText (o : CheckOptions) (log : List LogEntry) : String :=
  Reader.linesText (LogEntry.textsFrom o.level log)

/-- The result of a run as it is shown. -/
def resultText (o : CheckOptions) (r : RunReport) : String :=
  if o.json then Reader.linesText [r.json.write]
  else Reader.linesText [Listing.render r.diagnostics, Summary.render r]

end CheckOptions

/-- Shows the result of a run, after its report files have been written. -/
def finish (s : Setting) (o : CheckOptions) (r : RunReport) (log : List LogEntry) : Outcome :=
  let code := if r.passed then Exit.clean else Exit.hardcoded
  if o.outputDir = "" then
    { exit := .ok code, stdout := o.resultText r, stderr := o.logText log,
      workspace := s.workspace }
  else
    match ReportFiles.write s.workspace r s.now (.ofText o.outputDir) with
    | (ws, .error e) => { exit := .error (.access e), stderr := o.logText log, workspace := ws }
    | (ws, .ok paths) =>
      let log := log ++ [⟨.info, "Report files written: " ++ ", ".intercalate paths⟩]
      { exit := .ok code, stdout := o.resultText r, stderr := o.logText log, workspace := ws }

/-- Makes a check. -/
def check (s : Setting) (o : CheckOptions) : Outcome :=
  match o.configuration s.characters s.workspace with
  | .error e => { exit := .error (.access e), workspace := s.workspace }
  | .ok (.error e) =>
    if e.isReported then
      { exit := .ok Exit.unchecked
        stderr := Reader.program.complaint e.message
        workspace := s.workspace }
    else { exit := .error (.config e), workspace := s.workspace }
  | .ok (.ok config) =>
    let request := o.request s.workspace config s.elapsed
    match s.workspace.run .empty o.contextLines.toNat request with
    | (.error e, _, log) =>
      let log := log ++ [⟨.error, "File discovery failed: " ++ e.message⟩]
      { exit := .ok Exit.unchecked, stderr := o.logText log, workspace := s.workspace }
    | (.ok r, _, log) => finish s o r log

/-- Executes a command. -/
def Command.execute (s : Setting) : Command → Outcome
  | .check o => CommandLine.check s o
  | .suggestKey context value =>
    { exit := .ok Exit.clean
      stdout := Reader.linesText [suggestedKey context value]
      workspace := s.workspace }

/-- Executes a command line. -/
def execute (s : Setting) (args : List String) : Outcome :=
  match readArguments args with
  | .ok command => command.execute s
  | .error (reader, .help) =>
    { exit := .ok Exit.clean, stdout := reader.help, workspace := s.workspace }
  | .error (reader, .fault fault) =>
    { exit := .ok Exit.unchecked
      stderr := reader.complaint fault.message
      workspace := s.workspace }

end HardcodedText.CommandLine
