import HardcodedText.Check.Scan
import HardcodedText.Discovery
import HardcodedText.Report.RunReport

/-!
# Runs

A run discovers files, checks each of them, and shows what was found.  Files that cannot be read or
parsed are skipped.  Checking a file needs nothing but its text and the rules, so the order in which
files are checked does not matter.
-/

namespace HardcodedText

/-- What came out of checking a file. -/
inductive FileOutcome
  /-- The file could not be read. -/
  | unreadable (cause : AccessError)
  /-- The text of the file could not be parsed. -/
  | unparsable (cause : ParseError)
  /-- The text of the file was searched. -/
  | scanned (text : String) (findings : List Finding)
deriving Repr

namespace FileOutcome

/-- The findings in a file. -/
def findings : FileOutcome → List Finding
  | scanned _ findings => findings
  | _ => []

/-- Why a file was skipped. -/
def error? : FileOutcome → Option String
  | unreadable cause => some cause.message
  | unparsable cause => some cause.message
  | scanned .. => none

/-- Whether a file was skipped. -/
def isSkipped (outcome : FileOutcome) : Bool :=
  outcome.error?.isSome

/-- What is logged about a file. -/
def log (path : String) : FileOutcome → List LogEntry
  | unreadable cause => [⟨.warning, s!"Cannot read {path}: {cause.message}"⟩]
  | unparsable cause => [⟨.warning, s!"Parse error in {path}: {cause.message}"⟩]
  | scanned _ findings => [⟨.debug, s!"{path}: {findings.length} finding(s)"⟩]

/-- The cache with the text of a file in which something was found. -/
def prime (cache : LineCache) (path : String) : FileOutcome → LineCache
  | scanned text (_ :: _) => cache.prime path text
  | _ => cache

end FileOutcome

/-- Checks a file. -/
def Workspace.inspect (ws : Workspace) (config : Configuration) (checks : List Check)
    (path : String) : FileOutcome :=
  match ws.readText (.ofText path) with
  | .error cause => .unreadable cause
  | .ok (text, tree) =>
    match (Document.ofText path text tree).scan config checks with
    | .error cause => .unparsable cause
    | .ok findings => .scanned text findings

/-- Why a run did not take place. -/
inductive RunError
  /-- Checks were asked for that do not exist. -/
  | unknownChecks (names : List String)
  /-- No check was asked for. -/
  | noChecks
  /-- The files could not be discovered. -/
  | discovery (cause : DiscoveryError)
deriving DecidableEq, Repr

/-- The wording of a run error. -/
def RunError.message : RunError → String
  | unknownChecks names => "Unknown checks: " ++ ", ".intercalate names
  | noChecks => "At least one check must be enabled"
  | discovery cause => cause.message

namespace Run

/-- The checks of the given names, in the order of `Check.all`. -/
def enabledChecks (names : List String) : Except RunError (List Check) :=
  let unknown := names.filter fun name ↦ (Check.ofName? name).isNone
  let enabled := Check.all.filter fun c ↦ names.contains c.name
  if !unknown.isEmpty then .error (.unknownChecks (Configuration.sortNames unknown))
  else if enabled.isEmpty then .error .noChecks
  else .ok enabled

/-- Which of the checks passed: those without diagnostics. -/
def verdicts (checks : List Check) (ds : List Diagnostic) : List (Check × Bool) :=
  checks.map fun c ↦ (c, !ds.any (·.finding.check == c))

/-- The outcomes of files by path. -/
def outcomes (ws : Workspace) (config : Configuration) (checks : List Check)
    (files : List String) : List (String × FileOutcome) :=
  files.map fun path ↦ (path, ws.inspect config checks path)

/-- The cache with the texts of all files in which something was found. -/
def primeAll (cache : LineCache) (results : List (String × FileOutcome)) : LineCache :=
  results.foldl (fun cache (path, outcome) ↦ outcome.prime cache path) cache

/-- The findings of all files with the paths to show them under. -/
def located (results : List (String × FileOutcome)) : List (String × Finding) :=
  results.flatMap fun (path, outcome) ↦ outcome.findings.map fun f ↦ (path, f)

/-- The result of a run from the outcomes of its files, once the cache has been told of them. -/
def conclude (ws : Workspace) (cache : LineCache) (context : Nat) (checks : List Check)
    (elapsed : Binary64) (results : List (String × FileOutcome)) :
    RunReport × LineCache × List LogEntry :=
  let (ds, cache, log) := Diagnostic.ofFindings ws context cache (located results)
  let passed := verdicts checks ds
  ({ diagnostics := ds
     passed := passed.all (·.2)
     duration := elapsed
     checks := checks.map Check.name
     verdicts := passed.map fun (c, ok) ↦ (c.name, ok)
     filesScanned := results.length
     filesSkipped := (results.filter (·.2.isSkipped)).length },
    cache, log)

/-- The result of a run over the given files. -/
def process (ws : Workspace) (cache : LineCache) (context : Nat) (config : Configuration)
    (checks : List Check) (elapsed : Binary64) (files : List String) :
    RunReport × LineCache × List LogEntry :=
  let results := outcomes ws config checks files
  let (report, cache, log) :=
    conclude ws (primeAll cache results) context checks elapsed results
  (report, cache, results.flatMap (fun (path, outcome) ↦ outcome.log path) ++ log)

end Run

/-- What a run is asked to do. -/
structure RunRequest where
  /-- The patterns of files. -/
  patterns : List String
  /-- The rules. -/
  config : Configuration
  /-- The names of the checks. -/
  checks : List String
  /-- The directory that the patterns are relative to. -/
  root : Path
  /-- How long the run takes, in seconds. -/
  elapsed : Binary64

/-- A run, with what is known about files afterwards and what was logged. -/
def Workspace.run (ws : Workspace) (cache : LineCache) (context : Nat) (request : RunRequest) :
    Except RunError RunReport × LineCache × List LogEntry :=
  match Run.enabledChecks request.checks with
  | .error e => (.error e, cache, [])
  | .ok checks =>
    match ws.discover request.patterns request.root with
    | (.error e, log) => (.error (.discovery e), cache, log)
    | (.ok files, log) =>
      let (result, cache, more) :=
        Run.process ws cache context request.config checks request.elapsed files
      (.ok result, cache, log ++ more)

end HardcodedText
