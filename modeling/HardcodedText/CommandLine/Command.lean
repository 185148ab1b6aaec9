import HardcodedText.CommandLine.Grammar
import HardcodedText.CommandLine.Usage
import HardcodedText.Number.Integer

/-!
# Commands

What the program is asked to do on its command line: to check files, or to suggest a key for a text.
-/

namespace HardcodedText.CommandLine

/-- How a check is to be made. -/
structure CheckOptions where
  /-- The files, as patterns or directories. -/
  patterns : List String := []
  /-- The directory that the patterns are relative to. -/
  root : String := "."
  /-- The file with the rules, if any. -/
  config : String := ""
  /-- Whether only markup is checked. -/
  markupOnly : Bool := false
  /-- Whether only calls are checked. -/
  callsOnly : Bool := false
  /-- Whether properties are checked outside of notification calls, too. -/
  freeStanding : Bool := false
  /-- The number of lines to show around a finding. -/
  contextLines : Int := 2
  /-- How many files may be scanned at a time. -/
  jobs : Int := 1
  /-- Whether the result is written as JSON. -/
  json : Bool := false
  /-- The directory for report files, if any. -/
  outputDir : String := ""
  /-- Whether everything is logged. -/
  verbose : Bool := false
  /-- Whether only warnings are logged. -/
  quiet : Bool := false
deriving DecidableEq, Repr, Inhabited

/-- What the program is asked to do. -/
inductive Command
  /-- To check files. -/
  | check (options : CheckOptions)
  /-- To suggest a key for a text in a context. -/
  | suggestKey (context value : String)
deriving DecidableEq, Repr

/-- Why nothing is done. -/
inductive Halt
  /-- An explanation was asked for. -/
  | help
  /-- Something is wrong. -/
  | fault (fault : Fault)
deriving DecidableEq, Repr

/-- The options of the check command. -/
inductive Flag
  | help
  | root
  | config
  | markupOnly
  | callsOnly
  | freeStanding
  | contextLines
  | jobs
  | format
  | outputDir
  | verbose
  | quiet
deriving DecidableEq, Repr

namespace Flag

/-- The forms of the options. -/
def grammar : Grammar Flag where
  forms := [
    ("-h", help), ("--help", help), ("--root", root), ("--config", config),
    ("--markup-only", markupOnly), ("--calls-only", callsOnly),
    ("--check-free-standing-properties", freeStanding), ("--context-lines", contextLines),
    ("--jobs", jobs), ("--format", format), ("--output-dir", outputDir), ("-v", verbose),
    ("--verbose", verbose), ("-q", quiet), ("--quiet", quiet)]
  takesValue
    | root | config | contextLines | jobs | format | outputDir => true
    | _ => false

/-- The option that an option excludes. -/
def rival? : Flag → Option Flag
  | markupOnly => some callsOnly
  | callsOnly => some markupOnly
  | verbose => some quiet
  | quiet => some verbose
  | _ => none

/-- The whole number that is the value of an option. -/
def integer (flag : Flag) (value : String) : Except Halt Int :=
  match Integer.read? value with
  | some n => .ok n
  | none => .error (.fault (.notInteger (grammar.name flag) value))

/-- The names of the formats of a result. -/
def formats : List String := ["text", "json"]

/-- The options of a check with one more of them set. -/
def apply (flag : Flag) (value : String) (options : CheckOptions) : Except Halt CheckOptions :=
  match flag with
  | help => .error .help
  | root => .ok { options with root := value }
  | config => .ok { options with config := value }
  | markupOnly => .ok { options with markupOnly := true }
  | callsOnly => .ok { options with callsOnly := true }
  | freeStanding => .ok { options with freeStanding := true }
  | contextLines => do return { options with contextLines := ← flag.integer value }
  | jobs => do return { options with jobs := ← flag.integer value }
  | format =>
    if formats.contains value then .ok { options with json := value == "json" }
    else .error (.fault (.notChoice (grammar.name flag) value formats))
  | outputDir => .ok { options with outputDir := value }
  | verbose => .ok { options with verbose := true }
  | quiet => .ok { options with quiet := true }

end Flag

/-- How far the patterns of a check have been read.  They have to stand together. -/
inductive Stage
  /-- No pattern has been met. -/
  | before
  /-- The last argument was a pattern. -/
  | within
  /-- Something else came after the patterns. -/
  | after
deriving DecidableEq, Repr

/-- What has been read of a check. -/
structure CheckReading where
  /-- The options so far. -/
  options : CheckOptions := {}
  /-- The options that have been met. -/
  seen : List Flag := []
  /-- How far the patterns have been read. -/
  stage : Stage := .before
  /-- The arguments that the command does not know. -/
  extras : List String := []

namespace CheckReading

/-- What has been read once the patterns are interrupted. -/
def interrupt (r : CheckReading) : CheckReading :=
  { r with stage := if r.stage = .before then .before else .after }

/-- What has been read after one more event. -/
def step (r : CheckReading) : Event Flag → Except Halt CheckReading
  | .set flag value => do
    let options ← flag.apply (value.getD "") r.options
    match flag.rival?.filter r.seen.contains with
    | some rival => throw (.fault (.conflict (Flag.grammar.name flag) (Flag.grammar.name rival)))
    | none => return { r.interrupt with options, seen := flag :: r.seen }
  | .word text =>
    if r.stage = .after then .ok { r with extras := r.extras ++ [text] }
    else
      let options := { r.options with patterns := r.options.patterns ++ [text] }
      .ok { r with stage := .within, options }
  | .stop =>
    if r.stage = .after then .ok { r with extras := r.extras ++ ["--"] }
    else .ok { r with stage := .within }
  | .extra text => .ok { r.interrupt with extras := r.extras ++ [text] }
  | .fail fault => .error (.fault fault)

end CheckReading

/-- What the program asks of a command line: a command and the arguments it does not know. -/
abbrev Parsed := Command × List String

/-- Reads the command line of a check. -/
def readCheck (args : List String) : Except Halt Parsed := do
  let events ← (Flag.grammar.read args).mapError .fault
  let r ← events.foldlM CheckReading.step {}
  return (.check r.options, r.extras)

/-- The options of the program itself and of the command that suggests keys: only the one that asks
for an explanation. -/
def helpGrammar : Grammar Unit where
  forms := [("-h", ()), ("--help", ())]
  takesValue _ := false

/-- The two arguments of a suggestion and the arguments that the command does not know.  The mark at
the end of the options goes with an argument next to it; `attached` tells that one precedes it. -/
def keyArguments (taken : List String) (attached : Bool) :
    List (Event Unit) → Except Halt (List String × List String)
  | [] => .ok (taken, [])
  | .set _ _ :: _ => .error .help
  | .fail fault :: _ => .error (.fault fault)
  | .word text :: rest =>
    if taken.length < 2 then keyArguments (taken ++ [text]) true rest
    else (keyArguments taken false rest).map fun (taken, extras) ↦ (taken, text :: extras)
  | .stop :: rest =>
    if attached || (taken.length < 2 && !rest.isEmpty) then keyArguments taken false rest
    else (keyArguments taken false rest).map fun (taken, extras) ↦ (taken, "--" :: extras)
  | .extra text :: rest =>
    (keyArguments taken false rest).map fun (taken, extras) ↦ (taken, text :: extras)

/-- Reads the command line of a suggestion. -/
def readSuggestKey (args : List String) : Except Halt Parsed := do
  let events ← (helpGrammar.read args).mapError .fault
  match ← keyArguments [] false events with
  | ([context, value], extras) => return (.suggestKey context value, extras)
  | (taken, _) => throw (.fault (.missing (["context", "value"].drop taken.length)))

/-- The names of the commands. -/
def commandNames : List String := ["check", "suggest-key"]

/-- Reads the command line of the command with a name. -/
def readNamed (name : String) (args : List String) : Except (Reader × Halt) Parsed :=
  if name = "check" then (readCheck args).mapError (Reader.check, ·)
  else if name = "suggest-key" then (readSuggestKey args).mapError (Reader.suggestKey, ·)
  else .error (.program, .fault (.notChoice "command" name commandNames))

/-- Reads a command line up to the name of the command; the arguments before it that are options
nobody knows are kept as `extras`. -/
def readCommand (extras : List String) : List String → Except (Reader × Halt) Parsed
  | [] => .error (.program, .fault (.missing ["command"]))
  | arg :: rest =>
    if arg = "--" then
      if rest.isEmpty then .error (.program, .fault (.missing ["command"]))
      else readNamed arg rest
    else
      match helpGrammar.classify arg with
      | .error fault => .error (.program, .fault fault)
      | .ok (.unknown text) => readCommand (extras ++ [text]) rest
      | .ok (.option o attached) =>
        match helpGrammar.bundle o attached with
        | .error fault => .error (.program, .fault fault)
        | .ok _ => .error (.program, .help)
      | .ok _ => do
        let (command, more) ← readNamed arg rest
        return (command, extras ++ more)

/-- Reads a command line.  Arguments that nobody knows are a fault, but a lesser one than all
others. -/
def readArguments (args : List String) : Except (Reader × Halt) Command := do
  match ← readCommand [] args with
  | (command, []) => return command
  | (_, extras) => throw (.program, .fault (.unrecognized extras))

end HardcodedText.CommandLine
