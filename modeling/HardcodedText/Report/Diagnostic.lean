import HardcodedText.Finding
import HardcodedText.Json.Basic
import HardcodedText.Report.CodeFrame
import HardcodedText.Report.LineCache

/-!
# Diagnostics

A diagnostic is a finding with the code frame that shows it.  Without the file, or without the line
in it, a note stands in the place of the frame.
-/

namespace HardcodedText

/-- A finding with its code frame. -/
structure Diagnostic where
  /-- The finding. -/
  finding : Finding
  /-- The code around it. -/
  frame : String
deriving DecidableEq, Repr, Inhabited

/-- The fields of a finding. -/
def Finding.fields (f : Finding) : List (String × Json) := [
  ("file_path", .str f.path), ("line", .int f.line), ("column", .int f.column),
  ("message", .str f.message), ("kind", .str f.kind.label), ("value", .str f.value),
  ("suggestion", .str f.suggestion), ("context_name", (f.context.map Json.str).getD .null)]

namespace Diagnostic

/-- The file of a diagnostic. -/
def path (d : Diagnostic) : String := d.finding.path

/-- The fields of a diagnostic. -/
def fields (d : Diagnostic) : List (String × Json) :=
  d.finding.fields ++ [("code_frame", .str d.frame)]

/-- Groups by file with one more diagnostic: at the end of the group of its file, or else in a new
group after all others. -/
def addTo (d : Diagnostic) : List (String × List Diagnostic) → List (String × List Diagnostic)
  | [] => [(d.path, [d])]
  | (p, ds) :: groups =>
    if p = d.path then (p, ds ++ [d]) :: groups else (p, ds) :: d.addTo groups

/-- Diagnostics by file, the files in the order in which they first occur. -/
def byFile (ds : List Diagnostic) : List (String × List Diagnostic) :=
  ds.foldl (fun groups d ↦ d.addTo groups) []

/-- The frame around a place in lines that may be missing. -/
def frameIn (lines : Option (List String)) (context : Nat) (path : String) (line column : Int) :
    String × List LogEntry :=
  match lines with
  | none => (s!"[code frame unavailable: cannot read {path}]", [])
  | some lines =>
    match CodeFrame.render lines line column context with
    | .ok frame => (frame, [])
    | .error e =>
      (s!"[code frame unavailable: {path}:{line}:{column}]",
        [⟨.debug, s!"No code frame for {path}: {e.message}"⟩])

/-- The frame around a place in a file. -/
def frameAt (cache : LineCache) (ws : Workspace) (context : Nat) (path : String)
    (line column : Int) : String × LineCache × List LogEntry :=
  let (lines, cache, log) := cache.get ws path
  let (frame, more) := frameIn lines context path line column
  (frame, cache, log ++ more)

/-- The diagnostic for a finding, shown in the file with the given path. -/
def ofFinding (cache : LineCache) (ws : Workspace) (context : Nat) (path : String) (f : Finding) :
    Diagnostic × LineCache × List LogEntry :=
  let (frame, cache, log) := frameAt cache ws context path f.line f.column
  (⟨f, frame⟩, cache, log)

/-- The diagnostics for findings, the log of each after that of those before. -/
def ofFindings (ws : Workspace) (context : Nat) :
    LineCache → List (String × Finding) → List Diagnostic × LineCache × List LogEntry
  | cache, [] => ([], cache, [])
  | cache, (path, f) :: rest =>
    let (d, cache, log) := ofFinding cache ws context path f
    let (ds, cache, more) := ofFindings ws context cache rest
    (d :: ds, cache, log ++ more)

end Diagnostic

end HardcodedText
