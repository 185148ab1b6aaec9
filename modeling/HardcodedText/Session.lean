import HardcodedText.Report.Listing
import HardcodedText.Run

/-!
# Sessions

A session is a sequence of steps on one workspace, between which the line cache and the diagnostics
are kept.  A step that fails changes nothing, and the session goes on.
-/

namespace HardcodedText

/-- What is kept between steps. -/
structure Session where
  /-- The files. -/
  workspace : Workspace
  /-- What is known about the lines of files. -/
  cache : LineCache := .empty
  /-- The number of lines to show around a finding. -/
  context : Nat
  /-- The diagnostics so far. -/
  diagnostics : List Diagnostic := []

namespace Session

/-- A step of a session. -/
inductive Step
  /-- Puts a file or directory in its place. -/
  | put (path : Path) (entry : Entry)
  /-- Deletes a file. -/
  | delete (path : Path)
  /-- Tells the cache the text of a file. -/
  | prime (path text : String)
  /-- Asks for the lines of a file. -/
  | get (path : String)
  /-- Asks whether the cache knows a file. -/
  | contains (path : String)
  /-- Asks for the frame around a place. -/
  | frame (path : String) (line column : Int)
  /-- Makes a finding a diagnostic, shown in the file with the given path or else in its own. -/
  | format (finding : Finding) (path : String)
  /-- Asks for the listing of the diagnostics. -/
  | report
  /-- Drops the diagnostics. -/
  | clear
  /-- Checks a file. -/
  | check (path : String) (config : Configuration) (checks : List Check)
  /-- Makes a run. -/
  | run (request : RunRequest)

/-- What a step answers. -/
inductive Answer
  | done
  | lines (lines : Option (List String))
  | flag (value : Bool)
  | text (value : String)
  | diagnostic (d : Diagnostic)
  | outcome (path : String) (outcome : FileOutcome)
  | result (r : RunReport)

/-- Why a step fails. -/
inductive Failure
  | access (cause : AccessError)
  | run (cause : RunError)
deriving DecidableEq, Repr

/-- The wording of a failure. -/
def Failure.message : Failure → String
  | access cause => cause.message
  | run cause => cause.message

/-- Whether the lines of a file can neither be known nor asked for. -/
def isUnusable (s : Session) (path : String) : Bool :=
  Path.hasNul path && !s.cache.contains path

/-- A step: what it answers, the session after it, and what it logs. -/
def step (s : Session) : Step → Except Failure Answer × Session × List LogEntry
  | .put path entry =>
    (.ok .done, { s with workspace := s.workspace.insert path entry }, [])
  | .delete path =>
    match s.workspace.delete path with
    | .ok ws => (.ok .done, { s with workspace := ws }, [])
    | .error e => (.error (.access e), s, [])
  | .prime path text => (.ok .done, { s with cache := s.cache.prime path text }, [])
  | .get path =>
    if s.isUnusable path then (.error (.access .nul), s, [])
    else
      let (lines, cache, log) := s.cache.get s.workspace path
      (.ok (.lines lines), { s with cache }, log)
  | .contains path => (.ok (.flag (s.cache.contains path)), s, [])
  | .frame path line column =>
    if s.isUnusable path then (.error (.access .nul), s, [])
    else
      let (frame, cache, log) :=
        Diagnostic.frameAt s.cache s.workspace s.context path line column
      (.ok (.text frame), { s with cache }, log)
  | .format finding path =>
    let path := if path = "" then finding.path else path
    if s.isUnusable path then (.error (.access .nul), s, [])
    else
      let (d, cache, log) := Diagnostic.ofFinding s.cache s.workspace s.context path finding
      (.ok (.diagnostic d), { s with cache, diagnostics := s.diagnostics ++ [d] }, log)
  | .report => (.ok (.text (Listing.render s.diagnostics)), s, [])
  | .clear => (.ok .done, { s with diagnostics := [] }, [])
  | .check path config checks =>
    match s.workspace.inspect config checks path with
    | .unreadable .nul => (.error (.access .nul), s, [])
    | outcome =>
      (.ok (.outcome path outcome), { s with cache := outcome.prime s.cache path },
        outcome.log path)
  | .run request =>
    match s.workspace.run s.cache s.context request with
    | (.error e, cache, log) => (.error (.run e), { s with cache }, log)
    | (.ok r, cache, log) =>
      (.ok (.result r), { s with cache, diagnostics := s.diagnostics ++ r.diagnostics }, log)

end Session

end HardcodedText
