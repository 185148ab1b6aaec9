import HardcodedText.Log
import HardcodedText.Workspace.Basic

/-!
# The line cache

The lines of source files, each read at most once.  What is known about a file stays, even if the
file changes or could not be read.
-/

namespace HardcodedText

/-- The lines of a text.  A carriage return at the end of a line does not belong to it. -/
def Text.linesOf (text : String) : List String :=
  (text.toList.splitOn '\n').map fun line ↦
    .ofList (if line.getLast? = some '\r' then line.dropLast else line)

/-- The lines of files by path; `none` stands for a file that could not be read. -/
structure LineCache where
  /-- What is known. -/
  entries : List (String × Option (List String))
deriving DecidableEq, Repr

namespace LineCache

/-- A cache that knows nothing. -/
def empty : LineCache := ⟨[]⟩

instance : Inhabited LineCache := ⟨empty⟩

/-- What is known about a file. -/
def find? (cache : LineCache) (path : String) : Option (Option (List String)) :=
  cache.entries.lookup path

/-- Whether anything is known about a file. -/
def contains (cache : LineCache) (path : String) : Bool :=
  (cache.find? path).isSome

/-- The cache with something learnt about a file, unless it is known already. -/
def learn (cache : LineCache) (path : String) (lines : Option (List String)) : LineCache :=
  if cache.contains path then cache else ⟨cache.entries ++ [(path, lines)]⟩

/-- The cache with the text of a file. -/
def prime (cache : LineCache) (path text : String) : LineCache :=
  cache.learn path (some (Text.linesOf text))

/-- The lines of a file as it is on disk. -/
def load (ws : Workspace) (path : String) : Option (List String) × List LogEntry :=
  match ws.readText (.ofText path) with
  | .ok (text, _) => (some (Text.linesOf text), [])
  | .error e => (none, [⟨.warning, s!"Cannot read {path} for code frame: {e.message}"⟩])

/-- The lines of a file, which is read if nothing is known about it yet. -/
def get (cache : LineCache) (ws : Workspace) (path : String) :
    Option (List String) × LineCache × List LogEntry :=
  match cache.find? path with
  | some lines => (lines, cache, [])
  | none =>
    let (lines, log) := load ws path
    (lines, cache.learn path lines, log)

end LineCache

end HardcodedText
