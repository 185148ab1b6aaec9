import HardcodedText.Pattern.Wildcard
import HardcodedText.Workspace.Basic

/-!
# Patterns of paths

A pattern is read part by part: up to the first part with a wildcard it is a path as it stands, and
from there on each part picks among what the directories found so far hold.  A part `**` stands for
any number of directories, and at the end also for the files in them.  Names that start with a dot
are found only by parts that do so, too.
-/

namespace HardcodedText

/-- A pattern that has a character in its leading path that no path may have. -/
structure Glob.Unusable where
deriving DecidableEq, Repr

namespace Glob

/-- Whether a text has a wildcard in it. -/
def hasWildcard (text : String) : Bool :=
  text.toList.any fun c ↦ c == '*' || c == '?' || c == '['

/-- Whether a name is left out by parts that do not start with a dot. -/
def isHidden (name : String) : Bool :=
  name.toList.head? == some '.'

/-- The names of what lies directly in a place. -/
def namesIn (ws : Workspace) (place : List String) (directoriesOnly : Bool) : List String :=
  ws.entries.filterMap fun (p, entry) ↦
    match entry, directoriesOnly with
    | .file .., true => none
    | _, _ => if p ≠ [] ∧ p.dropLast = place then p.getLast? else none

/-- The paths to everything below a place, as far as no hidden name is on the way. -/
def pathsBelow (ws : Workspace) (place : List String) (directoriesOnly : Bool) : List String :=
  ws.entries.filterMap fun (p, entry) ↦
    match entry, directoriesOnly with
    | .file .., true => none
    | _, _ =>
      let below := p.drop place.length
      if place.isPrefixOf p ∧ below ≠ [] ∧ below.all (!isHidden ·) then
        some ("/".intercalate below)
      else none

/-- What a part of a pattern picks in the directory that a text leads to. -/
def pick (ws : Workspace) (here : String) (part : String) (directoriesOnly : Bool) :
    List String :=
  if part = "**" then
    match ws.directory? here with
    | some place => "" :: pathsBelow ws place directoriesOnly
    | none => []
  else if hasWildcard part then
    match ws.directory? here with
    | some place =>
      (namesIn ws place directoriesOnly).filter fun name ↦
        (isHidden part || !isHidden name) && Wildcard.accepts part name
    | none => []
  else if part = "" then
    if (ws.directory? here).isSome then [""] else []
  else if (ws.placeOfText (Path.extend here part)).toOption.isSome then [part] else []

/-- The directory that a text leads to from a root. -/
def under (root dir : String) : String :=
  if dir = "" then root else Path.extend root dir

/-- What the parts of a pattern find, from the texts found for the parts before them.  All parts
but the last look for directories. -/
def find (ws : Workspace) (root : String) : List String → List String → List String
  | found, [] => found
  | found, part :: rest =>
    find ws root
      (found.flatMap fun dir ↦
        (pick ws (under root dir) part !rest.isEmpty).map (Path.extend dir)) rest

/-- The parts of a pattern from the first one with a wildcard on.  Only the last may be empty. -/
def wildParts (parts : List String) : List String :=
  let rest := parts.dropWhile (!hasWildcard ·)
  rest.dropLast.filter (· != "") ++ rest.getLast?.toList

/-- The path before the first part with a wildcard. -/
def leadingPath (pattern : String) : String :=
  let leading := (Path.components pattern).takeWhile (!hasWildcard ·)
  let text := "/".intercalate leading
  let trimmed := text.toList.reverse.dropWhile (· == '/') |>.reverse
  if trimmed.isEmpty ∧ !leading.isEmpty then text ++ "/" else .ofList trimmed

/-- The paths below a root that a pattern stands for, in no particular order. -/
def expand (ws : Workspace) (root pattern : String) : Except Unusable (List String) :=
  if hasWildcard pattern then
    if Path.hasNul (leadingPath pattern) then .error ⟨⟩
    else .ok (find ws root [leadingPath pattern] (wildParts (Path.components pattern)))
  else if (ws.placeOfText (Path.extend root pattern)).toOption.isSome then .ok [pattern]
  else .ok []

end Glob

end HardcodedText
