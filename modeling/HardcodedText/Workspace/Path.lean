import HardcodedText.Text.LetterCase

/-!
# Paths

A path is a list of names that lead from directory to directory.  Empty names and the name `.` lead
nowhere and are left out; the name `..` leads up and is kept.
-/

namespace HardcodedText

/-- A path. -/
structure Path where
  /-- Where the path starts: nothing for the directory that is current, slashes for the root. -/
  anchor : String
  /-- The names that follow. -/
  names : List String
deriving DecidableEq, Repr, Inhabited

namespace Path

/-- The parts of a text between its slashes. -/
def components (text : String) : List String :=
  (text.toList.splitOn '/').map .ofList

/-- Whether a part of a path leads anywhere. -/
def isStep (name : String) : Bool :=
  name != "" && name != "."

/-- What a file or directory can be called. -/
structure IsName (name : String) : Prop where
  isStep : isStep name = true
  noSlash : '/' ∉ name.toList

instance (name : String) : Decidable (IsName name) :=
  decidable_of_iff (isStep name = true ∧ '/' ∉ name.toList)
    ⟨fun ⟨isStep, noSlash⟩ ↦ ⟨isStep, noSlash⟩, fun h ↦ ⟨h.isStep, h.noSlash⟩⟩

/-- The slashes at which a path starts.  Two of them differ from one, more do not. -/
def anchorOf (text : String) : String :=
  match text.toList.takeWhile (· == '/') with
  | [] => ""
  | ['/', '/'] => "//"
  | _ => "/"

/-- The path that a text writes. -/
def ofText (text : String) : Path :=
  ⟨anchorOf text, (components text).filter isStep⟩

/-- The text of a path. -/
def text (p : Path) : String :=
  if p.anchor = "" ∧ p.names = [] then "." else p.anchor ++ "/".intercalate p.names

/-- One path after another.  A path that starts at the root stands alone. -/
def append (p q : Path) : Path :=
  if q.anchor = "" then ⟨p.anchor, p.names ++ q.names⟩ else q

/-- The end of the last name from its last dot on, unless the name begins or ends with that dot. -/
def suffix (p : Path) : List Char :=
  let reversed := (p.names.getLastD "").toList.reverse
  let after := reversed.takeWhile (· != '.')
  match reversed.dropWhile (· != '.') with
  | _ :: _ :: _ => if after.isEmpty then [] else '.' :: after.reverse
  | _ => []

/-- Whether a text has a character that no path may have. -/
def hasNul (text : String) : Bool :=
  text.toList.contains '\x00'

/-- A name or path added to the text of a path, with a slash between them if it needs one. -/
def extend (base more : String) : String :=
  if more.toList.head? = some '/' then more
  else if base = "" ∨ base.toList.getLast? = some '/' then base ++ more
  else base ++ "/" ++ more

end Path

end HardcodedText
