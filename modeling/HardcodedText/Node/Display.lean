import HardcodedText.Node.Basic
import HardcodedText.Text.Blank

/-!
# The text shown for a node
-/

namespace HardcodedText.Node

/-- The fixed text of a template. -/
def fixedText (parts : List String) : String :=
  String.join parts

/-- The number of fixed characters of a template. -/
def fixedLength (parts : List String) : Nat :=
  parts.foldr (fun part n ↦ part.length + n) 0

/-- The text shown for a template: its fixed text, or a mark if expressions make up all of it. -/
def templateText (parts : List String) (expressions : Nat) : String :=
  if expressions = 0 then parts.headD ""
  else if fixedText parts = "" then "[template literal]"
  else fixedText parts

/-- The text shown for a node. -/
def display : Node → String
  | .string _ value => value
  | .text _ value => Text.strip value
  | .template _ parts expressions => templateText parts expressions
  | .number _ raw => raw
  | .container _ (some n) => n.display
  | .container _ none => ""
  | _ => "[complex expression]"

/-- The text shown where a node may be missing. -/
def displayOf (n : Option Node) : String :=
  (n.map display).getD ""

end HardcodedText.Node
