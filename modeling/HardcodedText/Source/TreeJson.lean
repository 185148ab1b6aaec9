import HardcodedText.Json.Basic
import HardcodedText.Source.Tree

/-!
# Trees as JSON

A node is written as a list: its kind, the two ends of its span, letters for what is true of it, the
field that it fills or null, and the list of the nodes below it.  The letters are `n` for a named
node, `m` for a missing one, and `e` for one with a fault at or below it.
-/

namespace HardcodedText.Tree

/-- A natural number. -/
def natOfJson? : Json → Option Nat
  | .int (.ofNat n) => some n
  | _ => none

/-- The field that a node fills. -/
def fieldOfJson? : Json → Option (Option String)
  | .null => some none
  | .str field => some (some field)
  | _ => none

/-- What a node says of itself. -/
def headOfJson? (kind flags : String) (start stop field : Json) : Option Head := do
  return {
    kind
    span := ⟨← natOfJson? start, ← natOfJson? stop⟩
    named := flags.toList.contains 'n'
    missing := flags.toList.contains 'm'
    faulty := flags.toList.contains 'e'
    field := ← fieldOfJson? field }

mutual

/-- The tree that a value writes. -/
def ofJson? : Json → Option Tree
  | .arr [.str kind, start, stop, .str flags, field, .arr children] => do
    return .node (← headOfJson? kind flags start stop field) (← ofJsons? children)
  | _ => none

/-- The trees that values write. -/
def ofJsons? : List Json → Option (List Tree)
  | [] => some []
  | value :: values => do return (← ofJson? value) :: (← ofJsons? values)

end

end HardcodedText.Tree
