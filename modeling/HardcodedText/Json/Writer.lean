import HardcodedText.Json.Basic

/-!
# Writing JSON

Values are written over several lines, two spaces deeper at each level; an empty list or object
takes no line of its own.  In strings only quotes, backslashes and control characters are escaped.
-/

namespace HardcodedText.Json

/-- One character inside a string. -/
def escapeChar (c : Char) : List Char :=
  match c with
  | '"' => ['\\', '"']
  | '\\' => ['\\', '\\']
  | '\n' => ['\\', 'n']
  | '\r' => ['\\', 'r']
  | '\t' => ['\\', 't']
  | '\x08' => ['\\', 'b']
  | '\x0C' => ['\\', 'f']
  | c => if c.toNat < 0x20 then '\\' :: 'u' :: Text.Quoted.hex 4 c.toNat else [c]

/-- A string between quotes. -/
def writeString (s : String) : String :=
  .ofList ('"' :: s.toList.flatMap escapeChar ++ ['"'])

/-- The start of a line at some depth. -/
def newLine (depth : Nat) : String :=
  .ofList ('\n' :: List.replicate (2 * depth) ' ')

/-- Items between brackets, each on a line of its own one level deeper. -/
def writeBlock (opening closing : String) (depth : Nat) (items : List String) : String :=
  if items.isEmpty then opening ++ closing
  else
    opening ++ newLine (depth + 1) ++ ("," ++ newLine (depth + 1)).intercalate items ++
      newLine depth ++ closing

/-- A number with a fraction; values beyond the finite ones have names of their own. -/
def writeFloat : Binary64 → String
  | .nan => "NaN"
  | .infinite negative => if negative then "-Infinity" else "Infinity"
  | x => x.text

mutual

/-- A value whose lines are at some depth. -/
def writeAt (depth : Nat) : Json → String
  | .null => "null"
  | .bool value => if value then "true" else "false"
  | .int n => toString n
  | .float x => writeFloat x
  | .str s => writeString s
  | .arr items => writeBlock "[" "]" depth (writeItems (depth + 1) items)
  | .obj fields => writeBlock "\x7b" "\x7d" depth (writeFields (depth + 1) fields)

/-- The items of a list. -/
def writeItems (depth : Nat) : List Json → List String
  | [] => []
  | item :: items => writeAt depth item :: writeItems depth items

/-- The fields of an object. -/
def writeFields (depth : Nat) : List (String × Json) → List String
  | [] => []
  | (key, value) :: fields =>
    (writeString key ++ ": " ++ writeAt depth value) :: writeFields depth fields

end

/-- The text of a value. -/
def write (value : Json) : String :=
  writeAt 0 value

end HardcodedText.Json
