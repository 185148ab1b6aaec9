import HardcodedText.Number.Decimal
import HardcodedText.Text.Quoted

/-!
# JSON values

The values of rule files and reports.  Whole numbers and fractions are told apart, and the fields of
an object keep their order.  `Json.text` spells a value in a sentence: a string as it is, all else
as a literal.
-/

namespace HardcodedText

/-- A JSON value. -/
inductive Json
  | null
  | bool (value : Bool)
  | int (value : Int)
  | float (value : Binary64)
  | str (value : String)
  | arr (items : List Json)
  | obj (fields : List (String × Json))
deriving Repr, Inhabited

namespace Json

/-- The value of a field. -/
def field? (key : String) : Json → Option Json
  | .obj fields => fields.lookup key
  | _ => none

mutual

/-- A value as a literal. -/
def literal : Json → String
  | .null => "None"
  | .bool true => "True"
  | .bool false => "False"
  | .int n => toString n
  | .float x => x.text
  | .str s => Text.quoted s
  | .arr items => "[" ++ ", ".intercalate (literals items) ++ "]"
  | .obj fields => "\x7b" ++ ", ".intercalate (fieldLiterals fields) ++ "\x7d"

/-- The literals of a list's items. -/
def literals : List Json → List String
  | [] => []
  | item :: items => literal item :: literals items

/-- The fields of an object as literals. -/
def fieldLiterals : List (String × Json) → List String
  | [] => []
  | (key, value) :: fields => (Text.quoted key ++ ": " ++ literal value) :: fieldLiterals fields

end

/-- A value as it stands in a sentence. -/
def text : Json → String
  | .str s => s
  | value => value.literal

end Json

end HardcodedText
