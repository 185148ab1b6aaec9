import HardcodedText.Text.Blank
import HardcodedText.Text.WordChar

/-!
# Whole numbers as text

A whole number is written with decimal digits of any script, of which there may not be too many.  A
sign may stand before them, a single underscore between two of them, and blanks around all of it.
-/

namespace HardcodedText.Integer

/-- Blanks that may stand around a number.  The information separators are not among them. -/
def isMargin (c : Char) : Bool :=
  Text.isBlank c && !(0x1C ≤ c.toNat && c.toNat ≤ 0x1F)

/-- The number that digits write when they follow those of `n`. -/
def readDigits? (n : Nat) : List Char → Option Nat
  | [] => some n
  | '_' :: c :: rest => (Text.digitValue? c).bind fun d ↦ readDigits? (n * 10 + d) rest
  | c :: rest => (Text.digitValue? c).bind fun d ↦ readDigits? (n * 10 + d) rest

/-- The number that a text without a sign writes. -/
def readNatural? : List Char → Option Nat
  | [] => none
  | c :: rest => (Text.digitValue? c).bind fun d ↦ readDigits? d rest

/-- Numbers with more digits than this are not read. -/
def digitLimit : Nat := 4300

/-- The number that a text writes. -/
def read? (s : String) : Option Int :=
  if digitLimit < s.toList.countP Text.isDigit then none
  else
    match ((s.toList.dropWhile isMargin).reverse.dropWhile isMargin).reverse with
    | '-' :: rest => (readNatural? rest).map fun n ↦ -(n : Int)
    | '+' :: rest => (readNatural? rest).map Int.ofNat
    | rest => (readNatural? rest).map Int.ofNat

end HardcodedText.Integer
