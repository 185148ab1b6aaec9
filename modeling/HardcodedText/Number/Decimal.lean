import HardcodedText.Number.Binary64
import HardcodedText.Text.Blank

/-!
# Decimal texts of numbers

A number is written with the fewest digits that read back as the same number: positionally while
the point stands no further than sixteen places right or four places left of the first digit, and
with a power of ten beyond that.  A fixed number of places is written from the exact value.
-/

namespace HardcodedText

/-- `digits · 10 ^ power`. -/
structure Decimal where
  /-- The significant digits, as a number. -/
  digits : Nat
  /-- The power of ten that the last digit counts. -/
  power : Int
deriving DecidableEq, Repr

namespace Binary64

/-- `num / den · 10 ^ (-power)` as a ratio. -/
def scaleTen (num den : Nat) (power : Int) : Nat × Nat :=
  if power < 0 then (num * tenTo power.natAbs, den) else (num, den * tenTo power.natAbs)

/-- The power of ten of the first significant digit of `num / den`. -/
def leadingPower (num den : Nat) : Int :=
  let guess : Int := ((Nat.toDigits 10 num).length : Int) - (Nat.toDigits 10 den).length
  let (n, d) := scaleTen num den guess
  if n < d then guess - 1 else guess

/-- A decimal with `count` digits that reads back as the number, the nearest one if there are two:
the candidates are the neighbours of the value among the decimals with so many digits. -/
def withDigits? (mantissa : Nat) (exponent : Int) (count : Nat) : Option Decimal :=
  let (num, den) := ratio mantissa exponent
  let power := leadingPower num den - (count - 1 : Nat)
  let (n, d) := scaleTen num den power
  let below := n / d
  let nearest := if 2 * (n % d) ≤ d then [below, below + 1] else [below + 1, below]
  (nearest.find? fun digits ↦
    ofDecimal false digits power == .finite false mantissa exponent).map (⟨·, power⟩)

/-- The shortest decimal that reads back as the number; seventeen digits always do. -/
def shortest (mantissa : Nat) (exponent : Int) : Decimal :=
  ((List.range 17).findSome? fun k ↦ withDigits? mantissa exponent (k + 1)).getD ⟨0, 0⟩

/-- Zeros in a row. -/
def zeros (n : Nat) : List Char := List.replicate n '0'

/-- The digits `ds` laid out so that the point stands after `point` of them. -/
def layout (ds : List Char) (point : Int) : List Char :=
  if -4 < point ∧ point ≤ 16 then
    if point ≤ 0 then
      '0' :: '.' :: zeros point.natAbs ++ ds
    else if ds.length ≤ point.toNat then
      ds ++ zeros (point.toNat - ds.length) ++ ['.', '0']
    else
      ds.take point.toNat ++ '.' :: ds.drop point.toNat
  else
    let power := point - 1
    let fraction := if ds.length ≤ 1 then [] else '.' :: ds.drop 1
    ds.take 1 ++ fraction ++ 'e' :: (if power < 0 then '-' else '+') ::
      (Nat.toDigits 10 power.natAbs).leftpad 2 '0'

/-- The text of a number with the fewest digits that read back. -/
def text : Binary64 → String
  | .finite negative mantissa exponent =>
    let body :=
      if mantissa = 0 then ['0', '.', '0']
      else
        let decimal := shortest mantissa exponent
        let ds := Nat.toDigits 10 decimal.digits
        let significant := (ds.reverse.dropWhile (· == '0')).reverse
        layout significant (decimal.power + ds.length)
    .ofList (if negative then '-' :: body else body)
  | .infinite negative => if negative then "-inf" else "inf"
  | .nan => "nan"

/-- The text of a number with a fixed number of decimal places, at least one. -/
def fixedText (places : Nat) : Binary64 → String
  | .finite negative mantissa exponent =>
    let (num, den) := ratio mantissa exponent
    let ds := (Nat.toDigits 10 (roundRatio (num * tenTo places) den)).leftpad (places + 1) '0'
    let body := ds.take (ds.length - places) ++ '.' :: ds.drop (ds.length - places)
    .ofList (if negative then '-' :: body else body)
  | .infinite negative => if negative then "-inf" else "inf"
  | .nan => "nan"

/-- The value of a run of ASCII digits after the digits `acc`. -/
def digitsValue (acc : Nat) (ds : List Char) : Nat :=
  ds.foldl (fun n c ↦ n * 10 + (c.toNat - '0'.toNat)) acc

/-- Reads an optional sign, digits with an optional point and an optional power of ten. -/
def read? (s : String) : Option Binary64 :=
  let cs := (Text.strip s).toList
  let (negative, cs) := match cs with
    | '-' :: rest => (true, rest)
    | '+' :: rest => (false, rest)
    | _ => (false, cs)
  let (whole, cs) := cs.span Char.isDigit
  let (fraction, cs) := match cs with
    | '.' :: rest => rest.span Char.isDigit
    | _ => ([], cs)
  let digits := digitsValue (digitsValue 0 whole) fraction
  let finish (power : Int) := ofDecimal negative digits (power - fraction.length)
  if whole.isEmpty && fraction.isEmpty then none
  else match cs with
    | [] => some (finish 0)
    | e :: rest =>
      let (down, rest) := match rest with
        | '-' :: rest => (true, rest)
        | '+' :: rest => (false, rest)
        | _ => (false, rest)
      if (e == 'e' || e == 'E') && !rest.isEmpty && rest.all Char.isDigit then
        let power : Int := digitsValue 0 rest
        some (finish (if down then -power else power))
      else none

end Binary64

end HardcodedText
