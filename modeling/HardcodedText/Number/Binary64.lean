/-!
# Binary floating point numbers

A number with 53 bits of precision is held exactly, as `± mantissa · 2 ^ exponent`.  Every ratio of
natural numbers has a nearest such number; of two equally near ones the even one is taken.
-/

namespace HardcodedText

/-- A double-precision number. -/
inductive Binary64
  /-- `± mantissa · 2 ^ exponent`. -/
  | finite (negative : Bool) (mantissa : Nat) (exponent : Int)
  /-- Beyond the largest finite number. -/
  | infinite (negative : Bool)
  /-- Not a number. -/
  | nan
deriving DecidableEq, Repr, Inhabited

namespace Binary64

/-- A power of two. -/
def twoTo (n : Nat) : Nat := Nat.pow 2 n

/-- A power of ten. -/
def tenTo (n : Nat) : Nat := Nat.pow 10 n

/-- The integer nearest to `num / den`; a half goes to the even neighbour. -/
def roundRatio (num den : Nat) : Nat :=
  let q := num / den
  let r := num % den
  if 2 * r < den then q
  else if den < 2 * r then q + 1
  else q + q % 2

/-- `num / den · 2 ^ (-exponent)` as a ratio. -/
def scaleDown (num den : Nat) (exponent : Int) : Nat × Nat :=
  if exponent < 0 then (num * twoTo exponent.natAbs, den) else (num, den * twoTo exponent.natAbs)

/-- The least exponent. -/
def minExponent : Int := -1074

/-- The greatest exponent. -/
def maxExponent : Int := 971

/-- The exponent at which the ratio has a mantissa of 53 bits, or the least one. -/
def exponentOf (num den : Nat) : Int :=
  let guess := max ((num.log2 : Int) - den.log2 - 52) minExponent
  let (n, d) := scaleDown num den guess
  if n < twoTo 52 * d ∧ minExponent < guess then guess - 1 else guess

/-- The number nearest to `± num / den`. -/
def ofRatio (negative : Bool) (num den : Nat) : Binary64 :=
  if num = 0 then .finite negative 0 minExponent
  else
    let exponent := exponentOf num den
    let (n, d) := scaleDown num den exponent
    let mantissa := roundRatio n d
    let (mantissa, exponent) :=
      if mantissa = twoTo 53 then (twoTo 52, exponent + 1) else (mantissa, exponent)
    if maxExponent < exponent then .infinite negative else .finite negative mantissa exponent

/-- The number nearest to `± digits · 10 ^ power`.  Powers out of every range are not computed. -/
def ofDecimal (negative : Bool) (digits : Nat) (power : Int) : Binary64 :=
  let magnitude := power + (Nat.toDigits 10 digits).length
  if digits = 0 ∨ magnitude < -400 then .finite negative 0 minExponent
  else if 400 < magnitude then .infinite negative
  else if power < 0 then ofRatio negative digits (tenTo power.natAbs)
  else ofRatio negative (digits * tenTo power.natAbs) 1

/-- Zero. -/
def zero : Binary64 := .finite false 0 minExponent

/-- The magnitude of a finite number as a ratio. -/
def ratio (mantissa : Nat) (exponent : Int) : Nat × Nat :=
  if exponent < 0 then (mantissa, twoTo exponent.natAbs) else (mantissa * twoTo exponent.natAbs, 1)

/-- The number rounded to so many decimal places. -/
def roundTo (places : Nat) : Binary64 → Binary64
  | .finite negative mantissa exponent =>
    let (num, den) := ratio mantissa exponent
    ofRatio negative (roundRatio (num * tenTo places) den) (tenTo places)
  | x => x

end Binary64

end HardcodedText
