/-!
# UTF-16 halves

A sequence of code points may hold surrogates, the halves of which UTF-16 builds the characters
beyond the basic plane.  `joinHalves` makes a text of such a sequence: a high half directly before a
low half becomes the one character that the two encode, every other half becomes the replacement
character, and all else is kept.
-/

namespace HardcodedText.Utf16

/-- A first half. -/
def isHigh (n : Nat) : Bool := 0xD800 ≤ n && n ≤ 0xDBFF

/-- A second half. -/
def isLow (n : Nat) : Bool := 0xDC00 ≤ n && n ≤ 0xDFFF

/-- A half of either kind. -/
def isHalf (n : Nat) : Bool := isHigh n || isLow n

/-- The character that two halves encode. -/
def join (high low : Nat) : Char :=
  .ofNat (0x10000 + (high - 0xD800) * 0x400 + (low - 0xDC00))

/-- A code point on its own: a half that found no partner is replaced. -/
def single (n : Nat) : Char :=
  if isHalf n then '\uFFFD' else .ofNat n

/-- The text of a sequence of code points. -/
def joinHalves : List Nat → List Char
  | high :: low :: rest =>
    if isHigh high && isLow low then join high low :: joinHalves rest
    else single high :: joinHalves (low :: rest)
  | [n] => [single n]
  | [] => []

@[simp] theorem joinHalves_nil : joinHalves [] = [] := by simp [joinHalves]

@[simp] theorem joinHalves_singleton (n : Nat) : joinHalves [n] = [single n] := by simp [joinHalves]

end HardcodedText.Utf16
