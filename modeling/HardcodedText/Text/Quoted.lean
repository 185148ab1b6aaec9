import HardcodedText.Text.Printable

/-!
# Quoted texts

A text between quotes, with everything that cannot be shown written as an escape.  Single quotes
are used, unless the text holds one and no double quote.
-/

namespace HardcodedText.Text

namespace Quoted

/-- The lower-case hexadecimal form of a number in at least `width` digits. -/
def hex (width n : Nat) : List Char :=
  (Nat.toDigits 16 n).leftpad width '0'

/-- The quotation mark that a text is put between. -/
def mark (cs : List Char) : Char :=
  if cs.contains '\'' && !cs.contains '"' then '"' else '\''

/-- One character between quotes `q`. -/
def escapeChar (q c : Char) : List Char :=
  if c = q ∨ c = '\\' then ['\\', c]
  else if c = '\n' then ['\\', 'n']
  else if c = '\r' then ['\\', 'r']
  else if c = '\t' then ['\\', 't']
  else if isPrintable c then [c]
  else if c.toNat < 0x100 then '\\' :: 'x' :: hex 2 c.toNat
  else if c.toNat < 0x10000 then '\\' :: 'u' :: hex 4 c.toNat
  else '\\' :: 'U' :: hex 8 c.toNat

end Quoted

/-- A text between quotes. -/
def quoted (s : String) : String :=
  let q := Quoted.mark s.toList
  .ofList (q :: s.toList.flatMap (Quoted.escapeChar q) ++ [q])

end HardcodedText.Text
