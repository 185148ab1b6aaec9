import HardcodedText.Text.LetterCase.Table
import HardcodedText.Text.Printable

/-!
# Letter case

Small and capital letters of every script, and the small form of a text.
-/

namespace HardcodedText.Text

/-- Whether a code point is a member of one of the progressions `(first, last, step)`. -/
def inProgression (table : List (Nat × Nat × Nat)) (n : Nat) : Bool :=
  table.any fun (first, last, step) ↦ first ≤ n && n ≤ last && (n - first) % step == 0

/-- A small letter. -/
def isLower (c : Char) : Bool :=
  if c.toNat < 0x80 then c.isLower else inProgression LetterCase.small c.toNat

/-- A capital letter. -/
def isUpper (c : Char) : Bool :=
  if c.toNat < 0x80 then c.isUpper else inProgression LetterCase.capital c.toNat

/-- A letter that has a case. -/
def isCased (c : Char) : Bool :=
  isLower c || isUpper c || inProgression LetterCase.titled c.toNat

/-- A character that case rules look past. -/
def isCaseIgnorable (c : Char) : Bool :=
  if c.toNat < 0x80 then c == '\'' || c == '.' || c == ':' || c == '^' || c == '\x60'
  else withinBounds LetterCase.ignorableBounds c.toNat

/-- The small form of a character, as long as it is one character. -/
def toLower (c : Char) : Char :=
  if c.toNat < 0x80 then c.toLower
  else
    match LetterCase.lowering.find? fun (first, last, step, _) ↦
        first ≤ c.toNat && c.toNat ≤ last && (c.toNat - first) % step == 0 with
    | some (_, _, _, distance) => .ofNat (c.toNat + distance).toNat
    | none => c

/-- The small form of a character in its place.  The dotted capital I becomes two characters; the
capital sigma has a form of its own at the end of a word, that is after a cased letter and not
before one. -/
def lowerAt (before : List Char) (c : Char) (after : List Char) : List Char :=
  if c = '\u0130' then
    ['i', '\u0307']
  else if c = '\u03A3' then
    let ends := (before.dropWhile isCaseIgnorable).head?.any isCased &&
      !(after.dropWhile isCaseIgnorable).head?.any isCased
    [if ends then '\u03C2' else '\u03C3']
  else
    [toLower c]

/-- The small form of what follows the characters `before`, nearest first. -/
def lowerAfter : List Char → List Char → List Char
  | _, [] => []
  | before, c :: cs => lowerAt before c cs ++ lowerAfter (c :: before) cs

/-- The small form of a text. -/
def lower (cs : List Char) : List Char :=
  lowerAfter [] cs

end HardcodedText.Text
