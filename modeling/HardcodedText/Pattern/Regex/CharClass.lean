import HardcodedText.Pattern.Regex.Basic
import HardcodedText.Text.Blank
import HardcodedText.Text.LetterCase
import HardcodedText.Text.WordChar

/-!
# Classes of characters

Without regard to case a character is compared by its small form, and a class holds the small forms
of its members.  Small letters with a common capital count as one letter.  There are two exceptions,
which show in what is matched: a character without case is compared as it is, as are all characters
with a class in which nothing has case; and a class of several members holds a single one beyond the
basic plane as it is written, so that a capital there matches nothing.
-/

namespace HardcodedText

namespace Caseless

/-- A progression of code points with the distance from each to another one. -/
abbrev Progression := Nat × Nat × Nat × Int

/-- Where the members of a progression from `lo` to `hi` begin. -/
def firstFrom (lo : Nat) : Progression → Nat
  | (first, _, step, _) =>
    if lo ≤ first then first else first + (lo - first + step - 1) / step * step

/-- Whether a progression has a member from `lo` to `hi`. -/
def meets (lo hi : Nat) (p : Progression) : Bool :=
  firstFrom lo p ≤ hi && firstFrom lo p ≤ p.2.1

/-- The code point to which one is led by the progression of a table that has it. -/
def lead (table : List Progression) (n : Nat) : Nat :=
  match table.find? (meets n n) with
  | some (_, _, _, distance) => (n + distance).toNat
  | none => n

/-- The code points that the progressions of a table lead to one. -/
def origins (table : List Progression) (n : Nat) : List Nat :=
  table.filterMap fun p ↦
    let origin := ((n : Int) - p.2.2.2).toNat
    if p.2.2.2 ≤ (n : Int) && meets origin origin p then some origin else none

/-- The small letters of ASCII, with the distance to the capital ones. -/
def asciiRaising : Progression := (0x61, 0x7A, 1, -0x20)

/-- The capital letters of ASCII, with the distance to the small ones. -/
def asciiLowering : Progression := (0x41, 0x5A, 1, 0x20)

/-- All capitals with their small letters.  Of the small form of the dotted capital I, which has two
characters, the first one counts. -/
def lowering (ascii : Bool) : List Progression :=
  if ascii then [asciiLowering]
  else asciiLowering :: (0x130, 0x130, 1, -0xC7) :: Text.LetterCase.lowering

/-- All small letters with their capitals. -/
def raising (ascii : Bool) : List Progression :=
  if ascii then [asciiRaising] else asciiRaising :: Text.LetterCase.raising

/-- Whether a character from `lo` to `hi` has case. -/
def anyCased (ascii : Bool) (lo hi : Nat) : Bool :=
  (lowering ascii).any (meets lo hi) || (raising ascii).any (meets lo hi)

/-- Small letters that count as one letter although neither is the small form of the other. -/
def families : List (List Nat) :=
  [[0x69, 0x131], [0x73, 0x17F], [0xB5, 0x3BC], [0x345, 0x3B9, 0x1FBE], [0x390, 0x1FD3],
    [0x3B0, 0x1FE3], [0x3B2, 0x3D0], [0x3B5, 0x3F5], [0x3B8, 0x3D1], [0x3BA, 0x3F0],
    [0x3C0, 0x3D6], [0x3C1, 0x3F1], [0x3C2, 0x3C3], [0x3C6, 0x3D5], [0x432, 0x1C80],
    [0x434, 0x1C81], [0x43E, 0x1C82], [0x441, 0x1C83], [0x442, 0x1C84, 0x1C85], [0x44A, 0x1C86],
    [0x463, 0x1C87], [0x1C88, 0xA64B], [0x1E61, 0x1E9B], [0xFB05, 0xFB06]]

/-- The small letters that count as one with a small letter. -/
def family (ascii : Bool) (n : Nat) : List Nat :=
  if ascii then [n] else (families.find? (·.contains n)).getD [n]

/-- The characters with a small form that counts as one with a small letter. -/
def variants (ascii : Bool) (n : Nat) : List Nat :=
  (family ascii n).flatMap fun m ↦ m :: origins (lowering ascii) m

end Caseless

/-- Whether a character is of a kind. -/
def CharKind.holds (ascii : Bool) (n : Nat) : CharKind → Bool
  | .digit => Text.isDigit (.ofNat n) && (n < 0x80 || !ascii)
  | .blank => if ascii then n == 0x20 || (0x09 ≤ n && n ≤ 0x0D) else Text.isBlank (.ofNat n)
  | .word => Text.isWordChar (.ofNat n) && (n < 0x80 || !ascii)

/-- The end of the basic plane. -/
def planeEnd : Nat := 0x10000

namespace ClassItem

open Caseless

/-- Whether an item holds a character. -/
def holds (ascii : Bool) (n : Nat) : ClassItem → Bool
  | char code => code == n
  | range lo hi => lo ≤ n && n ≤ hi
  | kind k negated => k.holds ascii n != negated

/-- Whether an item has a member with case.  Members beyond the basic plane count as such. -/
def anyCased (ascii : Bool) : ClassItem → Bool
  | char code => planeEnd ≤ code || Caseless.anyCased ascii code code
  | range lo hi => planeEnd ≤ hi || Caseless.anyCased ascii lo hi
  | kind .. => false

/-- Whether an item holds a small letter without regard to case. -/
def holdsSmall (ascii : Bool) (n : Nat) : ClassItem → Bool
  | char code =>
    if planeEnd ≤ code then code == n
    else (family ascii n).contains (lead (lowering ascii) code)
  | range lo hi =>
    (variants ascii n).any (fun m ↦ lo ≤ m && m ≤ hi) ||
      (planeEnd ≤ hi && lo ≤ lead (raising false) n && lead (raising false) n ≤ hi)
  | kind k negated => k.holds ascii n != negated

end ClassItem

open Caseless

/-- Whether a class holds a character. -/
def CharClass.holds (ignoreCase ascii : Bool) (s : CharClass) (c : Char) : Bool :=
  if ignoreCase && s.items.any (·.anyCased ascii) then
    s.items.any (·.holdsSmall ascii (lead (lowering ascii) c.toNat)) != s.negated
  else s.items.any (·.holds ascii c.toNat) != s.negated

/-- Whether a character is the one with a given code point. -/
def Caseless.agrees (ignoreCase ascii : Bool) (code : Nat) (c : Char) : Bool :=
  if ignoreCase && Caseless.anyCased ascii code code then
    (family ascii (lead (lowering ascii) code)).contains (lead (lowering ascii) c.toNat)
  else code == c.toNat

end HardcodedText
