/-!
# Blanks

The characters that count as whitespace, and what is left of a text once they are trimmed or cut
at.  The class is wider than core's `Char.isWhitespace`: it holds the separators of every script.
Bytes of an encoded text have a class of their own, which knows the ASCII blanks only.
-/

namespace HardcodedText.Text

/-- Whitespace: the ASCII blanks and information separators, the next-line control, and every
space, line and paragraph separator. -/
def isBlank (c : Char) : Bool :=
  let n := c.toNat
  (0x09 ≤ n && n ≤ 0x0D) || (0x1C ≤ n && n ≤ 0x20) || n == 0x85 || n == 0xA0 || n == 0x1680 ||
    (0x2000 ≤ n && n ≤ 0x200A) || n == 0x2028 || n == 0x2029 || n == 0x202F || n == 0x205F ||
    n == 0x3000

/-- Whitespace in encoded text: tab, line feed, vertical tab, form feed, carriage return, space. -/
def isBlankByte (b : UInt8) : Bool :=
  (0x09 ≤ b.toNat && b.toNat ≤ 0x0D) || b.toNat == 0x20

/-- A text without its leading blanks. -/
def dropBlanks (cs : List Char) : List Char :=
  cs.dropWhile isBlank

/-- A text without its trailing blanks. -/
def dropTrailingBlanks (cs : List Char) : List Char :=
  (cs.reverse.dropWhile isBlank).reverse

/-- A text without the blanks at its two ends. -/
def strip (s : String) : String :=
  .ofList (dropTrailingBlanks (dropBlanks s.toList))

/-- A text without the blanks at its end. -/
def stripEnd (s : String) : String :=
  .ofList (dropTrailingBlanks s.toList)

/-- The maximal runs of characters that are not blank, in order. -/
def words (cs : List Char) : List (List Char) :=
  (cs.splitOnP isBlank).filter (!·.isEmpty)

@[simp] theorem toList_strip (s : String) :
    (strip s).toList = dropTrailingBlanks (dropBlanks s.toList) := by
  simp [strip]

@[simp] theorem toList_stripEnd (s : String) :
    (stripEnd s).toList = dropTrailingBlanks s.toList := by
  simp [stripEnd]

end HardcodedText.Text
