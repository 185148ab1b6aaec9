import HardcodedText.Markup.CharacterReference.Names

/-!
# Character references

In markup, `&` may introduce a character by its code point (`&#65;`, `&#x41;`) or by its name
(`&amp;`).  `CharacterReference.decode` puts the characters in the place of their references; what
is no reference stays as it is.  A semicolon closes a reference but may be missing: after a number
always, after a name if the name is an old one, and then the longest such name counts.
-/

namespace HardcodedText.CharacterReference

/-- The number that hexadecimal digits write. -/
def hexValue (ds : List Char) : Nat :=
  ds.foldl (fun n c ↦ n * 16 +
    (if c.isDigit then c.toNat - '0'.toNat else c.toLower.toNat - 'a'.toNat + 10)) 0

/-- The number that decimal digits write. -/
def decimalValue (ds : List Char) : Nat :=
  ds.foldl (fun n c ↦ n * 10 + (c.toNat - '0'.toNat)) 0

/-- Words apart by spaces and line feeds. -/
def splitList (s : String) : List (List Char) :=
  (s.toList.splitOnP fun c ↦ c == ' ' || c == '\n').filter (!·.isEmpty)

/-- An entry of the list of names. -/
def entry (cs : List Char) : List Char × List Char :=
  (cs.takeWhile (· != '='),
    (((cs.dropWhile (· != '=')).drop 1).splitOn '+').map fun ds ↦ .ofNat (hexValue ds))

/-- Every name with its text. -/
def names : List (List Char × List Char) :=
  (splitList nameList).map entry

/-- The names that need no semicolon, with their texts. -/
def bareNames : List (List Char × List Char) :=
  (splitList bareNameList).filterMap fun name ↦ (names.lookup name).map (name, ·)

/-- Code points that stand for other ones than their own. -/
def remapped : List (Nat × Nat) :=
  [(0x00, 0xFFFD), (0x0D, 0x0D), (0x80, 0x20AC), (0x81, 0x81), (0x82, 0x201A), (0x83, 0x192),
    (0x84, 0x201E), (0x85, 0x2026), (0x86, 0x2020), (0x87, 0x2021), (0x88, 0x2C6), (0x89, 0x2030),
    (0x8A, 0x160), (0x8B, 0x2039), (0x8C, 0x152), (0x8D, 0x8D), (0x8E, 0x17D), (0x8F, 0x8F),
    (0x90, 0x90), (0x91, 0x2018), (0x92, 0x2019), (0x93, 0x201C), (0x94, 0x201D), (0x95, 0x2022),
    (0x96, 0x2013), (0x97, 0x2014), (0x98, 0x2DC), (0x99, 0x2122), (0x9A, 0x161), (0x9B, 0x203A),
    (0x9C, 0x153), (0x9D, 0x9D), (0x9E, 0x17E), (0x9F, 0x178)]

/-- Code points that a reference makes nothing of: controls and those set apart in every plane. -/
def isDropped (n : Nat) : Bool :=
  (0x1 ≤ n && n ≤ 0x8) || n == 0xB || (0xE ≤ n && n ≤ 0x1F) || (0x7F ≤ n && n ≤ 0x9F) ||
    (0xFDD0 ≤ n && n ≤ 0xFDEF) || n % 0x10000 == 0xFFFE || n % 0x10000 == 0xFFFF

/-- The text of a reference by number. -/
def ofNumber (n : Nat) : List Char :=
  match remapped.lookup n with
  | some m => [.ofNat m]
  | none =>
    if (0xD800 ≤ n && n ≤ 0xDFFF) || 0x10FFFF < n then ['\uFFFD']
    else if isDropped n then []
    else [.ofNat n]

/-- The longest proper part of `name` from its start that is a name without semicolon, in at most
`length` characters: its text and what is left of `name`. -/
def longestBare? (name : List Char) : Nat → Option (List Char)
  | 0 => none
  | 1 => none
  | length + 2 =>
    match bareNames.lookup (name.take (length + 2)) with
    | some text => some (text ++ name.drop (length + 2))
    | none => longestBare? name (length + 1)

/-- The text of a reference by name, closed by a semicolon or not. -/
def ofName? (name : List Char) (closed : Bool) : Option (List Char) :=
  let whole := if closed then name ++ [';'] else name
  match (if closed then names else bareNames).lookup name with
  | some text => some text
  | none => longestBare? whole (whole.length - 1)

/-- A hexadecimal digit. -/
def isHexDigit (c : Char) : Bool :=
  c.isDigit || ('a' ≤ c && c ≤ 'f') || ('A' ≤ c && c ≤ 'F')

/-- A character that a name may hold. -/
def isNameChar (c : Char) : Bool :=
  !(['\t', '\n', '\x0C', ' ', '<', '&', '#', ';'].contains c)

/-- How many characters a closing semicolon takes. -/
def closing (cs : List Char) : Nat :=
  if cs.head? = some ';' then 1 else 0

/-- The reference that follows `&`: its text and the number of characters it covers. -/
def reference? (cs : List Char) : Option (List Char × Nat) :=
  match cs with
  | '#' :: rest =>
    let decimal := rest.takeWhile Char.isDigit
    if !decimal.isEmpty then
      some (ofNumber (decimalValue decimal),
        1 + decimal.length + closing (rest.drop decimal.length))
    else
      match rest with
      | x :: rest =>
        let hex := rest.takeWhile isHexDigit
        if (x == 'x' || x == 'X') && !hex.isEmpty then
          some (ofNumber (hexValue hex), 2 + hex.length + closing (rest.drop hex.length))
        else none
      | [] => none
  | _ =>
    let name := (cs.take 32).takeWhile isNameChar
    let close := closing (cs.drop name.length)
    if name.isEmpty then none
    else (ofName? name (close == 1)).map (·, name.length + close)

/-- A text with the characters in the place of their references. -/
def decodeChars : List Char → List Char
  | [] => []
  | c :: cs =>
    if c = '&' then
      match reference? cs with
      | some (text, covered) => text ++ decodeChars (cs.drop covered)
      | none => c :: decodeChars cs
    else c :: decodeChars cs
termination_by cs => cs.length
decreasing_by all_goals simp only [List.length_drop, List.length_cons]; omega

/-- A text with the characters in the place of their references. -/
def decode (s : String) : String :=
  .ofList (decodeChars s.toList)

/-- A text without `&` has no reference. -/
theorem decodeChars_of_not_mem {cs : List Char} (h : '&' ∉ cs) : decodeChars cs = cs := by
  induction cs with
  | nil => rw [decodeChars]
  | cons c cs ih =>
    have hc : c ≠ '&' := fun e ↦ h (by simp [e])
    rw [decodeChars, if_neg hc, ih fun m ↦ h (List.mem_cons_of_mem _ m)]

end HardcodedText.CharacterReference
