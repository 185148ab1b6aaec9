import HardcodedText.Source.Document
import HardcodedText.Text.Utf16

/-!
# String literals

The text that a quoted string of a script denotes: the quotes are taken off and escapes replaced.
An escape may stand for a surrogate, so escapes yield code points, of which `Utf16.joinHalves` makes
a text in the end.
-/

namespace HardcodedText.StringLiteral

/-- The value of a hexadecimal digit. -/
def hexDigit? (c : Char) : Option Nat :=
  if '0' ≤ c ∧ c ≤ '9' then some (c.toNat - '0'.toNat)
  else if 'a' ≤ c ∧ c ≤ 'f' then some (c.toNat - 'a'.toNat + 10)
  else if 'A' ≤ c ∧ c ≤ 'F' then some (c.toNat - 'A'.toNat + 10)
  else none

/-- The number that hexadecimal digits write. -/
def hexValue (ds : List Char) : Nat :=
  ds.foldl (fun n c ↦ n * 16 + (hexDigit? c).getD 0) 0

/-- The first `count` characters if all of them are hexadecimal digits. -/
def hexDigits? (count : Nat) (cs : List Char) : Option (List Char) :=
  let ds := cs.take count
  if ds.length = count ∧ ds.all (hexDigit? · |>.isSome) then some ds else none

/-- The hexadecimal digits up to a closing brace, if there are any. -/
def bracedDigits? (cs : List Char) : Option (List Char) :=
  let ds := cs.takeWhile (hexDigit? · |>.isSome)
  if !ds.isEmpty ∧ cs[ds.length]? = some '\x7d' then some ds else none

/-- The code points of characters. -/
def codePoints (cs : List Char) : List Nat :=
  cs.map Char.toNat

/-- What a one-character escape stands for: nothing for the end of a line, a control character for
some letters, and else the character itself. -/
def simple (c : Char) : List Nat :=
  match c with
  | '\n' | '\r' | '\u2028' | '\u2029' => []
  | 'n' => [0x0A]
  | 't' => [0x09]
  | 'r' => [0x0D]
  | 'b' => [0x08]
  | 'f' => [0x0C]
  | 'v' => [0x0B]
  | '0' => [0x00]
  | c => [c.toNat]

/-- What the escape after a backslash stands for, and how many characters it covers after its first
one, `c`.  A number beyond the last code point leaves the escape as it is written. -/
def escape (c : Char) (cs : List Char) : List Nat × Nat :=
  if c = 'u' then
    match (if cs.head? = some '\x7b' then bracedDigits? cs.tail else none) with
    | some ds =>
      let n := hexValue ds
      (if n ≤ 0x10FFFF then [n] else codePoints ('u' :: '\x7b' :: ds ++ ['\x7d']), ds.length + 2)
    | none =>
      match hexDigits? 4 cs with
      | some ds => ([hexValue ds], 4)
      | none => (simple c, 0)
  else if c = 'x' then
    match hexDigits? 2 cs with
    | some ds => ([hexValue ds], 2)
    | none => (simple c, 0)
  else if c = '\r' ∧ cs.head? = some '\n' then ([], 1)
  else (simple c, 0)

/-- The code points that the inside of a literal denotes.  A backslash at the very end is kept. -/
def unescape : List Char → List Nat
  | [] => []
  | '\\' :: c :: cs => (escape c cs).1 ++ unescape (cs.drop (escape c cs).2)
  | c :: cs => c.toNat :: unescape cs
termination_by cs => cs.length
decreasing_by all_goals simp only [List.length_drop, List.length_cons]; omega

/-- A literal without its quotes, if it is between two equal ones. -/
def unquote (cs : List Char) : List Char :=
  match cs with
  | q :: rest =>
    if (q = '\'' ∨ q = '"') ∧ !rest.isEmpty ∧ rest.getLast? = some q then rest.dropLast else cs
  | [] => []

/-- The text that a literal denotes, in characters. -/
def valueChars (cs : List Char) : List Char :=
  Utf16.joinHalves (unescape (unquote cs))

/-- The text that a literal denotes. -/
def value (raw : String) : String :=
  .ofList (valueChars raw.toList)

end StringLiteral

/-- The text that the string literal in a range denotes. -/
def Document.stringValue (doc : Document) (span : Span) : String :=
  .ofList (StringLiteral.valueChars (doc.chars span))

end HardcodedText
