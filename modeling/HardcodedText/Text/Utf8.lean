/-!
# UTF-8

Texts as byte sequences.  `encode` writes a text; `next` reads one character or names the fault at
which reading stops, and says how many bytes it used up.  From it come the strict reader `decode`,
which reports the first fault and where it lies, and the lenient reader `decodeLossy`, which puts
one replacement character in the place of each fault.
-/

namespace HardcodedText.Utf8

/-- The bytes of one character. -/
def encodeChar (c : Char) : List UInt8 :=
  let n := c.toNat
  if n < 0x80 then
    [.ofNat n]
  else if n < 0x800 then
    [.ofNat (0xC0 + n / 0x40), .ofNat (0x80 + n % 0x40)]
  else if n < 0x10000 then
    [.ofNat (0xE0 + n / 0x1000), .ofNat (0x80 + n / 0x40 % 0x40), .ofNat (0x80 + n % 0x40)]
  else
    [.ofNat (0xF0 + n / 0x40000), .ofNat (0x80 + n / 0x1000 % 0x40),
      .ofNat (0x80 + n / 0x40 % 0x40), .ofNat (0x80 + n % 0x40)]

/-- The bytes of a text. -/
def encode (cs : List Char) : List UInt8 :=
  cs.flatMap encodeChar

@[simp] theorem encode_nil : encode [] = [] := rfl

@[simp] theorem encode_cons (c : Char) (cs : List Char) :
    encode (c :: cs) = encodeChar c ++ encode cs := rfl

@[simp] theorem encode_append (cs ds : List Char) : encode (cs ++ ds) = encode cs ++ encode ds := by
  simp [encode]

/-- Why a byte sequence stops being UTF-8. -/
inductive Fault
  /-- No character starts with this byte. -/
  | invalidStart
  /-- The character that was begun cannot go on with the byte that follows. -/
  | invalidContinuation
  /-- The text ends inside a character. -/
  | unexpectedEnd
deriving DecidableEq, Repr

/-- The wording of a fault in an error message. -/
def Fault.reason : Fault → String
  | .invalidStart => "invalid start byte"
  | .invalidContinuation => "invalid continuation byte"
  | .unexpectedEnd => "unexpected end of data"

/-- One reading step: a character or a fault, and how many bytes after the first it covers. -/
structure Step where
  /-- What was read. -/
  outcome : Except Fault Char
  /-- The number of bytes it covers besides the first. -/
  more : Nat

/-- What the first byte of a longer character asks of the bytes after it: their number, the range
of the first of them, and the part of the code point that the first byte carries. -/
structure Lead where
  /-- The number of continuation bytes. -/
  tail : Nat
  /-- The least second byte. -/
  low : Nat
  /-- The greatest second byte. -/
  high : Nat
  /-- The leading bits of the code point. -/
  bits : Nat

/-- The demands of a first byte, if any character of more than one byte starts with it.  The
narrowed ranges keep out overlong forms, surrogates and code points beyond the last one. -/
def lead? (n : Nat) : Option Lead :=
  if 0xC2 ≤ n ∧ n ≤ 0xDF then some ⟨1, 0x80, 0xBF, n - 0xC0⟩
  else if n = 0xE0 then some ⟨2, 0xA0, 0xBF, 0⟩
  else if n = 0xED then some ⟨2, 0x80, 0x9F, 0xD⟩
  else if 0xE1 ≤ n ∧ n ≤ 0xEF then some ⟨2, 0x80, 0xBF, n - 0xE0⟩
  else if n = 0xF0 then some ⟨3, 0x90, 0xBF, 0⟩
  else if 0xF1 ≤ n ∧ n ≤ 0xF3 then some ⟨3, 0x80, 0xBF, n - 0xF0⟩
  else if n = 0xF4 then some ⟨3, 0x80, 0x8F, 4⟩
  else none

/-- Reads the `tail` continuation bytes that are still owed; `used` counts those already read and
`bits` is the code point so far.  Only the first of them is held to `low` and `high`. -/
def continueWith (low high bits used : Nat) : Nat → List UInt8 → Step
  | 0, _ => ⟨.ok (.ofNat bits), used⟩
  | _ + 1, [] => ⟨.error .unexpectedEnd, used⟩
  | tail + 1, b :: rest =>
    if low ≤ b.toNat ∧ b.toNat ≤ high then
      continueWith 0x80 0xBF (bits * 0x40 + (b.toNat - 0x80)) (used + 1) tail rest
    else
      ⟨.error .invalidContinuation, used⟩

/-- Reads the character that starts with byte `b`. -/
def next (b : UInt8) (rest : List UInt8) : Step :=
  if b.toNat < 0x80 then
    ⟨.ok (.ofNat b.toNat), 0⟩
  else
    match lead? b.toNat with
    | none => ⟨.error .invalidStart, 0⟩
    | some l => continueWith l.low l.high l.bits 0 l.tail rest

/-- The character that stands for what could not be read. -/
def replacement : Char := '\uFFFD'

/-- Reads a text and puts `replacement` where a fault lies. -/
def decodeLossy : List UInt8 → List Char
  | [] => []
  | b :: rest =>
    match (next b rest).outcome with
    | .ok c => c :: decodeLossy (rest.drop (next b rest).more)
    | .error _ => replacement :: decodeLossy (rest.drop (next b rest).more)
termination_by bytes => bytes.length
decreasing_by all_goals simp only [List.length_drop, List.length_cons]; omega

/-- A fault with its place: the bytes it covers are `first`, `first + 1`, …, `last`. -/
structure DecodeError where
  /-- What is wrong. -/
  fault : Fault
  /-- The byte at which the fault starts. -/
  byte : UInt8
  /-- Its index. -/
  first : Nat
  /-- The index of the last byte that the fault covers. -/
  last : Nat
deriving DecidableEq, Repr

/-- Reads a text whose first byte has index `start`, up to the first fault. -/
def decodeFrom (start : Nat) : List UInt8 → Except DecodeError (List Char)
  | [] => .ok []
  | b :: rest =>
    match (next b rest).outcome with
    | .ok c =>
      (decodeFrom (start + 1 + (next b rest).more) (rest.drop (next b rest).more)).map (c :: ·)
    | .error fault => .error ⟨fault, b, start, start + (next b rest).more⟩
termination_by bytes => bytes.length
decreasing_by simp only [List.length_drop, List.length_cons]; omega

/-- Reads a text, or says where and why it is not one. -/
def decode (bytes : List UInt8) : Except DecodeError (List Char) :=
  decodeFrom 0 bytes

/-- The two lower-case hexadecimal digits of a byte. -/
def hexByte (b : UInt8) : String :=
  .ofList [Nat.digitChar (b.toNat / 16), Nat.digitChar (b.toNat % 16)]

/-- The wording of a decoding error: a single byte is quoted, several are given by their range. -/
def DecodeError.message (e : DecodeError) : String :=
  let place :=
    if e.first = e.last then s!"byte 0x{hexByte e.byte} in position {e.first}"
    else s!"bytes in position {e.first}-{e.last}"
  s!"'utf-8' codec can't decode {place}: {e.fault.reason}"

end HardcodedText.Utf8
