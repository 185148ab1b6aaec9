import HardcodedText.Json.Basic
import HardcodedText.Text.Utf16

/-!
# Reading JSON

`Json.read` reads a whole document or says why it is not one and where.  A reader takes the
characters that remain and returns those that remain after it, so a fault is placed by the number
of characters that remain where it lies.  Reading a nested value takes one unit of fuel; a document
never nests deeper than it is long.
-/

namespace HardcodedText.Json

/-- Why a text is not a JSON document. -/
inductive Fault
  | expectingValue
  | expectingName
  | expectingColon
  | expectingComma
  | extraData
  | unterminatedString
  | invalidEscape
  | invalidUnicodeEscape
  | invalidControl
  | byteOrderMark
deriving DecidableEq, Repr

/-- The wording of a fault. -/
def Fault.reason : Fault → String
  | .expectingValue => "Expecting value"
  | .expectingName => "Expecting property name enclosed in double quotes"
  | .expectingColon => "Expecting ':' delimiter"
  | .expectingComma => "Expecting ',' delimiter"
  | .extraData => "Extra data"
  | .unterminatedString => "Unterminated string starting at"
  | .invalidEscape => "Invalid \\escape"
  | .invalidUnicodeEscape => "Invalid \\uXXXX escape"
  | .invalidControl => "Invalid control character at"
  | .byteOrderMark => "Unexpected UTF-8 BOM (decode using utf-8-sig)"

/-- A fault and the number of characters that remain where it lies. -/
structure Stop where
  /-- What is wrong. -/
  fault : Fault
  /-- How many characters remain there. -/
  remaining : Nat
deriving DecidableEq, Repr

/-- What was read, and the characters that remain after it. -/
abbrev Reading (α : Type) := α × List Char

/-- Stops at the characters `rest`. -/
def stop {α : Type} (fault : Fault) (rest : List Char) : Except Stop (Reading α) :=
  .error ⟨fault, rest.length⟩

/-- The characters after the blanks between tokens. -/
def skip (cs : List Char) : List Char :=
  cs.dropWhile fun c ↦ c == ' ' || c == '\t' || c == '\n' || c == '\r'

/-- The value of a hexadecimal digit. -/
def hexDigit? (c : Char) : Option Nat :=
  if '0' ≤ c ∧ c ≤ '9' then some (c.toNat - '0'.toNat)
  else if 'a' ≤ c ∧ c ≤ 'f' then some (c.toNat - 'a'.toNat + 10)
  else if 'A' ≤ c ∧ c ≤ 'F' then some (c.toNat - 'A'.toNat + 10)
  else none

/-- The code point of four hexadecimal digits and what follows them; something has to. -/
def hex4? : List Char → Option (Nat × List Char)
  | a :: b :: c :: d :: e :: rest => do
    let a ← hexDigit? a
    let b ← hexDigit? b
    let c ← hexDigit? c
    let d ← hexDigit? d
    return (((a * 16 + b) * 16 + c) * 16 + d, e :: rest)
  | _ => none

/-- The character that a one-letter escape stands for. -/
def escaped? : Char → Option Char
  | '"' => some '"'
  | '\\' => some '\\'
  | '/' => some '/'
  | 'b' => some '\x08'
  | 'f' => some '\x0C'
  | 'n' => some '\n'
  | 'r' => some '\r'
  | 't' => some '\t'
  | _ => none

/-- Reads a string after its opening quote, where `opening` characters remained, into code points;
each of them takes one unit of fuel. -/
def readString (opening : Nat) : Nat → List Char → Except Stop (Reading (List Nat))
  | 0, _ => .error ⟨.unterminatedString, opening⟩
  | _ + 1, [] => .error ⟨.unterminatedString, opening⟩
  | _ + 1, '"' :: rest => .ok ([], rest)
  | _ + 1, ['\\'] => .error ⟨.unterminatedString, opening⟩
  | fuel + 1, '\\' :: 'u' :: rest =>
    match hex4? rest with
    | none => stop .invalidUnicodeEscape ('u' :: rest)
    | some (n, rest) => (readString opening fuel rest).map fun (cs, rest) ↦ (n :: cs, rest)
  | fuel + 1, '\\' :: c :: rest =>
    match escaped? c with
    | none => stop .invalidEscape ('\\' :: c :: rest)
    | some c => (readString opening fuel rest).map fun (cs, rest) ↦ (c.toNat :: cs, rest)
  | fuel + 1, c :: rest =>
    if c.toNat < 0x20 then stop .invalidControl (c :: rest)
    else (readString opening fuel rest).map fun (cs, rest) ↦ (c.toNat :: cs, rest)

/-- Reads a string after its opening quote. -/
def readText (rest : List Char) : Except Stop (Reading String) :=
  (readString (rest.length + 1) (rest.length + 1) rest).map fun (cs, rest) ↦
    (.ofList (Utf16.joinHalves cs), rest)

/-- Reads the fraction of a number, if there is one. -/
def readFraction (cs : List Char) : List Char × List Char :=
  match cs with
  | '.' :: rest =>
    let (ds, after) := rest.span Char.isDigit
    if ds.isEmpty then ([], cs) else (ds, after)
  | _ => ([], cs)

/-- Reads the power of ten of a number, if there is one. -/
def readPower (cs : List Char) : Option Int × List Char :=
  match cs with
  | e :: rest =>
    let (down, digits) := match rest with
      | '-' :: rest => (true, rest)
      | '+' :: rest => (false, rest)
      | _ => (false, rest)
    let (ds, after) := digits.span Char.isDigit
    if (e == 'e' || e == 'E') && !ds.isEmpty then
      let power : Int := Binary64.digitsValue 0 ds
      (some (if down then -power else power), after)
    else (none, cs)
  | [] => (none, cs)

/-- Reads the digits of a whole number: one zero, or digits that do not start with zero. -/
def readDigits? : List Char → Option (List Char × List Char)
  | '0' :: rest => some (['0'], rest)
  | cs =>
    let (ds, rest) := cs.span Char.isDigit
    if ds.isEmpty then none else some (ds, rest)

/-- Reads a number.  It is whole if it has neither fraction nor power of ten. -/
def readNumber? (cs : List Char) : Option (Json × List Char) :=
  let (negative, unsigned) := match cs with
    | '-' :: rest => (true, rest)
    | _ => (false, cs)
  (readDigits? unsigned).map fun (whole, rest) ↦
    let (fraction, rest) := readFraction rest
    let (power, rest) := readPower rest
    let digits := Binary64.digitsValue (Binary64.digitsValue 0 whole) fraction
    if fraction.isEmpty && power.isNone then
      let n : Int := digits
      (.int (if negative then -n else n), rest)
    else
      (.float (Binary64.ofDecimal negative digits (power.getD 0 - fraction.length)), rest)

/-- Adds a field; a field of the same name is replaced in its place. -/
def put (key : String) (value : Json) : List (String × Json) → List (String × Json)
  | [] => [(key, value)]
  | (k, v) :: fields => if k = key then (k, value) :: fields else (k, v) :: put key value fields

mutual

/-- Reads a value that starts here. -/
def readValue : Nat → List Char → Except Stop (Reading Json)
  | 0, cs => stop .expectingValue cs
  | fuel + 1, cs =>
    match cs with
    | '"' :: rest => (readText rest).map fun (s, rest) ↦ (.str s, rest)
    | '[' :: rest =>
      match skip rest with
      | ']' :: rest => .ok (.arr [], rest)
      | rest => (readItems fuel rest).map fun (items, rest) ↦ (.arr items, rest)
    | '\x7b' :: rest =>
      match skip rest with
      | '\x7d' :: rest => .ok (.obj [], rest)
      | rest => (readFields fuel [] rest).map fun (fields, rest) ↦ (.obj fields, rest)
    | 'n' :: 'u' :: 'l' :: 'l' :: rest => .ok (.null, rest)
    | 't' :: 'r' :: 'u' :: 'e' :: rest => .ok (.bool true, rest)
    | 'f' :: 'a' :: 'l' :: 's' :: 'e' :: rest => .ok (.bool false, rest)
    | 'N' :: 'a' :: 'N' :: rest => .ok (.float .nan, rest)
    | 'I' :: 'n' :: 'f' :: 'i' :: 'n' :: 'i' :: 't' :: 'y' :: rest =>
      .ok (.float (.infinite false), rest)
    | '-' :: 'I' :: 'n' :: 'f' :: 'i' :: 'n' :: 'i' :: 't' :: 'y' :: rest =>
      .ok (.float (.infinite true), rest)
    | cs =>
      match readNumber? cs with
      | some reading => .ok reading
      | none => stop .expectingValue cs

/-- Reads the items of a list up to its closing bracket. -/
def readItems : Nat → List Char → Except Stop (Reading (List Json))
  | 0, cs => stop .expectingValue cs
  | fuel + 1, cs => do
    let (item, rest) ← readValue fuel cs
    match skip rest with
    | ']' :: rest => return ([item], rest)
    | ',' :: rest =>
      let (items, rest) ← readItems fuel (skip rest)
      return (item :: items, rest)
    | rest => stop .expectingComma rest

/-- Reads the fields of an object up to its closing brace, after the fields `before`. -/
def readFields :
    Nat → List (String × Json) → List Char → Except Stop (Reading (List (String × Json)))
  | 0, _, cs => stop .expectingName cs
  | fuel + 1, before, cs =>
    match cs with
    | '"' :: rest => do
      let (key, rest) ← readText rest
      match skip rest with
      | ':' :: rest =>
        let (value, rest) ← readValue fuel (skip rest)
        let fields := put key value before
        match skip rest with
        | '\x7d' :: rest => return (fields, rest)
        | ',' :: rest => readFields fuel fields (skip rest)
        | rest => stop .expectingComma rest
      | rest => stop .expectingColon rest
    | cs => stop .expectingName cs

end

/-- Where and why a text is not a JSON document. -/
structure ReadError where
  /-- What is wrong. -/
  fault : Fault
  /-- The number of characters before it. -/
  offset : Nat
  /-- Its line, from 1. -/
  line : Nat
  /-- Its place in the line, from 1. -/
  column : Nat
deriving DecidableEq, Repr

/-- The wording of an error. -/
def ReadError.message (e : ReadError) : String :=
  s!"{e.fault.reason}: line {e.line} column {e.column} (char {e.offset})"

/-- Places a fault after the first `offset` characters of a text. -/
def ReadError.at (fault : Fault) (cs : List Char) (offset : Nat) : ReadError :=
  let before := cs.take offset
  { fault
    offset
    line := before.count '\n' + 1
    column := (before.reverse.takeWhile (· != '\n')).length + 1 }

/-- Reads a document, in characters. -/
def readDocument (cs : List Char) : Except Stop Json :=
  if cs.head? = some '\uFEFF' then .error ⟨.byteOrderMark, cs.length⟩
  else do
    let (value, rest) ← readValue (2 * cs.length + 1) (skip cs)
    match skip rest with
    | [] => return value
    | rest => .error ⟨.extraData, rest.length⟩

/-- Reads a document, or says why there is none. -/
def read (text : String) : Except ReadError Json :=
  match readDocument text.toList with
  | .ok value => .ok value
  | .error s => .error (.at s.fault text.toList (text.toList.length - s.remaining))

end HardcodedText.Json
