import HardcodedText.Pattern.Regex.Input

/-!
# Escapes and classes in expressions

What a backslash with a character after it stands for, and the members of a class between brackets.
Which characters have a name is not known here: whoever reads an expression says that.
-/

namespace HardcodedText.Regex

/-- The kinds of characters that have a letter. -/
def kindEscape? : Char → Option ClassItem
  | 'd' => some (.kind .digit false)
  | 'D' => some (.kind .digit true)
  | 's' => some (.kind .blank false)
  | 'S' => some (.kind .blank true)
  | 'w' => some (.kind .word false)
  | 'W' => some (.kind .word true)
  | _ => none

/-- The anchors that have a letter. -/
def anchorEscape? : Char → Option Anchor
  | 'A' => some .textStart
  | 'Z' => some .textEnd
  | 'b' => some .wordBoundary
  | 'B' => some .noWordBoundary
  | _ => none

/-- The control characters that have a letter. -/
def controlEscape? : Char → Option Nat
  | 'a' => some 0x07
  | 'f' => some 0x0C
  | 'n' => some 0x0A
  | 'r' => some 0x0D
  | 't' => some 0x09
  | 'v' => some 0x0B
  | _ => none

/-- A hexadecimal digit. -/
def isHexDigit (c : Char) : Bool :=
  c.isDigit || ('a' ≤ c && c ≤ 'f') || ('A' ≤ c && c ≤ 'F')

/-- An octal digit. -/
def isOctalDigit (c : Char) : Bool :=
  '0' ≤ c && c ≤ '7'

/-- The number that digits write in a base up to 16. -/
def numeral (base : Nat) (ds : List Char) : Nat :=
  ds.foldl (fun n c ↦ n * base +
    (if c.isDigit then c.toNat - '0'.toNat else (c.toLower.toNat - 'a'.toNat + 10))) 0

/-- The character of an escape with exactly `count` hexadecimal digits after its letter. -/
def hexEscape (letter : Char) (count : Nat) (input : Input) : Except ReadError (Nat × Input) := do
  let (ds, input) ← input.takeWhile isHexDigit count
  let escape := '\\' :: letter :: ds
  let code := numeral 16 ds
  if ds.length ≠ count then
    input.fail (.incompleteEscape (.ofList escape)) escape.length
  else if 0x80000000 ≤ code then throw ⟨.codeTooLarge, none⟩
  else if 0x110000 ≤ code then input.fail (.badEscape (.ofList escape)) escape.length
  else return (code, input)

/-- The character of an escape with octal digits, the first of which is given and at most `more`
others follow. -/
def octalEscape (d : Char) (more : Nat) (input : Input) : Except ReadError (Nat × Input) := do
  let (ds, input) ← input.takeWhile isOctalDigit more
  let escape := '\\' :: d :: ds
  let code := numeral 8 (d :: ds)
  if code ≤ 0o377 then return (code, input)
  else input.fail (.octalTooLarge (.ofList escape)) escape.length

variable (characters : CharacterNames)

/-- The character of an escape with a name in braces. -/
def namedEscape (input : Input) : Except ReadError (Nat × Input) := do
  match ← input.skip? '\x7b' with
  | none => input.fail .missingBrace 0
  | some input =>
    let (cs, input) ← input.takeUntil '\x7d' "character name"
    match characters (.ofList cs) with
    | some c => return (c.toNat, input)
    | none => input.fail (.unknownCharacter (.ofList cs)) (cs.length + 4)

/-- The character of an escape that is the same in and out of a class. -/
def characterEscape (c : Char) (input : Input) : Except ReadError (Nat × Input) :=
  match controlEscape? c with
  | some code => .ok (code, input)
  | none =>
    if c = 'x' then hexEscape c 2 input
    else if c = 'u' then hexEscape c 4 input
    else if c = 'U' then hexEscape c 8 input
    else if c = 'N' then namedEscape characters input
    else if c.isAlpha then input.fail (.badEscape (.ofList ['\\', c])) 2
    else .ok (c.toNat, input)

/-- The member of a class that an escape stands for. -/
def classEscape (c : Char) (input : Input) : Except ReadError (ClassItem × Input) :=
  match kindEscape? c with
  | some item => .ok (item, input)
  | none =>
    if c = 'b' then .ok (.char 0x08, input)
    else if isOctalDigit c then (octalEscape c 2 input).map fun (code, input) ↦ (.char code, input)
    else if c.isDigit then input.fail (.badEscape (.ofList ['\\', c])) 2
    else (characterEscape characters c input).map fun (code, input) ↦ (.char code, input)

/-- The member of a class that begins with a token, which has just been passed. -/
def readMember (token : Token) (input : Input) : Except ReadError (ClassItem × Input) :=
  if token.escaped then classEscape characters token.char input
  else .ok (.char token.char.toNat, input)

/-- What reading one more member of a class comes to. -/
inductive ClassStep
  /-- The class goes on after these items. -/
  | more (items : List ClassItem)
  /-- The class ends after these items. -/
  | done (items : List ClassItem)

/-- Reads what begins with the next token of a class, which was opened at place `start`: a member, a
range, or the closing bracket, which is a member if it comes first.  The `items` read so far and the
new ones are given last first. -/
def classStep (start : Nat) (items : List ClassItem) (token : Token) (input : Input) :
    Except ReadError (ClassStep × Input) := do
  if token.plain? = some ']' && !items.isEmpty then return (.done items, input)
  let (member, input) ← readMember characters token input
  match ← input.skip? '-' with
  | none => return (.more (member :: items), input)
  | some input =>
    match input.rest with
    | [] => throw ⟨.unterminatedClass, some start⟩
    | other :: _ =>
      let input ← input.drop
      if other.plain? = some ']' then return (.done (.char '-'.toNat :: member :: items), input)
      let (last, input) ← readMember characters other input
      let bad := input.fail (.badRange (.ofList token.text) (.ofList other.text))
        (token.text.length + 1 + other.text.length)
      match member, last with
      | .char lo, .char hi => if hi < lo then bad else return (.more (.range lo hi :: items), input)
      | _, _ => bad

/-- Reads the members of a class up to its closing bracket.  The first argument bounds the number of
tokens that are left. -/
def readClass (start : Nat) : Nat → List ClassItem → Input →
    Except ReadError (List ClassItem × Input)
  | 0, _, _ => .error ⟨.unterminatedClass, some start⟩
  | n + 1, items, input =>
    match input.rest with
    | [] => .error ⟨.unterminatedClass, some start⟩
    | token :: _ => do
      match ← classStep characters start items token (← input.drop) with
      | (.more items, input) => readClass start n items input
      | (.done items, input) => return (items.reverse, input)

/-- What a class comes to: if it has one member, and that is a character, it is that character. -/
def classOf (negated : Bool) (items : List ClassItem) : Regex :=
  match items.eraseDups with
  | [.char code] => .literal negated code
  | items => .oneOf ⟨negated, items⟩

end HardcodedText.Regex
