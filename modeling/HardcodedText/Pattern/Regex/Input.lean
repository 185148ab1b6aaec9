import HardcodedText.Pattern.Regex.Fault

/-!
# The text of an expression

A text is cut into tokens, a backslash making one token with the character after it.  A backslash at
the end of the text makes none; it is noticed as soon as it comes next.
-/

namespace HardcodedText.Regex

/-- A character, or a backslash with the character after it. -/
structure Token where
  /-- The number of characters before the token. -/
  offset : Nat
  /-- Whether a backslash stands before the character. -/
  escaped : Bool
  /-- The character. -/
  char : Char
deriving DecidableEq, Repr

namespace Token

/-- The characters of a token. -/
def text (t : Token) : List Char :=
  if t.escaped then ['\\', t.char] else [t.char]

/-- The character of a token without a backslash. -/
def plain? (t : Token) : Option Char :=
  if t.escaped then none else some t.char

end Token

/-- Cuts a text into tokens, after `offset` characters. -/
def tokenize (offset : Nat) : List Char → List Token
  | '\\' :: c :: cs => ⟨offset, true, c⟩ :: tokenize (offset + 2) cs
  | ['\\'] | [] => []
  | c :: cs => ⟨offset, false, c⟩ :: tokenize (offset + 1) cs

/-- Whether a text ends in a backslash that makes no token. -/
def dangles : List Char → Bool
  | '\\' :: _ :: cs => dangles cs
  | ['\\'] => true
  | [] => false
  | _ :: cs => dangles cs

/-- The tokens that remain of a text. -/
structure Input where
  /-- The length of the text. -/
  size : Nat
  /-- Whether the text ends in a backslash that makes no token. -/
  dangling : Bool
  /-- What remains of it. -/
  rest : List Token

namespace Input

/-- The place that has been reached. -/
def place (input : Input) : Nat :=
  match input.rest with
  | [] => input.size
  | t :: _ => t.offset

/-- Stops here, or so many characters back. -/
def fail {α : Type} (input : Input) (fault : Fault) (back : Nat) : Except ReadError α :=
  .error ⟨fault, some (input.place - back)⟩

/-- Moves on to the tokens `rest`. -/
def move (input : Input) (rest : List Token) : Except ReadError Input :=
  if rest.isEmpty && input.dangling then .error ⟨.danglingEscape, some (input.size - 1)⟩
  else .ok { input with rest }

/-- A text from its beginning. -/
def ofText (cs : List Char) : Except ReadError Input :=
  move ⟨cs.length, dangles cs, []⟩ (tokenize 0 cs)

/-- The next token, if it is a character without a backslash. -/
def peek? (input : Input) : Option Char :=
  input.rest.head?.bind Token.plain?

/-- Moves past the next token. -/
def drop (input : Input) : Except ReadError Input :=
  input.move input.rest.tail

/-- Moves past the next token if it is this character. -/
def skip? (input : Input) (c : Char) : Except ReadError (Option Input) :=
  if input.peek? = some c then (input.drop).map some else .ok none

/-- Takes at most `n` tokens that are characters with the property `p`. -/
def takeWhile (p : Char → Bool) (n : Nat) (input : Input) : Except ReadError (List Char × Input) :=
  let taken := (input.rest.take n).takeWhile (·.plain?.any p)
  (input.move (input.rest.drop taken.length)).map (taken.map Token.char, ·)

/-- Takes what comes before a terminator, and moves past that; `what` is to be found there. -/
def takeUntil (terminator : Char) (what : String) (input : Input) :
    Except ReadError (List Char × Input) := do
  let taken := input.rest.takeWhile (·.plain? != some terminator)
  let cs := taken.flatMap Token.text
  match input.rest.drop taken.length with
  | [] =>
    let input ← input.move []
    if cs.isEmpty then input.fail (.missingName what) 0
    else input.fail (.unterminatedName terminator) cs.length
  | _ :: rest =>
    let input ← input.move rest
    if cs.isEmpty then input.fail (.missingName what) 1
    else return (cs, input)

end Input

end HardcodedText.Regex
