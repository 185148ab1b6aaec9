import HardcodedText.Number.Integer
import HardcodedText.Pattern.Regex.Escape
import HardcodedText.Text.Identifier

/-!
# Reading regular expressions

An expression is read from left to right, with a stack of the groups that are open.  One step reads
what begins with the next token; that the number of tokens is enough of them is shown in the theory.

A group without flags that keeps nothing leaves no trace once the sequence around it has been read:
its pieces take its place.  Alternatives that begin with the same pieces share them, and
alternatives of one character each make a class.  Both can show where letters are compared without
regard to case, as a class compares them in another way than single characters.

What depends on the machine is left out: how deep groups can be nested, and how many of them there
can be.  So are the warnings about what may be read in another way some day.
-/

namespace HardcodedText.Regex

/-- A piece of a sequence that is being read. -/
inductive Piece
  | one (r : Regex)
  /-- A group without flags that keeps nothing. -/
  | row (rs : List Regex)

/-- What a piece leaves in the sequence. -/
def Piece.parts : Piece → List Regex
  | one r => [r]
  | row rs => rs

/-- What kind of group is open. -/
inductive Bracket
  | plain
  | capture (group : Nat)
  | flagged (on off : List RegexFlag)
  | atomic
  | ahead (negated : Bool)
  /-- Looks behind; `groups` is the number of the next group where it was opened. -/
  | behind (negated : Bool) (groups : Nat)
  | conditional (group : Nat)

/-- An open group, and what has been read of the group around it. -/
structure Frame where
  /-- The place of the opening parenthesis. -/
  start : Nat
  /-- The kind of the group. -/
  bracket : Bracket
  /-- The alternatives of the group around it that have been read, last first. -/
  alternatives : List (List Regex)
  /-- The pieces of the sequence around it that have been read, last first. -/
  pieces : List Piece
  /-- Whether blanks mean nothing around it. -/
  verbose : Bool

/-- What has been read of an expression. -/
structure Reading where
  /-- The flags for the whole expression. -/
  flags : List RegexFlag := []
  /-- The width of each group by its number, if it has been closed.  The first one is the whole
  expression, which is never closed. -/
  groups : List (Option Width) := [none]
  /-- The names of groups with their numbers. -/
  names : List (String × Nat) := []
  /-- The numbers on which conditions depend, with their places. -/
  conditions : List (Nat × Nat) := []
  /-- The groups that are open, innermost first. -/
  stack : List Frame := []
  /-- The alternatives of the innermost group that have been read, last first. -/
  alternatives : List (List Regex) := []
  /-- The pieces of the innermost sequence that have been read, last first. -/
  pieces : List Piece := []
  /-- Whether blanks mean nothing here. -/
  verbose : Bool := false

/-! ## Alternatives -/

/-- The expressions without parts with which alternatives all begin, the first of them given by
itself. -/
def sharedParts : List Regex → List (List Regex) → List Regex
  | [], _ => []
  | r :: rs, others =>
    if r.isLeaf && others.all (·.head? = some r) then r :: sharedParts rs (others.map List.tail)
    else []

/-- What a class would hold instead of an alternative of one character or one class. -/
def items? : List Regex → Option (List ClassItem)
  | [.literal false code] => some [.char code]
  | [.oneOf ⟨false, items⟩] => some items
  | _ => none

/-- What a class would hold instead of alternatives of one character or one class each. -/
def mergedItems? (alternatives : List (List Regex)) : Option (List ClassItem) :=
  (alternatives.mapM items?).map fun items ↦ items.flatten.eraseDups

/-- What alternatives come to, of which there is at least one. -/
def joined : List (List Regex) → List Regex
  | [] => []
  | [only] => only
  | first :: others =>
    let shared := sharedParts first others
    let rest := (first :: others).map (·.drop shared.length)
    match mergedItems? rest with
    | some items => shared ++ [.oneOf ⟨false, items⟩]
    | none => shared ++ [branch (rest.map row)]

namespace Reading

/-- Adds a piece. -/
def push (s : Reading) (piece : Piece) : Reading :=
  { s with pieces := piece :: s.pieces }

/-- The sequence that has been read. -/
def sequence (s : Reading) : List Regex :=
  s.pieces.reverse.flatMap Piece.parts

/-- What has been read of the innermost group. -/
def body (s : Reading) : List Regex :=
  joined (s.sequence :: s.alternatives).reverse

/-- The width of a closed group. -/
def groupWidth (s : Reading) (group : Nat) : Width :=
  (s.groups[group]?.join).getD ⟨0, 0⟩

/-- The number of the next group where the outermost group that looks behind was opened. -/
def outerBehind? (s : Reading) : Option Nat :=
  (s.stack.filterMap fun frame ↦
    match frame.bracket with
    | .behind _ groups => some groups
    | _ => none).getLast?

/-! ## References -/

/-- Whether a group has been closed. -/
def isClosed (s : Reading) (group : Nat) : Bool :=
  s.groups[group]?.join.isSome

/-- Within a group that looks behind, only groups before it may be referred to. -/
def checkBehind (s : Reading) (group : Nat) (input : Input) : Except ReadError Unit :=
  match s.outerBehind? with
  | none => .ok ()
  | some groups =>
    if !s.isClosed group then input.fail .openReference 0
    else if groups ≤ group then input.fail .referenceBehind 0
    else .ok ()

/-- A reference to a group; `back` characters were read for it. -/
def refer (s : Reading) (group back : Nat) (input : Input) : Except ReadError Reading := do
  if !s.isClosed group then input.fail .openReference back
  s.checkBehind group input
  return s.push (.one (.reference group))

/-- A backslash with digits, the first of which is given and not zero: three octal digits make a
character, and all else refers to a group. -/
def referenceEscape (s : Reading) (d : Char) (input : Input) :
    Except ReadError (Reading × Input) := do
  let octal := (input.rest.take 2).filter (·.plain?.any isOctalDigit)
  if isOctalDigit d && octal.length = 2 then
    let (code, input) ← octalEscape d 2 input
    return (s.push (.one (.literal false code)), input)
  else
    let (ds, input) ← input.takeWhile Char.isDigit 1
    let group := numeral 10 (d :: ds)
    if group < s.groups.length then
      return (← s.refer group (ds.length + 2) input, input)
    else input.fail (.invalidReference group) (ds.length + 1)

/-! ## Repetitions -/

/-- Repetitions are counted below this number, which stands for having no bound. -/
def countLimit : Nat := 0xFFFFFFFF

/-- The bound of a repetition that digits write, if there are any. -/
def readBound? (ds : List Char) : Except ReadError (Option Nat) :=
  if ds.isEmpty then .ok none
  else if Integer.digitLimit < ds.length then .error ⟨.countTooLong ds.length, none⟩
  else if countLimit ≤ numeral 10 ds then .error ⟨.countTooLarge, none⟩
  else .ok (some (numeral 10 ds))

/-- The least and the greatest number of repetitions that digits write; `here` is the place of the
digits. -/
def readBounds (here : Nat) (lo hi : List Char) : Except ReadError (Nat × Option Nat) := do
  let least := (← readBound? lo).getD 0
  let most ← readBound? hi
  if most.any (· < least) then throw ⟨.leastAboveMost, some here⟩
  return (least, most)

/-- Reads the digits of the greatest number of repetitions, after those of the least one, which
stand for both if no comma follows. -/
def readGreatest (lo : List Char) (input : Input) : Except ReadError (List Char × Input) := do
  match ← input.skip? ',' with
  | some input => input.takeWhile Char.isDigit input.rest.length
  | none => return (lo, input)

/-- Reads the bounds of a repetition after an opening brace; `none` if the brace is a literal. -/
def readBraces? (input : Input) : Except ReadError (Option ((Nat × Option Nat) × Input)) := do
  if input.peek? = some '\x7d' then return none
  let here := input.place
  let (lo, input) ← input.takeWhile Char.isDigit input.rest.length
  let (hi, input) ← readGreatest lo input
  match ← input.skip? '\x7d' with
  | none => return none
  | some input => return some (← readBounds here lo hi, input)

/-- What is repeated if a sign at place `here` asks for it, and what stands before that. -/
def lastPiece (here : Nat) : List Piece → Except ReadError (Regex × List Piece)
  | [] | .one (.anchor _) :: _ => .error ⟨.nothingToRepeat, some here⟩
  | .one (.times ..) :: _ => .error ⟨.multipleRepeat, some here⟩
  | .one r :: pieces => .ok (r, pieces)
  | .row rs :: pieces => .ok (Regex.row rs, pieces)

/-- Reads the sign for the order in which the numbers of repetitions are tried, if there is one. -/
def readKind (input : Input) : Except ReadError (RepeatKind × Input) := do
  match ← input.skip? '?' with
  | some input => return (.lazy, input)
  | none =>
    match ← input.skip? '+' with
    | some input => return (.possessive, input)
    | none => return (.greedy, input)

/-- Repeats the last piece as a sign at place `here` asks for. -/
def repeatLast (s : Reading) (here least : Nat) (most : Option Nat) (input : Input) :
    Except ReadError (Reading × Input) := do
  let (r, pieces) ← lastPiece here s.pieces
  let (kind, input) ← readKind input
  return ({ s with pieces := .one (.times kind r least most) :: pieces }, input)

/-! ## Groups -/

/-- Opens a group at place `start`, in which blanks mean something or not. -/
def enter (s : Reading) (start : Nat) (bracket : Bracket) (verbose : Bool) : Reading :=
  let frame := ⟨start, bracket, s.alternatives, s.pieces, s.verbose⟩
  { s with stack := frame :: s.stack, alternatives := [], pieces := [], verbose }

/-- Opens a group that keeps what it matches. -/
def enterCapture (s : Reading) (start : Nat) : Reading :=
  { s.enter start (.capture s.groups.length) s.verbose with groups := s.groups ++ [none] }

/-- Opens a group with a name that keeps what it matches. -/
def enterNamed (s : Reading) (start : Nat) (cs : List Char) (input : Input) :
    Except ReadError Reading :=
  let name := String.ofList cs
  if !Text.isIdentifier cs then input.fail (.badGroupName name) (cs.length + 1)
  else match s.names.lookup name with
    | some old => input.fail (.redefinedGroup name s.groups.length old) (cs.length + 1)
    | none => .ok { s.enterCapture start with names := (name, s.groups.length) :: s.names }

/-- A reference to the group with a name. -/
def referByName (s : Reading) (cs : List Char) (input : Input) : Except ReadError Reading :=
  let name := String.ofList cs
  if !Text.isIdentifier cs then input.fail (.badGroupName name) (cs.length + 1)
  else match s.names.lookup name with
    | none => input.fail (.unknownGroupName name) (cs.length + 1)
    | some group => s.refer group (cs.length + 1) input

/-- The number of groups that there may be. -/
def groupLimit : Nat := 1073741823

/-- The group on which a condition depends, which is given by its name or its number, and the
conditions that have been read with it. -/
def readCondition (s : Reading) (cs : List Char) (input : Input) :
    Except ReadError (Nat × List (Nat × Nat)) :=
  let name := String.ofList cs
  let back := cs.length + 1
  if Text.isIdentifier cs then
    match s.names.lookup name with
    | none => input.fail (.unknownGroupName name) back
    | some group => .ok (group, s.conditions)
  else
    match Integer.read? name with
    | some (.ofNat 0) => input.fail .badGroupNumber back
    | some (.ofNat group) =>
      if groupLimit ≤ group then input.fail (.invalidReference group) back
      else .ok (group, s.conditions ++ [(group, input.place - back)])
    | _ => input.fail (.badGroupName name) back

/-- Opens a group that depends on another one. -/
def enterConditional (s : Reading) (start : Nat) (cs : List Char) (input : Input) :
    Except ReadError Reading := do
  let (group, conditions) ← s.readCondition cs input
  s.checkBehind group input
  return { s.enter start (.conditional group) s.verbose with conditions }

/-- Reads what stands between `(?P` and what follows it. -/
def readNamed (s : Reading) (start : Nat) (input : Input) : Except ReadError (Reading × Input) := do
  match ← input.skip? '<' with
  | some input =>
    let (cs, input) ← input.takeUntil '>' "group name"
    return (← s.enterNamed start cs input, input)
  | none =>
    match ← input.skip? '=' with
    | some input =>
      let (cs, input) ← input.takeUntil ')' "group name"
      return (← s.referByName cs input, input)
    | none =>
      match input.rest with
      | [] => input.fail .unexpectedEnd 0
      | token :: _ =>
        let input ← input.drop
        input.fail (.unknownExtension (.ofList ('P' :: token.text))) (token.text.length + 2)

/-- Opens a group that looks behind, after `(?<`. -/
def enterBehind (s : Reading) (start : Nat) (input : Input) :
    Except ReadError (Reading × Input) := do
  match input.rest with
  | [] => input.fail .unexpectedEnd 0
  | token :: _ =>
    let input ← input.drop
    match token.plain? with
    | some '=' => return (s.enter start (.behind false s.groups.length) s.verbose, input)
    | some '!' => return (s.enter start (.behind true s.groups.length) s.verbose, input)
    | _ => input.fail (.unknownExtension (.ofList ('<' :: token.text))) (token.text.length + 2)

/-! ## Flags -/

/-- The flag that a token stands for. -/
def flag? (token : Token) : Option RegexFlag :=
  token.plain?.bind fun
    | 'i' => some .ignoreCase
    | 'L' => some .locale
    | 'm' => some .multiLine
    | 's' => some .dotAll
    | 'x' => some .verbose
    | 'a' => some .ascii
    | 't' => some .template
    | 'u' => some .unicode
    | _ => none

/-- Why a token is no flag, where one of `missing` should stand. -/
def flagFault (missing : String) (token : Token) : Fault :=
  if token.plain?.any Text.isLetter then .unknownFlag else .missingInFlags missing

/-- Turns a flag on, besides others. -/
def turnOn (on : List RegexFlag) (flag : RegexFlag) (input : Input) :
    Except ReadError (List RegexFlag) :=
  if flag = .locale then input.fail .localeFlag 0
  else if flag.isKind && on.any fun other ↦ other.isKind && other ≠ flag then
    input.fail .mixedKinds 0
  else .ok (flag :: on)

/-- Turns a flag off, besides others. -/
def turnOff (off : List RegexFlag) (flag : RegexFlag) (input : Input) :
    Except ReadError (List RegexFlag) :=
  if flag.isKind then input.fail .kindFlagOff 0 else .ok (flag :: off)

/-- Reads flags up to one of the characters `stops`, which comes with them.  The tokens are those
that remain of the input. -/
def readFlags (stops : List Char) (missing : String)
    (turn : List RegexFlag → RegexFlag → Input → Except ReadError (List RegexFlag)) (input : Input)
    (flags : List RegexFlag) : List Token → Except ReadError (Char × List RegexFlag × Input)
  | [] => { input with rest := [] }.fail (.missingInFlags missing) 0
  | token :: rest => do
    let input ← input.move rest
    match token.plain?.filter stops.contains, flag? token with
    | some c, _ => return (c, flags, input)
    | none, some flag =>
      readFlags stops missing turn input (← turn flags flag input) rest
    | none, none => input.fail (flagFault missing token) token.text.length

/-- Reads the flags that a group turns off, after the minus sign, and opens the group. -/
def readFlagsOff (s : Reading) (start : Nat) (on : List RegexFlag) (input : Input) :
    Except ReadError (Reading × Input) := do
  match input.rest with
  | [] => input.fail (.missingInFlags "flag") 0
  | token :: _ =>
    let input ← input.drop
    match flag? token with
    | none => input.fail (flagFault "flag" token) token.text.length
    | some flag =>
      let off ← turnOff [] flag input
      let (_, off, input) ← readFlags [':'] ":" turnOff input off input.rest
      if off.contains .template then input.fail .globalFlagOff 1
      if on.any off.contains then input.fail .flagOnAndOff 1
      let verbose := (s.verbose || on.contains .verbose) && !off.contains .verbose
      return (s.enter start (.flagged on off) verbose, input)

/-- Reads flags after `(?`, the first of which has been passed: for the whole expression, which only
nothing but others may precede, or for a group, which is opened. -/
def readFlagsOn (s : Reading) (start : Nat) (flag : RegexFlag) (input : Input) :
    Except ReadError (Reading × Input) := do
  let on ← turnOn [] flag input
  let (stop, on, input) ← readFlags [')', '-', ':'] "-, : or )" turnOn input on input.rest
  if stop = ')' then
    if s.stack.isEmpty && s.alternatives.isEmpty && s.pieces.isEmpty then
      let verbose := s.verbose || on.contains .verbose
      return ({ s with flags := on ++ s.flags, verbose }, input)
    else throw ⟨.lateFlags, some start⟩
  else
    if on.contains .template then input.fail .globalFlagOn 1
    if stop = '-' then s.readFlagsOff start on input
    else return (s.enter start (.flagged on []) (s.verbose || on.contains .verbose), input)

/-! ## Steps -/

/-- Goes past a comment, up to its closing parenthesis. -/
def skipComment (start : Nat) (input : Input) : Except ReadError Input :=
  match input.rest.dropWhile (·.plain? != some ')') with
  | [] => do
    let _ ← input.move []
    throw ⟨.unterminatedComment, some start⟩
  | _ :: rest => input.move rest

/-- Reads what follows an opening parenthesis at place `start`. -/
def readOpening (s : Reading) (start : Nat) (input : Input) :
    Except ReadError (Reading × Input) := do
  match ← input.skip? '?' with
  | none => return (s.enterCapture start, input)
  | some input =>
    match input.rest with
    | [] => input.fail .unexpectedEnd 0
    | token :: _ =>
      let input ← input.drop
      match token.plain?, flag? token with
      | some 'P', _ => s.readNamed start input
      | some ':', _ => return (s.enter start .plain s.verbose, input)
      | some '#', _ => return (s, ← skipComment start input)
      | some '=', _ => return (s.enter start (.ahead false) s.verbose, input)
      | some '!', _ => return (s.enter start (.ahead true) s.verbose, input)
      | some '<', _ => s.enterBehind start input
      | some '(', _ =>
        let (cs, input) ← input.takeUntil ')' "group name"
        return (← s.enterConditional start cs input, input)
      | some '>', _ => return (s.enter start .atomic s.verbose, input)
      | some '-', _ => s.readFlagsOff start [] input
      | _, some flag => s.readFlagsOn start flag input
      | _, none => input.fail (.unknownExtension (.ofList token.text)) (token.text.length + 1)

/-- Ends an alternative. -/
def endAlternative (s : Reading) : Reading :=
  { s with alternatives := s.sequence :: s.alternatives, pieces := [] }

/-- Whether the innermost group depends on another one and is in its second branch. -/
def inSecondBranch (s : Reading) : Bool :=
  s.stack.head?.any (fun frame ↦ frame.bracket matches .conditional _) && !s.alternatives.isEmpty

/-- What a group comes to once it is closed. -/
def closed (s : Reading) : Bracket → Piece
  | .plain => .row s.body
  | .capture group => .one (.capture group (Regex.row s.body))
  | .flagged on off => .one (.flagged on off (Regex.row s.body))
  | .atomic => .one (.atomic (Regex.row s.body))
  | .ahead negated => .one (.look negated none (Regex.row s.body))
  | .behind negated _ =>
    let inner := Regex.row s.body
    .one (.look negated (some (inner.width s.groupWidth)) inner)
  | .conditional group =>
    match s.alternatives.getLast? with
    | none => .one (.conditional group (Regex.row s.sequence) .empty)
    | some yes => .one (.conditional group (Regex.row yes) (Regex.row s.sequence))

/-- Closes the innermost group, if there is one. -/
def leave (s : Reading) : Reading :=
  match s.stack with
  | [] => s
  | frame :: stack =>
    let groups := match frame.bracket with
      | .capture group => s.groups.set group (some ((Regex.row s.body).width s.groupWidth))
      | _ => s.groups
    { s with
      groups, stack
      alternatives := frame.alternatives
      pieces := s.closed frame.bracket :: frame.pieces
      verbose := frame.verbose }

variable (characters : CharacterNames)

/-- Reads an escape, whose token has just been passed. -/
def readEscape (s : Reading) (c : Char) (input : Input) : Except ReadError (Reading × Input) :=
  match kindEscape? c, anchorEscape? c with
  | some item, _ => .ok (s.push (.one (.oneOf ⟨false, [item]⟩)), input)
  | none, some condition => .ok (s.push (.one (.anchor condition)), input)
  | none, none =>
    let literal := fun (code, input) ↦ (s.push (.one (.literal false code)), input)
    if c = '0' then (octalEscape c 2 input).map literal
    else if c.isDigit then s.referenceEscape c input
    else (characterEscape characters c input).map literal

/-- Reads a class, which was opened at place `start`. -/
def readSet (s : Reading) (start : Nat) (input : Input) : Except ReadError (Reading × Input) := do
  let negation ← input.skip? '^'
  let input := negation.getD input
  let (items, input) ← readClass characters start input.rest.length [] input
  return (s.push (.one (classOf negation.isSome items)), input)

/-- Reads what begins with a character that stands for itself or has a meaning of its own; it has
just been passed, and `here` is its place. -/
def readCharacter (s : Reading) (here : Nat) (c : Char) (input : Input) :
    Except ReadError (Reading × Input) :=
  let literal := (s.push (.one (.literal false c.toNat)), input)
  match c with
  | '.' => .ok (s.push (.one .anyChar), input)
  | '^' => .ok (s.push (.one (.anchor .start)), input)
  | '$' => .ok (s.push (.one (.anchor .stop)), input)
  | '[' => s.readSet characters here input
  | '(' => s.readOpening here input
  | '|' => .ok (s.endAlternative, input)
  | ')' => .ok (s.leave, input)
  | '*' => s.repeatLast here 0 none input
  | '+' => s.repeatLast here 1 none input
  | '?' => s.repeatLast here 0 (some 1) input
  | '\x7b' => do
    match ← readBraces? input with
    | some ((least, most), input) => s.repeatLast here least most input
    | none => return literal
  | _ => .ok literal

/-- The blanks that mean nothing in an expression with that flag. -/
def isPadding (c : Char) : Bool :=
  c == ' ' || (0x09 ≤ c.toNat && c.toNat ≤ 0x0D)

/-- Reads what begins with a token, which is the next one. -/
def step (s : Reading) (token : Token) (input : Input) : Except ReadError (Reading × Input) := do
  if token.plain? = some '|' && s.inSecondBranch then throw ⟨.thirdBranch, some token.offset⟩
  let input ← input.drop
  match token.plain? with
  | none => s.readEscape characters token.char input
  | some c =>
    if s.verbose && isPadding c then return (s, input)
    else if s.verbose && c == '#' then
      let rest := input.rest.dropWhile (·.plain? != some '\n')
      return (s, ← input.move rest.tail)
    else s.readCharacter characters token.offset c input

/-- Reads on up to the end, or to a closing parenthesis without an opening one.  The first argument
bounds the number of tokens that are left. -/
def readOn : Nat → Reading → Input → Except ReadError (Reading × Input)
  | 0, s, input => .ok (s, input)
  | n + 1, s, input =>
    match input.rest with
    | [] => .ok (s, input)
    | token :: _ =>
      if s.stack.isEmpty && token.plain? = some ')' then .ok (s, input)
      else do
        let (s, input) ← s.step characters token input
        readOn n s input

end Reading

/-- The first fault that is noticed only once an expression has been read, if there is one. -/
def lateFault? (template : Bool) : Regex → Option Fault
  | empty | anyChar | literal .. | oneOf _ | anchor _ | reference _ => none
  | seq first second => lateFault? template first <|> lateFault? template second
  | alt left right => lateFault? template left <|> lateFault? template right
  | conditional _ yes no => lateFault? template yes <|> lateFault? template no
  | capture _ inner | flagged _ _ inner | atomic inner | look _ none inner =>
    lateFault? template inner
  | times kind inner _ _ =>
    if template then some (.templateRepeat kind) else lateFault? template inner
  | look _ (some width) inner =>
    if 0x100000000 ≤ width.least then some .behindTooFar
    else if width.least ≠ width.most then some .behindUnfixed
    else lateFault? template inner

/-- The expression that has been read, with its flags, once no more of it can be. -/
def Reading.finish (s : Reading) (input : Input) : Except ReadError (List RegexFlag × Regex) :=
  match s.stack with
  | frame :: _ => .error ⟨.unterminatedGroup, some frame.start⟩
  | [] =>
    if s.flags.contains .ascii && s.flags.contains .unicode then .error ⟨.bothKinds, none⟩
    else if !input.rest.isEmpty then input.fail .unbalancedParenthesis 0
    else
      match s.conditions.find? fun (group, _) ↦ s.groups.length ≤ group with
      | some (group, place) => .error ⟨.invalidReference group, some place⟩
      | none =>
        match lateFault? (s.flags.contains .template) (row s.body) with
        | some fault => .error ⟨fault, none⟩
        | none =>
          .ok (if s.flags.contains .ascii then s.flags else .unicode :: s.flags, row s.body)

/-- Reads a regular expression with its flags. -/
def read (characters : CharacterNames) (pattern : String) :
    Except ReadError (List RegexFlag × Regex) := do
  let start ← Input.ofText pattern.toList
  let (s, input) ← Reading.readOn characters start.rest.length {} start
  s.finish input

end HardcodedText.Regex
