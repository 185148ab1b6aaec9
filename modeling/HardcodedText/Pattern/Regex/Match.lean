import HardcodedText.Pattern.Regex.CharClass

/-!
# Matching

An expression is matched by trying its ways one after another.  `Regex.attempt` does so from a place
in the text and hands each place that is reached on to what follows the expression, until that
succeeds; what is found is the first success in the order in which ways are tried.

A group keeps the place at which it was opened last and the place at which it was closed last.  Both
survive from one repetition to the next, so a group that is open again may have been closed before.
-/

namespace HardcodedText

/-- Whether a place in a text, given by the number of characters before it, meets a condition. -/
def Anchor.holds (multiLine ascii : Bool) (text : Array Char) (i : Nat) :
    Anchor → Bool
  | .textStart => i == 0
  | .textEnd => i == text.size
  | .start => i == 0 || (multiLine && text[i - 1]? == some '\n')
  | .stop =>
    i == text.size || (i + 1 == text.size && text[i]? == some '\n') ||
      (multiLine && text[i]? == some '\n')
  | .wordBoundary => text.size != 0 && (before != after)
  | .noWordBoundary => text.size != 0 && (before == after)
where
  isWord (c : Char) := CharKind.word.holds ascii c.toNat
  before := i != 0 && (text[i - 1]?.any isWord)
  after := text[i]?.any isWord

namespace Regex

/-- How far a match has come. -/
structure Progress where
  /-- The number of characters before the place that has been reached. -/
  index : Nat
  /-- Where groups were opened, the last time first. -/
  opened : List (Nat × Nat)
  /-- Where groups were closed, the last time first. -/
  closed : List (Nat × Nat)
deriving DecidableEq, Repr

namespace Progress

/-- Nothing has been matched, at a place in the text. -/
def start (i : Nat) : Progress := ⟨i, [], []⟩

/-- What a group has matched: from where to where. -/
def span? (p : Progress) (group : Nat) : Option (Nat × Nat) := do
  let start ← p.opened.lookup group
  let stop ← p.closed.lookup group
  if start ≤ stop then some (start, stop) else none

end Progress

/-- A way to go on from what has been reached, each place that is reached by it being handed on
until that succeeds. -/
abbrev Step := Progress → (Progress → Option Progress) → Option Progress

namespace Step

/-- Takes a step in the first way that there is, and in no other. -/
def commit (step : Step) : Step := fun p k ↦
  (step p some).bind k

/-- Takes a number of steps. -/
def repeated (step : Step) : Nat → Step
  | 0, p, k => k p
  | n + 1, p, k => step p fun q ↦ repeated step n q k

/-- Takes at most a number of steps: as many as possible first if `eager`, or else as few as
possible first.  No step is taken where the step before it began, if there was one: `last`. -/
def atMost (step : Step) (eager : Bool) : Nat → Option Nat → Step
  | 0, _, p, k => k p
  | n + 1, last, p, k =>
    if last = some p.index then k p
    else if eager then (step p fun q ↦ atMost step eager n (some p.index) q k) <|> k p
    else k p <|> step p fun q ↦ atMost step eager n (some p.index) q k

/-- Takes at least `least` steps, and at most `more` others. -/
def between (step : Step) (eager : Bool) (least more : Nat) : Step := fun p k ↦
  repeated step least p fun q ↦ atMost step eager more none q k

/-- Repeats a step, in the order of a kind. -/
def times (kind : RepeatKind) (step : Step) (least more : Nat) : Step :=
  match kind with
  | .greedy => between step true least more
  | .lazy => between step false least more
  | .possessive => commit (between (commit step) true least more)

/-- Goes past the next character if it has a property. -/
def character (text : Array Char) (holds : Char → Bool) : Step := fun p k ↦
  match text[p.index]? with
  | some c => if holds c then k { p with index := p.index + 1 } else none
  | none => none

/-- Goes past the characters of `other`, if they are the next ones by the form that counts. -/
def characters (text : Array Char) (form : Char → Nat) (other : List Char) : Step := fun p k ↦
  let next := (text.toList.drop p.index).take other.length
  if next.map form = other.map form then k { p with index := p.index + other.length } else none

/-- Stays in its place, if something has been found there, or if nothing has and that is asked for.
Groups within what has been found are kept. -/
def look (negated : Bool) (found : Option Progress) : Step := fun p k ↦
  match found with
  | some q => if negated then none else k { q with index := p.index }
  | none => if negated then k p else none

end Step

/-- Tries to match an expression. -/
def attempt (text : Array Char) (flags : List RegexFlag) : Regex → Step
  | empty, p, k => k p
  | anyChar, p, k =>
    Step.character text (fun c ↦ flags.contains .dotAll || c != '\n') p k
  | literal negated code, p, k =>
    Step.character text (fun c ↦ Caseless.agrees ignoreCase ascii code c != negated) p k
  | oneOf set, p, k => Step.character text (set.holds ignoreCase ascii) p k
  | anchor condition, p, k =>
    if condition.holds (flags.contains .multiLine) ascii text p.index then k p else none
  | reference group, p, k =>
    match p.span? group with
    | some (start, stop) =>
      Step.characters text form ((text.toList.drop start).take (stop - start)) p k
    | none => none
  | seq first second, p, k => attempt text flags first p fun q ↦ attempt text flags second q k
  | alt left right, p, k => attempt text flags left p k <|> attempt text flags right p k
  | capture group inner, p, k =>
    attempt text flags inner { p with opened := (group, p.index) :: p.opened } fun q ↦
      k { q with closed := (group, q.index) :: q.closed }
  | flagged on off inner, p, k => attempt text (RegexFlag.change on off flags) inner p k
  | atomic inner, p, k => Step.commit (attempt text flags inner) p k
  | times kind inner least most, p, k =>
    -- beyond the size of the text no more steps can be taken, as each but the last goes on
    let more := match most with
      | some n => min (n - least) (text.size + 1)
      | none => text.size + 1
    Step.times kind (attempt text flags inner) least more p k
  | look negated behind inner, p, k =>
    let found := match behind with
      | none => attempt text flags inner p some
      | some width =>
        if p.index < width.least then none
        else attempt text flags inner { p with index := p.index - width.least } some
    Step.look negated found p k
  | conditional group yes no, p, k =>
    if (p.span? group).isSome then attempt text flags yes p k else attempt text flags no p k
where
  ignoreCase := flags.contains .ignoreCase
  ascii := !flags.contains .unicode
  form (c : Char) := if ignoreCase then Caseless.lead (Caseless.lowering ascii) c.toNat else c.toNat

/-- Whether an expression matches anywhere in a text. -/
def occursIn (flags : List RegexFlag) (r : Regex) (text : String) : Bool :=
  let chars := text.toList.toArray
  (List.range (chars.size + 1)).any fun i ↦ (attempt chars flags r (.start i) some).isSome

end Regex

end HardcodedText
