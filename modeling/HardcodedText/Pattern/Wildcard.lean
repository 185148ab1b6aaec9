/-!
# Wildcard patterns

A pattern matches whole texts: `*` stands for any run of characters, `?` for any one character and
`[…]` for one character of a set, which `!` at its start negates.  A bracket that is never closed
stands for itself.

In a set, a hyphen between two characters makes a range of them, unless the characters are the
wrong way round, in which case the range contributes nothing; a hyphen that cannot make a range is
a character like any other.
-/

namespace HardcodedText.Wildcard

/-- A set of characters: those in one of the ranges, or those in none. -/
structure CharSet where
  /-- Whether the set holds what lies outside the ranges. -/
  negated : Bool
  /-- The ranges, with both ends. -/
  ranges : List (Char × Char)
deriving DecidableEq, Repr

/-- Whether a character is in a set. -/
def CharSet.contains (s : CharSet) (c : Char) : Bool :=
  (s.ranges.any fun (lo, hi) ↦ lo ≤ c && c ≤ hi) != s.negated

/-- A piece of a pattern. -/
inductive Token
  /-- Any run of characters. -/
  | anyRun
  /-- Any one character. -/
  | anyOne
  /-- One character of a set. -/
  | oneOf (set : CharSet)
  /-- This character. -/
  | char (c : Char)
deriving DecidableEq, Repr

/-- Cuts the inside of a set at the hyphens that may make a range: `ahead` more characters have to
come before the next such hyphen. -/
def cutRanges : Nat → List Char → List (List Char)
  | _, [] => [[]]
  | 0, c :: cs => if c = '-' then [] :: cutRanges 2 cs else (cutRanges 0 cs).modifyHead (c :: ·)
  | ahead + 1, c :: cs => (cutRanges ahead cs).modifyHead (c :: ·)

/-- Gives a hyphen that stands last back to the piece before it. -/
def keepLastHyphen : List (List Char) → List (List Char)
  | [piece, []] => [piece ++ ['-']]
  | piece :: pieces => piece :: keepLastHyphen pieces
  | [] => []

/-- Takes out the ranges whose ends are the wrong way round. -/
def dropReversed : List (List Char) → List (List Char)
  | [] => []
  | piece :: pieces =>
    match dropReversed pieces with
    | [] => [piece]
    | next :: rest =>
      match piece.getLast?, next.head? with
      | some lo, some hi =>
        if hi < lo then (piece.dropLast ++ next.tail) :: rest else piece :: next :: rest
      | _, _ => piece :: next :: rest

/-- Characters that stand for themselves. -/
def singles (cs : List Char) : List (Char × Char) :=
  cs.map fun c ↦ (c, c)

/-- The ranges of a set: from the last character of each piece to the first of the next, and every
other character by itself. -/
def rangesOf : List (List Char) → List (Char × Char)
  | [] => []
  | [piece] => singles piece
  | piece :: next :: rest =>
    match piece.getLast?, next.head? with
    | some lo, some hi => singles piece.dropLast ++ (lo, hi) :: rangesOf (next.tail :: rest)
    | _, _ => ('-', '-') :: rangesOf (next :: rest)
termination_by pieces => pieces.length

/-- The token of a set with the given inside. -/
def setToken (inside : List Char) : Token :=
  let ahead := if inside.head? = some '!' then 2 else 1
  match dropReversed (keepLastHyphen (cutRanges ahead inside)) with
  | ('!' :: piece) :: pieces =>
    if piece.isEmpty && pieces.isEmpty then .anyOne else .oneOf ⟨true, rangesOf (piece :: pieces)⟩
  | pieces => .oneOf ⟨false, rangesOf pieces⟩

/-- The inside of the set that was just opened and what follows its closing bracket, if it has one.
A bracket that stands first, also after `!`, is part of the set. -/
def closeSet? (cs : List Char) : Option (List Char × List Char) :=
  let start := match cs with
    | '!' :: ']' :: _ => 2
    | '!' :: _ => 1
    | ']' :: _ => 1
    | _ => 0
  let inside := (cs.drop start).takeWhile (· != ']')
  match (cs.drop start).dropWhile (· != ']') with
  | [] => none
  | _ :: rest => some (cs.take start ++ inside, rest)

theorem length_closeSet? {cs inside rest : List Char} (h : closeSet? cs = some (inside, rest)) :
    rest.length < cs.length := by
  simp only [closeSet?] at h
  generalize (match cs with
    | '!' :: ']' :: _ => 2
    | '!' :: _ => 1
    | ']' :: _ => 1
    | _ => 0) = start at h
  split at h
  · simp at h
  · rename_i hd
    simp only [Option.some.injEq, Prod.mk.injEq] at h
    have hs : ((cs.drop start).dropWhile (· != ']')).length ≤ (cs.drop start).length :=
      (List.dropWhile_sublist _).length_le
    rw [hd, h.2] at hs
    simp only [List.length_cons, List.length_drop] at hs
    omega

/-- The tokens of a pattern.  A run of stars is one token. -/
def tokens : List Char → List Token
  | [] => []
  | c :: cs =>
    if c = '*' then
      match tokens cs with
      | .anyRun :: rest => .anyRun :: rest
      | rest => .anyRun :: rest
    else if c = '?' then .anyOne :: tokens cs
    else if c = '[' then
      match _h : closeSet? cs with
      | some (inside, rest) => setToken inside :: tokens rest
      | none => .char c :: tokens cs
    else .char c :: tokens cs
termination_by cs => cs.length
decreasing_by
  all_goals grind [→ length_closeSet?]

/-- Whether a token stands for a character. -/
def Token.accepts : Token → Char → Bool
  | .anyRun, _ => true
  | .anyOne, _ => true
  | .oneOf set, c => set.contains c
  | .char d, c => c == d

/-- Whether tokens match a whole text. -/
def run : List Token → List Char → Bool
  | [], cs => cs.isEmpty
  | .anyRun :: ts, [] => run ts []
  | .anyRun :: ts, c :: cs => run ts (c :: cs) || run (.anyRun :: ts) cs
  | _ :: _, [] => false
  | t :: ts, c :: cs => t.accepts c && run ts cs
termination_by ts cs => ts.length + cs.length

/-- Whether a pattern matches a whole text. -/
def accepts (pattern text : String) : Bool :=
  run (tokens pattern.toList) text.toList

end HardcodedText.Wildcard
