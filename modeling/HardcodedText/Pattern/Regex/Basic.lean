/-!
# Regular expressions

The syntax of expressions.  Characters are given by their code points, as an expression can also
name those that no text holds.
-/

namespace HardcodedText

/-- The characters that have a name, by their names. -/
abbrev CharacterNames := String → Option Char

/-- No character has a name. -/
def CharacterNames.none : CharacterNames :=
  fun _ ↦ .none

/-- A flag, which changes how an expression is read or matched. -/
inductive RegexFlag
  /-- Letters stand for themselves in either case. -/
  | ignoreCase
  /-- What counts as a letter depends on the locale; this is for encoded texts only. -/
  | locale
  /-- The text has several lines, each with a beginning and an end. -/
  | multiLine
  /-- The point stands for the line feed, too. -/
  | dotAll
  /-- Blanks and comments in the expression mean nothing. -/
  | verbose
  /-- Digits, blanks and letters are those of ASCII. -/
  | ascii
  /-- Nothing may be repeated. -/
  | template
  /-- Digits, blanks and letters are those of every script. -/
  | unicode
deriving DecidableEq, Repr

namespace RegexFlag

/-- Whether a flag says which characters are letters.  Only one such flag can be in force. -/
def isKind : RegexFlag → Bool
  | locale | ascii | unicode => true
  | _ => false

/-- The flags in force within a group that turns some flags on and others off. -/
def change (on off flags : List RegexFlag) : List RegexFlag :=
  let kept := if on.any isKind then flags.filter (!·.isKind) else flags
  (on ++ kept).filter (!off.contains ·)

end RegexFlag

/-- A kind of characters that has an escape of its own. -/
inductive CharKind
  | digit
  | blank
  | word
deriving DecidableEq, Repr

/-- What a class of characters is made of. -/
inductive ClassItem
  /-- One character. -/
  | char (code : Nat)
  /-- The characters from `lo` to `hi`. -/
  | range (lo hi : Nat)
  /-- The characters of a kind, or all else. -/
  | kind (kind : CharKind) (negated : Bool)
deriving DecidableEq, Repr

/-- A class of characters. -/
structure CharClass where
  /-- Whether the class holds what is in none of the items. -/
  negated : Bool
  /-- The items. -/
  items : List ClassItem
deriving DecidableEq, Repr

/-- A condition on a place in a text. -/
inductive Anchor
  /-- The beginning of the text. -/
  | textStart
  /-- The end of the text. -/
  | textEnd
  /-- The beginning; with several lines, of any line. -/
  | start
  /-- The end, also before a line feed that ends the text; with several lines, of any line. -/
  | stop
  /-- A word begins or ends here. -/
  | wordBoundary
  /-- No word begins or ends here. -/
  | noWordBoundary
deriving DecidableEq, Repr

/-- In which order the numbers of repetitions are tried. -/
inductive RepeatKind
  /-- As many repetitions as possible first. -/
  | greedy
  /-- As few repetitions as possible first. -/
  | lazy
  /-- As many repetitions as possible only, each in the first way that there is. -/
  | possessive
deriving DecidableEq, Repr

/-- The least and the greatest number of characters that an expression matches. -/
structure Width where
  /-- The least number. -/
  least : Nat
  /-- The greatest number. -/
  most : Nat
deriving DecidableEq, Repr, Inhabited

/-- A regular expression. -/
inductive Regex
  | empty
  | anyChar
  /-- One character, or any other one. -/
  | literal (negated : Bool) (code : Nat)
  | oneOf (set : CharClass)
  | anchor (condition : Anchor)
  /-- What the group with this number has matched. -/
  | reference (group : Nat)
  | seq (first second : Regex)
  | alt (left right : Regex)
  /-- A group that keeps what it matches under its number. -/
  | capture (group : Nat) (inner : Regex)
  /-- A group that turns flags on and off. -/
  | flagged (on off : List RegexFlag) (inner : Regex)
  /-- A group that is matched in the first way that there is, and in no other. -/
  | atomic (inner : Regex)
  | times (kind : RepeatKind) (inner : Regex) (least : Nat) (most : Option Nat)
  /-- Looks ahead, or behind if the width is given of what is to be found there. -/
  | look (negated : Bool) (behind : Option Width) (inner : Regex)
  /-- One expression if the group with this number has matched, another one if not. -/
  | conditional (group : Nat) (yes no : Regex)
deriving DecidableEq, Repr, Inhabited

namespace Regex

/-- Whether an expression has no parts. -/
def isLeaf : Regex → Bool
  | anyChar | literal .. | oneOf _ | anchor _ | reference _ => true
  | _ => false

/-- Expressions in a row. -/
def row : List Regex → Regex
  | [] => empty
  | [r] => r
  | r :: rs => seq r (row rs)

/-- A choice between expressions, of which there is at least one. -/
def branch : List Regex → Regex
  | [] => empty
  | [r] => r
  | r :: rs => alt r (branch rs)

/-- Widths are not told apart from this number on. -/
def widthLimit : Nat := 0x10000000000000000

/-- The width of an expression, if the groups to which it refers have the given widths. -/
def width (groups : Nat → Width) : Regex → Width
  | empty | anchor _ | look .. => ⟨0, 0⟩
  | anyChar | literal .. | oneOf _ => ⟨1, 1⟩
  | reference group => groups group
  | seq first second =>
    let v := first.width groups
    let w := second.width groups
    ⟨min (v.least + w.least) widthLimit, min (v.most + w.most) widthLimit⟩
  | alt left right | conditional _ left right =>
    let v := left.width groups
    let w := right.width groups
    ⟨min v.least w.least, max v.most w.most⟩
  | capture _ inner | flagged _ _ inner | atomic inner => inner.width groups
  | times _ inner least most =>
    let w := inner.width groups
    let greatest := match most with
      | some n => w.most * n
      | none => if w.most = 0 then 0 else widthLimit
    ⟨min (w.least * least) widthLimit, min greatest widthLimit⟩

end Regex

end HardcodedText
