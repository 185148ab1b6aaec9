import HardcodedText.Pattern.Regex.Basic
import HardcodedText.Text.Quoted

/-!
# Faults of regular expressions

Why a text is not a regular expression, and how that is worded.
-/

namespace HardcodedText

/-- The name of a repetition as an operator. -/
def RepeatKind.operator : RepeatKind → String
  | .greedy => "MAX_REPEAT"
  | .lazy => "MIN_REPEAT"
  | .possessive => "POSSESSIVE_REPEAT"

namespace Regex

/-- Why a text is not a regular expression. -/
inductive Fault
  | unterminatedGroup
  | unbalancedParenthesis
  | unterminatedClass
  | unterminatedComment
  | unexpectedEnd
  | unknownExtension (extension : String)
  | nothingToRepeat
  | multipleRepeat
  | leastAboveMost
  /-- A bound of a repetition is too large. -/
  | countTooLarge
  /-- A bound of a repetition has too many digits. -/
  | countTooLong (digits : Nat)
  | badRange (lo hi : String)
  | danglingEscape
  | badEscape (escape : String)
  | incompleteEscape (escape : String)
  | octalTooLarge (escape : String)
  /-- The code point of an escape is too large even for a number of 32 bits with a sign. -/
  | codeTooLarge
  | missingBrace
  | missingName (what : String)
  | unterminatedName (terminator : Char)
  | unknownCharacter (name : String)
  | badGroupName (name : String)
  | unknownGroupName (name : String)
  | badGroupNumber
  | redefinedGroup (name : String) (group old : Nat)
  | invalidReference (group : Nat)
  | openReference
  | referenceBehind
  | thirdBranch
  | localeFlag
  | mixedKinds
  | unknownFlag
  | missingInFlags (what : String)
  | globalFlagOn
  | globalFlagOff
  | kindFlagOff
  | flagOnAndOff
  | lateFlags
  /-- The flags for ASCII and for every script are both set for the whole expression. -/
  | bothKinds
  | templateRepeat (kind : RepeatKind)
  | behindTooFar
  | behindUnfixed
deriving DecidableEq, Repr

namespace Fault

/-- The wording of a fault. -/
def reason : Fault → String
  | unterminatedGroup => "missing ), unterminated subpattern"
  | unbalancedParenthesis => "unbalanced parenthesis"
  | unterminatedClass => "unterminated character set"
  | unterminatedComment => "missing ), unterminated comment"
  | unexpectedEnd => "unexpected end of pattern"
  | unknownExtension extension => s!"unknown extension ?{extension}"
  | nothingToRepeat => "nothing to repeat"
  | multipleRepeat => "multiple repeat"
  | leastAboveMost => "min repeat greater than max repeat"
  | countTooLarge => "the repetition number is too large"
  | countTooLong digits =>
    s!"Exceeds the limit (4300 digits) for integer string conversion: value has {digits} " ++
      "digits; use sys.set_int_max_str_digits() to increase the limit"
  | badRange lo hi => s!"bad character range {lo}-{hi}"
  | danglingEscape => "bad escape (end of pattern)"
  | badEscape escape => s!"bad escape {escape}"
  | incompleteEscape escape => s!"incomplete escape {escape}"
  | octalTooLarge escape => s!"octal escape value {escape} outside of range 0-0o377"
  | codeTooLarge => "int too large to convert to C int"
  | missingBrace => "missing \x7b"
  | missingName what => s!"missing {what}"
  | unterminatedName terminator => s!"missing {terminator}, unterminated name"
  | unknownCharacter name => s!"undefined character name {Text.quoted name}"
  | badGroupName name => s!"bad character in group name {Text.quoted name}"
  | unknownGroupName name => s!"unknown group name {Text.quoted name}"
  | badGroupNumber => "bad group number"
  | redefinedGroup name group old =>
    s!"redefinition of group name {Text.quoted name} as group {group}; was group {old}"
  | invalidReference group => s!"invalid group reference {group}"
  | openReference => "cannot refer to an open group"
  | referenceBehind => "cannot refer to group defined in the same lookbehind subpattern"
  | thirdBranch => "conditional backref with more than two branches"
  | localeFlag => "bad inline flags: cannot use 'L' flag with a str pattern"
  | mixedKinds => "bad inline flags: flags 'a', 'u' and 'L' are incompatible"
  | unknownFlag => "unknown flag"
  | missingInFlags what => s!"missing {what}"
  | globalFlagOn => "bad inline flags: cannot turn on global flag"
  | globalFlagOff => "bad inline flags: cannot turn off global flag"
  | kindFlagOff => "bad inline flags: cannot turn off flags 'a', 'u' and 'L'"
  | flagOnAndOff => "bad inline flags: flag turned on and off"
  | lateFlags => "global flags not at the start of the expression"
  | bothKinds => "ASCII and UNICODE flags are incompatible"
  | templateRepeat kind => s!"internal: unsupported template operator {kind.operator}"
  | behindTooFar => "looks too much behind"
  | behindUnfixed => "look-behind requires fixed-width pattern"

/-- Whether a fault is noticed as one of the expression.  The others are those of a number that
cannot be read and of flags that exclude each other; they reach whoever asked for the expression. -/
def isNoticed : Fault → Bool
  | countTooLarge | countTooLong _ | codeTooLarge | bothKinds => false
  | _ => true

end Fault

/-- A fault and its place. -/
structure ReadError where
  /-- What is wrong. -/
  fault : Fault
  /-- The number of characters before it; there is no place if the fault is noticed only once the
  expression has been read. -/
  position : Option Nat
deriving DecidableEq, Repr

/-- The wording of an error in a pattern; a pattern of several lines also gets line and column. -/
def ReadError.message (e : ReadError) (pattern : String) : String :=
  match e.position with
  | none => e.fault.reason
  | some n =>
    let before := pattern.toList.take n
    let place :=
      if pattern.toList.contains '\n' then
        let line := before.count '\n' + 1
        let column := (before.reverse.takeWhile (· != '\n')).length + 1
        s!" (line {line}, column {column})"
      else ""
    s!"{e.fault.reason} at position {n}{place}"

end Regex

end HardcodedText
