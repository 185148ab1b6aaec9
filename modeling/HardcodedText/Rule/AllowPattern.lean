import HardcodedText.Pattern.Regex.Match
import HardcodedText.Pattern.Regex.Reader
import HardcodedText.Text.Blank

/-!
# Allowed texts

A text that an allow pattern accepts may be hardcoded.  A pattern is either a piece of text that has
to occur, or a regular expression that has to match somewhere.
-/

namespace HardcodedText

/-- Whether a text occurs within another one. -/
def Text.occurs (needle : List Char) : List Char → Bool
  | [] => needle.isEmpty
  | c :: cs => needle.isPrefixOf (c :: cs) || occurs needle cs

/-- A pattern of texts that may be hardcoded. -/
inductive AllowPattern
  /-- Texts in which a text occurs. -/
  | substring (text : String)
  /-- Texts in which a regular expression, written as `text`, has a match. -/
  | regex (text : String) (flags : List RegexFlag) (regex : Regex)
deriving Repr

namespace AllowPattern

/-- A pattern as it is written. -/
def text : AllowPattern → String
  | substring text => text
  | regex text _ _ => text

/-- Whether a pattern is a regular expression. -/
def isRegex : AllowPattern → Bool
  | substring _ => false
  | regex .. => true

/-- Whether a text fits a pattern. -/
def accepts (value : String) : AllowPattern → Bool
  | substring text => Text.occurs text.toList value.toList
  | regex _ flags r => r.occursIn flags value

/-- The pattern of a regular expression. -/
def ofRegex (characters : CharacterNames) (text : String) :
    Except Regex.ReadError AllowPattern :=
  (Regex.read characters text).map fun (flags, r) ↦ .regex text flags r

/-- The regular expressions that are allowed unless others are given: uses of a lookup function,
substitutions, constants, numbers, blanks, and code. -/
def standardTexts : List String := [
  "^t\\(['\\\"]", "^i18n\\.", "^\\$\\\x7b.*\\\x7d$", "^(true|false|null|undefined)$", "^\\d+$",
  "^['\\\"]?\\s*['\\\"]?$", "^console\\.", "^process\\.env\\.", "^import\\(", "^require\\("]

/-- The patterns that are allowed unless others are given.  They hold no names of characters. -/
def standard : List AllowPattern :=
  standardTexts.filterMap fun text ↦ (ofRegex .none text).toOption

end AllowPattern

end HardcodedText
