import HardcodedText.Text.Blank
import HardcodedText.Text.LetterCase

/-!
# Suggested keys

The key under which a text could be filed in a catalogue of texts.  It is made of a prefix for the
context and the words of the text in camel case.  Letters of a native script are kept.
-/

namespace HardcodedText

/-- The letters of a script, as ranges. -/
abbrev Script := List (Char × Char)

namespace Script

/-- Whether a character belongs to a script. -/
def contains (script : Script) (c : Char) : Bool :=
  script.any fun (first, last) ↦ first ≤ c && c ≤ last

/-- Reads a script from its letters and ranges such as `a-z`. -/
def ofChars : List Char → Script
  | first :: '-' :: last :: rest => (first, last) :: ofChars rest
  | c :: rest => (c, c) :: ofChars rest
  | [] => []

/-- The syllables of Hangul. -/
def hangul : Script := [('가', '힣')]

end Script

namespace SuggestedKey

/-- The prefixes of the contexts that have one of their own. -/
def prefixes : List (String × String) := [
  ("message.error", "error"), ("message.success", "success"), ("message.warning", "warning"),
  ("message.info", "info"),
  ("Message.error", "error"), ("Message.success", "success"), ("Message.warning", "warning"),
  ("Message.info", "info"),
  ("toast.error", "error"), ("toast.success", "success"), ("toast.warning", "warning"),
  ("toast.info", "info"),
  ("notification.error", "error"), ("notification.success", "success"),
  ("notification.warning", "warning"), ("notification.info", "info"),
  ("alert", "alert"), ("confirm", "confirm"),
  ("title", "title"), ("description", "description"), ("label", "label"),
  ("placeholder", "placeholder"), ("tooltip", "tooltip"), ("helpText", "help")]

/-- The prefix for a context. -/
def prefixOf (context : String) : String :=
  (prefixes.lookup context).getD "common"

/-- Whether a character can be part of a key or ends a word. -/
def isKept (script : Script) (c : Char) : Bool :=
  c.isAlphanum || Text.isBlank c || script.contains c

/-- A word that is not the first one: as it is if it is native, else with a capital at its start
only.  A word that is not native has ASCII letters and digits alone. -/
def laterWord (script : Script) (word : List Char) : List Char :=
  if word.any script.contains then word
  else
    match word with
    | [] => []
    | c :: cs => c.toUpper :: cs.map Char.toLower

/-- The words of a text, joined. -/
def body (script : Script) (value : List Char) : List Char :=
  match Text.words (value.filter (isKept script)) with
  | [] => []
  | first :: later => Text.lower first ++ later.flatMap (laterWord script)

end SuggestedKey

/-- The key suggested for a text in a context. -/
def suggestedKey (context value : String) (script : Script := Script.hangul) : String :=
  SuggestedKey.prefixOf context ++ "." ++ .ofList (SuggestedKey.body script value.toList)

end HardcodedText
