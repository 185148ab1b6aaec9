import HardcodedText.Rule.AllowPattern
import HardcodedText.Rule.CallPattern
import HardcodedText.Rule.Policy

/-!
# Configurations

Everything that a user can set about the rules.
-/

namespace HardcodedText

/-- The rules in force. -/
structure Configuration where
  /-- The calls that show their arguments to the user. -/
  calls : List CallPattern
  /-- The properties that the user gets to see, in order and without repetition. -/
  properties : List String
  /-- The texts that may be hardcoded. -/
  allow : List AllowPattern
  /-- What is checked in markup elements. -/
  policies : Policies
  /-- How many fixed characters make a template with expressions count as text. -/
  minimum : Nat
  /-- Whether properties are checked outside of notification calls, too. -/
  freeStanding : Bool
deriving Repr

namespace Configuration

/-- Names in order and without repetition. -/
def sortNames (names : List String) : List String :=
  names.eraseDups.mergeSort fun a b ↦ decide (a ≤ b)

/-- The properties that are looked at unless others are given. -/
def standardProperties : List String := [
  "title", "message", "description", "content", "label", "placeholder", "tooltip", "helpText",
  "errorMessage", "successMessage", "warningMessage", "text", "body", "detail"]

/-- How many fixed characters make a template count as text unless it is given. -/
def standardMinimum : Nat := 3

/-- The rules in force unless others are given. -/
def standard : Configuration where
  calls := CallPattern.standard
  properties := sortNames standardProperties
  allow := AllowPattern.standard
  policies := Policies.standard
  minimum := standardMinimum
  freeStanding := false

/-- Whether the function of a name shows its arguments to the user.  No name at all is no such
function. -/
def notifies (config : Configuration) (path : String) : Bool :=
  path != "" && config.calls.any (·.accepts path)

/-- Whether the user gets to see the property with a key. -/
def isUserFacing (config : Configuration) (key : Option String) : Bool :=
  key.any config.properties.contains

/-- Whether a text may be hardcoded: it is blank or fits a pattern. -/
def allows (config : Configuration) (value : String) : Bool :=
  value.toList.all Text.isBlank || config.allow.any (·.accepts value)

end Configuration

end HardcodedText
