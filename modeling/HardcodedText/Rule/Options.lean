import HardcodedText.Json.Basic
import HardcodedText.Rule.Configuration

/-!
# Configurations as JSON

A configuration is written as an object with one field for each option.  Options that are left out
have their standard value.  The first fault found is reported: of the object, then of unknown
options, then of the options in the order in which `Configuration.ofJson` reads them.
-/

namespace HardcodedText

/-- Why a value is no configuration. -/
inductive OptionError
  /-- It is not an object. -/
  | notObject
  /-- It has fields that are not options. -/
  | unknown (keys : List String)
  /-- The allow patterns are not a list. -/
  | allowNotList
  /-- An allow pattern is neither a string nor an object with one field. -/
  | allowShape
  /-- An allow pattern is no regular expression. -/
  | allowRegex (pattern : String) (cause : Regex.ReadError)
  /-- The one field of an allow pattern has no meaning. -/
  | allowField (entry : Json)
  /-- The markup rules are not an object. -/
  | rulesNotObject
  /-- A markup rule is neither an object nor a list. -/
  | ruleShape (key : String)
  /-- A flag of a markup rule is not a boolean. -/
  | ruleFlag (key flag : String)
  /-- A list of names is something else. -/
  | notNames (what : String)
  /-- The least length of templates is not a natural number. -/
  | minimum
  /-- The flag for free-standing properties is not a boolean. -/
  | freeStanding
  /-- The name of a notification call is blank. -/
  | emptyCallName
  /-- A segment of the name of a notification call is empty. -/
  | emptyCallSegment (name : String)
deriving Repr

/-- The wording of an option error. -/
def OptionError.message : OptionError → String
  | notObject => "Configuration must be a JSON object"
  | unknown keys => "Unknown configuration keys: " ++ ", ".intercalate keys
  | allowNotList => "'allowPatterns' must be a list"
  | allowShape => "Allow patterns must be strings or objects with one 'regex' or 'substring' key"
  | allowRegex pattern cause =>
    if cause.fault.isNoticed then
      s!"Invalid allow pattern {Text.quoted pattern}: {cause.message pattern}"
    else cause.message pattern
  | allowField entry => "Unsupported allow pattern entry: " ++ entry.literal
  | rulesNotObject => "'markupAttributeRules' must be an object"
  | ruleShape key =>
    s!"Markup rule for {Text.quoted key} must be an object or a list of attribute names"
  | ruleFlag key flag => s!"Markup rule {Text.quoted key}: '{flag}' must be a boolean"
  | notNames what => s!"'{what}' must be a list of strings"
  | minimum => "'minimumStaticTemplateLength' must be a non-negative integer"
  | freeStanding => "'checkFreeStandingProperties' must be a boolean"
  | emptyCallName => "Notification call names must not be empty"
  | emptyCallSegment name => "Notification call name has an empty segment: " ++ Text.quoted name

/-- Whether an error is noticed as one of the configuration.  A fault that is not noticed as one of
an expression is not: it reaches whoever asked for the configuration as it is. -/
def OptionError.isReported : OptionError → Bool
  | allowRegex _ cause => cause.fault.isNoticed
  | _ => true

namespace Options

variable (characters : CharacterNames)

/-- The names of the options. -/
def names : List String := [
  "notificationCallNames", "userFacingPropertyNames", "allowPatterns", "markupAttributeRules",
  "minimumStaticTemplateLength", "checkFreeStandingProperties"]

/-- A list of names; `what` is listed.  Anything in the list is taken as the text it is spelt as. -/
def readNames (what : String) : Json → Except OptionError (List String)
  | .null => .ok []
  | .arr items => .ok (items.map Json.text)
  | _ => .error (.notNames what)

/-- An allow pattern. -/
def readAllowPattern : Json → Except OptionError AllowPattern
  | .str text => .ok (.substring text)
  | .obj [(key, value)] =>
    if key = "substring" then .ok (.substring value.text)
    else if key = "regex" then
      (AllowPattern.ofRegex characters value.text).mapError (.allowRegex value.text)
    else .error (.allowField (.obj [(key, value)]))
  | _ => .error .allowShape

/-- The allow patterns. -/
def readAllow : Option Json → Except OptionError (List AllowPattern)
  | none | some .null => .ok AllowPattern.standard
  | some (.arr items) => items.mapM (readAllowPattern characters)
  | some _ => .error .allowNotList

/-- A flag of a markup rule. -/
def readFlag (key flag : String) (fields : List (String × Json)) :
    Except OptionError (Option Bool) :=
  match fields.lookup flag with
  | none | some .null => .ok none
  | some (.bool b) => .ok (some b)
  | some _ => .error (.ruleFlag key flag)

/-- The markup rule for a key: a list of attributes, or an object that sets some of its parts. -/
def readOverride (key : String) : Json → Except OptionError Override
  | .arr items => .ok { attributes := some (items.map Json.text) }
  | .obj fields => do
    let allowStrings ← readFlag key "allowStrings" fields
    let allowNumbers ← readFlag key "allowNumbers" fields
    let attributes ← match fields.lookup "checkProps" with
      | none | some .null => pure none
      | some value => some <$> readNames key value
    return { attributes, allowStrings, allowNumbers }
  | _ => .error (.ruleShape key)

/-- The markup rules as overrides. -/
def readOverrides (fields : List (String × Json)) : Except OptionError (List (String × Override)) :=
  fields.mapM fun (key, value) ↦ do return (key, ← readOverride key value)

/-- The markup rules. -/
def readPolicies : Option Json → Except OptionError Policies
  | none | some .null => .ok Policies.standard
  | some (.obj fields) => Policies.ofOverrides <$> readOverrides fields
  | some _ => .error .rulesNotObject

/-- The least number of fixed characters of a template. -/
def readMinimum : Option Json → Except OptionError Nat
  | none => .ok Configuration.standardMinimum
  | some (.int (.ofNat n)) => .ok n
  | some _ => .error .minimum

/-- Whether free-standing properties are checked. -/
def readFreeStanding : Option Json → Except OptionError Bool
  | none => .ok false
  | some (.bool b) => .ok b
  | some _ => .error .freeStanding

/-- The pattern of a notification call. -/
def readCall (name : String) : Except OptionError CallPattern :=
  (CallPattern.read name).mapError fun
    | .empty => .emptyCallName
    | .emptySegment => .emptyCallSegment name

/-- The notification calls. -/
def readCalls : Option Json → Except OptionError (List CallPattern)
  | none => .ok CallPattern.standard
  | some value => do (← readNames "notificationCallNames" value).mapM readCall

/-- The user-facing properties. -/
def readProperties : Option Json → Except OptionError (List String)
  | none => .ok (Configuration.sortNames Configuration.standardProperties)
  | some value => Configuration.sortNames <$> readNames "userFacingPropertyNames" value

end Options

namespace Configuration

open Options

variable (characters : CharacterNames)

/-- The configuration that fields write. -/
def ofFields (fields : List (String × Json)) : Except OptionError Configuration := do
  let unknown := (fields.map (·.1)).filter (!Options.names.contains ·)
  unless unknown.isEmpty do
    throw (.unknown (unknown.mergeSort fun a b ↦ decide (a ≤ b)))
  let allow ← readAllow characters (fields.lookup "allowPatterns")
  let policies ← readPolicies (fields.lookup "markupAttributeRules")
  let minimum ← readMinimum (fields.lookup "minimumStaticTemplateLength")
  let freeStanding ← readFreeStanding (fields.lookup "checkFreeStandingProperties")
  let calls ← readCalls (fields.lookup "notificationCallNames")
  let properties ← readProperties (fields.lookup "userFacingPropertyNames")
  return { calls, properties, allow, policies, minimum, freeStanding }

/-- The configuration that a value writes. -/
def ofJson : Json → Except OptionError Configuration
  | .obj fields => ofFields characters fields
  | _ => .error .notObject

end Configuration

end HardcodedText
