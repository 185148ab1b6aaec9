import HardcodedText.Finding
import HardcodedText.Node.Display
import HardcodedText.Rule.Configuration
import HardcodedText.Source.Import

/-!
# Hardcoded text

Which nodes are literal text that did not come from a lookup, and what is needed to say so: the
rules, and the file with the names that it imports.
-/

namespace HardcodedText

/-- What the checks of a file go by. -/
structure Scope where
  /-- The rules. -/
  config : Configuration
  /-- The file. -/
  path : String
  /-- The names that the file imports. -/
  imports : List Import

/-- What a finding says about a text, apart from its place. -/
structure Remark where
  /-- What is wrong. -/
  message : String
  /-- Where the text stands. -/
  kind : Kind
  /-- The text. -/
  value : String
  /-- What to write instead. -/
  suggestion : String
  /-- The name of the call, property, attribute or element that it belongs to. -/
  context : Option String

namespace Configuration

/-- Whether a template counts as hardcoded text.  With expressions in it, only the number of its
fixed characters decides. -/
def isHardcodedTemplate (config : Configuration) (parts : List String) (expressions : Nat) :
    Bool :=
  if expressions = 0 then !config.allows (parts.headD "")
  else config.minimum ≤ Node.fixedLength parts

/-- Whether a value is hardcoded text. -/
def isHardcoded (config : Configuration) : Node → Bool
  | .string _ value => !config.allows value
  | .template _ parts expressions => config.isHardcodedTemplate parts expressions
  | .container _ (some n) => config.isHardcoded n
  | _ => false

/-- Whether a part of an element is hardcoded against the policy of the element. -/
def isRefused (config : Configuration) (policy : Policy) : Node → Bool
  | .text _ value | .string _ value =>
    !policy.allowStrings && !config.allows (Text.strip value)
  | .number _ _ => !policy.allowNumbers
  | .template _ parts expressions =>
    !policy.allowStrings && config.isHardcodedTemplate parts expressions
  | .container _ (some n) => config.isRefused policy n
  | _ => false

end Configuration

namespace Scope

/-- The finding that makes a remark on a node. -/
def finding (scope : Scope) (n : Node) (remark : Remark) : Finding where
  path := scope.path
  line := n.position.line
  column := n.position.column
  message := remark.message
  kind := remark.kind
  value := remark.value
  suggestion := remark.suggestion
  context := remark.context

end Scope

end HardcodedText
