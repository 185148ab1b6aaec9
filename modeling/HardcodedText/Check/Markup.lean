import HardcodedText.Check.Scope
import HardcodedText.SuggestedKey

/-!
# Text in markup

The text between the tags of an element and in those attributes that its policy names.  The policy
goes by the name of the element: a plain element has a policy under its name, a component under the
name of its export, qualified by the module it is imported from, or under its own name.
-/

namespace HardcodedText

/-- Whether a name is that of a plain element: it has no dots and begins with a small letter. -/
def isPlainTag (name : String) : Bool :=
  !name.toList.contains '.' && name.toList.head?.any Text.isLower

namespace Scope

/-- The import of a name.  A later import hides an earlier one. -/
def import? (scope : Scope) (name : String) : Option Import :=
  scope.imports.reverse.find? (·.localName == name)

/-- The name of a component up to its first dot. -/
def rootName (name : String) : String :=
  .ofList (name.toList.takeWhile (· != '.'))

/-- The name of a component from its first dot on. -/
def dottedRest (name : String) : List Char :=
  name.toList.dropWhile (· != '.')

/-- The name of a component qualified by the module that it is imported from. -/
def qualifiedKey? (scope : Scope) (name : String) : Option String :=
  match scope.import? (rootName name) with
  | none => none
  | some i =>
    let rest := dottedRest name
    if i.exported = "*" then
      if rest.tail.isEmpty then none else some (i.source ++ ":" ++ .ofList rest.tail)
    else if rest.tail.isEmpty then some (i.source ++ ":" ++ i.exported)
    else some (i.source ++ ":" ++ i.exported ++ .ofList rest)

/-- The keys under which the policy of a component may be found, in this order. -/
def policyKeys (scope : Scope) (name : String) : List String :=
  (scope.qualifiedKey? name).toList ++ [name]

/-- The policy of an element. -/
def policyOf (scope : Scope) (name : String) : Policy :=
  let policies := scope.config.policies
  if name = "" then policies.fallback
  else if isPlainTag name then (policies.elements.lookup name).getD policies.fallback
  else
    ((scope.policyKeys name).findSome? fun key ↦ policies.components.lookup key).getD
      policies.fallback

/-- The remark on hardcoded text in an element. -/
def textRemark (name : String) (n : Node) : Remark :=
  let tag := if name = "" then "fragment" else name
  { message := s!"Hardcoded text in <{tag}>"
    kind := .markupText
    value := n.display
    suggestion := "\x7bt('" ++ suggestedKey tag n.display ++ "')\x7d"
    context := if name = "" then none else some name }

/-- The remark on hardcoded text in an attribute. -/
def attributeRemark (name : String) (n : Node) : Remark where
  message := s!"Hardcoded markup attribute \"{name}\""
  kind := .markupAttribute
  value := n.display
  suggestion := name ++ "=\x7bt('" ++ suggestedKey name n.display ++ "')\x7d"
  context := some name

/-- The hardcoded text between the tags of an element. -/
def textFindings (scope : Scope) (name : String) (children : List Node) : List Finding :=
  (children.filter (scope.config.isRefused (scope.policyOf name))).map fun n ↦
    scope.finding n (textRemark name n)

/-- The finding for an attribute of an element under a policy. -/
def attributeFinding? (scope : Scope) (policy : Policy) (a : Attribute Node) : Option Finding :=
  match a.value with
  | some n =>
    if policy.attributes.contains a.name && scope.config.isRefused policy n then
      some (scope.finding n (attributeRemark a.name n))
    else none
  | none => none

/-- The hardcoded text in the attributes of an element. -/
def attributeFindings (scope : Scope) (name : String) (attributes : List (Attribute Node)) :
    List Finding :=
  attributes.filterMap (scope.attributeFinding? (scope.policyOf name))

end Scope

end HardcodedText
