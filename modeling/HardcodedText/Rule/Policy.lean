import HardcodedText.Text.LetterCase

/-!
# Markup policies

A policy says which attributes of an element are shown to the user, and whether text and numbers may
be hardcoded in it.  Overrides change some of that for elements and components of a given name.
-/

namespace HardcodedText

/-- What is checked in an element. -/
structure Policy where
  /-- The attributes that the user gets to see. -/
  attributes : List String
  /-- Whether text may be hardcoded. -/
  allowStrings : Bool := false
  /-- Whether numbers may be hardcoded. -/
  allowNumbers : Bool := true
deriving DecidableEq, Repr, Inhabited

/-- Changes to a policy; what is not set stays. -/
structure Override where
  /-- The attributes that the user gets to see. -/
  attributes : Option (List String) := none
  /-- Whether text may be hardcoded. -/
  allowStrings : Option Bool := none
  /-- Whether numbers may be hardcoded. -/
  allowNumbers : Option Bool := none
deriving DecidableEq, Repr, Inhabited

/-- A policy with changes made to it. -/
def Override.apply (o : Override) (base : Policy) : Policy where
  attributes := o.attributes.getD base.attributes
  allowStrings := o.allowStrings.getD base.allowStrings
  allowNumbers := o.allowNumbers.getD base.allowNumbers

/-- Policies by name of element. -/
structure Policies where
  /-- The policy of every element that has none of its own. -/
  fallback : Policy
  /-- The policies of plain elements. -/
  elements : List (String × Policy)
  /-- The policies of components. -/
  components : List (String × Policy)
deriving DecidableEq, Repr, Inhabited

namespace Policies

/-- The policy from which all others derive. -/
def base : Policy where
  attributes := [
    "title", "aria-label", "alt", "placeholder", "data-tooltip", "data-title", "data-message",
    "data-content"]

/-- The overrides of plain elements that hold unless others are given for them. -/
def builtIn : List (String × Override) := [
  ("img", { attributes := some ["alt", "title", "aria-label"] }),
  ("input", { attributes := some ["placeholder", "title", "aria-label"] }),
  ("button", { attributes := some ["title", "aria-label"] }),
  ("a", { attributes := some ["title", "aria-label"] }),
  ("area", { attributes := some ["alt", "title", "aria-label"] })]

/-- The name under which the policy of all elements is changed. -/
def fallbackKey : String := "default"

/-- Whether a name belongs to a component: it begins with a capital letter, or a colon in it divides
a module from a name therein. -/
def namesComponent (key : String) : Bool :=
  key.toList.contains ':' || key.toList.head?.any Text.isUpper

/-- The given overrides together with the built-in ones that they do not replace. -/
def withBuiltIn (given : List (String × Override)) : List (String × Override) :=
  given ++ builtIn.filter fun (tag, _) ↦ !given.any (·.1 == tag)

/-- The policy of every element that has none of its own. -/
def fallbackOf (overrides : List (String × Override)) : Policy :=
  ((overrides.lookup fallbackKey).getD {}).apply base

/-- The policies that overrides give rise to. -/
def ofOverrides (given : List (String × Override)) : Policies :=
  let overrides := withBuiltIn given
  let fallback := fallbackOf overrides
  let named := (overrides.filter (·.1 != fallbackKey)).map fun (key, o) ↦ (key, o.apply fallback)
  { fallback := fallback
    elements := named.filter fun (key, _) ↦ !namesComponent key
    components := named.filter fun (key, _) ↦ namesComponent key }

/-- The policies that hold unless overrides are given. -/
def standard : Policies := ofOverrides []

end Policies

end HardcodedText
