import HardcodedText.Finding
import HardcodedText.Node.Basic

/-!
# What a call exposes

The arguments of a notification call are taken apart: arrays and objects are looked into, and spread
ones as if their parts were written out.  What remains are nodes that are arguments or values of
properties.  Whether they are hardcoded is decided later.
-/

namespace HardcodedText

/-- What is met when arguments are taken apart. -/
inductive Exposure
  /-- A property has been looked at. -/
  | inspected (span : Span)
  /-- A node stands in the place of an argument. -/
  | argument (n : Node)
  /-- A node is the value of a property, or part of an array that is its value. -/
  | value (kind : Kind) (key : String) (n : Node)
deriving Repr

namespace Exposure

/-- The span of a property that has been looked at. -/
def span? : Exposure → Option Span
  | inspected span => some span
  | _ => none

/-- The kind of a property of an object at a depth. -/
def propertyKind (depth : Nat) : Kind :=
  if depth = 0 then .objectProperty else .nestedObjectProperty

/-- The value of a property, provided the user gets to see it. -/
def valueOf (shown : Option String → Bool) (kind : Kind) (key : Option String) (n : Node) :
    List Exposure :=
  if shown key then [.value kind (key.getD "") n] else []

mutual

/-- What an argument exposes; `shown` tells which properties the user gets to see. -/
def ofArgument (shown : Option String → Bool) : Node → List Exposure
  | .object _ members => ofMembers shown 0 members
  | .array _ elements => ofArguments shown elements
  | .spread _ (.object _ members) => ofMembers shown 0 members
  | .spread _ (.array _ elements) => ofArguments shown elements
  | .spread _ _ => []
  | n => [.argument n]

/-- What arguments expose. -/
def ofArguments (shown : Option String → Bool) : List Node → List Exposure
  | [] => []
  | n :: rest => ofArgument shown n ++ ofArguments shown rest

/-- What the members of an object at a depth expose. -/
def ofMembers (shown : Option String → Bool) (depth : Nat) : List Node → List Exposure
  | [] => []
  | .spread _ (.object _ members) :: rest =>
    ofMembers shown depth members ++ ofMembers shown depth rest
  | .property site key n :: rest =>
    .inspected site.span :: (ofValue shown depth key n ++ ofMembers shown depth rest)
  | _ :: rest => ofMembers shown depth rest

/-- What the value of a property of an object at a depth exposes. -/
def ofValue (shown : Option String → Bool) (depth : Nat) (key : Option String) :
    Node → List Exposure
  | .object _ members => ofMembers shown (depth + 1) members
  | .array _ elements => ofElements shown (depth + 1) key elements
  | n => valueOf shown (propertyKind depth) key n

/-- What the elements of an array expose that is the value of a property.  Objects among them are
at the given depth. -/
def ofElements (shown : Option String → Bool) (depth : Nat) (key : Option String) :
    List Node → List Exposure
  | [] => []
  | n :: rest => ofElement shown depth key n ++ ofElements shown depth key rest

/-- What an element of such an array exposes. -/
def ofElement (shown : Option String → Bool) (depth : Nat) (key : Option String) :
    Node → List Exposure
  | .object _ members => ofMembers shown depth members
  | .array _ elements => ofElements shown depth key elements
  | .spread _ (.object _ members) => ofMembers shown depth members
  | .spread _ (.array _ elements) => ofElements shown depth key elements
  | .spread _ n => valueOf shown .nestedObjectProperty key n
  | n => valueOf shown .nestedObjectProperty key n

end

end Exposure

end HardcodedText
