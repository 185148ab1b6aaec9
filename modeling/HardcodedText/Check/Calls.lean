import HardcodedText.Check.Exposure
import HardcodedText.Check.Scope
import HardcodedText.SuggestedKey

/-!
# Text in notification calls and properties

The text that notification calls show, and on request the text of properties anywhere else.
-/

namespace HardcodedText

/-- The name of what is called, with dots for members of members.  It is empty if the callee has no
name that is known in advance. -/
def Node.path : Node → String
  | .identifier _ name => name
  | .member _ holder key =>
    match holder.path with
    | "" => ""
    | base => base ++ "." ++ key
  | _ => ""

namespace Scope

/-- The remark on a hardcoded argument of a call. -/
def argumentRemark (call : String) (n : Node) : Remark where
  message := s!"Hardcoded {call} message"
  kind := .callArgument
  value := n.display
  suggestion := call ++ "(t('" ++ suggestedKey call n.display ++ "'))"
  context := some call

/-- The remark on a hardcoded property; `owner` says whose property it is. -/
def propertyRemark (owner : String) (kind : Kind) (key : String) (n : Node) : Remark where
  message := s!"Hardcoded {owner}object property \"{key}\""
  kind := kind
  value := n.display
  suggestion := key ++ ": t('" ++ suggestedKey key n.display ++ "')"
  context := some key

/-- The finding for what a call exposes, provided it is hardcoded. -/
def exposureFinding? (scope : Scope) (call : String) : Exposure → Option Finding
  | .inspected _ => none
  | .argument n =>
    if scope.config.isHardcoded n then some (scope.finding n (argumentRemark call n)) else none
  | .value kind key n =>
    if scope.config.isHardcoded n then
      some (scope.finding n (propertyRemark (call ++ " ") kind key n))
    else none

/-- What a call exposes: nothing, unless it is a notification call. -/
def exposures (scope : Scope) (callee : Node) (arguments : List Node) : List Exposure :=
  if scope.config.notifies callee.path then
    Exposure.ofArguments scope.config.isUserFacing arguments
  else []

/-- The hardcoded text that a call shows. -/
def callFindings (scope : Scope) (callee : Node) (arguments : List Node) : List Finding :=
  (scope.exposures callee arguments).filterMap (scope.exposureFinding? callee.path)

/-- The properties that are looked at in the arguments of a call. -/
def inspectedSpans (scope : Scope) (callee : Node) (arguments : List Node) : List Span :=
  (scope.exposures callee arguments).filterMap Exposure.span?

/-- The remark on an array with hardcoded elements that is the value of a property. -/
def arrayRemark (key : String) (first : Node) (texts : List String) : Remark where
  message := s!"Hardcoded object property \"{key}\""
  kind := .objectProperty
  value := ", ".intercalate texts
  suggestion := key ++ ": [t('" ++ suggestedKey key first.display ++ "'), ...]"
  context := some key

/-- The finding for the value of a user-facing property. -/
def valueFinding? (scope : Scope) (key : String) : Node → Option Finding
  | .array site elements =>
    match elements.filter scope.config.isHardcoded with
    | [] => none
    | first :: more =>
      some (scope.finding (.array site elements)
        (arrayRemark key first ((first :: more).map Node.display)))
  | n =>
    if scope.config.isHardcoded n then
      some (scope.finding n (propertyRemark "" .objectProperty key n))
    else none

/-- The finding for a property that no call is responsible for. -/
def propertyFinding? (scope : Scope) (key : Option String) (n : Node) : Option Finding :=
  if scope.config.isUserFacing key then scope.valueFinding? (key.getD "") n else none

end Scope

end HardcodedText
