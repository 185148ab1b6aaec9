/-!
# Findings

A finding is one hardcoded text, with its place, the rule that it breaks, and what to write instead.
-/

namespace HardcodedText

/-- The two families of rules. -/
inductive Check
  /-- Text and attributes of markup elements. -/
  | markup
  /-- Notification calls and object properties. -/
  | calls
deriving DecidableEq, Repr, Inhabited

namespace Check

/-- All checks, in the order in which they are listed. -/
def all : List Check := [markup, calls]

/-- The name of a check. -/
def name : Check → String
  | markup => "markup"
  | calls => "calls"

/-- The check of a name. -/
def ofName? (name : String) : Option Check :=
  all.find? (·.name == name)

@[simp] theorem ofName?_name (c : Check) : ofName? c.name = some c := by
  cases c <;> rfl

end Check

/-- Where a hardcoded text stands. -/
inductive Kind
  /-- Between the tags of an element. -/
  | markupText
  /-- In an attribute of an element. -/
  | markupAttribute
  /-- In an argument of a notification call. -/
  | callArgument
  /-- In a property of an object. -/
  | objectProperty
  /-- In a property of an object within an object. -/
  | nestedObjectProperty
  /-- Somewhere else, under a label of its own. -/
  | other (label : String)
deriving DecidableEq, Repr, Inhabited

namespace Kind

/-- The label of a kind. -/
def label : Kind → String
  | markupText => "markup-text"
  | markupAttribute => "markup-attribute"
  | callArgument => "call-argument"
  | objectProperty => "object-property"
  | nestedObjectProperty => "nested-object-property"
  | other label => label

/-- The kind with a label. -/
def ofLabel (label : String) : Kind :=
  ([markupText, markupAttribute, callArgument, objectProperty, nestedObjectProperty].find?
    (·.label == label)).getD (other label)

/-- The check that a kind belongs to. -/
def check : Kind → Check
  | markupText | markupAttribute => .markup
  | _ => .calls

end Kind

/-- A hardcoded text. -/
structure Finding where
  /-- The file. -/
  path : String
  /-- The line, from 1. -/
  line : Int
  /-- The number of characters before it in the line. -/
  column : Int
  /-- What is wrong. -/
  message : String
  /-- Where it stands. -/
  kind : Kind
  /-- The text. -/
  value : String
  /-- What to write instead. -/
  suggestion : String
  /-- The name of the call, property, attribute or element that it belongs to. -/
  context : Option String
deriving DecidableEq, Repr, Inhabited

namespace Finding

/-- The check that made a finding. -/
def check (f : Finding) : Check := f.kind.check

/-- What tells findings of a file apart: two findings with the same key are one. -/
structure Key where
  /-- The line. -/
  line : Int
  /-- The column. -/
  column : Int
  /-- Where the text stands. -/
  kind : Kind
  /-- The text. -/
  value : String
deriving DecidableEq, Repr

/-- The key of a finding. -/
def key (f : Finding) : Key := ⟨f.line, f.column, f.kind, f.value⟩

/-- Whether a finding stands at or before the place of another one. -/
def atOrBefore (f g : Finding) : Bool :=
  f.line < g.line || (f.line == g.line && f.column ≤ g.column)

/-- The first finding for each key that is not among those `seen`. -/
def firstsFrom (seen : List Key) : List Finding → List Finding
  | [] => []
  | f :: rest =>
    if f.key ∈ seen then firstsFrom seen rest else f :: firstsFrom (f.key :: seen) rest

/-- The first finding for each key. -/
def firsts (fs : List Finding) : List Finding :=
  firstsFrom [] fs

/-- Findings in the order of their places.  Those at one place stay in order. -/
def sort (fs : List Finding) : List Finding :=
  fs.mergeSort atOrBefore

end Finding

end HardcodedText
