import HardcodedText.Source.Document

/-!
# Nodes

The constructs of a document that the rules tell apart, each with the site where it stands.  What
the rules have no use for is an `other` node, so a reading of a node by cases is complete.
-/

namespace HardcodedText

/-- An attribute of a markup element, whose value is a `ν`. -/
structure Attribute (ν : Type) where
  /-- Where the attribute stands. -/
  site : Site
  /-- Its name. -/
  name : String
  /-- Its value, unless the name stands alone. -/
  value : Option ν
deriving Repr, Inhabited

/-- A construct of a document. -/
inductive Node
  /-- A quoted string, with the text that it denotes. -/
  | string (site : Site) (value : String)
  /-- A number as it is written. -/
  | number (site : Site) (raw : String)
  /-- A template: its fixed parts, and how many expressions stand between them. -/
  | template (site : Site) (parts : List String) (expressions : Nat)
  /-- A name. -/
  | identifier (site : Site) (name : String)
  /-- A member of an object. -/
  | member (site : Site) (object : Node) (property : String)
  /-- An object or array whose parts are inserted here. -/
  | spread (site : Site) (argument : Node)
  /-- A property of an object literal.  A computed key is not known. -/
  | property (site : Site) (key : Option String) (value : Node)
  /-- An object literal. -/
  | object (site : Site) (members : List Node)
  /-- An array literal. -/
  | array (site : Site) (elements : List Node)
  /-- A call. -/
  | call (site : Site) (callee : Node) (arguments : List Node)
  /-- An expression within markup, which may be left out. -/
  | container (site : Site) (expression : Option Node)
  /-- Text within markup. -/
  | text (site : Site) (value : String)
  /-- A markup element.  The name of a fragment is empty. -/
  | element (site : Site) (name : String) (attributes : List (Attribute Node))
      (children : List Node)
  /-- Any other construct, by its kind. -/
  | other (site : Site) (kind : String)
deriving Repr

namespace Node

instance : Inhabited Node := ⟨.other default ""⟩

/-- Where a node stands. -/
def site : Node → Site
  | string site _ | number site _ | template site _ _ | identifier site _ | member site _ _
  | spread site _ | property site _ _ | object site _ | array site _ | call site _ _
  | container site _ | text site _ | element site _ _ _ | other site _ => site

/-- The place of a node in the text. -/
def position (n : Node) : Position := n.site.position

/-- The bytes that a node covers. -/
def span (n : Node) : Span := n.site.span

end Node

end HardcodedText
