import HardcodedText.Markup.CharacterReference
import HardcodedText.Node.Basic
import HardcodedText.Source.StringLiteral
import HardcodedText.Text.Blank

/-!
# From trees to nodes

`Node.ofTree` reads a tree as a value.  It looks through parentheses and over comments, and goes no
deeper than a value reaches: the arguments of a call and the inside of a markup element are read by
`Node.callOfTree` and `Node.elementOfTree` when the call or the element itself is the subject.
-/

namespace HardcodedText

/-- The forms of tree that are told apart where a value stands. -/
inductive Form
  /-- A value in parentheses. -/
  | parentheses
  /-- A quoted string. -/
  | string
  /-- A number. -/
  | number
  /-- A template. -/
  | template
  /-- A name. -/
  | name
  /-- A member of an object. -/
  | member
  /-- An object literal. -/
  | object
  /-- An array literal. -/
  | array
  /-- An object or array to be inserted. -/
  | spread
  /-- A call. -/
  | call
  /-- An expression within markup. -/
  | container
  /-- Anything else. -/
  | other
deriving DecidableEq, Repr

/-- The form of a kind of tree. -/
def Form.ofKind (kind : String) : Form :=
  if kind = "parenthesized_expression" then .parentheses
  else if kind = "string" then .string
  else if kind = "number" then .number
  else if kind = "template_string" then .template
  else if kind = "identifier" ∨ kind = "this" ∨ kind = "undefined" then .name
  else if kind = "member_expression" then .member
  else if kind = "object" then .object
  else if kind = "array" then .array
  else if kind = "spread_element" then .spread
  else if kind = "call_expression" then .call
  else if kind = "jsx_expression" then .container
  else .other

namespace Document

/-- The fixed parts of a template that goes on from `cursor` to `stop`, between the given
substitutions. -/
def fixedParts (doc : Document) (cursor stop : Nat) : List Span → List String
  | [] => [doc.text ⟨cursor, stop⟩]
  | s :: rest => doc.text ⟨cursor, s.start⟩ :: doc.fixedParts s.stop stop rest

/-- The ranges of the substitutions among the parts of a template. -/
def substitutions (parts : List Tree) : List Span :=
  (parts.filter (·.kind == "template_substitution")).map Tree.span

/-- A template, which stands between two marks of one byte each. -/
def template (doc : Document) (span : Span) (parts : List Tree) : Node :=
  let inserted := substitutions parts
  .template (doc.site span) (doc.fixedParts (span.start + 1) (span.stop - 1) inserted)
    inserted.length

/-- The text of the first tree that fills a field. -/
def fieldText? (doc : Document) (field : String) (parts : List Tree) : Option String :=
  (parts.find? fun t ↦ t.head.field == some field).map fun t ↦ doc.text t.span

/-- The name under which a tree in the place of a key files its value: a name or a number as it is
written, or what a string denotes.  Any other key is computed. -/
def keyName? (doc : Document) (key : Tree) : Option String :=
  if key.kind = "property_identifier" ∨ key.kind = "identifier" ∨
      key.kind = "private_property_identifier" ∨ key.kind = "number" then some (doc.text key.span)
  else if key.kind = "string" then some (doc.stringValue key.span)
  else none

/-- The name under which the parts of a property file its value. -/
def key? (doc : Document) (parts : List Tree) : Option String :=
  (parts.find? fun t ↦ t.head.field == some "key").bind doc.keyName?

end Document

namespace Node

/-- A node that stands for a part that is not there. -/
def absent (site : Site) : Node := .other site "missing"

mutual

/-- The node of a tree in the place of a value. -/
def ofTree (doc : Document) : Tree → Node
  | .node head parts =>
    match Form.ofKind head.kind with
    | .parentheses =>
      match ofContent doc parts with
      | [inner] => inner
      | _ => .other (doc.site head.span) head.kind
    | .string => .string (doc.site head.span) (doc.stringValue head.span)
    | .number => .number (doc.site head.span) (doc.text head.span)
    | .template => doc.template head.span parts
    | .name => .identifier (doc.site head.span) (doc.text head.span)
    | .member =>
      match ofField doc "object" parts, doc.fieldText? "property" parts with
      | some holder, some key => .member (doc.site head.span) holder key
      | _, _ => .other (doc.site head.span) head.kind
    | .object => .object (doc.site head.span) (ofMembers doc parts)
    | .array => .array (doc.site head.span) (ofContent doc parts)
    | .spread =>
      match ofContent doc parts with
      | argument :: _ => .spread (doc.site head.span) argument
      | [] => .other (doc.site head.span) head.kind
    | .call =>
      .call (doc.site head.span) ((ofCallee doc parts).getD (absent (doc.site head.span))) []
    | .container => .container (doc.site head.span) (ofContent doc parts).head?
    | .other => .other (doc.site head.span) head.kind

/-- The nodes of the content among the parts of a tree. -/
def ofContent (doc : Document) : List Tree → List Node
  | [] => []
  | t :: rest => if t.isContent then ofTree doc t :: ofContent doc rest else ofContent doc rest

/-- The node of the first part that fills a field. -/
def ofField (doc : Document) (field : String) : List Tree → Option Node
  | [] => none
  | t :: rest => if t.head.field = some field then some (ofTree doc t) else ofField doc field rest

/-- The node of what is called.  The result of another call has no name, so such a call is not
looked into. -/
def ofCallee (doc : Document) : List Tree → Option Node
  | [] => none
  | t :: rest =>
    if t.head.field = some "function" then
      some (if t.kind = "call_expression" then .other (doc.site t.span) t.kind else ofTree doc t)
    else ofCallee doc rest

/-- The nodes of the members of an object literal. -/
def ofMembers (doc : Document) : List Tree → List Node
  | [] => []
  | .node head parts :: rest =>
    if (Tree.node head parts).isContent then
      (if head.kind = "pair" then
        .property (doc.site head.span) (doc.key? parts)
          ((ofField doc "value" parts).getD (absent (doc.site head.span)))
      else if head.kind = "shorthand_property_identifier" then
        .property (doc.site head.span) (some (doc.text head.span))
          (.identifier (doc.site head.span) (doc.text head.span))
      else ofTree doc (.node head parts)) :: ofMembers doc rest
    else ofMembers doc rest

end

/-- The node of a property that is written out. -/
def pairOfTree (doc : Document) (t : Tree) : Node :=
  .property (doc.site t.span) (doc.key? t.children)
    ((ofField doc "value" t.children).getD (absent (doc.site t.span)))

/-- The node of a call together with its arguments. -/
def callOfTree (doc : Document) (t : Tree) : Node :=
  let arguments := match t.child? "arguments" with
    | some list => if list.kind = "arguments" then ofContent doc list.children else []
    | none => []
  .call (doc.site t.span) ((ofCallee doc t.children).getD (absent (doc.site t.span))) arguments

/-- Text within markup that covers a range of bytes.  It stands where its first byte stands that is
not blank, and its character references are replaced. -/
def textOfSpan (doc : Document) (span : Span) : Node :=
  let leading := ((doc.slice span).takeWhile Text.isBlankByte).length
  .text ⟨doc.position (span.start + leading), span⟩
    (.ofList (CharacterReference.decodeChars (doc.chars span)))

/-- The value of an attribute.  A string has character references and no escapes; elements are not
looked into. -/
def attributeValue (doc : Document) (t : Tree) : Node :=
  if t.kind = "string" then
    .string (doc.site t.span)
      (.ofList (CharacterReference.decodeChars ((doc.chars t.span).drop 1).dropLast))
  else if t.isElement then .other (doc.site t.span) t.kind
  else ofTree doc t

/-- An attribute of a markup element: its first part is the name and its second the value. -/
def attributeOfTree (doc : Document) (t : Tree) : Attribute Node where
  site := doc.site t.span
  name := match t.content with
    | name :: _ => doc.text name.span
    | [] => ""
  value := match t.content with
    | _ :: value :: _ => some (attributeValue doc value)
    | _ => none

/-- What a tree between the tags of an element contributes.  Tags, punctuation and comments
contribute nothing, and elements are not looked into. -/
def childOfTree? (doc : Document) (t : Tree) : Option Node :=
  if t.kind = "jsx_opening_element" ∨ t.kind = "jsx_closing_element" ∨ !t.head.named then none
  else if t.isElement then some (.other (doc.site t.span) t.kind)
  else if t.isComment then none
  else some (ofTree doc t)

/-- The nodes between the tags of an element.  Adjacent pieces of text form one run; `run` is what
the run before the given trees covers. -/
def childrenOfTrees (doc : Document) (run : Option Span) : List Tree → List Node
  | [] => (run.map (textOfSpan doc)).toList
  | t :: rest =>
    if t.isText then
      childrenOfTrees doc (some ⟨(run.map Span.start).getD t.span.start, t.span.stop⟩) rest
    else
      (run.map (textOfSpan doc)).toList ++ (childOfTree? doc t).toList ++
        childrenOfTrees doc none rest

/-- The tag that opens an element. -/
def openingTag? (t : Tree) : Option Tree :=
  if t.kind = "jsx_self_closing_element" then some t
  else (t.child? "open_tag").or (t.children.find? (·.kind == "jsx_opening_element"))

/-- The node of a markup element. -/
def elementOfTree (doc : Document) (t : Tree) : Node :=
  let tag := openingTag? t
  let name := ((tag.bind (·.child? "name")).map fun name ↦ doc.text name.span).getD ""
  let attributes := (tag.map Tree.children).getD [] |>.filter fun c ↦
    c.head.named && c.kind == "jsx_attribute"
  .element (doc.site t.span) name (attributes.map (attributeOfTree doc))
    (if t.kind = "jsx_self_closing_element" then [] else childrenOfTrees doc none t.children)

theorem ofContent_eq (doc : Document) (ts : List Tree) :
    ofContent doc ts = (ts.filter Tree.isContent).map (ofTree doc) := by
  induction ts with
  | nil => rfl
  | cons t ts ih =>
    rw [ofContent, List.filter_cons, ih]
    split <;> simp

theorem ofField_eq (doc : Document) (field : String) (ts : List Tree) :
    ofField doc field ts =
      (ts.find? fun t ↦ t.head.field == some field).map (ofTree doc) := by
  induction ts with
  | nil => rfl
  | cons t ts ih =>
    by_cases h : t.head.field = some field <;> simp [ofField, h, ih]

end Node

end HardcodedText
