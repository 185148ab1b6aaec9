/-!
# Concrete trees

What a parser of scripts and their markup delivers: every node has a kind, covers a range of bytes,
and may fill a named field of the node above it.  Parentheses, commas and the like are nodes, too,
but not *named* ones.  Nothing is assumed about the ranges.
-/

namespace HardcodedText

/-- A range of bytes: from `start` up to but not including `stop`. -/
structure Span where
  /-- The first byte. -/
  start : Nat
  /-- The byte after the last one. -/
  stop : Nat
deriving DecidableEq, Repr, Inhabited

/-- What a node of a tree says of itself. -/
structure Tree.Head where
  /-- The kind of construct. -/
  kind : String
  /-- The bytes that the node covers. -/
  span : Span
  /-- Whether the node is a construct of its own and not mere punctuation. -/
  named : Bool := true
  /-- Whether the parser made the node up to go on. -/
  missing : Bool := false
  /-- Whether the parser marked a fault at or below the node. -/
  faulty : Bool := false
  /-- The field of the parent that the node fills. -/
  field : Option String := none
deriving DecidableEq, Repr, Inhabited

/-- A tree. -/
inductive Tree
  | node (head : Tree.Head) (children : List Tree)
deriving Repr, Inhabited

namespace Tree

/-- The tree of a text in which nothing is told apart. -/
def blank : Tree := .node { kind := "program", span := ⟨0, 0⟩ } []

/-- What the root says of itself. -/
def head : Tree → Head
  | .node head _ => head

/-- The trees below the root. -/
def children : Tree → List Tree
  | .node _ children => children

@[simp] theorem head_node (head : Head) (children : List Tree) : (node head children).head = head :=
  rfl

@[simp] theorem children_node (head : Head) (children : List Tree) :
    (node head children).children = children := rfl

/-- The kind of the root. -/
def kind (t : Tree) : String := t.head.kind

/-- The bytes that the tree covers. -/
def span (t : Tree) : Span := t.head.span

/-- Comments, which say nothing to a user. -/
def isComment (t : Tree) : Bool :=
  t.kind == "comment" || t.kind == "html_comment"

/-- Whether a tree is a named construct other than a comment. -/
def isContent (t : Tree) : Bool :=
  t.head.named && !t.isComment

/-- The named constructs below the root, comments left out. -/
def content (t : Tree) : List Tree :=
  t.children.filter isContent

/-- The first tree below the root that fills a field. -/
def child? (t : Tree) (field : String) : Option Tree :=
  t.children.find? fun c ↦ c.head.field == some field

/-- A markup element in one of its three forms. -/
def isElement (t : Tree) : Bool :=
  t.kind == "jsx_element" || t.kind == "jsx_self_closing_element" || t.kind == "jsx_fragment"

/-- Text between markup elements. -/
def isText (t : Tree) : Bool :=
  t.kind == "jsx_text" || t.kind == "html_character_reference"

mutual

/-- The number of nodes of a tree. -/
def size : Tree → Nat
  | .node _ children => sizes children + 1

/-- The number of nodes of several trees. -/
def sizes : List Tree → Nat
  | [] => 0
  | t :: ts => size t + sizes ts

end

@[simp] theorem sizes_nil : sizes [] = 0 := rfl

@[simp] theorem sizes_cons (t : Tree) (ts : List Tree) : sizes (t :: ts) = size t + sizes ts := rfl

@[simp] theorem sizes_append (ts us : List Tree) : sizes (ts ++ us) = sizes ts + sizes us := by
  induction ts with
  | nil => simp
  | cons t ts ih => simp [ih, Nat.add_assoc]

theorem size_eq (t : Tree) : size t = sizes t.children + 1 := by
  cases t
  simp [size]

/-- Whether the node itself is a fault. -/
def isFault (t : Tree) : Bool :=
  t.kind == "ERROR" || t.head.missing

/-- The first fault among the given trees in document order.  Only nodes that are marked as faulty
are looked into. -/
def firstFault? : List Tree → Option Tree
  | [] => none
  | t :: rest =>
    if t.isFault then some t
    else if t.head.faulty then firstFault? (t.children ++ rest)
    else firstFault? rest
termination_by trees => sizes trees
decreasing_by
  all_goals simp only [sizes_append, sizes_cons, size_eq]
  all_goals omega

end Tree

end HardcodedText
