import HardcodedText.Node.OfTree

/-!
# The walk through a document

The elements, calls and properties of a document in the order in which they begin.  The walk keeps
a list of the trees that lie ahead, and puts the parts of a tree in front of those after it.
-/

namespace HardcodedText

/-- A tree that lies ahead on a walk. -/
structure Stop where
  /-- The tree. -/
  tree : Tree
  /-- Whether it stands directly in an object literal. -/
  inObject : Bool
deriving Repr, Inhabited

namespace Stop

/-- The parts of a tree as stops. -/
def parts (t : Tree) : List Stop :=
  t.children.map fun c ↦ ⟨c, t.kind == "object"⟩

/-- The number of nodes that lie ahead. -/
def remaining (stops : List Stop) : Nat :=
  Tree.sizes (stops.map Stop.tree)

/-- The node to be looked at when the walk comes to a tree, if any. -/
def node? (doc : Document) (properties : Bool) (s : Stop) : Option Node :=
  if s.tree.isElement then some (Node.elementOfTree doc s.tree)
  else if s.tree.kind = "call_expression" then some (Node.callOfTree doc s.tree)
  else if s.tree.kind = "pair" ∧ properties ∧ s.inObject then some (Node.pairOfTree doc s.tree)
  else none

end Stop

namespace Document

/-- The nodes of the trees that lie ahead. -/
def walk (doc : Document) (properties : Bool) : List Stop → List Node
  | [] => []
  | s :: rest =>
    (s.node? doc properties).toList ++ doc.walk properties (Stop.parts s.tree ++ rest)
termination_by stops => Stop.remaining stops
decreasing_by
  simp only [Stop.remaining, Stop.parts, List.map_append, List.map_map, Tree.sizes_append,
    List.map_cons, Tree.sizes_cons, Tree.size_eq s.tree]
  simp [Function.comp_def]

/-- The elements and calls of a document, and on request its properties. -/
def nodes (doc : Document) (properties : Bool) : List Node :=
  doc.walk properties [⟨doc.root, false⟩]

end Document

end HardcodedText
