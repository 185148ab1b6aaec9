import HardcodedText.Node.Walk
import HardcodedText.Proofs.Source.Tree

/-!
# The walk and the order of the document

The walk keeps a list of the trees that lie ahead.  `Document.walk_eq` says that it comes upon the
same nodes as a recursion that takes a tree before its parts and the parts in order (`Tree.stops`),
so the stops of a walk can be told by the paths to them: all stops before a path, the stop at it,
and all after it (`Tree.exists_stops_eq_append`).
-/

namespace HardcodedText

namespace Tree

mutual

/-- The stops of a walk through a tree, in order. -/
def stops (inObject : Bool) : Tree → List Stop
  | .node head children =>
    ⟨.node head children, inObject⟩ :: stopsOf (head.kind == "object") children

/-- The stops of a walk through several trees. -/
def stopsOf (inObject : Bool) : List Tree → List Stop
  | [] => []
  | t :: ts => t.stops inObject ++ stopsOf inObject ts

end

theorem stops_eq (inObject : Bool) (t : Tree) :
    t.stops inObject = ⟨t, inObject⟩ :: stopsOf (t.kind == "object") t.children := by
  cases t with
  | node head children => rw [stops]; rfl

theorem stopsOf_eq_flatMap (inObject : Bool) (ts : List Tree) :
    stopsOf inObject ts = ts.flatMap (stops inObject) := by
  induction ts with
  | nil => rfl
  | cons t ts ih => rw [stopsOf, ih, List.flatMap_cons]

theorem stopsOf_append (inObject : Bool) (ts us : List Tree) :
    stopsOf inObject (ts ++ us) = stopsOf inObject ts ++ stopsOf inObject us := by
  simp [stopsOf_eq_flatMap]

theorem within_of_mem_stops {t : Tree} {b : Bool} {s : Stop} (h : s ∈ t.stops b) :
    s.tree.Within t := by
  induction t using Tree.induct generalizing b with
  | step t ih =>
    rw [stops_eq, List.mem_cons, stopsOf_eq_flatMap, List.mem_flatMap] at h
    rcases h with rfl | ⟨c, hc, hs⟩
    · exact .refl _
    · exact (ih c hc hs).trans (.inr (.child hc))

/-! ## Stops by their paths -/

/-- The stops of a walk before it comes to the tree at a path. -/
def stopsBefore (inObject : Bool) (t : Tree) : List Nat → List Stop
  | [] => []
  | i :: p =>
    ⟨t, inObject⟩ :: (stopsOf (t.kind == "object") (t.children.take i) ++
      (t.children[i]?.map (stopsBefore (t.kind == "object") · p)).getD [])

/-- The stops of a walk after it has come to the tree at a path. -/
def stopsAfter (t : Tree) : List Nat → List Stop
  | [] => stopsOf (t.kind == "object") t.children
  | i :: p =>
    (t.children[i]?.map (stopsAfter · p)).getD [] ++
      stopsOf (t.kind == "object") (t.children.drop (i + 1))

/-- A walk comes to the tree at a path between what is before it and what is after it. -/
theorem exists_stops_eq_append {t u : Tree} {p : List Nat} (h : t.at? p = some u)
    (inObject : Bool) :
    ∃ b, t.stops inObject = t.stopsBefore inObject p ++ ⟨u, b⟩ :: t.stopsAfter p := by
  induction p generalizing t inObject with
  | nil =>
    cases h
    exact ⟨inObject, stops_eq inObject u⟩
  | cons i p ih =>
    rw [at?_cons, Option.bind_eq_some_iff] at h
    obtain ⟨c, hc, hu⟩ := h
    obtain ⟨b, hb⟩ := ih hu (t.kind == "object")
    refine ⟨b, ?_⟩
    have hsplit : t.children = t.children.take i ++ c :: t.children.drop (i + 1) := by
      obtain ⟨hi, rfl⟩ := List.getElem?_eq_some_iff.mp hc
      simp
    have hchildren := congrArg (stopsOf (t.kind == "object")) hsplit
    rw [stopsOf_append, stopsOf, hb] at hchildren
    rw [stops_eq, hchildren, stopsBefore, stopsAfter, hc]
    simp

/-- A walk comes to a tree before it comes to the parts of it. -/
theorem exists_mem_stopsBefore {t u : Tree} {p q : List Nat} (h : t.at? p = some u) (hq : q ≠ [])
    (inObject : Bool) : ∃ b, ⟨u, b⟩ ∈ t.stopsBefore inObject (p ++ q) := by
  induction p generalizing t inObject with
  | nil =>
    cases h
    cases q with
    | nil => exact absurd rfl hq
    | cons i q => exact ⟨inObject, List.mem_cons_self⟩
  | cons i p ih =>
    rw [at?_cons, Option.bind_eq_some_iff] at h
    obtain ⟨c, hc, hu⟩ := h
    obtain ⟨b, hb⟩ := ih hu (t.kind == "object")
    refine ⟨b, ?_⟩
    rw [List.cons_append, stopsBefore, hc]
    exact List.mem_cons_of_mem _ (List.mem_append_right _ hb)

end Tree

namespace Document

theorem walk_eq (doc : Document) (properties : Bool) (stops : List Stop) :
    doc.walk properties stops =
      (stops.flatMap fun s ↦ s.tree.stops s.inObject).filterMap (·.node? doc properties) := by
  fun_induction Document.walk with
  | case1 => rfl
  | case2 s rest ih =>
    rw [ih, List.flatMap_append, List.flatMap_cons, Tree.stops_eq, Tree.stopsOf_eq_flatMap,
      List.cons_append, List.filterMap_cons, Stop.parts, List.flatMap_map]
    cases s.node? doc properties <;> rfl

theorem nodes_eq (doc : Document) (properties : Bool) :
    doc.nodes properties = (doc.root.stops false).filterMap (·.node? doc properties) := by
  rw [nodes, walk_eq, List.flatMap_singleton]

/-- The nodes that a walk comes upon before the tree at a path, properties included. -/
def nodesBefore (doc : Document) (p : List Nat) : List Node :=
  (doc.root.stopsBefore false p).filterMap (·.node? doc true)

/-- The nodes that a walk comes upon after the tree at a path, properties included. -/
def nodesAfter (doc : Document) (p : List Nat) : List Node :=
  (doc.root.stopsAfter p).filterMap (·.node? doc true)

theorem exists_nodes_eq_append {doc : Document} {p : List Nat} {t : Tree}
    (h : doc.root.at? p = some t) :
    ∃ b, doc.nodes true =
      doc.nodesBefore p ++ ((⟨t, b⟩ : Stop).node? doc true).toList ++ doc.nodesAfter p := by
  obtain ⟨b, hb⟩ := Tree.exists_stops_eq_append h false
  refine ⟨b, ?_⟩
  rw [nodes_eq, hb, List.filterMap_append, List.filterMap_cons, nodesBefore, nodesAfter]
  cases (⟨t, b⟩ : Stop).node? doc true <;> simp

end Document

end HardcodedText
