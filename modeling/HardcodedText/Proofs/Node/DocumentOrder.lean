import Mathlib.Logic.Function.Iterate
import HardcodedText.Proofs.Node.Walk

/-!
# The walk in the order of the document

A walk keeps a list of the trees that lie ahead.  Each turn takes the first of them and puts its
parts in its place (`Stop.turn`), so that after some turns the trees still to come are those that a
recursion would come to after as many (`Stop.ahead_turns`), and the walk ends after one turn for
each node of the tree (`Stop.turns_eq_nil_iff`).

Where the recursion comes to a tree is told by the path to it (`Tree.visits`): paths in alphabetical
order are the order of the document, since a path stands before its continuations.  Main statement:
`Document.nodes_in_document_order`.
-/

namespace HardcodedText

/-! ## Turn by turn -/

namespace Stop

/-- What lies ahead after one turn of a walk. -/
def turn : List Stop → List Stop
  | [] => []
  | s :: rest => parts s.tree ++ rest

/-- The stops that are still to come, in the order of a recursion. -/
def ahead (stops : List Stop) : List Stop :=
  stops.flatMap fun s ↦ s.tree.stops s.inObject

/-- A turn takes the next stop off what is still to come. -/
theorem ahead_turn (stops : List Stop) : ahead (turn stops) = (ahead stops).tail := by
  cases stops with
  | nil => rfl
  | cons s rest =>
    rw [turn, ahead, ahead, List.flatMap_append, List.flatMap_cons, Tree.stops_eq,
      Tree.stopsOf_eq_flatMap, List.cons_append, List.tail_cons, parts, List.flatMap_map]

theorem ahead_turns (n : Nat) (stops : List Stop) :
    ahead (turn^[n] stops) = (ahead stops).drop n := by
  induction n with
  | zero => rfl
  | succ n ih => rw [Function.iterate_succ_apply', ahead_turn, ih, List.tail_drop]

theorem ahead_eq_nil_iff {stops : List Stop} : ahead stops = [] ↔ stops = [] := by
  cases stops with
  | nil => simp [ahead]
  | cons s rest => simp [ahead, Tree.stops_eq]

end Stop

namespace Tree

mutual

theorem length_stops (inObject : Bool) : (t : Tree) → (t.stops inObject).length = t.size
  | .node head children => by rw [stops, List.length_cons, length_stopsOf, size]

theorem length_stopsOf (inObject : Bool) :
    (ts : List Tree) → (stopsOf inObject ts).length = sizes ts
  | [] => rfl
  | t :: ts => by
    rw [stopsOf, List.length_append, length_stops, length_stopsOf, sizes_cons]

end

end Tree

theorem Stop.turns_eq_nil_iff (t : Tree) (inObject : Bool) (n : Nat) :
    turn^[n] [⟨t, inObject⟩] = [] ↔ t.size ≤ n := by
  rw [← ahead_eq_nil_iff, ahead_turns, List.drop_eq_nil_iff, ahead, List.flatMap_singleton,
    Tree.length_stops]

/-- The first turns of a walk come upon the nodes of as many stops, and the rest of the walk goes on
with what lies ahead then. -/
theorem Document.nodes_eq_append_walk (doc : Document) (properties : Bool) (n : Nat) :
    doc.nodes properties =
      ((doc.root.stops false).take n).filterMap (·.node? doc properties) ++
        doc.walk properties (Stop.turn^[n] [⟨doc.root, false⟩]) := by
  have hrest := Stop.ahead_turns n [⟨doc.root, false⟩]
  rw [Stop.ahead, Stop.ahead, List.flatMap_singleton] at hrest
  rw [walk_eq, hrest, ← List.filterMap_append, List.take_append_drop, nodes_eq]

/-! ## Stops and the paths to them -/

namespace Tree

mutual

/-- The stops of a walk through a tree with the paths to them. -/
def visits (inObject : Bool) : Tree → List (List Nat × Stop)
  | .node head children =>
    ([], ⟨.node head children, inObject⟩) :: visitsFrom (head.kind == "object") 0 children

/-- The stops of a walk through several trees, which are numbered from `i` on. -/
def visitsFrom (inObject : Bool) (i : Nat) : List Tree → List (List Nat × Stop)
  | [] => []
  | t :: ts =>
    (t.visits inObject).map (fun (p, s) ↦ (i :: p, s)) ++ visitsFrom inObject (i + 1) ts

end

theorem visits_eq (inObject : Bool) (t : Tree) :
    t.visits inObject =
      ([], ⟨t, inObject⟩) :: visitsFrom (t.kind == "object") 0 t.children := by
  cases t with
  | node head children => rw [visits]; rfl

mutual

theorem map_snd_visits (inObject : Bool) :
    (t : Tree) → (t.visits inObject).map Prod.snd = t.stops inObject
  | .node head children => by rw [visits, List.map_cons, map_snd_visitsFrom, stops]

theorem map_snd_visitsFrom (inObject : Bool) (i : Nat) :
    (ts : List Tree) → (visitsFrom inObject i ts).map Prod.snd = stopsOf inObject ts
  | [] => rfl
  | t :: ts => by
    rw [visitsFrom, List.map_append, List.map_map, map_snd_visitsFrom, stopsOf,
      ← map_snd_visits inObject t]
    rfl

end

/-- The stop at a path. -/
def stopAt? (inObject : Bool) (t : Tree) : List Nat → Option Stop
  | [] => some ⟨t, inObject⟩
  | i :: p => t.children[i]?.bind fun c ↦ c.stopAt? (t.kind == "object") p

theorem mem_visitsFrom_iff {inObject : Bool} {i : Nat} {ts : List Tree} {p : List Nat} {s : Stop} :
    (p, s) ∈ visitsFrom inObject i ts ↔
      ∃ j t q, ts[j]? = some t ∧ p = (i + j) :: q ∧ (q, s) ∈ t.visits inObject := by
  induction ts generalizing i with
  | nil => simp [visitsFrom]
  | cons t ts ih =>
    rw [visitsFrom, List.mem_append, ih]
    constructor
    · rintro (h | ⟨j, u, q, hu, rfl, hs⟩)
      · obtain ⟨⟨q, s⟩, hs, heq⟩ := List.mem_map.mp h
        cases heq
        exact ⟨0, t, q, rfl, rfl, hs⟩
      · exact ⟨j + 1, u, q, hu, by rw [Nat.add_right_comm, Nat.add_assoc], hs⟩
    · rintro ⟨j, u, q, hu, rfl, hs⟩
      cases j with
      | zero =>
        cases hu
        exact .inl (List.mem_map.mpr ⟨(q, s), hs, rfl⟩)
      | succ j => exact .inr ⟨j, u, q, hu, by rw [Nat.add_right_comm, Nat.add_assoc], hs⟩

theorem mem_visits_iff {inObject : Bool} {t : Tree} {p : List Nat} {s : Stop} :
    (p, s) ∈ t.visits inObject ↔ t.stopAt? inObject p = some s := by
  induction p generalizing t inObject with
  | nil =>
    rw [visits_eq, List.mem_cons, mem_visitsFrom_iff, stopAt?]
    simp [eq_comm]
  | cons i p ih =>
    rw [visits_eq, List.mem_cons, mem_visitsFrom_iff, stopAt?, Option.bind_eq_some_iff]
    constructor
    · rintro (h | ⟨j, c, q, hc, heq, hs⟩)
      · cases h
      · rw [Nat.zero_add] at heq
        cases heq
        exact ⟨c, hc, ih.mp hs⟩
    · rintro ⟨c, hc, hs⟩
      exact .inr ⟨i, c, p, hc, by rw [Nat.zero_add], ih.mpr hs⟩

theorem exists_of_mem_map_fst_visitsFrom {inObject : Bool} {i : Nat} {ts : List Tree}
    {p : List Nat} (h : p ∈ (visitsFrom inObject i ts).map Prod.fst) :
    ∃ j q, p = (i + j) :: q := by
  obtain ⟨⟨p, s⟩, hs, rfl⟩ := List.mem_map.mp h
  obtain ⟨j, -, q, -, heq, -⟩ := mem_visitsFrom_iff.mp hs
  exact ⟨j, q, heq⟩

/-- The paths to the stops of several trees are in alphabetical order if those of each tree are. -/
theorem pairwise_visitsFrom {ts : List Tree} (inObject : Bool)
    (h : ∀ t ∈ ts, ((t.visits inObject).map Prod.fst).Pairwise (· < ·)) (i : Nat) :
    ((visitsFrom inObject i ts).map Prod.fst).Pairwise (· < ·) := by
  induction ts generalizing i with
  | nil => exact List.Pairwise.nil
  | cons t ts ih =>
    obtain ⟨ht, hts⟩ := List.forall_mem_cons.mp h
    have hfst : ((t.visits inObject).map fun (p, s) ↦ (i :: p, s)).map Prod.fst =
        ((t.visits inObject).map Prod.fst).map (i :: ·) := by
      rw [List.map_map, List.map_map]
      rfl
    rw [visitsFrom, List.map_append, hfst, List.pairwise_append]
    refine ⟨ht.map (i :: ·) fun p q hpq ↦ ?_, ih hts (i + 1), fun p hp q hq ↦ ?_⟩
    · exact List.cons_lt_cons_iff.mpr (.inr ⟨rfl, hpq⟩)
    · obtain ⟨p, -, rfl⟩ := List.mem_map.mp hp
      obtain ⟨j, q, rfl⟩ := exists_of_mem_map_fst_visitsFrom hq
      exact List.cons_lt_cons_iff.mpr (.inl (by omega))

theorem pairwise_visits (inObject : Bool) (t : Tree) :
    ((t.visits inObject).map Prod.fst).Pairwise (· < ·) := by
  induction t using Tree.induct generalizing inObject with
  | step t ih =>
    rw [visits_eq, List.map_cons, List.pairwise_cons]
    refine ⟨fun p hp ↦ ?_, pairwise_visitsFrom _ (fun c hc ↦ ih c hc _) 0⟩
    obtain ⟨j, q, rfl⟩ := exists_of_mem_map_fst_visitsFrom hp
    exact List.nil_lt_cons _ _

theorem map_tree_stopAt? (inObject : Bool) (t : Tree) (p : List Nat) :
    (t.stopAt? inObject p).map Stop.tree = t.at? p := by
  induction p generalizing t inObject with
  | nil => rfl
  | cons i p ih =>
    rw [stopAt?, at?_cons, Option.map_bind]
    exact congrArg _ (funext fun c ↦ ih _ c)

/-- Below the root, a stop knows whether its parent is an object literal. -/
theorem stopAt?_concat (inObject : Bool) (t : Tree) (p : List Nat) (i : Nat) :
    t.stopAt? inObject (p ++ [i]) =
      (t.at? p).bind fun u ↦ u.children[i]?.map fun c ↦ ⟨c, u.kind == "object"⟩ := by
  induction p generalizing t inObject with
  | nil =>
    rw [List.nil_append, stopAt?, at?, Option.bind_some]
    cases t.children[i]? <;> rfl
  | cons j p ih =>
    rw [List.cons_append, stopAt?, at?_cons, Option.bind_assoc]
    exact congrArg _ (funext fun c ↦ ih _ c)

end Tree

/-! ## The nodes and the paths to them -/

/-- `doc.Yields properties p n`: a walk has to look at the tree at the path `p`, and its node is
`n`. -/
inductive Document.Yields (doc : Document) (properties : Bool) : List Nat → Node → Prop
  /-- An element in one of its three forms. -/
  | element {p : List Nat} {t : Tree} (ht : doc.root.at? p = some t)
      (hkind : t.kind = "jsx_element" ∨ t.kind = "jsx_self_closing_element" ∨
        t.kind = "jsx_fragment") :
      Yields doc properties p (.elementOfTree doc t)
  /-- A call. -/
  | call {p : List Nat} {t : Tree} (ht : doc.root.at? p = some t)
      (hkind : t.kind = "call_expression") :
      Yields doc properties p (.callOfTree doc t)
  /-- On request, a pair directly in an object literal. -/
  | property {p : List Nat} {i : Nat} {t u : Tree} (hproperties : properties = true)
      (hu : doc.root.at? p = some u) (hobject : u.kind = "object")
      (ht : u.children[i]? = some t) (hkind : t.kind = "pair") :
      Yields doc properties (p ++ [i]) (.pairOfTree doc t)

theorem Tree.isElement_iff {t : Tree} :
    t.isElement = true ↔ t.kind = "jsx_element" ∨ t.kind = "jsx_self_closing_element" ∨
      t.kind = "jsx_fragment" := by
  simp [isElement, or_assoc]

/-- Whether a node is a property. -/
def Node.isProperty : Node → Bool
  | .property .. => true
  | _ => false

/-- A walk without properties looks at a stop unless one with them finds a property there. -/
theorem Stop.filter_node? (doc : Document) (s : Stop) :
    (s.node? doc true).filter (!·.isProperty) = s.node? doc false := by
  unfold node?
  split
  · rfl
  · split
    · rfl
    · rw [if_neg (by simp : ¬ (s.tree.kind = "pair" ∧ false = true ∧ s.inObject = true))]
      split <;> rfl

namespace Document

theorem yields_iff {doc : Document} {properties : Bool} {p : List Nat} {n : Node} :
    doc.Yields properties p n ↔
      ∃ s, doc.root.stopAt? false p = some s ∧ s.node? doc properties = some n := by
  constructor
  · intro h
    cases h with
    | element ht hkind =>
      rw [← doc.root.map_tree_stopAt? false] at ht
      obtain ⟨s, hs, rfl⟩ := Option.map_eq_some_iff.mp ht
      exact ⟨s, hs, by rw [Stop.node?, if_pos (Tree.isElement_iff.mpr hkind)]⟩
    | call ht hkind =>
      rw [← doc.root.map_tree_stopAt? false] at ht
      obtain ⟨s, hs, rfl⟩ := Option.map_eq_some_iff.mp ht
      refine ⟨s, hs, ?_⟩
      rw [Stop.node?, if_neg (by simp [Tree.isElement_iff, hkind]), if_pos hkind]
    | @property p i t u hproperties hu hobject ht hkind =>
      refine ⟨⟨t, true⟩, ?_, ?_⟩
      · rw [Tree.stopAt?_concat, hu, Option.bind_some, ht, hobject]
        rfl
      · rw [Stop.node?, if_neg (by simp [Tree.isElement_iff, hkind]), if_neg (by simp [hkind]),
          if_pos ⟨hkind, hproperties, rfl⟩]
  · rintro ⟨s, hs, hn⟩
    have ht := doc.root.map_tree_stopAt? false p
    rw [hs, Option.map_some] at ht
    unfold Stop.node? at hn
    split at hn
    · next hkind =>
      cases hn
      exact .element ht.symm (Tree.isElement_iff.mp hkind)
    · split at hn
      · next hkind =>
        cases hn
        exact .call ht.symm hkind
      · split at hn
        · next hpair =>
          cases hn
          obtain ⟨hkind, hproperties, hobject⟩ := hpair
          -- The root does not stand in an object literal, so the path has a last step.
          rcases List.eq_nil_or_concat p with rfl | ⟨q, i, rfl⟩
          · cases hs
            cases hobject
          · rw [List.concat_eq_append] at hs ⊢
            rw [Tree.stopAt?_concat, Option.bind_eq_some_iff] at hs
            obtain ⟨u, hu, hs⟩ := hs
            obtain ⟨c, hc, rfl⟩ := Option.map_eq_some_iff.mp hs
            exact .property hproperties hu (by simpa using hobject) hc hkind
        · cases hn

/-- The nodes of a walk with the paths to them. -/
def places (doc : Document) (properties : Bool) : List (List Nat × Node) :=
  (doc.root.visits false).filterMap fun (p, s) ↦ (s.node? doc properties).map fun n ↦ (p, n)

theorem map_snd_places (doc : Document) (properties : Bool) :
    (doc.places properties).map Prod.snd = doc.nodes properties := by
  rw [nodes_eq, ← Tree.map_snd_visits, List.filterMap_map, places, List.map_filterMap]
  refine congrArg (List.filterMap · _) (funext fun (p, s) ↦ ?_)
  rw [Option.map_map, Function.comp_apply]
  exact Option.map_id'

theorem mem_places_iff {doc : Document} {properties : Bool} {p : List Nat} {n : Node} :
    (p, n) ∈ doc.places properties ↔ doc.Yields properties p n := by
  rw [places, List.mem_filterMap, yields_iff]
  constructor
  · rintro ⟨⟨q, s⟩, hs, hn⟩
    obtain ⟨m, hm, heq⟩ := Option.map_eq_some_iff.mp hn
    cases heq
    exact ⟨s, Tree.mem_visits_iff.mp hs, hm⟩
  · rintro ⟨s, hs, hn⟩
    exact ⟨(p, s), Tree.mem_visits_iff.mpr hs, Option.map_eq_some_iff.mpr ⟨n, hn, rfl⟩⟩

theorem pairwise_places (doc : Document) (properties : Bool) :
    ((doc.places properties).map Prod.fst).Pairwise (· < ·) := by
  refine List.pairwise_map.mpr (List.pairwise_filterMap.mpr ?_)
  refine (List.pairwise_map.mp (doc.root.pairwise_visits false)).imp fun {x y} hxy a ha b hb ↦ ?_
  obtain ⟨m, -, rfl⟩ := Option.map_eq_some_iff.mp ha
  obtain ⟨n, -, rfl⟩ := Option.map_eq_some_iff.mp hb
  exact hxy

/-- **The walk is the recursion through the tree.**  It takes one turn for each node of the tree,
and by then has come upon the nodes that the recursion comes upon, in its order.  These are the
elements and calls, and on request the pairs in object literals, each of them once and in the order
of the document; without the request there are the same but for the properties. -/
theorem nodes_in_document_order (doc : Document) :
    (∀ n, Stop.turn^[n] [⟨doc.root, false⟩] = [] ↔ doc.root.size ≤ n) ∧
    (∀ properties n, doc.nodes properties =
      ((doc.root.stops false).take n).filterMap (·.node? doc properties) ++
        doc.walk properties (Stop.turn^[n] [⟨doc.root, false⟩])) ∧
    (∀ properties,
      doc.nodes properties = (doc.root.stops false).filterMap (·.node? doc properties) ∧
      ∃ places : List (List Nat × Node), doc.nodes properties = places.map Prod.snd ∧
        (places.map Prod.fst).Pairwise (· < ·) ∧
        ∀ p n, (p, n) ∈ places ↔ doc.Yields properties p n) ∧
    doc.nodes false = (doc.nodes true).filter (!·.isProperty) := by
  refine ⟨Stop.turns_eq_nil_iff doc.root false, doc.nodes_eq_append_walk, fun properties ↦ ?_, ?_⟩
  · refine ⟨doc.nodes_eq properties, doc.places properties, ?_, ?_, ?_⟩
    · exact (doc.map_snd_places properties).symm
    · exact doc.pairwise_places properties
    · exact fun p n ↦ mem_places_iff
  · rw [nodes_eq, nodes_eq, List.filter_filterMap]
    exact congrArg (List.filterMap · _) (funext fun s ↦ (s.filter_node? doc).symm)

end Document

end HardcodedText
