import HardcodedText.Source.Tree

/-!
# Places in trees

A tree stands in another one at a path of indices (`Tree.at?`), or just somewhere below it
(`Tree.Below`).  Proofs about trees go by `Tree.induct`, which has one hypothesis for each child.
-/

namespace HardcodedText.Tree

theorem sizeOf_child_lt {t c : Tree} (h : c ∈ t.children) : sizeOf c < sizeOf t := by
  cases t with
  | node head children =>
    have := List.sizeOf_lt_of_mem h
    simp only [children_node, node.sizeOf_spec] at *
    omega

/-- What holds of a tree whenever it holds of its children holds of every tree. -/
@[elab_as_elim]
theorem induct {motive : Tree → Prop}
    (step : ∀ t : Tree, (∀ c ∈ t.children, motive c) → motive t) (t : Tree) : motive t :=
  step t fun c h ↦
    have := sizeOf_child_lt h
    induct step c
termination_by sizeOf t

/-- The tree at a path. -/
def at? (t : Tree) : List Nat → Option Tree
  | [] => some t
  | i :: p => t.children[i]?.bind (·.at? p)

theorem at?_cons (t : Tree) (i : Nat) (p : List Nat) :
    t.at? (i :: p) = t.children[i]?.bind (·.at? p) := rfl

theorem at?_append (t : Tree) (p q : List Nat) : t.at? (p ++ q) = (t.at? p).bind (·.at? q) := by
  induction p generalizing t with
  | nil => rfl
  | cons i p ih =>
    rw [List.cons_append, at?_cons, at?_cons, Option.bind_assoc]
    exact congrArg _ (funext fun c ↦ ih c)

/-- `Below d t`: the tree `d` is a part of `t`, at some depth. -/
inductive Below (d : Tree) : Tree → Prop
  | child {t : Tree} : d ∈ t.children → Below d t
  | step {c t : Tree} : c ∈ t.children → Below d c → Below d t

theorem Below.trans {d u t : Tree} (h : Below d u) (h' : Below u t) : Below d t := by
  induction h' with
  | child hu => exact .step hu h
  | step hc _ ih => exact .step hc ih

/-- `Within d t`: the tree `d` is `t` or a part of it. -/
def Within (d t : Tree) : Prop := d = t ∨ Below d t

theorem Within.refl (t : Tree) : Within t t := .inl rfl

theorem Below.within {d t : Tree} (h : Below d t) : Within d t := .inr h

/-- What is a part of a tree is in one of its children. -/
theorem below_iff {d t : Tree} : Below d t ↔ ∃ c ∈ t.children, Within d c := by
  constructor
  · intro h
    cases h with
    | child h => exact ⟨d, h, .refl d⟩
    | step hc h => exact ⟨_, hc, h.within⟩
  · rintro ⟨c, hc, rfl | h⟩
    · exact .child hc
    · exact .step hc h

theorem Within.below {d u t : Tree} (h : Within d u) (h' : Below u t) : Below d t := by
  rcases h with rfl | h
  · exact h'
  · exact h.trans h'

theorem Within.trans {d u t : Tree} (h : Within d u) (h' : Within u t) : Within d t := by
  rcases h' with rfl | h'
  · exact h
  · exact (h.below h').within

/-! ## All parts of a tree as a list -/

mutual

/-- A tree and all parts of it. -/
def subtrees : Tree → List Tree
  | .node head children => .node head children :: subtreesOf children

/-- Several trees and all parts of them. -/
def subtreesOf : List Tree → List Tree
  | [] => []
  | t :: ts => t.subtrees ++ subtreesOf ts

end

theorem subtrees_eq (t : Tree) : t.subtrees = t :: subtreesOf t.children := by
  cases t with
  | node head children => rw [subtrees]; rfl

theorem subtreesOf_append (ts us : List Tree) :
    subtreesOf (ts ++ us) = subtreesOf ts ++ subtreesOf us := by
  induction ts with
  | nil => rfl
  | cons t ts ih => rw [List.cons_append, subtreesOf, subtreesOf, ih, List.append_assoc]

theorem mem_subtreesOf_iff {d : Tree} {ts : List Tree} :
    d ∈ subtreesOf ts ↔ ∃ t ∈ ts, d ∈ t.subtrees := by
  induction ts with
  | nil => simp [subtreesOf]
  | cons t ts ih => simp [subtreesOf, ih]

theorem mem_subtrees_iff {d t : Tree} : d ∈ t.subtrees ↔ Within d t := by
  induction t using Tree.induct with
  | step t ih =>
    rw [subtrees_eq, List.mem_cons, Within, below_iff, mem_subtreesOf_iff]
    refine or_congr_right (exists_congr fun c ↦ and_congr_right fun hc ↦ ih c hc)

theorem mem_subtreesOf_children_iff {d t : Tree} : d ∈ subtreesOf t.children ↔ Below d t := by
  rw [mem_subtreesOf_iff, below_iff]
  exact exists_congr fun c ↦ and_congr_right fun _ ↦ mem_subtrees_iff

end HardcodedText.Tree
