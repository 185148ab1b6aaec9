import HardcodedText.Proofs.Source.Position
import HardcodedText.Proofs.Source.Tree

/-!
# Well-formed trees

What a parser promises about the ranges of a tree (`Tree.WellFormed`).  Parts lie in the range of
what they are part of, in order and apart from each other; and a literal, an expression within
markup or a piece of text begins with characters of its own, before any construct inside of it.

An offset is *apart* from a tree if it lies outside of it or before every construct in it
(`Tree.Apart`).  What stands in one child of a tree is apart from all of the other children
(`Tree.WellFormed.showsBelow`).
-/

namespace HardcodedText.Tree

/-- Literals, expressions within markup, and text. -/
def isSolid (t : Tree) : Bool :=
  t.kind == "string" || t.kind == "number" || t.kind == "template_string" || t.kind == "array" ||
    t.kind == "object" || t.kind == "jsx_expression" || t.isText

/-- What is promised about a tree of the text `cs` and its children. -/
structure LaidOut (cs : List Char) (t : Tree) : Prop where
  /-- The tree begins between two characters. -/
  start_boundary : IsBoundary cs t.span.start
  /-- The tree ends between two characters. -/
  stop_boundary : IsBoundary cs t.span.stop
  /-- Children lie in the range of the tree. -/
  nested : ∀ c ∈ t.children, t.span.start ≤ c.span.start ∧ c.span.stop ≤ t.span.stop
  /-- Children are in order and do not overlap. -/
  ordered : t.children.Pairwise fun a b ↦ a.span.stop ≤ b.span.start
  /-- Literals, expressions within markup, and text are not empty. -/
  nonempty : t.isSolid → t.span.start < t.span.stop
  /-- They begin before every construct inside of them. -/
  before_named : t.isSolid → ∀ d, Below d t → d.head.named → t.span.start < d.span.start
  /-- Text has no parts. -/
  text_leaf : t.isText → t.children = []
  /-- What fills the field for an opening tag is one. -/
  open_tag : ∀ c ∈ t.children, c.head.field = some "open_tag" → c.kind = "jsx_opening_element"

/-- What is promised about a tree of the text `cs` and all parts of it. -/
def WellFormed (cs : List Char) (t : Tree) : Prop :=
  ∀ d, Within d t → LaidOut cs d

/-- Elements and properties are constructs of their own, not mere punctuation. -/
def NamesConstructs (t : Tree) : Prop :=
  ∀ d, Within d t → d.isElement ∨ d.kind = "pair" → d.head.named

instance (cs : List Char) (t : Tree) : Decidable (LaidOut cs t) :=
  decidable_of_iff
    (IsBoundary cs t.span.start ∧ IsBoundary cs t.span.stop ∧
      (∀ c ∈ t.children, t.span.start ≤ c.span.start ∧ c.span.stop ≤ t.span.stop) ∧
      (t.children.Pairwise fun a b ↦ a.span.stop ≤ b.span.start) ∧
      (t.isSolid → t.span.start < t.span.stop) ∧
      (t.isSolid → ∀ d ∈ subtreesOf t.children, d.head.named → t.span.start < d.span.start) ∧
      (t.isText → t.children.isEmpty) ∧
      ∀ c ∈ t.children, c.head.field = some "open_tag" → c.kind = "jsx_opening_element")
    ⟨fun ⟨h₁, h₂, h₃, h₄, h₅, h₆, h₇, h₈⟩ ↦
      ⟨h₁, h₂, h₃, h₄, h₅, fun h d hd ↦ h₆ h d (mem_subtreesOf_children_iff.mpr hd),
        fun h ↦ List.isEmpty_iff.mp (h₇ h), h₈⟩,
      fun h ↦ ⟨h.1, h.2, h.3, h.4, h.5,
        fun hs d hd ↦ h.6 hs d (mem_subtreesOf_children_iff.mp hd),
        fun ht ↦ List.isEmpty_iff.mpr (h.7 ht), h.8⟩⟩

instance (cs : List Char) (t : Tree) : Decidable (WellFormed cs t) :=
  decidable_of_iff (∀ d ∈ t.subtrees, LaidOut cs d)
    ⟨fun h d hd ↦ h d (mem_subtrees_iff.mpr hd), fun h d hd ↦ h d (mem_subtrees_iff.mp hd)⟩

instance (t : Tree) : Decidable (NamesConstructs t) :=
  decidable_of_iff (∀ d ∈ t.subtrees, d.isElement ∨ d.kind = "pair" → d.head.named)
    ⟨fun h d hd ↦ h d (mem_subtrees_iff.mpr hd), fun h d hd ↦ h d (mem_subtrees_iff.mp hd)⟩

variable {cs : List Char} {t c d : Tree}

/-! ## Ranges -/

theorem WellFormed.laidOut (h : WellFormed cs t) : LaidOut cs t := h t (.refl t)

theorem WellFormed.of_within (h : WellFormed cs t) (hd : Within d t) : WellFormed cs d :=
  fun e he ↦ h e (he.trans hd)

theorem WellFormed.of_child (h : WellFormed cs t) (hc : c ∈ t.children) : WellFormed cs c :=
  h.of_within (Below.child hc).within

theorem NamesConstructs.of_within (h : NamesConstructs t) (hd : Within d t) :
    NamesConstructs d := fun e he ↦ h e (he.trans hd)

theorem WellFormed.span_within (h : WellFormed cs t) (hd : Within d t) :
    t.span.start ≤ d.span.start ∧ d.span.stop ≤ t.span.stop := by
  induction t using Tree.induct with
  | step t ih =>
    rcases hd with rfl | hd
    · exact ⟨Nat.le_refl _, Nat.le_refl _⟩
    · obtain ⟨c, hc, hd⟩ := below_iff.mp hd
      have hchild := h.laidOut.nested c hc
      have := ih c hc (h.of_child hc) hd
      omega

theorem WellFormed.disjoint (h : WellFormed cs t) {c' : Tree} (hc : c ∈ t.children)
    (hc' : c' ∈ t.children) (hne : c ≠ c') :
    c.span.stop ≤ c'.span.start ∨ c'.span.stop ≤ c.span.start := by
  obtain ⟨i, hi, rfl⟩ := List.getElem_of_mem hc
  obtain ⟨j, hj, rfl⟩ := List.getElem_of_mem hc'
  have hordered := List.pairwise_iff_getElem.mp h.laidOut.ordered
  rcases Nat.lt_trichotomy i j with hij | rfl | hij
  · exact .inl (hordered i j hi hj hij)
  · exact absurd rfl hne
  · exact .inr (hordered j i hj hi hij)

/-! ## Offsets apart from trees -/

/-- What a walk may look at: elements, calls and properties. -/
def isStop (t : Tree) : Bool :=
  t.isElement || t.kind == "call_expression" || t.kind == "pair"

theorem isSolid_of_isText (h : t.isText) : t.isSolid := by
  rw [isSolid, h, Bool.or_true]

theorem isStop_of_kind {kind : String} (hk : t.kind = kind)
    (h : kind ∉ ["jsx_element", "jsx_self_closing_element", "jsx_fragment", "call_expression",
      "pair"]) : t.isStop = false := by
  subst hk
  simpa [isStop, isElement, and_assoc] using h

theorem isStop_of_isSolid (h : t.isSolid) : t.isStop = false := by
  simp only [isSolid, isText, Bool.or_eq_true, beq_iff_eq] at h
  rcases h with (((((h | h) | h) | h) | h) | h) | h | h
  all_goals exact isStop_of_kind h (by decide)

/-- `Covers cs t b`: the offset `b` lies in the range of the tree `t`, between two characters. -/
structure Covers (cs : List Char) (t : Tree) (b : Nat) : Prop where
  /-- It is not before the tree. -/
  start_le : t.span.start ≤ b
  /-- It is not after the tree. -/
  lt_stop : b < t.span.stop
  /-- It is between two characters. -/
  boundary : IsBoundary cs b

/-- The offset `b` is not before every construct in the tree `t`. -/
def Anchored (t : Tree) (b : Nat) : Prop :=
  ∃ w, Within w t ∧ w.head.named ∧ w.span.start ≤ b

/-- The offset `b` lies outside of the tree `t`, or before every construct in it. -/
def Apart (t : Tree) (b : Nat) : Prop :=
  b < t.span.start ∨ t.span.stop ≤ b ∨ ¬ Anchored t b

/-- The offset `b` is apart from all that a walk may look at in the tree `t`, up to properties with
a range among `skip`. -/
def Clear (skip : List Span) (t : Tree) (b : Nat) : Prop :=
  ∀ d, Within d t → d.isStop → d.kind = "pair" ∧ d.span ∈ skip ∨ Apart d b

/-- The same for what is below the tree. -/
def ClearBelow (skip : List Span) (t : Tree) (b : Nat) : Prop :=
  ∀ d, Below d t → d.isStop → d.kind = "pair" ∧ d.span ∈ skip ∨ Apart d b

/-- The offset `b` lies in the tree `t` but in nothing of it that a walk may look at. -/
structure Shows (cs : List Char) (skip : List Span) (t : Tree) (b : Nat) : Prop extends
    Covers cs t b where
  /-- It is apart from what a walk may look at. -/
  clear : Clear skip t b

/-- The offset `b` lies in the tree `t` but in nothing below it that a walk may look at. -/
structure ShowsBelow (cs : List Char) (skip : List Span) (t : Tree) (b : Nat) : Prop extends
    Covers cs t b where
  /-- It is apart from what a walk may look at further down. -/
  clear : ClearBelow skip t b

variable {skip : List Span} {b b' : Nat}

theorem Covers.of_within (h : WellFormed cs t) (hd : Within d t) (hb : Covers cs d b) :
    Covers cs t b := by
  have hspan := h.span_within hd
  exact ⟨Nat.le_trans hspan.1 hb.start_le, Nat.lt_of_lt_of_le hb.lt_stop hspan.2, hb.boundary⟩

theorem Apart.ne (h : Apart t b) (hcovers : Covers cs t b') (hanchored : Anchored t b') :
    b ≠ b' := by
  rintro rfl
  rcases h with h | h | h
  · exact Nat.not_lt.mpr hcovers.start_le h
  · exact Nat.not_le.mpr hcovers.lt_stop h
  · exact h hanchored

theorem Clear.mono {skip' : List Span} (h : Clear skip t b) (hsub : skip ⊆ skip') :
    Clear skip' t b := by
  intro d hd hstop
  rcases h d hd hstop with ⟨hk, hspan⟩ | hapart
  · exact .inl ⟨hk, hsub hspan⟩
  · exact .inr hapart

theorem Shows.mono {skip' : List Span} (h : Shows cs skip t b) (hsub : skip ⊆ skip') :
    Shows cs skip' t b := ⟨h.toCovers, h.clear.mono hsub⟩

/-- A tree that is itself no stop, or one to be skipped, has nothing to add to those below it. -/
theorem ShowsBelow.shows (h : ShowsBelow cs skip t b)
    (ht : t.isStop → t.kind = "pair" ∧ t.span ∈ skip) : Shows cs skip t b := by
  refine ⟨h.toCovers, ?_⟩
  rintro d (rfl | hd) hstop
  · exact .inl (ht hstop)
  · exact h.clear d hd hstop

theorem ShowsBelow.shows_of_not_isStop (h : ShowsBelow cs skip t b) (ht : t.isStop = false) :
    Shows cs skip t b := by
  refine h.shows ?_
  intro hstop
  rw [ht] at hstop
  cases hstop

/-- An offset outside of a tree is apart from all of it. -/
theorem WellFormed.clear_of_outside (h : WellFormed cs t)
    (hb : b < t.span.start ∨ t.span.stop ≤ b) : Clear skip t b := by
  intro d hd _
  have hspan := h.span_within hd
  rcases hb with hb | hb
  · exact .inr (.inl (Nat.lt_of_lt_of_le hb hspan.1))
  · exact .inr (.inr (.inl (Nat.le_trans hspan.2 hb)))

/-- Nothing in a piece of text is a stop. -/
theorem LaidOut.clear_of_isText (h : LaidOut cs t) (ht : t.isText) : Clear skip t b := by
  rintro d (rfl | hd) hstop
  · exact absurd hstop (by simp [isStop_of_isSolid (isSolid_of_isText ht)])
  · obtain ⟨c, hc, -⟩ := below_iff.mp hd
    rw [h.text_leaf ht] at hc
    cases hc

/-- The beginning of a literal is apart from all that is inside of it. -/
theorem LaidOut.shows_start (h : LaidOut cs t) (hs : t.isSolid) :
    Shows cs skip t t.span.start := by
  refine ShowsBelow.shows_of_not_isStop ⟨⟨Nat.le_refl _, h.nonempty hs, h.start_boundary⟩, ?_⟩
    (isStop_of_isSolid hs)
  intro d hd _
  refine .inr (.inr (.inr ?_))
  rintro ⟨w, hw, hn, hle⟩
  exact Nat.not_le.mpr (h.before_named hs w (hw.below hd) hn) hle

/-- An offset in one child of a tree is apart from the other children. -/
theorem WellFormed.showsBelow (h : WellFormed cs t) (hc : c ∈ t.children)
    (hb : Shows cs skip c b) : ShowsBelow cs skip t b := by
  refine ⟨hb.toCovers.of_within h (Below.child hc).within, ?_⟩
  intro d hd hstop
  obtain ⟨c', hc', hd⟩ := below_iff.mp hd
  by_cases hne : c = c'
  · exact hb.clear d (hne ▸ hd) hstop
  · refine (h.of_child hc').clear_of_outside ?_ d hd hstop
    rcases h.disjoint hc hc' hne with hle | hle
    · exact .inl (Nat.lt_of_lt_of_le hb.lt_stop hle)
    · exact .inr (Nat.le_trans hle hb.start_le)

end HardcodedText.Tree
