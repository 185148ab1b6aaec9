import HardcodedText.Proofs.Check.Origin
import HardcodedText.Proofs.Node.Template
import HardcodedText.Proofs.Rule.AllowPattern

/-!
# What is found can be seen

Blank text may always be hardcoded, so what is found is visible (`Document.findings_visible`).
The one exception are templates with expressions, for which only the number of fixed characters
counts: blanks will do (`Node.Spacing`, `Document.findings_spacing`).
-/

namespace HardcodedText

open Text (Visible)

namespace Node

/-- A template with expressions and blanks between them, at least `minimum` of which make up the
given text; also one in braces, or among the elements of an array. -/
inductive Spacing (minimum : Nat) : Node → String → Prop
  | template {site : Site} {parts : List String} {expressions : Nat}
      (hexpressions : expressions ≠ 0) (hminimum : minimum ≤ (fixedText parts).length)
      (hblank : ¬ Visible (fixedText parts)) :
      Spacing minimum (.template site parts expressions) (fixedText parts)
  | container {site : Site} {n : Node} {v : String} (h : Spacing minimum n v) :
      Spacing minimum (.container site (some n)) v
  | element {site : Site} {elements : List Node} {n : Node} {v : String} (hn : n ∈ elements)
      (h : Spacing minimum n v) : Spacing minimum (.array site elements) v

/-- Numbers are visible, also those in braces. -/
def NumbersVisible : Node → Prop
  | .number _ raw => Visible raw
  | .container _ (some n) => n.NumbersVisible
  | _ => True

variable {config : Configuration} {policy : Policy}

theorem visible_or_spacing_template {site : Site} {parts : List String} {expressions : Nat}
    (h : config.isHardcodedTemplate parts expressions = true) :
    Visible (templateText parts expressions) ∨
      Spacing config.minimum (.template site parts expressions)
        (templateText parts expressions) := by
  unfold Configuration.isHardcodedTemplate at h
  unfold templateText
  split at h
  · next hnone =>
    rw [if_pos hnone]
    exact .inl (Configuration.visible_of_not_allows h)
  · next hsome =>
    rw [decide_eq_true_iff, ← length_fixedText] at h
    rw [if_neg hsome]
    split
    · exact .inl (by decide)
    · by_cases hvisible : Visible (fixedText parts)
      · exact .inl hvisible
      · exact .inr (.template hsome h hvisible)

/-- Hardcoded text is visible or consists of blanks between expressions. -/
theorem visible_or_spacing_of_isHardcoded {n : Node} (h : config.isHardcoded n = true) :
    Visible n.display ∨ n.Spacing config.minimum n.display := by
  cases n with
  | string site value => exact .inl (Configuration.visible_of_not_allows h)
  | template site parts expressions => exact visible_or_spacing_template h
  | container site inner =>
    cases inner with
    | none => cases h
    | some inner =>
      have hinner : config.isHardcoded inner = true := h
      exact (visible_or_spacing_of_isHardcoded hinner).imp_right .container
  | _ => cases h
termination_by sizeOf n

/-- Several texts have commas between them, so only one of them alone can be blank. -/
theorem visible_or_spacing_of_elements (site : Site) {elements : List Node}
    (hne : elements.filter config.isHardcoded ≠ []) :
    let v := ", ".intercalate ((elements.filter config.isHardcoded).map display)
    Visible v ∨ Spacing config.minimum (.array site elements) v := by
  intro v
  match hall : elements.filter config.isHardcoded with
  | [] => exact absurd hall hne
  | [n] =>
    have hmem : n ∈ elements.filter config.isHardcoded := by simp [hall]
    obtain ⟨helement, hn⟩ := List.mem_filter.mp hmem
    have hv : v = n.display := by
      show ", ".intercalate ((elements.filter config.isHardcoded).map display) = n.display
      rw [hall, List.map_singleton, String.intercalate_singleton]
    rw [hv]
    exact (visible_or_spacing_of_isHardcoded hn).imp_right (.element helement)
  | first :: second :: more =>
    left
    refine ⟨',', ?_, by decide⟩
    show ',' ∈ (", ".intercalate ((elements.filter config.isHardcoded).map display)).toList
    rw [hall, List.map_cons, List.map_cons, String.intercalate_cons_cons]
    simp

/-- The same is true of what is refused within markup, provided that numbers are visible. -/
theorem visible_or_spacing_of_isRefused {n : Node} (hnumbers : n.NumbersVisible)
    (h : config.isRefused policy n = true) :
    Visible n.display ∨ n.Spacing config.minimum n.display := by
  cases n with
  | string site value =>
    rw [Configuration.isRefused, Bool.and_eq_true_iff] at h
    exact .inl (Configuration.visible_of_not_allows h.2).of_strip
  | text site value =>
    rw [Configuration.isRefused, Bool.and_eq_true_iff] at h
    exact .inl (Configuration.visible_of_not_allows h.2)
  | number site raw => exact .inl hnumbers
  | template site parts expressions =>
    rw [Configuration.isRefused, Bool.and_eq_true_iff] at h
    exact visible_or_spacing_template h.2
  | container site inner =>
    cases inner with
    | none => cases h
    | some inner =>
      have hinner : config.isRefused policy inner = true := h
      have hinnerNumbers : inner.NumbersVisible := hnumbers
      exact (visible_or_spacing_of_isRefused hinnerNumbers hinner).imp_right .container
  | _ => cases h
termination_by sizeOf n

/-- Numbers are read from trees of numbers. -/
theorem numbersVisible_ofTree {doc : Document} {t : Tree}
    (h : ∀ u : Tree, u.Within t → u.kind = "number" → Visible (doc.text u.span)) :
    (ofTree doc t).NumbersVisible := by
  induction t using Tree.induct with
  | step t ih =>
    have hchild (c : Tree) (hc : c ∈ t.children) : (ofTree doc c).NumbersVisible :=
      ih c hc fun u hu ↦ h u (hu.trans (.inr (.child hc)))
    obtain ⟨head, parts⟩ := t
    rw [ofTree]
    split
    case h_1 =>
      rw [ofContent_eq]
      split
      · next inner hinner =>
        obtain ⟨c, hc, rfl⟩ := List.map_eq_singleton_iff.mp hinner
        have hmem : c ∈ parts.filter Tree.isContent := by simp [hc]
        exact hchild c (List.mem_filter.mp hmem).1
      · trivial
    case h_3 hform =>
      rw [NumbersVisible]
      exact h (.node head parts) (.refl _) (Form.kind_eq hform rfl)
    case h_11 =>
      rw [ofContent_eq, List.head?_map]
      cases hhead : (parts.filter Tree.isContent).head? with
      | none => trivial
      | some c =>
        rw [Option.map_some, NumbersVisible]
        exact hchild c (List.mem_filter.mp (List.mem_of_mem_head? hhead)).1
    case h_6 => split <;> trivial
    case h_9 => split <;> trivial
    all_goals trivial

end Node

namespace Document

variable {doc : Document} {config : Configuration} {checks : List Check}

/-- **What is found can be seen.**  Every finding has a text with a character that is no blank,
unless it is one about blanks between the expressions of a template. -/
theorem findings_visible
    (hnumbers : ∀ t : Tree, t.Within doc.root → t.kind = "number" → Visible (doc.text t.span)) :
    ∀ f ∈ doc.findings config checks, Visible f.value ∨
      ∃ t, t.Within doc.root ∧ f.place = (Node.ofTree doc t).position ∧
        (Node.ofTree doc t).Spacing config.minimum f.value := by
  intro f hf
  have hread (t : Tree) (ht : t.Within doc.root) : (Node.ofTree doc t).NumbersVisible :=
    Node.numbersVisible_ofTree fun u hu ↦ hnumbers u (hu.trans ht)
  cases origin_of_mem_rawFindings (findings_subset doc config checks hf) with
  | @value t ht hn hf =>
    rw [hf.value]
    exact (Node.visible_or_spacing_of_isHardcoded hn).imp_right fun h ↦ ⟨t, ht, hf.place, h⟩
  | @array t site elements ht harray hne hplace hvalue =>
    rw [hvalue]
    refine (Node.visible_or_spacing_of_elements site hne).imp_right fun h ↦ ⟨t, ht, ?_⟩
    rw [harray]
    exact ⟨hplace, h⟩
  | @child t policy ht hn hf =>
    rw [hf.value]
    exact (Node.visible_or_spacing_of_isRefused (hread t ht) hn).imp_right
      fun h ↦ ⟨t, ht, hf.place, h⟩
  | text hn hf =>
    rw [hf.value]
    refine (Node.visible_or_spacing_of_isRefused (by trivial) hn).imp_right fun h ↦ ?_
    cases h
  | @attributeValue t policy ht hn hf =>
    rw [hf.value]
    rcases Node.attributeValue_cases doc t with ⟨value, heq⟩ | ⟨kind, heq⟩ | heq
    · rw [heq] at hn ⊢
      refine (Node.visible_or_spacing_of_isRefused (by trivial) hn).imp_right fun h ↦ ?_
      cases h
    · rw [heq] at hn
      cases hn
    · rw [heq] at hn hf ⊢
      exact (Node.visible_or_spacing_of_isRefused (hread t ht) hn).imp_right
        fun h ↦ ⟨t, ht, hf.place, h⟩

/-- In an element, a number is found and a blank string is not. -/
theorem findings_visible_number :
    let root : Tree := .node { kind := "jsx_element", span := ⟨0, 15⟩ } [
      .node { kind := "jsx_opening_element", span := ⟨0, 3⟩, field := some "open_tag" } [
        .node { kind := "identifier", span := ⟨1, 2⟩, field := some "name" } []],
      .node { kind := "jsx_expression", span := ⟨3, 6⟩ } [
        .node { kind := "number", span := ⟨4, 5⟩ } []],
      .node { kind := "jsx_expression", span := ⟨6, 11⟩ } [
        .node { kind := "string", span := ⟨7, 10⟩ } []]]
    let doc := ofText "a.tsx" "<b>\x7b1\x7d\x7b' '\x7d</b>" root
    (∀ t : Tree, t.Within doc.root → t.kind = "number" → Visible (doc.text t.span)) ∧
      (doc.findings .toasts Check.all).map Finding.value = ["1"] ∧
      ∀ f ∈ doc.findings .toasts Check.all, Visible f.value ∨
        ∃ t, t.Within doc.root ∧ f.place = (Node.ofTree doc t).position ∧
          (Node.ofTree doc t).Spacing 3 f.value := by
  intro root doc
  have hnumbers (t : Tree) (ht : t.Within doc.root) (hk : t.kind = "number") :
      Visible (doc.text t.span) := by
    have hall : ∀ t ∈ root.subtrees, t.kind = "number" → Visible (doc.text t.span) := by
      decide +kernel
    exact hall t (Tree.mem_subtrees_iff.mpr ht) hk
  exact ⟨hnumbers, by decide +kernel, findings_visible hnumbers⟩

/-- A template may be found although it has nothing but blanks between its expressions. -/
theorem findings_spacing :
    let root : Tree := .node { kind := "call_expression", span := ⟨0, 20⟩ } [
      .node { kind := "identifier", span := ⟨0, 5⟩, field := some "function" } [],
      .node { kind := "arguments", span := ⟨5, 20⟩, field := some "arguments" } [
        .node { kind := "template_string", span := ⟨6, 19⟩ } [
          .node { kind := "template_substitution", span := ⟨7, 11⟩ } [],
          .node { kind := "template_substitution", span := ⟨14, 18⟩ } []]]]
    let doc := ofText "a.ts" "toast(`$\x7ba\x7d   $\x7bb\x7d`)" root
    (∀ t ∈ root.subtrees, t.kind ≠ "number") ∧ 1 ≤ Configuration.toasts.minimum ∧
      (doc.findings .toasts Check.all).map Finding.value = ["   "] ∧ ¬ Visible "   " := by
  decide +kernel

end Document

end HardcodedText
