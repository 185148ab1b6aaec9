import Mathlib.Data.List.DropRight
import Mathlib.Data.List.Induction
import HardcodedText.Proofs.Check.Relocate
import HardcodedText.Proofs.Source.Position

/-!
# Findings in the order of the text

The place after some characters counts their line feeds and the characters since the last one
(`Position.after_eq`).  Places are in the order of the offsets that they belong to, so that findings
sorted by place are findings sorted by offset (`Document.positions_in_source_order`).
-/

namespace HardcodedText

namespace Position

theorem after_concat (cs : List Char) (c : Char) : after (cs ++ [c]) = (after cs).next c := by
  rw [after, List.foldl_append, List.foldl_cons, List.foldl_nil, ← after]

/-- The place after some characters, counted at once. -/
theorem after_eq (cs : List Char) :
    after cs = ⟨1 + cs.count '\n', (cs.rtakeWhile (· != '\n')).length⟩ := by
  induction cs using List.reverseRecOn with
  | nil => rfl
  | append_singleton cs c ih =>
    rw [after_concat, ih, next, List.rtakeWhile_concat, List.count_append]
    split
    · next hc =>
      subst hc
      rfl
    · next hc =>
      rw [if_pos (bne_iff_ne.mpr hc), List.length_append, List.count_singleton,
        if_neg (by simpa using hc)]
      rfl

end Position

/-- A finding stands where an offset between two characters of the text `cs` stands. -/
structure Document.Locates (doc : Document) (cs : List Char) (f : Finding) (offset : Nat) :
    Prop where
  /-- The offset falls between two characters. -/
  boundary : IsBoundary cs offset
  /-- The finding has its line. -/
  line : f.line = (doc.position offset).line
  /-- The finding has its column. -/
  column : f.column = (doc.position offset).column

namespace Document

instance (doc : Document) (cs : List Char) (f : Finding) (offset : Nat) :
    Decidable (doc.Locates cs f offset) :=
  decidable_of_iff
    (IsBoundary cs offset ∧ f.line = (doc.position offset).line ∧
      f.column = (doc.position offset).column)
    ⟨fun ⟨boundary, line, column⟩ ↦ ⟨boundary, line, column⟩,
      fun h ↦ ⟨h.boundary, h.line, h.column⟩⟩

section

variable {doc : Document} {cs : List Char} (hdoc : doc.bytes = Utf8.encode cs)

include hdoc

/-- Every finding stands at an offset between two characters. -/
theorem exists_locates {config : Configuration} {checks : List Check} {f : Finding}
    (h : f ∈ doc.rawFindings config checks) : ∃ offset, doc.Locates cs f offset := by
  obtain ⟨-, offset, hline, hcolumn⟩ := exists_position_of_mem_rawFindings h
  -- An offset inside of a character has the place after it.
  obtain ⟨pre, post, hcs, hafter⟩ := exists_positionIn_eq_after cs offset
  rw [← hdoc, ← position, ← position_encode (hcs ▸ hdoc)] at hafter
  rw [hafter] at hline hcolumn
  exact ⟨_, ⟨pre, post, hcs, rfl⟩, hline, hcolumn⟩

/-- Findings come one after the other as their offsets do. -/
theorem Locates.atOrBefore_iff {f g : Finding} {a b : Nat} (hf : doc.Locates cs f a)
    (hg : doc.Locates cs g b) : f.atOrBefore g ↔ a ≤ b := by
  have hbefore : (doc.position b).Before (doc.position a) ↔ b < a := by
    rw [position, position, hdoc]
    exact hg.boundary.before_iff hf.boundary
  rw [← Nat.not_lt, ← hbefore, Finding.atOrBefore_iff, hf.line, hf.column, hg.line, hg.column]
  unfold Position.Before
  omega

/-- Findings sorted by place are findings sorted by offset. -/
theorem sort_eq_mergeSort {fs : List Finding} {offset : Finding → Nat}
    (h : ∀ f ∈ fs, doc.Locates cs f (offset f)) :
    Finding.sort fs = fs.mergeSort fun f g ↦ offset f ≤ offset g := by
  have hsame : ∀ f ∈ fs, ∀ g ∈ fs, f.atOrBefore g = decide (offset f ≤ offset g) := by
    intro f hf g hg
    rw [Bool.eq_iff_iff, decide_eq_true_iff]
    exact Locates.atOrBefore_iff hdoc (h f hf) (h g hg)
  have hsort : (fs.mergeSort Finding.atOrBefore).map id =
      (fs.map id).mergeSort fun f g ↦ offset f ≤ offset g := List.map_mergeSort hsame
  rwa [List.map_id, List.map_id] at hsort

end

/-- The place of an offset between two characters counts the line feeds before it and the characters
since the last of them.  Later offsets have later places, and findings stand in the order of their
offsets. -/
theorem positions_in_source_order (path text : String) (root : Tree) :
    let doc := ofText path text root
    (∀ i, doc.position (Utf8.encode (text.toList.take i)).length =
      ⟨1 + (text.toList.take i).count '\n',
        ((text.toList.take i).rtakeWhile (· != '\n')).length⟩) ∧
    (∀ a b, IsBoundary text.toList a → IsBoundary text.toList b →
      ((doc.position a).Before (doc.position b) ↔ a < b) ∧
      (doc.position a = doc.position b → a = b)) ∧
    ∀ (config : Configuration) (checks : List Check),
      (∀ f ∈ doc.rawFindings config checks, ∃ offset, doc.Locates text.toList f offset) ∧
      ∀ offset : Finding → Nat,
        (∀ f ∈ doc.rawFindings config checks, doc.Locates text.toList f (offset f)) →
        doc.findings config checks =
          (Finding.firsts (doc.rawFindings config checks)).mergeSort
            fun f g ↦ offset f ≤ offset g := by
  intro doc
  have hdoc : doc.bytes = Utf8.encode text.toList := rfl
  refine ⟨fun i ↦ ?_, fun a b ha hb ↦ ⟨ha.before_iff hb, ha.eq_of_positionIn_eq hb⟩,
    fun config checks ↦ ⟨fun f hf ↦ exists_locates hdoc hf, fun offset hoffset ↦ ?_⟩⟩
  · rw [← List.take_append_drop i text.toList] at hdoc
    rw [position_encode hdoc, Position.after_eq]
  · exact sort_eq_mergeSort hdoc fun f hf ↦ hoffset f (Finding.firsts_subset _ hf)

/-- In `toast('é','b')` the second text stands at byte 11 and in column 10. -/
theorem positions_in_source_order_toast :
    let text := "toast('é','b')"
    let root : Tree := .node { kind := "program", span := ⟨0, 15⟩ } [
      .node { kind := "call_expression", span := ⟨0, 15⟩ } [
        .node { kind := "identifier", span := ⟨0, 5⟩, field := some "function" } [],
        .node { kind := "arguments", span := ⟨5, 15⟩, field := some "arguments" } [
          .node { kind := "string", span := ⟨6, 10⟩ } [],
          .node { kind := "string", span := ⟨11, 14⟩ } []]]]
    let doc := ofText "a.ts" text root
    let offset (f : Finding) : Nat := if f.value = "b" then 11 else 6
    IsBoundary text.toList 6 ∧ IsBoundary text.toList 11 ∧
      (doc.position 6).Before (doc.position 11) ∧
      (doc.rawFindings .toasts Check.all).map Finding.value = ["é", "b"] ∧
      (∀ f ∈ doc.rawFindings .toasts Check.all, doc.Locates text.toList f (offset f)) ∧
      doc.findings .toasts Check.all =
        (Finding.firsts (doc.rawFindings .toasts Check.all)).mergeSort
          fun f g ↦ offset f ≤ offset g := by
  intro text root doc offset
  obtain ⟨-, hplaces, hfindings⟩ := positions_in_source_order "a.ts" text root
  have hfirst : IsBoundary text.toList 6 := by decide
  have hsecond : IsBoundary text.toList 11 := by decide
  have hlocates : ∀ f ∈ doc.rawFindings .toasts Check.all,
      doc.Locates text.toList f (offset f) := by
    decide +kernel
  exact ⟨hfirst, hsecond, (hplaces 6 11 hfirst hsecond).1.mpr (by decide), by decide +kernel,
    hlocates, (hfindings .toasts Check.all).2 offset hlocates⟩

end Document

end HardcodedText
