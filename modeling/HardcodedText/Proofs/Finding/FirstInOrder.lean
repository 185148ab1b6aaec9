import Mathlib.Data.List.Basic
import HardcodedText.Proofs.Check.Scan

/-!
# What becomes of findings that share a place

A walk may make several findings at one place, and the same finding more than once.  What is listed
of them is said by `Finding.FirstInOrder`: the first finding of each key, by place, and those at one
place in the order in which they were made.

* `Finding.mem_firsts_iff`, `Finding.pairwise_idxOf_firstsFrom`: what is kept when repeated findings
  are dropped, and in which order.
* `Finding.pairwise_sort`: a sort keeps the order within a place.
* `Document.findings_firstInOrder`: this holds of the findings of every document, determines them,
  and dropping and sorting once more changes nothing.
-/

namespace HardcodedText

namespace Finding

/-! ## First findings -/

theorem mem_firstsFrom_iff {seen : List Key} {fs : List Finding} {f : Finding} :
    f ∈ firstsFrom seen fs ↔ f.key ∉ seen ∧ fs.find? (·.key = f.key) = some f := by
  induction fs generalizing seen with
  | nil => simp [firstsFrom]
  | cons g fs ih =>
    rw [firstsFrom]
    by_cases hkey : g.key = f.key
    · rw [List.find?_cons_of_pos (by simpa using hkey), hkey]
      split
      · next hseen => simp [ih, hseen]
      · next hseen =>
        rw [List.mem_cons, ih]
        simp only [List.mem_cons, not_true_eq_false, false_and, or_false, hseen,
          not_false_eq_true, true_and, Option.some.injEq]
        exact eq_comm
    · rw [List.find?_cons_of_neg (by simpa using hkey)]
      have hne : f ≠ g := fun heq ↦ hkey (congrArg key heq.symm)
      split
      · exact ih
      · rw [List.mem_cons, ih, List.mem_cons]
        simp [hne, Ne.symm hkey]

/-- A finding is kept if it is the first one with its key. -/
theorem mem_firsts_iff {fs : List Finding} {f : Finding} :
    f ∈ firsts fs ↔ fs.find? (·.key = f.key) = some f := by
  rw [firsts, mem_firstsFrom_iff]
  exact and_iff_right List.not_mem_nil

theorem exists_mem_firsts_of_mem {fs : List Finding} {f : Finding} (h : f ∈ fs) :
    ∃ g ∈ firsts fs, fs.find? (·.key = f.key) = some g := by
  obtain ⟨g, hg, hkey⟩ := exists_mem_firsts h
  refine ⟨g, hg, ?_⟩
  rw [← hkey]
  exact mem_firsts_iff.mp hg

theorem nodup_map_key_firstsFrom (seen : List Key) (fs : List Finding) :
    ((firstsFrom seen fs).map key).Nodup := by
  induction fs generalizing seen with
  | nil => exact List.nodup_nil
  | cons f fs ih =>
    rw [firstsFrom]
    split
    · exact ih seen
    · rw [List.map_cons, List.nodup_cons]
      refine ⟨fun hf ↦ ?_, ih _⟩
      obtain ⟨g, hg, hkey⟩ := List.mem_map.mp hf
      exact (mem_firstsFrom_iff.mp hg).1 (hkey ▸ List.mem_cons_self)

theorem nodup_map_key_firsts (fs : List Finding) : ((firsts fs).map key).Nodup :=
  nodup_map_key_firstsFrom [] fs

/-- The findings that are kept stay in the order in which they were made. -/
theorem pairwise_idxOf_firstsFrom (seen : List Key) (fs : List Finding) :
    (firstsFrom seen fs).Pairwise fun f g ↦ fs.idxOf f < fs.idxOf g := by
  induction fs generalizing seen with
  | nil => exact List.Pairwise.nil
  | cons f fs ih =>
    -- Whatever is kept after `f` has another key, so it is found one place further on.
    have hlater : ∀ keys, f.key ∈ keys → ∀ g ∈ firstsFrom keys fs,
        (f :: fs).idxOf g = fs.idxOf g + 1 := by
      intro keys hf g hg
      have hne : f ≠ g := fun heq ↦ (mem_firstsFrom_iff.mp hg).1 (heq ▸ hf)
      exact List.idxOf_cons_ne fs hne
    have htail : ∀ keys, f.key ∈ keys →
        (firstsFrom keys fs).Pairwise fun g h ↦ (f :: fs).idxOf g < (f :: fs).idxOf h := by
      intro keys hf
      refine (ih keys).imp_of_mem fun {g h} hg hh hgh ↦ ?_
      rw [hlater keys hf g hg, hlater keys hf h hh]
      exact Nat.succ_lt_succ hgh
    rw [firstsFrom]
    split
    · next hseen => exact htail seen hseen
    · refine List.pairwise_cons.mpr ⟨fun g hg ↦ ?_, htail _ List.mem_cons_self⟩
      rw [List.idxOf_cons_self, hlater _ List.mem_cons_self g hg]
      exact Nat.succ_pos _

/-! ## Sorting -/

/-- What holds of any two findings in their order still holds after a sort if they are at one
place. -/
theorem pairwise_sort {R : Finding → Finding → Prop} {fs : List Finding} (h : fs.Pairwise R) :
    (sort fs).Pairwise fun f g ↦ f.line = g.line → f.column = g.column → R f g := by
  rw [List.pairwise_iff_forall_sublist] at h ⊢
  intro f g hfg hline hcolumn
  let here (h : Finding) : Bool := h.line = f.line ∧ h.column = f.column
  -- Both are among the findings at one place, which a sort leaves alone.
  have hsame : sort (fs.filter here) = fs.filter here := by
    refine List.mergeSort_of_pairwise (List.pairwise_of_forall_mem_list fun a ha b hb ↦ ?_)
    have ha := of_decide_eq_true (List.mem_filter.mp ha).2
    have hb := of_decide_eq_true (List.mem_filter.mp hb).2
    rw [atOrBefore_iff]
    omega
  have hkept := hfg.filter here
  have hpair : [f, g].filter here = [f, g] := by simp [here, hline, hcolumn]
  rw [hpair, filter_sort, hsame] at hkept
  exact h (hkept.trans List.filter_sublist)

theorem sort_eq_self {fs : List Finding} (h : fs.Pairwise fun f g ↦ f.atOrBefore g) :
    sort fs = fs :=
  List.mergeSort_of_pairwise h

/-! ## Findings as they are listed -/

/-- `FirstInOrder raw fs`: of the findings `raw` in the order in which they were made, `fs` are the
first ones of each key, in the order of their places. -/
structure FirstInOrder (raw fs : List Finding) : Prop where
  /-- They are sorted by place. -/
  sorted : fs.Pairwise fun f g ↦ f.line < g.line ∨ f.line = g.line ∧ f.column ≤ g.column
  /-- No two of them have the same place, kind and text. -/
  distinct : fs.Pairwise fun f g ↦
    ¬ (f.line = g.line ∧ f.column = g.column ∧ f.kind = g.kind ∧ f.value = g.value)
  /-- They are the findings that are the first ones with their key. -/
  mem_iff : ∀ f, f ∈ fs ↔ raw.find? (·.key = f.key) = some f
  /-- For each finding that was made, there is the first one with its key. -/
  exists_mem : ∀ f ∈ raw, ∃ g ∈ fs, raw.find? (·.key = f.key) = some g
  /-- Those at one place come in the order in which they were made. -/
  stable : fs.Pairwise fun f g ↦
    f.line = g.line → f.column = g.column → raw.idxOf f < raw.idxOf g

theorem key_eq_iff {f g : Finding} :
    f.key = g.key ↔
      f.line = g.line ∧ f.column = g.column ∧ f.kind = g.kind ∧ f.value = g.value := by
  rw [key, key, Key.mk.injEq]

theorem firstInOrder_sort_firsts (raw : List Finding) :
    FirstInOrder raw (sort (firsts raw)) := by
  have hmem : ∀ f, f ∈ sort (firsts raw) ↔ raw.find? (·.key = f.key) = some f :=
    fun f ↦ mem_sort_iff.trans mem_firsts_iff
  have hkeys : ((sort (firsts raw)).map key).Nodup :=
    ((List.mergeSort_perm _ _).map key).nodup_iff.mpr (nodup_map_key_firsts raw)
  constructor
  · exact (sort_pairwise _).imp atOrBefore_iff.mp
  · exact (List.pairwise_map.mp hkeys).imp (mt key_eq_iff.mpr)
  · exact hmem
  · intro f hf
    obtain ⟨g, hg, hfirst⟩ := exists_mem_firsts_of_mem hf
    exact ⟨g, mem_sort_iff.mpr hg, hfirst⟩
  · exact pairwise_sort (pairwise_idxOf_firstsFrom [] raw)

/-- There is one way only to list findings so. -/
theorem FirstInOrder.eq {raw fs gs : List Finding} (hf : FirstInOrder raw fs)
    (hg : FirstInOrder raw gs) : fs = gs := by
  have hnodup : ∀ {hs}, FirstInOrder raw hs → hs.Nodup := fun h ↦
    h.distinct.imp fun hne heq ↦ hne (key_eq_iff.mp (congrArg key heq))
  have hperm : fs.Perm gs := (List.perm_ext_iff_of_nodup (hnodup hf) (hnodup hg)).mpr
    fun f ↦ (hf.mem_iff f).trans (hg.mem_iff f).symm
  -- Two findings that stand in both orders are at one place, and no two there can be exchanged.
  refine hperm.eq_of_pairwise (fun f g _ _ hfg hgf ↦ ?_) (hf.sorted.and hf.stable)
    (hg.sorted.and hg.stable)
  have hline : f.line = g.line := by omega
  have hcolumn : f.column = g.column := by omega
  have hbefore := hfg.2 hline hcolumn
  have hafter := hgf.2 hline.symm hcolumn.symm
  omega

/-- What is listed so is not changed by dropping and sorting once more. -/
theorem FirstInOrder.sort_firsts {raw fs : List Finding} (h : FirstInOrder raw fs) :
    sort (firsts fs) = fs := by
  have hkeys : (fs.map key).Nodup :=
    List.pairwise_map.mpr (h.distinct.imp (mt key_eq_iff.mp))
  rw [firsts_eq_self hkeys, sort_eq_self (h.sorted.imp atOrBefore_iff.mpr)]

end Finding

namespace Document

/-- **A document lists the first finding of each key, by place.**  Findings at one place stay in the
order of the walk.  This leaves no choice, and to drop repeated findings and sort once more changes
nothing. -/
theorem findings_firstInOrder (doc : Document) (config : Configuration) (checks : List Check) :
    let raw := doc.rawFindings config checks
    let fs := doc.findings config checks
    Finding.FirstInOrder raw fs ∧ (∀ gs, Finding.FirstInOrder raw gs → gs = fs) ∧
      Finding.sort (Finding.firsts fs) = fs := by
  intro raw fs
  have hlisted : Finding.FirstInOrder raw fs := Finding.firstInOrder_sort_firsts raw
  exact ⟨hlisted, fun gs hgs ↦ hgs.eq hlisted, hlisted.sort_firsts⟩

/-- Of four texts, two begin at one place, and the last is the first one over again. -/
theorem findings_firstInOrder_toast :
    let text := "toast('a','b')"
    let root : Tree := .node { kind := "program", span := ⟨0, 14⟩ } [
      .node { kind := "call_expression", span := ⟨0, 14⟩ } [
        .node { kind := "identifier", span := ⟨0, 5⟩, field := some "function" } [],
        .node { kind := "arguments", span := ⟨5, 14⟩, field := some "arguments" } [
          .node { kind := "string", span := ⟨10, 13⟩ } [],
          .node { kind := "string", span := ⟨6, 9⟩ } [],
          .node { kind := "string", span := ⟨6, 13⟩ } [],
          .node { kind := "string", span := ⟨10, 13⟩ } []]]]
    let doc := ofText "a.ts" text root
    let raw := doc.rawFindings .toasts Check.all
    let fs := doc.findings .toasts Check.all
    let shown (f : Finding) : Int × Int × String := (f.line, f.column, f.value)
    raw.map shown = [(1, 10, "b"), (1, 6, "a"), (1, 6, "a','b"), (1, 10, "b")] ∧
      fs.map shown = [(1, 6, "a"), (1, 6, "a','b"), (1, 10, "b")] ∧
      Finding.FirstInOrder raw fs ∧
      (∀ gs, Finding.FirstInOrder raw gs → gs.map shown = fs.map shown) ∧
      Finding.sort (Finding.firsts fs) = fs := by
  intro text root doc raw fs shown
  obtain ⟨hlisted, hunique, hagain⟩ := findings_firstInOrder doc .toasts Check.all
  have hkept : (Finding.firsts raw).map shown = [(1, 10, "b"), (1, 6, "a"), (1, 6, "a','b")] := by
    decide +kernel
  have hsorted : fs.map shown = ((Finding.firsts raw).map shown).mergeSort fun x y ↦
      x.1 < y.1 || (x.1 == y.1 && x.2.1 ≤ y.2.1) :=
    List.map_mergeSort fun _ _ _ _ ↦ rfl
  refine ⟨by decide +kernel, ?_, hlisted, fun gs hgs ↦ congrArg _ (hunique gs hgs), hagain⟩
  rw [hsorted, hkept]
  simp [List.mergeSort]

end Document

end HardcodedText
