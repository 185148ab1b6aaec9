import HardcodedText.Finding

/-!
# Dropping repeated findings and sorting

`Finding.firsts` and `Finding.sort` against `List.filter`: a class of findings that their keys or
places tell apart can be picked out before or after either of them.

* `filter_firsts`: of each key, the first finding is kept, whatever other keys there are.
* `firsts_eq_self`: nothing is dropped if all keys are different.
* `filter_sort`: sorting is stable, so leaving findings out first changes nothing for the rest.
-/

namespace HardcodedText.Finding

/-! ## The order of places -/

theorem atOrBefore_iff {f g : Finding} :
    f.atOrBefore g ↔ f.line < g.line ∨ f.line = g.line ∧ f.column ≤ g.column := by
  simp [atOrBefore]

theorem atOrBefore_trans (f g h : Finding) (hfg : f.atOrBefore g) (hgh : g.atOrBefore h) :
    f.atOrBefore h := by
  rw [atOrBefore_iff] at *
  omega

theorem atOrBefore_total (f g : Finding) : f.atOrBefore g || g.atOrBefore f := by
  rw [Bool.or_eq_true, atOrBefore_iff, atOrBefore_iff]
  omega

/-! ## Sorting -/

@[simp] theorem sort_nil : sort [] = [] := List.mergeSort_nil

theorem sort_pairwise (fs : List Finding) : (sort fs).Pairwise fun f g ↦ f.atOrBefore g :=
  List.pairwise_mergeSort atOrBefore_trans atOrBefore_total fs

theorem mem_sort_iff {f : Finding} {fs : List Finding} : f ∈ sort fs ↔ f ∈ fs :=
  List.mem_mergeSort

/-- A finding in front of others is put before all those at its place or after it. -/
theorem sort_cons (f : Finding) (fs : List Finding) :
    ∃ gs hs, sort (f :: fs) = gs ++ f :: hs ∧ sort fs = gs ++ hs ∧
      (∀ g ∈ gs, f.atOrBefore g = false) ∧ ∀ h ∈ hs, f.atOrBefore h = true := by
  obtain ⟨gs, hs, hcons, htail, hgs⟩ :=
    List.mergeSort_cons atOrBefore_trans atOrBefore_total f fs
  refine ⟨gs, hs, hcons, htail, fun g hg ↦ by simpa using hgs g hg, ?_⟩
  have hsorted := sort_pairwise (f :: fs)
  rw [sort, hcons] at hsorted
  exact (List.pairwise_cons.mp (List.pairwise_append.mp hsorted).2.1).1

/-- A list is cut in one way only into a part that fails a test and one that passes it. -/
theorem append_inj_of_filter {α : Type} {p : α → Bool} {xs ys xs' ys' : List α}
    (h : xs ++ ys = xs' ++ ys') (hxs : ∀ x ∈ xs, p x = false) (hys : ∀ y ∈ ys, p y = true)
    (hxs' : ∀ x ∈ xs', p x = false) (hys' : ∀ y ∈ ys', p y = true) : xs = xs' ∧ ys = ys' := by
  have hnil : xs.filter p = [] := List.filter_eq_nil_iff.mpr (by simpa using hxs)
  have hnil' : xs'.filter p = [] := List.filter_eq_nil_iff.mpr (by simpa using hxs')
  have hright : ys = ys' := by
    have := congrArg (List.filter p) h
    rwa [List.filter_append, List.filter_append, hnil, hnil', List.filter_eq_self.mpr hys,
      List.filter_eq_self.mpr hys'] at this
  subst hright
  exact ⟨List.append_cancel_right h, rfl⟩

theorem filter_sort (q : Finding → Bool) (fs : List Finding) :
    (sort fs).filter q = sort (fs.filter q) := by
  induction fs with
  | nil => simp
  | cons f fs ih =>
    obtain ⟨gs, hs, hcons, htail, hgs, hhs⟩ := sort_cons f fs
    rw [htail, List.filter_append] at ih
    cases hq : q f with
    | false => rw [List.filter_cons_of_neg (by simp [hq]), ← ih, hcons, List.filter_append,
        List.filter_cons_of_neg (by simp [hq])]
    | true =>
      obtain ⟨gs', hs', hcons', htail', hgs', hhs'⟩ := sort_cons f (fs.filter q)
      -- Both cuts separate what stands before `f` from the rest, so they are the same.
      obtain ⟨hg, hh⟩ := append_inj_of_filter (ih.trans htail')
        (fun g hg ↦ hgs g (List.mem_filter.mp hg).1) (fun h hh ↦ hhs h (List.mem_filter.mp hh).1)
        hgs' hhs'
      rw [List.filter_cons_of_pos hq, hcons', ← hg, ← hh, hcons, List.filter_append,
        List.filter_cons_of_pos hq]

/-! ## First findings -/

/-- What has been `seen` matters only as far as the keys that are picked out go. -/
theorem filter_firstsFrom {q : Key → Bool} {seen seen' : List Key}
    (h : ∀ k, q k = true → (k ∈ seen ↔ k ∈ seen')) (fs : List Finding) :
    (firstsFrom seen fs).filter (fun f ↦ q f.key) =
      firstsFrom seen' (fs.filter fun f ↦ q f.key) := by
  induction fs generalizing seen seen' with
  | nil => rfl
  | cons f fs ih =>
    rw [firstsFrom]
    cases hq : q f.key with
    | false =>
      rw [List.filter_cons_of_neg (by simp [hq])]
      split
      · exact ih h
      · rw [List.filter_cons_of_neg (by simp [hq])]
        refine ih fun k hk ↦ ?_
        have hne : k ≠ f.key := fun he ↦ by simp [he, hq] at hk
        simp [hne, h k hk]
    | true =>
      rw [List.filter_cons, if_pos hq, firstsFrom]
      by_cases hseen : f.key ∈ seen
      · rw [if_pos hseen, if_pos ((h _ hq).mp hseen)]
        exact ih h
      · rw [if_neg hseen, if_neg fun hs ↦ hseen ((h _ hq).mpr hs),
          List.filter_cons, if_pos hq]
        exact congrArg (f :: ·) (ih fun k hk ↦ by simp [h k hk])

theorem filter_firsts (q : Key → Bool) (fs : List Finding) :
    (firsts fs).filter (fun f ↦ q f.key) = firsts (fs.filter fun f ↦ q f.key) :=
  filter_firstsFrom (fun _ _ ↦ Iff.rfl) fs

theorem firstsFrom_subset (seen : List Key) (fs : List Finding) : firstsFrom seen fs ⊆ fs := by
  induction fs generalizing seen with
  | nil => exact List.Subset.refl []
  | cons f fs ih =>
    rw [firstsFrom]
    split
    · exact List.subset_cons_of_subset f (ih seen)
    · exact List.cons_subset_cons f (ih (f.key :: seen))

theorem firsts_subset (fs : List Finding) : firsts fs ⊆ fs :=
  firstsFrom_subset [] fs

/-- No key is lost. -/
theorem exists_mem_firstsFrom {seen : List Key} {fs : List Finding} {f : Finding} (h : f ∈ fs)
    (hseen : f.key ∉ seen) : ∃ g ∈ firstsFrom seen fs, g.key = f.key := by
  induction fs generalizing seen with
  | nil => cases h
  | cons f' fs ih =>
    rw [firstsFrom]
    rcases List.mem_cons.mp h with rfl | h
    · rw [if_neg hseen]
      exact ⟨f, List.mem_cons_self, rfl⟩
    · split
      · exact ih h hseen
      · by_cases heq : f.key = f'.key
        · exact ⟨f', List.mem_cons_self, heq.symm⟩
        · have hnot : f.key ∉ f'.key :: seen := by simp [heq, hseen]
          obtain ⟨g, hg, hkey⟩ := ih h hnot
          exact ⟨g, List.mem_cons_of_mem _ hg, hkey⟩

theorem exists_mem_firsts {fs : List Finding} {f : Finding} (h : f ∈ fs) :
    ∃ g ∈ firsts fs, g.key = f.key :=
  exists_mem_firstsFrom h List.not_mem_nil

/-- Findings with different keys are all kept. -/
theorem firstsFrom_eq_self {seen : List Key} {fs : List Finding} (h : (fs.map key).Nodup)
    (hseen : ∀ f ∈ fs, f.key ∉ seen) : firstsFrom seen fs = fs := by
  induction fs generalizing seen with
  | nil => rfl
  | cons f fs ih =>
    obtain ⟨hf, hfs⟩ := List.nodup_cons.mp h
    rw [firstsFrom, if_neg (hseen f List.mem_cons_self), ih hfs]
    intro g hg
    rw [List.mem_cons, not_or]
    refine ⟨fun heq ↦ hf (heq ▸ List.mem_map_of_mem hg), ?_⟩
    exact hseen g (List.mem_cons_of_mem _ hg)

theorem firsts_eq_self {fs : List Finding} (h : (fs.map key).Nodup) : firsts fs = fs :=
  firstsFrom_eq_self h fun _ _ hf ↦ by cases hf

end HardcodedText.Finding
