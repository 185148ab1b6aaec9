import HardcodedText.Pattern.Braces
import HardcodedText.Proofs.Except

/-!
# Expanding brace alternatives

Text without braces before or after a pattern is put before or after each of its expansions
(`expandChars_append_left`, `expandChars_append_right`).
-/

namespace HardcodedText.Braces

/-! ## The equations of the expansion -/

theorem expandChars_of_notMem {cs : List Char} (h : '\x7b' ∉ cs) :
    expandChars cs = if cs.contains '\x7d' then .error cs else .ok [cs] := by
  have hd : cs.dropWhile (· != '\x7b') = [] := by
    have hall : ∀ c ∈ cs, (c != '\x7b') = true := fun c hc ↦ bne_iff_ne.mpr fun heq ↦ h (heq ▸ hc)
    rw [← List.append_nil cs, List.dropWhile_append_of_pos hall]
    rfl
  rw [expandChars]
  split
  · rfl
  · next heq =>
    rw [hd] at heq
    cases heq

theorem expandChars_group {before after : List Char} (h : '\x7b' ∉ before) :
    expandChars (before ++ '\x7b' :: after) =
      match closeGroup? 0 after with
      | none => .error (before ++ '\x7b' :: after)
      | some (body, rest) =>
        ((alternatives 0 body).mapM fun a ↦ expandChars (a ++ rest)).map fun tails ↦
          tails.flatten.map (before ++ ·) := by
  have hall : ∀ c ∈ before, (c != '\x7b') = true := fun c hc ↦
    bne_iff_ne.mpr fun heq ↦ h (heq ▸ hc)
  have hd : (before ++ '\x7b' :: after).dropWhile (· != '\x7b') = '\x7b' :: after := by
    rw [List.dropWhile_append_of_pos hall]
    rfl
  have ht : (before ++ '\x7b' :: after).takeWhile (· != '\x7b') = before := by
    rw [List.takeWhile_append_of_pos hall]
    exact List.append_nil before
  rw [expandChars]
  split
  · next heq =>
    rw [hd] at heq
    cases heq
  · next heq =>
    rw [hd] at heq
    cases heq
    split
    · next hg => rw [hg]
    · next hg =>
      rw [hg, ht, List.mapM_subtype fun a _ ↦ rfl, List.unattach_attach]
      rfl

/-! ## Text around a pattern -/

/-- A character that does not close a group is the first of its body. -/
theorem exists_eq_cons_of_map {cut? : Option (List Char × List Char)} {c : Char}
    {body rest : List Char}
    (h : cut?.map (fun cut ↦ (c :: cut.1, cut.2)) = some (body, rest)) :
    ∃ inner, body = c :: inner ∧ cut? = some (inner, rest) := by
  obtain ⟨⟨inner, after⟩, hinner, heq⟩ := Option.map_eq_some_iff.mp h
  cases heq
  exact ⟨inner, rfl, hinner⟩

theorem closeGroup?_append {depth : Nat} {cs body rest : List Char}
    (h : closeGroup? depth cs = some (body, rest)) (ds : List Char) :
    closeGroup? depth (cs ++ ds) = some (body, rest ++ ds) := by
  have hstep {depth : Nat} {c : Char} {cs body rest : List Char}
      (ih : ∀ {body rest}, closeGroup? depth cs = some (body, rest) →
        closeGroup? depth (cs ++ ds) = some (body, rest ++ ds))
      (h : (closeGroup? depth cs).map (fun cut ↦ (c :: cut.1, cut.2)) = some (body, rest)) :
      (closeGroup? depth (cs ++ ds)).map (fun cut ↦ (c :: cut.1, cut.2)) =
        some (body, rest ++ ds) := by
    obtain ⟨inner, rfl, hinner⟩ := exists_eq_cons_of_map h
    rw [ih hinner]
    rfl
  fun_induction closeGroup? depth cs generalizing body rest with
  | case1 => cases h
  | case2 depth cs ih =>
    rw [List.cons_append, closeGroup?.eq_def]
    dsimp only
    rw [if_pos rfl]
    exact hstep ih h
  | case3 cs =>
    cases h
    rfl
  | case4 cs depth hopen ih =>
    rw [List.cons_append, closeGroup?.eq_def]
    dsimp only
    rw [if_neg hopen, if_pos rfl]
    exact hstep ih h
  | case5 depth c cs hopen hclose ih =>
    rw [List.cons_append, closeGroup?.eq_def]
    dsimp only
    rw [if_neg hopen, if_neg hclose]
    exact hstep ih h

theorem expandChars_append_right {cs : List Char} {es : List (List Char)}
    (h : expandChars cs = .ok es) {ds : List Char} (hopen : '\x7b' ∉ ds) (hclose : '\x7d' ∉ ds) :
    expandChars (cs ++ ds) = .ok (es.map (· ++ ds)) := by
  by_cases hcs : '\x7b' ∈ cs
  · obtain ⟨before, after, rfl, hbefore⟩ := List.eq_append_cons_of_mem hcs
    rw [expandChars_group hbefore] at h
    rw [List.append_assoc, List.cons_append, expandChars_group hbefore]
    split at h
    · cases h
    · next body rest hg =>
      rw [closeGroup?_append hg]
      obtain ⟨tails, htails, rfl⟩ := Except.map_eq_ok_iff.mp h
      refine Except.map_eq_ok_iff.mpr ⟨tails.map (List.map (· ++ ds)), ?_, ?_⟩
      · refine Except.mapM_eq_ok_map (fun a ha es hes ↦ ?_) htails
        have hlength := length_closeGroup? hg
        have halternative := length_of_mem_alternatives ha
        rw [← List.append_assoc]
        exact expandChars_append_right hes hopen hclose
      · rw [← List.map_flatten, List.map_map, List.map_map]
        exact List.map_congr_left fun tail _ ↦ (List.append_assoc ..).symm
  · rw [expandChars_of_notMem hcs] at h
    have hcsds : '\x7b' ∉ cs ++ ds := fun hmem ↦ (List.mem_append.mp hmem).elim hcs hopen
    rw [expandChars_of_notMem hcsds]
    split at h
    · cases h
    · next hno =>
      cases h
      rw [if_neg]
      · rfl
      · rw [List.contains_iff_mem] at hno ⊢
        exact fun hmem ↦ (List.mem_append.mp hmem).elim hno hclose
termination_by cs.length
decreasing_by
  subst_vars
  simp only [List.length_append, List.length_cons]
  omega

theorem expandChars_append_left {cs : List Char} {es : List (List Char)}
    (h : expandChars cs = .ok es) {ds : List Char} (hopen : '\x7b' ∉ ds) (hclose : '\x7d' ∉ ds) :
    expandChars (ds ++ cs) = .ok (es.map (ds ++ ·)) := by
  by_cases hcs : '\x7b' ∈ cs
  · obtain ⟨before, after, rfl, hbefore⟩ := List.eq_append_cons_of_mem hcs
    have hdsbefore : '\x7b' ∉ ds ++ before := fun hmem ↦
      (List.mem_append.mp hmem).elim hopen hbefore
    rw [expandChars_group hbefore] at h
    rw [← List.append_assoc, expandChars_group hdsbefore]
    split at h
    · cases h
    · obtain ⟨tails, htails, rfl⟩ := Except.map_eq_ok_iff.mp h
      refine Except.map_eq_ok_iff.mpr ⟨tails, htails, ?_⟩
      rw [List.map_map]
      exact List.map_congr_left fun tail _ ↦ List.append_assoc ..
  · rw [expandChars_of_notMem hcs] at h
    have hdscs : '\x7b' ∉ ds ++ cs := fun hmem ↦ (List.mem_append.mp hmem).elim hopen hcs
    rw [expandChars_of_notMem hdscs]
    split at h
    · cases h
    · next hno =>
      cases h
      rw [if_neg]
      · rfl
      · rw [List.contains_iff_mem] at hno ⊢
        exact fun hmem ↦ (List.mem_append.mp hmem).elim hclose hno

theorem expand_append_right {pattern : String} {es : List String} (h : expand pattern = .ok es)
    {after : String} (hopen : '\x7b' ∉ after.toList) (hclose : '\x7d' ∉ after.toList) :
    expand (pattern ++ after) = .ok (es.map (· ++ after)) := by
  rw [expand] at h
  split at h
  · next expansions heq =>
    cases h
    rw [expand, String.toList_append, expandChars_append_right heq hopen hclose]
    dsimp only
    rw [List.map_map, List.map_map]
    refine congrArg _ (List.map_congr_left fun cs _ ↦ ?_)
    exact String.ofList_append.trans (congrArg _ String.ofList_toList)
  · cases h

theorem expand_append_left {pattern : String} {es : List String} (h : expand pattern = .ok es)
    {before : String} (hopen : '\x7b' ∉ before.toList) (hclose : '\x7d' ∉ before.toList) :
    expand (before ++ pattern) = .ok (es.map (before ++ ·)) := by
  rw [expand] at h
  split at h
  · next expansions heq =>
    cases h
    rw [expand, String.toList_append, expandChars_append_left heq hopen hclose]
    dsimp only
    rw [List.map_map, List.map_map]
    refine congrArg _ (List.map_congr_left fun cs _ ↦ ?_)
    exact String.ofList_append.trans (congrArg (· ++ _) String.ofList_toList)
  · cases h

/-- A pattern without braces stands for itself. -/
theorem of_expand_eq_ok {pattern : String} {es : List String} (h : expand pattern = .ok es)
    (hopen : '\x7b' ∉ pattern.toList) : es = [pattern] ∧ '\x7d' ∉ pattern.toList := by
  rw [expand, expandChars_of_notMem hopen] at h
  split at h
  · next heq =>
    split at heq
    · cases heq
    · next hclose =>
      cases heq
      cases h
      exact ⟨congrArg (fun p ↦ [p]) String.ofList_toList, mt List.contains_iff_mem.mpr hclose⟩
  · cases h

end HardcodedText.Braces
