import HardcodedText.Proofs.Pattern.Braces.Grammar

/-!
# Braces that do not pair up

Groups are opened from left to right, and a group that is never closed is always noticed.  A brace
that closes no group is noticed only where no group is left to be opened (`Unpaired`): the text
before a group is not looked at again, and such a brace there ends up in every expansion.

`expand_fails_on_unpaired` says that expanding fails on just these texts.  A text with balanced
braces is none of them, and neither is a text whose braces are balanced but for some that close no
group and stand before a group (`expand_stray_before_group`).
-/

namespace HardcodedText.Braces

/-- Some end of the text opens more groups than it closes. -/
def LeavesOpen (cs : List Char) : Prop :=
  ∃ ds, ds <:+ cs ∧ ds.count '\x7d' < ds.count '\x7b'

/-- A group is left open, or a brace closes no group and no group is opened after it. -/
def Unpaired (cs : List Char) : Prop :=
  LeavesOpen cs ∨ ∃ ds es, cs = ds ++ '\x7d' :: es ∧ ¬ LeavesOpen ds ∧ '\x7b' ∉ es

/-! ## Groups that are left open -/

theorem LeavesOpen.append_left {bs : List Char} (h : LeavesOpen bs) (as : List Char) :
    LeavesOpen (as ++ bs) := by
  obtain ⟨ds, hds, hcount⟩ := h
  exact ⟨ds, hds.trans (List.suffix_append as bs), hcount⟩

theorem leavesOpen_append_iff {as bs : List Char} (h : ¬ LeavesOpen as) :
    LeavesOpen (as ++ bs) ↔ LeavesOpen bs := by
  refine ⟨?_, fun hbs ↦ hbs.append_left as⟩
  rintro ⟨ds, ⟨front, hfront⟩, hcount⟩
  rcases List.append_eq_append_iff.mp hfront with ⟨end', rfl, rfl⟩ | ⟨back, rfl, rfl⟩
  · -- The end of `as` opens nothing that it leaves open, so `bs` itself does.
    have hend : ¬ end'.count '\x7d' < end'.count '\x7b' := fun hlt ↦
      h ⟨end', List.suffix_append front end', hlt⟩
    refine ⟨bs, List.suffix_refl bs, ?_⟩
    rw [List.count_append, List.count_append] at hcount
    omega
  · exact ⟨ds, List.suffix_append back ds, hcount⟩

theorem not_leavesOpen_of_notMem {cs : List Char} (h : '\x7b' ∉ cs) : ¬ LeavesOpen cs := by
  rintro ⟨ds, hds, hcount⟩
  rw [List.count_eq_zero.mpr fun hmem ↦ h (hds.subset hmem)] at hcount
  exact absurd hcount (Nat.not_lt_zero _)

/-! ## Texts with balanced braces -/

/-- What has no brace for a group around it closes no more groups than it opens. -/
theorem opened_of_closeGroup?_eq_none {cs ds : List Char} (h : closeGroup? 0 cs = none)
    (hds : ds <+: cs) : ds.count '\x7d' ≤ ds.count '\x7b' := by
  refine Nat.not_lt.mp fun hlt ↦ ?_
  obtain ⟨choice, rest, rfl⟩ := exists_choice hlt
  obtain ⟨more, rfl⟩ := hds
  rw [List.append_assoc, List.cons_append, choice.closeGroup?_text] at h
  cases h

theorem Pattern.balanced_text {inner : Bool} (p : Pattern inner) : Balanced p.text := by
  have hnone := p.closeGroup?_text_append 0 []
  rw [List.append_nil] at hnone
  exact ⟨fun ds hds ↦ opened_of_closeGroup?_eq_none hnone hds, p.count_text⟩

theorem Choice.balanced_text (choice : Choice) : Balanced choice.text := by
  have hnone := choice.closeGroup?_text_append 0 []
  rw [List.append_nil] at hnone
  exact ⟨fun ds hds ↦ opened_of_closeGroup?_eq_none hnone hds, choice.count_text⟩

theorem Choice.balanced_of_mem_texts {choice : Choice} {a : List Char} (h : a ∈ choice.texts) :
    Balanced a := by
  match choice with
  | .last p =>
    rw [List.mem_singleton.mp h]
    exact p.balanced_text
  | .cons p more =>
    rcases List.mem_cons.mp h with rfl | h
    · exact p.balanced_text
    · exact balanced_of_mem_texts h

theorem Balanced.not_leavesOpen {cs : List Char} (h : Balanced cs) : ¬ LeavesOpen cs := by
  rintro ⟨ds, ⟨front, rfl⟩, hcount⟩
  have hfront := h.opened front (List.prefix_append front ds)
  have htotal := h.closed
  rw [List.count_append, List.count_append] at htotal
  omega

/-- Before a brace that closes a group, that group is open. -/
theorem Balanced.leavesOpen {ds es : List Char} (h : Balanced (ds ++ '\x7d' :: es)) :
    LeavesOpen ds := by
  have hclose := h.opened (ds ++ ['\x7d']) ⟨es, List.append_assoc ..⟩
  rw [List.count_append, List.count_append] at hclose
  exact ⟨ds, List.suffix_refl ds, hclose⟩

/-- Braces are balanced if no group is left open and every brace that closes one finds it open. -/
theorem balanced_of_leavesOpen {cs : List Char} (hopen : ¬ LeavesOpen cs)
    (hclose : ∀ ds es, cs = ds ++ '\x7d' :: es → LeavesOpen ds) : Balanced cs := by
  have hopened : ∀ ds, ds <+: cs → ds.count '\x7d' ≤ ds.count '\x7b' := by
    rintro ds ⟨more, rfl⟩
    refine Nat.not_lt.mp fun hlt ↦ ?_
    -- The first brace too many stands after a choice, in which every group is closed.
    obtain ⟨choice, rest, rfl⟩ := exists_choice hlt
    exact choice.balanced_text.not_leavesOpen (hclose _ (rest ++ more) (List.append_assoc ..))
  refine ⟨hopened, Nat.le_antisymm ?_ (hopened cs (List.prefix_refl cs))⟩
  exact Nat.not_lt.mp fun hlt ↦ hopen ⟨cs, List.suffix_refl cs, hlt⟩

/-- If no group is opened after a brace that closes none, then braces that do not pair up are those
that are not balanced. -/
theorem unpaired_iff_not_balanced {cs : List Char}
    (h : ∀ ds es, cs = ds ++ '\x7d' :: es → ¬ LeavesOpen ds → '\x7b' ∉ es) :
    Unpaired cs ↔ ¬ Balanced cs := by
  constructor
  · rintro (hopen | ⟨ds, es, rfl, hds, -⟩) hbalanced
    · exact hbalanced.not_leavesOpen hopen
    · exact hds hbalanced.leavesOpen
  · intro hnot
    by_contra hpaired
    obtain ⟨hopen, hstray⟩ := not_or.mp hpaired
    refine hnot (balanced_of_leavesOpen hopen fun ds es heq ↦ ?_)
    by_contra hds
    exact hstray ⟨ds, es, heq, hds, h ds es heq hds⟩

/-! ## One group after another -/

/-- What stands before a text has no part in it if it leaves no group open, and each brace in it
closes a group or stands before one. -/
theorem unpaired_append_iff {as bs : List Char} (hopen : ¬ LeavesOpen as)
    (hclose : ∀ ds es, as = ds ++ '\x7d' :: es → LeavesOpen ds ∨ '\x7b' ∈ es ++ bs) :
    Unpaired (as ++ bs) ↔ Unpaired bs := by
  refine or_congr (leavesOpen_append_iff hopen) ⟨?_, ?_⟩
  · rintro ⟨ds, es, heq, hds, hes⟩
    rcases List.append_eq_append_iff.mp heq with ⟨front, rfl, rfl⟩ | ⟨back, rfl, hback⟩
    · exact ⟨front, es, rfl, mt (leavesOpen_append_iff hopen).mpr hds, hes⟩
    · cases back with
      | nil =>
        exact ⟨[], es, hback.symm, not_leavesOpen_of_notMem List.not_mem_nil, hes⟩
      | cons c back =>
        obtain ⟨rfl, rfl⟩ := List.cons.inj hback
        rcases hclose ds back rfl with h | h
        · exact absurd h hds
        · exact absurd h hes
  · rintro ⟨ds, es, rfl, hds, hes⟩
    refine ⟨as ++ ds, es, (List.append_assoc ..).symm, ?_, hes⟩
    exact mt (leavesOpen_append_iff hopen).mp hds

theorem Balanced.unpaired_append_iff {as : List Char} (h : Balanced as) (bs : List Char) :
    Unpaired (as ++ bs) ↔ Unpaired bs := by
  refine Braces.unpaired_append_iff h.not_leavesOpen ?_
  rintro ds es rfl
  exact .inl h.leavesOpen

/-- Without groups, any closing brace is one too many. -/
theorem unpaired_iff_of_notMem {cs : List Char} (h : '\x7b' ∉ cs) :
    Unpaired cs ↔ '\x7d' ∈ cs := by
  constructor
  · rintro (hopen | ⟨ds, es, rfl, -⟩)
    · exact absurd hopen (not_leavesOpen_of_notMem h)
    · exact List.mem_append_right ds List.mem_cons_self
  · intro hclose
    obtain ⟨ds, es, rfl, -⟩ := List.eq_append_cons_of_mem hclose
    refine .inr ⟨ds, es, rfl, not_leavesOpen_of_notMem fun hmem ↦ ?_, fun hmem ↦ ?_⟩
    · exact h (List.mem_append_left _ hmem)
    · exact h (List.mem_append_right ds (List.mem_cons_of_mem _ hmem))

/-- Where a group is closed, as many groups are closed as are open. -/
theorem closeGroup?_eq_some {depth : Nat} {cs body rest : List Char}
    (h : closeGroup? depth cs = some (body, rest)) :
    cs = body ++ '\x7d' :: rest ∧ body.count '\x7d' = body.count '\x7b' + depth := by
  fun_induction closeGroup? depth cs generalizing body rest with
  | case1 => cases h
  | case2 depth cs ih =>
    obtain ⟨inner, rfl, hinner⟩ := exists_eq_cons_of_map h
    obtain ⟨rfl, hcount⟩ := ih hinner
    refine ⟨rfl, ?_⟩
    rw [List.count_cons_self, List.count_cons_of_ne (by decide), hcount]
    omega
  | case3 cs =>
    cases h
    exact ⟨rfl, rfl⟩
  | case4 cs depth hopen ih =>
    obtain ⟨inner, rfl, hinner⟩ := exists_eq_cons_of_map h
    obtain ⟨rfl, hcount⟩ := ih hinner
    refine ⟨rfl, ?_⟩
    rw [List.count_cons_self, List.count_cons_of_ne (by decide), hcount]
    omega
  | case5 depth c cs hopen hclose ih =>
    obtain ⟨inner, rfl, hinner⟩ := exists_eq_cons_of_map h
    obtain ⟨rfl, hcount⟩ := ih hinner
    refine ⟨rfl, ?_⟩
    rw [List.count_cons_of_ne hopen, List.count_cons_of_ne hclose, hcount]

/-- What stands before the brace that closes a group is a choice. -/
theorem exists_choice_of_closeGroup? {cs body after : List Char}
    (h : closeGroup? 0 cs = some (body, after)) :
    ∃ (choice : Choice) (rest : List Char), cs = choice.text ++ '\x7d' :: rest := by
  obtain ⟨rfl, hcount⟩ := closeGroup?_eq_some h
  have hmore : (body ++ ['\x7d']).count '\x7b' < (body ++ ['\x7d']).count '\x7d' := by
    rw [List.count_append, List.count_append, hcount]
    exact Nat.lt_succ_self _
  obtain ⟨choice, more, hchoice⟩ := exists_choice hmore
  refine ⟨choice, more ++ after, ?_⟩
  rw [List.append_cons, hchoice, List.append_assoc, List.cons_append]

/-- To open a group makes a text shorter. -/
theorem Choice.length_lt {choice : Choice} {a : List Char} (h : a ∈ choice.texts)
    (before rest : List Char) :
    (a ++ rest).length < (before ++ '\x7b' :: (choice.text ++ '\x7d' :: rest)).length := by
  rw [← choice.alternatives_text] at h
  have hlength := length_of_mem_alternatives h
  simp only [List.length_append, List.length_cons]
  omega

/-- Induction along the expansion of a text: it has no group, its first group is left open, or its
first group is opened. -/
@[elab_as_elim]
theorem expandChars_induction {P : List Char → Prop}
    (literal : ∀ cs, '\x7b' ∉ cs →
      (expandChars cs = if cs.contains '\x7d' then .error cs else .ok [cs]) → P cs)
    (unclosed : ∀ cs, LeavesOpen cs → expandChars cs = .error cs → P cs)
    (group : ∀ (before : List Char) (choice : Choice) (rest : List Char), '\x7b' ∉ before →
      (expandChars (before ++ '\x7b' :: (choice.text ++ '\x7d' :: rest)) =
        (choice.texts.mapM fun a ↦ expandChars (a ++ rest)).map fun tails ↦
          tails.flatten.map (before ++ ·)) →
      (∀ a ∈ choice.texts, P (a ++ rest)) →
      P (before ++ '\x7b' :: (choice.text ++ '\x7d' :: rest)))
    (cs : List Char) : P cs := by
  by_cases hcs : '\x7b' ∈ cs
  · obtain ⟨before, after, hsplit, hbefore⟩ := List.eq_append_cons_of_mem hcs
    have hexpand := @expandChars_group before after hbefore
    cases hclose : closeGroup? 0 after with
    | none =>
      rw [hclose, ← hsplit] at hexpand
      have hcount := opened_of_closeGroup?_eq_none hclose (List.prefix_refl after)
      refine unclosed cs ⟨'\x7b' :: after, ⟨before, hsplit.symm⟩, ?_⟩ hexpand
      rw [List.count_cons_self, List.count_cons_of_ne (by decide)]
      exact Nat.lt_succ_of_le hcount
    | some cut =>
      obtain ⟨choice, rest, rfl⟩ := exists_choice_of_closeGroup? hclose
      rw [choice.closeGroup?_text] at hexpand
      dsimp only at hexpand
      rw [choice.alternatives_text] at hexpand
      rw [hsplit]
      refine group before choice rest hbefore hexpand fun a ha ↦ ?_
      have hlength := Choice.length_lt ha before rest
      exact expandChars_induction literal unclosed group (a ++ rest)
  · exact literal cs hcs (expandChars_of_notMem hcs)
termination_by cs.length
decreasing_by exact hsplit ▸ hlength

/-! ## When expanding fails -/

/-- A group that is closed leaves the rest of the text as it is. -/
theorem unpaired_group_iff {before : List Char} (h : '\x7b' ∉ before) (choice : Choice)
    (rest : List Char) :
    Unpaired (before ++ '\x7b' :: (choice.text ++ '\x7d' :: rest)) ↔ Unpaired rest := by
  let group : Pattern false := .group choice .nil
  have htext : '\x7b' :: (choice.text ++ '\x7d' :: rest) = group.text ++ rest := by
    simp [group, Pattern.text]
  rw [unpaired_append_iff (not_leavesOpen_of_notMem h) fun ds es _ ↦
    .inr (List.mem_append_right es List.mem_cons_self), htext,
    group.balanced_text.unpaired_append_iff]

theorem Choice.texts_ne_nil (choice : Choice) : choice.texts ≠ [] := by
  cases choice with
  | last p => exact List.cons_ne_nil _ _
  | cons p more => exact List.cons_ne_nil _ _

/-- A text is expanded unless it has braces that do not pair up. -/
theorem exists_expandChars_eq_ok_iff (cs : List Char) :
    (∃ es, expandChars cs = .ok es) ↔ ¬ Unpaired cs := by
  induction cs using expandChars_induction with
  | literal cs hcs hexpand =>
    rw [hexpand, unpaired_iff_of_notMem hcs, ← List.contains_iff_mem]
    split
    · next h => exact iff_of_false (by rintro ⟨_, ⟨⟩⟩) (not_not_intro h)
    · next h => exact iff_of_true ⟨_, rfl⟩ h
  | unclosed cs hopen hexpand =>
    rw [hexpand]
    exact iff_of_false (by rintro ⟨_, ⟨⟩⟩) (not_not_intro (.inl hopen))
  | group before choice rest hbefore hexpand ih =>
    have hstep : ∀ a ∈ choice.texts,
        ((∃ es, expandChars (a ++ rest) = .ok es) ↔ ¬ Unpaired rest) := fun a ha ↦ by
      rw [ih a ha, (Choice.balanced_of_mem_texts ha).unpaired_append_iff]
    rw [unpaired_group_iff hbefore, hexpand]
    constructor
    · rintro ⟨es, h⟩
      obtain ⟨tails, htails, -⟩ := Except.map_eq_ok_iff.mp h
      obtain ⟨a, ha⟩ := List.exists_mem_of_ne_nil _ choice.texts_ne_nil
      exact (hstep a ha).mp (Except.exists_mapM_eq_ok_iff.mp ⟨tails, htails⟩ a ha)
    · intro hrest
      obtain ⟨tails, htails⟩ := Except.exists_mapM_eq_ok_iff.mpr fun a ha ↦ (hstep a ha).mpr hrest
      exact ⟨_, Except.map_eq_ok_iff.mpr ⟨tails, htails, rfl⟩⟩

/-- An expansion holds no opening brace, and of the closing ones those that close no group. -/
theorem count_of_mem_expandChars {cs : List Char} {es : List (List Char)}
    (h : expandChars cs = .ok es) {e : List Char} (he : e ∈ es) :
    '\x7b' ∉ e ∧ e.count '\x7d' + cs.count '\x7b' = cs.count '\x7d' := by
  induction cs using expandChars_induction generalizing es e with
  | literal cs hcs hexpand =>
    rw [hexpand] at h
    split at h
    · cases h
    · cases h
      obtain rfl := List.mem_singleton.mp he
      exact ⟨hcs, by rw [List.count_eq_zero.mpr hcs, Nat.add_zero]⟩
  | unclosed cs hopen hexpand =>
    rw [hexpand] at h
    cases h
  | group before choice rest hbefore hexpand ih =>
    obtain ⟨tails, htails, rfl⟩ := Except.map_eq_ok_iff.mp (hexpand.symm.trans h)
    obtain ⟨tail, htail, rfl⟩ := List.mem_map.mp he
    obtain ⟨es, hes, htail⟩ := List.mem_flatten.mp htail
    obtain ⟨a, ha, hok⟩ := (Except.mem_iff_of_mapM_eq_ok htails).mp hes
    obtain ⟨hopen, hcount⟩ := ih a ha hok htail
    refine ⟨fun hmem ↦ (List.mem_append.mp hmem).elim hbefore hopen, ?_⟩
    -- The alternative and the choice that it comes from open and close the same number of groups.
    have halternative := (Choice.balanced_of_mem_texts ha).closed
    have hchoice := choice.count_text
    have hnone := List.count_eq_zero.mpr hbefore
    rw [List.count_append, List.count_append] at hcount
    rw [List.count_append, List.count_append, List.count_append, List.count_cons_self,
      List.count_cons_of_ne (by decide), List.count_append, List.count_append,
      List.count_cons_self, List.count_cons_of_ne (by decide)]
    omega

/-! ## Texts -/

theorem expand_eq_error_iff {pattern : String} :
    (∃ e, expand pattern = .error e) ↔ Unpaired pattern.toList := by
  rw [← not_iff_not, ← exists_expandChars_eq_ok_iff, expand]
  cases expandChars pattern.toList with
  | ok es => exact iff_of_true (by rintro ⟨_, ⟨⟩⟩) ⟨es, rfl⟩
  | error cs => exact iff_of_false (not_not_intro ⟨_, rfl⟩) (by rintro ⟨_, ⟨⟩⟩)

theorem count_of_mem_expand {pattern : String} {es : List String} (h : expand pattern = .ok es)
    {e : String} (he : e ∈ es) :
    '\x7b' ∉ e.toList ∧
      e.toList.count '\x7d' + pattern.toList.count '\x7b' = pattern.toList.count '\x7d' := by
  rw [expand] at h
  split at h
  · next expansions hok =>
    cases h
    obtain ⟨cs, hcs, rfl⟩ := List.mem_map.mp he
    rw [String.toList_ofList]
    exact count_of_mem_expandChars hok hcs
  · cases h

/-- Expanding fails where a group is left open or a brace closes no group and stands after all
groups; so if there is no such brace before a group, then it fails on unbalanced braces. -/
theorem expand_fails_on_unpaired (pattern : String) :
    ((∃ e, expand pattern = .error e) ↔ Unpaired pattern.toList) ∧
      (∀ es, expand pattern = .ok es → ∀ e ∈ es, '\x7b' ∉ e.toList ∧
        e.toList.count '\x7d' + pattern.toList.count '\x7b' = pattern.toList.count '\x7d') ∧
      ((∀ ds es, pattern.toList = ds ++ '\x7d' :: es → ¬ LeavesOpen ds → '\x7b' ∉ es) →
        ((∃ e, expand pattern = .error e) ↔ ¬ Balanced pattern.toList) ∧
          ∀ es, expand pattern = .ok es → ∀ e ∈ es, '\x7b' ∉ e.toList ∧ '\x7d' ∉ e.toList) := by
  refine ⟨expand_eq_error_iff, fun es hes e he ↦ count_of_mem_expand hes he, fun hlate ↦ ?_⟩
  have hfails : (∃ e, expand pattern = .error e) ↔ ¬ Balanced pattern.toList := by
    rw [expand_eq_error_iff, unpaired_iff_not_balanced hlate]
  refine ⟨hfails, fun es hes e he ↦ ?_⟩
  obtain ⟨hopen, hcount⟩ := count_of_mem_expand hes he
  have hbalanced : Balanced pattern.toList := by
    by_contra hnot
    obtain ⟨e, herror⟩ := hfails.mpr hnot
    cases hes.symm.trans herror
  refine ⟨hopen, List.count_eq_zero.mp ?_⟩
  have htotal := hbalanced.closed
  omega

/-- A brace too many after a group. -/
theorem expand_fails_on_unpaired_last :
    (∃ e, expand "\x7ba\x7d\x7d" = .error e) ∧ ¬ Balanced "\x7ba\x7d\x7d".toList := by
  have hlate : ∀ ds es, "\x7ba\x7d\x7d".toList = ds ++ '\x7d' :: es → ¬ LeavesOpen ds →
      '\x7b' ∉ es := by
    intro ds es h _ hmem
    have hchars : "\x7ba\x7d\x7d".toList = ['\x7b', 'a', '\x7d', '\x7d'] := by decide
    rw [hchars] at h
    cases ds with
    | nil => cases h
    | cons d ds =>
      have hrest : '\x7b' ∈ ['a', '\x7d', '\x7d'] := by
        rw [(List.cons.inj h).2]
        exact List.mem_append_right ds (List.mem_cons_of_mem _ hmem)
      exact absurd hrest (by decide)
  have hnot : ¬ Balanced "\x7ba\x7d\x7d".toList := by decide
  exact ⟨((expand_fails_on_unpaired _).2.2 hlate).1.mpr hnot, hnot⟩

/-- A brace too many before a group goes unnoticed, and is part of the expansion. -/
theorem expand_stray_before_group :
    ¬ Balanced "\x7d\x7ba\x7d".toList ∧ expand "\x7d\x7ba\x7d" = .ok ["\x7da"] :=
  ⟨by decide, Except.eq_ok_of_toOption (by decide +kernel)⟩

end HardcodedText.Braces
