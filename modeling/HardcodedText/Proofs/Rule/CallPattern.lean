import Mathlib.Data.List.Forall2
import HardcodedText.Proofs.Pattern.Wildcard
import HardcodedText.Proofs.Text.Blank
import HardcodedText.Rule.CallPattern

/-!
# What call patterns stand for

A pattern is compared with a path segment by segment.  `StandsFor` says of whole texts what a
pattern stands for: the paths that it becomes when something without dots is put in the place of
each star.  `accepts_iff_standsFor` says that the two agree for patterns without other wildcards; it
rests on `standsFor_iff_forall₂`, by which a pattern can be cut at its dots.
-/

namespace HardcodedText.CallPattern

/-! ## Filling in the stars -/

/-- A text with its stars replaced by the given texts, in order.  Stars for which nothing is given
are kept. -/
def fillStars : List Char → List (List Char) → List Char
  | [], _ => []
  | '*' :: cs, fill :: fills => fill ++ fillStars cs fills
  | c :: cs, fills => c :: fillStars cs fills

/-- A pattern stands for a path if the path is the pattern with a text without dots in the place of
each star. -/
def StandsFor (pattern path : List Char) : Prop :=
  ∃ fills, fills.length = pattern.count '*' ∧ (∀ fill ∈ fills, '.' ∉ fill) ∧
    path = fillStars pattern fills

theorem standsFor_nil_iff {path : List Char} : StandsFor [] path ↔ path = [] := by
  constructor
  · rintro ⟨fills, -, -, rfl⟩
    rfl
  · rintro rfl
    exact ⟨[], rfl, List.forall_mem_nil _, rfl⟩

theorem standsFor_star_iff {cs path : List Char} :
    StandsFor ('*' :: cs) path ↔
      ∃ fill rest, path = fill ++ rest ∧ '.' ∉ fill ∧ StandsFor cs rest := by
  constructor
  · rintro ⟨fills, hlength, hdots, rfl⟩
    rw [List.count_cons_self] at hlength
    obtain ⟨fill, fills, rfl⟩ := List.exists_cons_of_length_eq_add_one hlength
    obtain ⟨hfill, hfills⟩ := List.forall_mem_cons.mp hdots
    exact ⟨fill, _, rfl, hfill, fills, Nat.succ.inj hlength, hfills, rfl⟩
  · rintro ⟨fill, _, rfl, hfill, fills, hlength, hfills, rfl⟩
    refine ⟨fill :: fills, ?_, List.forall_mem_cons.mpr ⟨hfill, hfills⟩, rfl⟩
    rw [List.count_cons_self, List.length_cons, hlength]

theorem fillStars_cons {c : Char} (hc : c ≠ '*') (cs : List Char) (fills : List (List Char)) :
    fillStars (c :: cs) fills = c :: fillStars cs fills := by
  rw [fillStars]
  exact fun _ _ _ h ↦ hc h

theorem standsFor_cons_iff {c : Char} (hc : c ≠ '*') {cs path : List Char} :
    StandsFor (c :: cs) path ↔ ∃ rest, path = c :: rest ∧ StandsFor cs rest := by
  constructor
  · rintro ⟨fills, hlength, hdots, rfl⟩
    rw [List.count_cons_of_ne hc] at hlength
    exact ⟨_, fillStars_cons hc cs fills, fills, hlength, hdots, rfl⟩
  · rintro ⟨_, rfl, fills, hlength, hdots, rfl⟩
    refine ⟨fills, ?_, hdots, (fillStars_cons hc cs fills).symm⟩
    rw [List.count_cons_of_ne hc, hlength]

theorem standsFor_append_iff {cs ds path : List Char} :
    StandsFor (cs ++ ds) path ↔
      ∃ first rest, path = first ++ rest ∧ StandsFor cs first ∧ StandsFor ds rest := by
  induction cs generalizing path with
  | nil =>
    constructor
    · exact fun h ↦ ⟨[], path, rfl, standsFor_nil_iff.mpr rfl, h⟩
    · rintro ⟨first, rest, rfl, hfirst, h⟩
      rw [standsFor_nil_iff.mp hfirst]
      exact h
  | cons c cs ih =>
    rw [List.cons_append]
    by_cases hc : c = '*'
    · subst hc
      rw [standsFor_star_iff]
      constructor
      · rintro ⟨fill, _, rfl, hfill, h⟩
        obtain ⟨first, rest, rfl, hfirst, hrest⟩ := ih.mp h
        refine ⟨fill ++ first, rest, (List.append_assoc ..).symm, ?_, hrest⟩
        exact standsFor_star_iff.mpr ⟨fill, first, rfl, hfill, hfirst⟩
      · rintro ⟨_, rest, rfl, hfirst, hrest⟩
        obtain ⟨fill, first, rfl, hfill, hfirst⟩ := standsFor_star_iff.mp hfirst
        exact ⟨fill, first ++ rest, List.append_assoc .., hfill,
          ih.mpr ⟨first, rest, rfl, hfirst, hrest⟩⟩
    · rw [standsFor_cons_iff hc]
      constructor
      · rintro ⟨_, rfl, h⟩
        obtain ⟨first, rest, rfl, hfirst, hrest⟩ := ih.mp h
        exact ⟨c :: first, rest, rfl, (standsFor_cons_iff hc).mpr ⟨first, rfl, hfirst⟩, hrest⟩
      · rintro ⟨_, rest, rfl, hfirst, hrest⟩
        obtain ⟨first, rfl, htail⟩ := (standsFor_cons_iff hc).mp hfirst
        exact ⟨first ++ rest, rfl, ih.mpr ⟨first, rest, rfl, htail, hrest⟩⟩

/-- Without stars, a pattern stands for itself. -/
theorem standsFor_iff_of_notMem {cs path : List Char} (h : '*' ∉ cs) :
    StandsFor cs path ↔ path = cs := by
  induction cs generalizing path with
  | nil => exact standsFor_nil_iff
  | cons c cs ih =>
    rw [List.mem_cons, not_or] at h
    rw [standsFor_cons_iff (Ne.symm h.1)]
    constructor
    · rintro ⟨rest, rfl, hrest⟩
      rw [(ih h.2).mp hrest]
    · rintro rfl
      exact ⟨cs, rfl, (ih h.2).mpr rfl⟩

/-- What is filled in has no dots, so all dots of a path are those of the pattern. -/
theorem StandsFor.dot_notMem {cs path : List Char} (h : StandsFor cs path) (hdot : '.' ∉ cs) :
    '.' ∉ path := by
  induction cs generalizing path with
  | nil => rwa [standsFor_nil_iff.mp h]
  | cons c cs ih =>
    rw [List.mem_cons, not_or] at hdot
    by_cases hc : c = '*'
    · subst hc
      obtain ⟨fill, rest, rfl, hfill, hrest⟩ := standsFor_star_iff.mp h
      exact mt List.mem_append.mp (not_or.mpr ⟨hfill, ih hrest hdot.2⟩)
    · obtain ⟨rest, rfl, hrest⟩ := (standsFor_cons_iff hc).mp h
      exact mt List.mem_cons.mp (not_or.mpr ⟨hdot.1, ih hrest hdot.2⟩)

/-! ## Segment by segment -/

/-- The only wildcards of a pattern are stars. -/
def OnlyStars (cs : List Char) : Prop :=
  '?' ∉ cs ∧ '[' ∉ cs

/-- Where there are no dots, a star takes anything in both readings. -/
theorem run_tokens_iff_standsFor {segment part : List Char} (hstars : OnlyStars segment)
    (hdot : '.' ∉ part) :
    Wildcard.run (Wildcard.tokens segment) part = true ↔ StandsFor segment part := by
  induction segment generalizing part with
  | nil =>
    rw [Wildcard.tokens, Wildcard.run_nil_iff, standsFor_nil_iff]
  | cons c segment ih =>
    obtain ⟨hquestion, hbracket⟩ := hstars
    rw [List.mem_cons, not_or] at hquestion hbracket
    have hrest : OnlyStars segment := ⟨hquestion.2, hbracket.2⟩
    by_cases hc : c = '*'
    · subst hc
      rw [Wildcard.run_tokens_star_iff, standsFor_star_iff]
      constructor
      · rintro ⟨taken, rest, rfl, h⟩
        rw [List.mem_append, not_or] at hdot
        exact ⟨taken, rest, rfl, hdot.1, (ih hrest hdot.2).mp h⟩
      · rintro ⟨fill, rest, rfl, -, h⟩
        rw [List.mem_append, not_or] at hdot
        exact ⟨fill, rest, rfl, (ih hrest hdot.2).mpr h⟩
    · have hliteral : Wildcard.isSpecial c = false := by
        simp [Wildcard.isSpecial, hc, Ne.symm hquestion.1, Ne.symm hbracket.1]
      rw [Wildcard.run_tokens_literal_iff hliteral, standsFor_cons_iff hc]
      constructor
      · rintro ⟨rest, rfl, h⟩
        exact ⟨rest, rfl, (ih hrest (mt (List.mem_cons_of_mem c) hdot)).mp h⟩
      · rintro ⟨rest, rfl, h⟩
        exact ⟨rest, rfl, (ih hrest (mt (List.mem_cons_of_mem c) hdot)).mpr h⟩

/-- Pattern and path may be cut at their dots: the dots of a path are those of the pattern. -/
theorem standsFor_iff_forall₂ {cs path : List Char} (hstars : OnlyStars cs) :
    StandsFor cs path ↔ List.Forall₂ (fun segment part ↦
      Wildcard.run (Wildcard.tokens segment) part = true) (cs.splitOn '.') (path.splitOn '.') := by
  by_cases hdot : '.' ∈ cs
  · obtain ⟨segment, cs, rfl, hsegment⟩ := List.eq_append_cons_of_mem hdot
    have hfirst : OnlyStars segment :=
      ⟨mt (List.mem_append_left _) hstars.1, mt (List.mem_append_left _) hstars.2⟩
    have hrest : OnlyStars cs :=
      ⟨mt (List.mem_append_right _ <| List.mem_cons_of_mem _ ·) hstars.1,
        mt (List.mem_append_right _ <| List.mem_cons_of_mem _ ·) hstars.2⟩
    rw [List.splitOn_append_cons_self_of_not_mem hsegment, standsFor_append_iff]
    constructor
    · rintro ⟨part, _, rfl, hpart, h⟩
      obtain ⟨path, rfl, hpath⟩ := (standsFor_cons_iff (by decide)).mp h
      have hpartDot := hpart.dot_notMem hsegment
      rw [List.splitOn_append_cons_self_of_not_mem hpartDot]
      exact .cons ((run_tokens_iff_standsFor hfirst hpartDot).mpr hpart)
        ((standsFor_iff_forall₂ hrest).mp hpath)
    · intro h
      by_cases hpathDot : '.' ∈ path
      · obtain ⟨part, path, rfl, hpart⟩ := List.eq_append_cons_of_mem hpathDot
        rw [List.splitOn_append_cons_self_of_not_mem hpart, List.forall₂_cons] at h
        refine ⟨part, '.' :: path, rfl, (run_tokens_iff_standsFor hfirst hpart).mp h.1, ?_⟩
        have hstands : StandsFor _ path := (standsFor_iff_forall₂ hrest).mpr h.2
        exact (standsFor_cons_iff (by decide)).mpr ⟨path, rfl, hstands⟩
      · -- A path without dots has one segment only.
        rw [List.splitOn_eq_singleton hpathDot, List.forall₂_cons, List.forall₂_nil_right_iff] at h
        exact absurd h.2 (List.splitOn_ne_nil _ _)
  · rw [List.splitOn_eq_singleton hdot]
    constructor
    · intro h
      have hpathDot := h.dot_notMem hdot
      rw [List.splitOn_eq_singleton hpathDot]
      exact .cons ((run_tokens_iff_standsFor hstars hpathDot).mpr h) .nil
    · intro h
      by_cases hpathDot : '.' ∈ path
      · obtain ⟨part, path, rfl, hpart⟩ := List.eq_append_cons_of_mem hpathDot
        rw [List.splitOn_append_cons_self_of_not_mem hpart, List.forall₂_cons,
          List.forall₂_nil_left_iff] at h
        exact absurd h.2 (List.splitOn_ne_nil _ _)
      · rw [List.splitOn_eq_singleton hpathDot, List.forall₂_cons] at h
        exact (run_tokens_iff_standsFor hstars hpathDot).mp h.1
termination_by cs.length
decreasing_by
  all_goals
    subst_vars
    simp only [List.length_append, List.length_cons]
    omega

theorem accepts_iff_forall₂ {p : CallPattern} (hwild : p.isWildcard = true) (path : String) :
    p.accepts path = true ↔ List.Forall₂ (fun segment part ↦
      Wildcard.run (Wildcard.tokens segment) part = true) (p.text.toList.splitOn '.')
        (path.toList.splitOn '.') := by
  have hsegments : p.accepts path = true ↔ List.Forall₂ (fun segment part ↦
      Wildcard.accepts segment part = true) p.segments (segmentsOf path) := by
    rw [accepts, if_pos hwild, Bool.and_eq_true, beq_iff_eq, List.all_eq_true, eq_comm,
      List.forall₂_iff_zip]
    exact and_congr_right fun _ ↦ Prod.forall
  rw [hsegments, segments, segmentsOf, segmentsOf, List.forall₂_map_left_iff,
    List.forall₂_map_right_iff]
  simp only [Wildcard.accepts, String.toList_ofList]

theorem text_of_read {text : String} {p : CallPattern} (h : read text = .ok p) :
    p.text = Text.strip text := by
  unfold read at h
  dsimp only at h
  split at h
  · cases h
  · split at h
    · cases h
    · cases h
      rfl

/-- **A pattern stands for the paths that it becomes when its stars are filled in.**  Nothing that
is filled in has a dot, so pattern and path have as many segments, and a pattern without stars
stands for itself alone. -/
theorem accepts_iff_standsFor {text : String} {p : CallPattern} (hread : read text = .ok p)
    (hquestion : '?' ∉ text.toList) (hbracket : '[' ∉ text.toList) (path : String) :
    (p.accepts path = true ↔ StandsFor (Text.strip text).toList path.toList) ∧
      (p.accepts path = true →
        (segmentsOf path).length = (segmentsOf (Text.strip text)).length) ∧
      (p.isWildcard = false → (p.accepts path = true ↔ path = Text.strip text)) := by
  have htext := text_of_read hread
  have hstars : OnlyStars (Text.strip text).toList :=
    ⟨mt ((Text.strip_isInfix text).mem ·) hquestion, mt ((Text.strip_isInfix text).mem ·) hbracket⟩
  have hexact (hwild : p.isWildcard = false) : p.accepts path = true ↔ path = Text.strip text := by
    rw [accepts, if_neg (Bool.eq_false_iff.mp hwild), htext, beq_iff_eq]
  cases hwild : p.isWildcard with
  | false =>
    have hnoStar : '*' ∉ (Text.strip text).toList := by
      rw [← htext]
      simpa [isWildcard] using hwild
    refine ⟨?_, fun h ↦ ?_, fun _ ↦ hexact hwild⟩
    · rw [hexact hwild, standsFor_iff_of_notMem hnoStar, String.toList_inj]
    · rw [(hexact hwild).mp h]
  | true =>
    have hforall := accepts_iff_forall₂ hwild path
    rw [htext] at hforall
    refine ⟨?_, fun h ↦ ?_, fun h ↦ nomatch h⟩
    · rw [hforall, standsFor_iff_forall₂ hstars]
    · rw [segmentsOf, segmentsOf, List.length_map, List.length_map]
      exact (hforall.mp h).length_eq.symm

/-- Two stars next to each other and one at the start of a segment.  No star reaches over a dot. -/
theorem accepts_iff_standsFor_stars :
    read " m**.*s " = .ok ⟨"m**.*s"⟩ ∧ '?' ∉ " m**.*s ".toList ∧ '[' ∉ " m**.*s ".toList ∧
      accepts ⟨"m**.*s"⟩ "me.s" = true ∧ accepts ⟨"m**.*s"⟩ "m.e.s" = false := by
  have hread : read " m**.*s " = .ok ⟨"m**.*s"⟩ := by decide
  have hquestion : '?' ∉ " m**.*s ".toList := by decide
  have hbracket : '[' ∉ " m**.*s ".toList := by decide
  refine ⟨hread, hquestion, hbracket, ?_, ?_⟩
  · refine (accepts_iff_standsFor hread hquestion hbracket "me.s").1.mpr ?_
    exact ⟨[['e'], [], []], by decide, by decide, by decide⟩
  · rw [Bool.eq_false_iff]
    intro h
    have hlength := (accepts_iff_standsFor hread hquestion hbracket "m.e.s").2.1 h
    exact absurd hlength (by decide)

end HardcodedText.CallPattern
