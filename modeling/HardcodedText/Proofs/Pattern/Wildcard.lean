import HardcodedText.Pattern.Wildcard

/-!
# Matching wildcard patterns

* `run_append_iff`: a sequence of tokens matches a text if its parts match parts of the text.
* `tokens_append_of_literal`: characters without a meaning of their own stand for themselves,
  whatever follows them.
* `run_tokens_star_iff`: a star takes any run of characters, also next to another star.
-/

namespace HardcodedText.Wildcard

/-! ## Sequences of tokens -/

@[simp] theorem run_nil_iff {cs : List Char} : run [] cs = true ↔ cs = [] := by
  rw [run, List.isEmpty_iff]

/-- A star takes any number of characters. -/
theorem run_anyRun_iff {ts : List Token} {cs : List Char} :
    run (.anyRun :: ts) cs = true ↔ ∃ taken rest, cs = taken ++ rest ∧ run ts rest = true := by
  induction cs with
  | nil =>
    rw [run]
    constructor
    · exact fun h ↦ ⟨[], [], rfl, h⟩
    · rintro ⟨taken, rest, hcs, h⟩
      obtain ⟨-, rfl⟩ := List.append_eq_nil_iff.mp hcs.symm
      exact h
  | cons c cs ih =>
    rw [run, Bool.or_eq_true, ih]
    constructor
    · rintro (h | ⟨taken, rest, rfl, h⟩)
      · exact ⟨[], c :: cs, rfl, h⟩
      · exact ⟨c :: taken, rest, rfl, h⟩
    · rintro ⟨taken, rest, hcs, h⟩
      cases taken with
      | nil =>
        obtain rfl : c :: cs = rest := hcs
        exact .inl h
      | cons d taken =>
        cases hcs
        exact .inr ⟨taken, rest, rfl, h⟩

/-- Any other token takes one character. -/
theorem run_cons_iff {t : Token} (ht : t ≠ .anyRun) {ts : List Token} {cs : List Char} :
    run (t :: ts) cs = true ↔
      ∃ c rest, cs = c :: rest ∧ t.accepts c = true ∧ run ts rest = true := by
  cases cs with
  | nil =>
    constructor
    · intro h
      rw [run] at h
      · cases h
      · exact ht
    · rintro ⟨c, rest, ⟨⟩, -⟩
  | cons c cs =>
    rw [run, Bool.and_eq_true]
    · constructor
      · rintro ⟨hc, h⟩
        exact ⟨c, cs, rfl, hc, h⟩
      · rintro ⟨_, _, ⟨⟩, hc, h⟩
        exact ⟨hc, h⟩
    · exact ht

theorem run_append_iff {ts us : List Token} {cs : List Char} :
    run (ts ++ us) cs = true ↔
      ∃ first rest, cs = first ++ rest ∧ run ts first = true ∧ run us rest = true := by
  induction ts generalizing cs with
  | nil =>
    constructor
    · exact fun h ↦ ⟨[], cs, rfl, run_nil_iff.mpr rfl, h⟩
    · rintro ⟨first, rest, rfl, hfirst, h⟩
      rw [run_nil_iff.mp hfirst]
      exact h
  | cons t ts ih =>
    rw [List.cons_append]
    by_cases ht : t = .anyRun
    · subst ht
      rw [run_anyRun_iff]
      constructor
      · rintro ⟨taken, _, rfl, h⟩
        obtain ⟨first, rest, rfl, hfirst, hrest⟩ := ih.mp h
        refine ⟨taken ++ first, rest, (List.append_assoc ..).symm, ?_, hrest⟩
        exact run_anyRun_iff.mpr ⟨taken, first, rfl, hfirst⟩
      · rintro ⟨_, rest, rfl, hfirst, hrest⟩
        obtain ⟨taken, first, rfl, htaken⟩ := run_anyRun_iff.mp hfirst
        exact ⟨taken, first ++ rest, List.append_assoc .., ih.mpr ⟨first, rest, rfl, htaken, hrest⟩⟩
    · rw [run_cons_iff ht]
      constructor
      · rintro ⟨c, _, rfl, hc, h⟩
        obtain ⟨first, rest, rfl, hfirst, hrest⟩ := ih.mp h
        exact ⟨c :: first, rest, rfl, (run_cons_iff ht).mpr ⟨c, first, rfl, hc, hfirst⟩, hrest⟩
      · rintro ⟨_, rest, rfl, hfirst, hrest⟩
        obtain ⟨c, first, rfl, hc, htaken⟩ := (run_cons_iff ht).mp hfirst
        exact ⟨c, first ++ rest, rfl, hc, ih.mpr ⟨first, rest, rfl, htaken, hrest⟩⟩

theorem run_append {ts us : List Token} {cs ds : List Char} (h : run ts cs = true)
    (h' : run us ds = true) : run (ts ++ us) (cs ++ ds) = true :=
  run_append_iff.mpr ⟨cs, ds, rfl, h, h'⟩

/-- One star matches every text. -/
theorem run_anyRun (cs : List Char) : run [.anyRun] cs = true :=
  run_anyRun_iff.mpr ⟨cs, [], (List.append_nil cs).symm, run_nil_iff.mpr rfl⟩

/-! ## Characters that stand for themselves -/

/-- Whether a character begins something other than itself. -/
def isSpecial (c : Char) : Bool :=
  c == '*' || c == '?' || c == '['

theorem isSpecial_eq_false_of_any {cs : List Char} (h : cs.any isSpecial = false) :
    ∀ c ∈ cs, isSpecial c = false := by
  intro c hc
  exact Bool.eq_false_iff.mpr (List.any_eq_false.mp h c hc)

theorem tokens_append_of_literal {cs : List Char} (h : ∀ c ∈ cs, isSpecial c = false)
    (rest : List Char) : tokens (cs ++ rest) = cs.map .char ++ tokens rest := by
  induction cs with
  | nil => rfl
  | cons c cs ih =>
    obtain ⟨hc, hcs⟩ := List.forall_mem_cons.mp h
    simp only [isSpecial, Bool.or_eq_false_iff, beq_eq_false_iff_ne] at hc
    rw [List.cons_append, tokens, if_neg hc.1.1, if_neg hc.1.2, if_neg hc.2, ih hcs]
    rfl

theorem tokens_of_literal {cs : List Char} (h : ∀ c ∈ cs, isSpecial c = false) :
    tokens cs = cs.map .char := by
  have := tokens_append_of_literal h []
  rwa [List.append_nil, tokens, List.append_nil] at this

theorem tokens_star_of_literal {cs : List Char} (h : ∀ c ∈ cs, isSpecial c = false) :
    tokens ('*' :: cs) = .anyRun :: cs.map .char := by
  rw [tokens, if_pos rfl, tokens_of_literal h]
  cases cs with
  | nil => rfl
  | cons c cs => rfl

/-- A star of a pattern takes any number of characters.  Next to another star, which makes one token
with it, it may as well take none. -/
theorem run_tokens_star_iff {cs ds : List Char} :
    run (tokens ('*' :: cs)) ds = true ↔
      ∃ taken rest, ds = taken ++ rest ∧ run (tokens cs) rest = true := by
  rw [tokens, if_pos rfl]
  split
  · next ts hts =>
    rw [hts, run_anyRun_iff]
    constructor
    · rintro ⟨taken, rest, rfl, h⟩
      exact ⟨taken, rest, rfl, run_anyRun_iff.mpr ⟨[], rest, rfl, h⟩⟩
    · rintro ⟨taken, _, rfl, h⟩
      obtain ⟨more, rest, rfl, hrest⟩ := run_anyRun_iff.mp h
      exact ⟨taken ++ more, rest, (List.append_assoc ..).symm, hrest⟩
  · exact run_anyRun_iff

theorem run_tokens_literal_iff {c : Char} (hc : isSpecial c = false) {cs ds : List Char} :
    run (tokens (c :: cs)) ds = true ↔ ∃ rest, ds = c :: rest ∧ run (tokens cs) rest = true := by
  have htokens := tokens_append_of_literal (List.forall_mem_singleton.mpr hc) cs
  rw [List.singleton_append, List.map_singleton, List.singleton_append] at htokens
  rw [htokens, run_cons_iff (by rintro ⟨⟩)]
  constructor
  · rintro ⟨d, rest, rfl, hd, h⟩
    exact ⟨rest, by rw [beq_iff_eq.mp hd], h⟩
  · rintro ⟨rest, rfl, h⟩
    exact ⟨c, rest, rfl, beq_iff_eq.mpr rfl, h⟩

theorem run_map_char (cs : List Char) : run (cs.map .char) cs = true := by
  induction cs with
  | nil => exact run_nil_iff.mpr rfl
  | cons c cs ih =>
    exact (run_cons_iff (by rintro ⟨⟩)).mpr ⟨c, cs, rfl, beq_iff_eq.mpr rfl, ih⟩

theorem run_map_char_iff {cs ds : List Char} : run (cs.map .char) ds = true ↔ ds = cs := by
  induction cs generalizing ds with
  | nil => exact run_nil_iff
  | cons c cs ih =>
    rw [List.map_cons, run_cons_iff (by rintro ⟨⟩)]
    constructor
    · rintro ⟨d, rest, rfl, hd, h⟩
      rw [beq_iff_eq.mp hd, ih.mp h]
    · rintro rfl
      exact ⟨c, cs, rfl, beq_iff_eq.mpr rfl, ih.mpr rfl⟩

/-- A star before characters leaves open what a text begins with. -/
theorem run_anyRun_map_char_iff {cs ds : List Char} :
    run (.anyRun :: cs.map .char) ds = true ↔ cs <:+ ds := by
  rw [run_anyRun_iff]
  constructor
  · rintro ⟨taken, rest, rfl, h⟩
    rw [run_map_char_iff.mp h]
    exact List.suffix_append taken cs
  · rintro ⟨taken, rfl⟩
    exact ⟨taken, cs, rfl, run_map_char_iff.mpr rfl⟩

/-- A star after characters leaves open how a text goes on. -/
theorem run_map_char_anyRun_iff {cs ds : List Char} :
    run (cs.map .char ++ [.anyRun]) ds = true ↔ cs <+: ds := by
  rw [run_append_iff]
  constructor
  · rintro ⟨first, rest, rfl, h, -⟩
    rw [run_map_char_iff.mp h]
    exact List.prefix_append cs rest
  · rintro ⟨rest, rfl⟩
    exact ⟨cs, rest, rfl, run_map_char_iff.mpr rfl, run_anyRun rest⟩

end HardcodedText.Wildcard
