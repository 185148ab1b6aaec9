/-!
# Computations that succeed
-/

namespace HardcodedText.Except

variable {ε α β γ : Type}

theorem bind_eq_ok_iff {x : Except ε α} {f : α → Except ε β} {b : β} :
    x >>= f = .ok b ↔ ∃ a, x = .ok a ∧ f a = .ok b := by
  cases x with
  | error e =>
    constructor
    · rintro ⟨⟩
    · rintro ⟨_, ⟨⟩, _⟩
  | ok a =>
    constructor
    · exact fun h ↦ ⟨a, rfl, h⟩
    · rintro ⟨_, ⟨⟩, h⟩
      exact h

theorem bind_eq_error_iff {x : Except ε α} {f : α → Except ε β} {e : ε} :
    x >>= f = .error e ↔ x = .error e ∨ ∃ a, x = .ok a ∧ f a = .error e := by
  cases x with
  | error e' =>
    constructor
    · rintro ⟨⟩
      exact .inl rfl
    · rintro (⟨⟨⟩⟩ | ⟨_, ⟨⟩, _⟩)
      rfl
  | ok a =>
    constructor
    · exact fun h ↦ .inr ⟨a, rfl, h⟩
    · rintro (⟨⟨⟩⟩ | ⟨_, ⟨⟩, h⟩)
      exact h

theorem eq_ok_of_toOption {x : Except ε α} {a : α} (h : x.toOption = some a) : x = .ok a := by
  cases x with
  | error e => cases h
  | ok b => exact congrArg _ (Option.some_inj.mp h)

theorem map_eq_ok_iff {x : Except ε α} {f : α → β} {b : β} :
    x.map f = .ok b ↔ ∃ a, x = .ok a ∧ f a = b := by
  cases x with
  | error e =>
    constructor
    · rintro ⟨⟩
    · rintro ⟨_, ⟨⟩, _⟩
  | ok a =>
    constructor
    · rintro ⟨⟩
      exact ⟨a, rfl, rfl⟩
    · rintro ⟨_, ⟨⟩, rfl⟩
      rfl

theorem mapError_eq_ok_iff {x : Except ε α} {f : ε → γ} {a : α} :
    x.mapError f = .ok a ↔ x = .ok a := by
  cases x with
  | error e =>
    constructor
    · rintro ⟨⟩
    · rintro ⟨⟩
  | ok b =>
    constructor
    · rintro ⟨⟩
      rfl
    · rintro ⟨⟩
      rfl

theorem mapError_eq_error_iff {x : Except ε α} {f : ε → γ} {e : γ} :
    x.mapError f = .error e ↔ ∃ cause, x = .error cause ∧ f cause = e := by
  cases x with
  | error cause =>
    constructor
    · rintro ⟨⟩
      exact ⟨cause, rfl, rfl⟩
    · rintro ⟨_, ⟨⟩, rfl⟩
      rfl
  | ok a =>
    constructor
    · rintro ⟨⟩
    · rintro ⟨_, ⟨⟩, _⟩

/-- Where each step of a computation has a counterpart that succeeds, so has the whole. -/
theorem mapM_eq_ok_map {f : α → Except ε β} {g : α → Except ε γ} {k : β → γ} {as : List α}
    {bs : List β} (hstep : ∀ a ∈ as, ∀ b, f a = .ok b → g a = .ok (k b))
    (h : as.mapM f = .ok bs) : as.mapM g = .ok (bs.map k) := by
  induction as generalizing bs with
  | nil =>
    cases h
    rfl
  | cons a as ih =>
    rw [List.mapM_cons] at h ⊢
    obtain ⟨b, hb, h⟩ := bind_eq_ok_iff.mp h
    obtain ⟨rest, hrest, h⟩ := bind_eq_ok_iff.mp h
    cases h
    obtain ⟨ha, has⟩ := List.forall_mem_cons.mp hstep
    refine bind_eq_ok_iff.mpr ⟨k b, ha b hb, ?_⟩
    exact bind_eq_ok_iff.mpr ⟨rest.map k, ih has hrest, rfl⟩

/-- A computation succeeds if each of its steps does. -/
theorem exists_mapM_eq_ok_iff {f : α → Except ε β} {as : List α} :
    (∃ bs, as.mapM f = .ok bs) ↔ ∀ a ∈ as, ∃ b, f a = .ok b := by
  induction as with
  | nil => exact iff_of_true ⟨[], rfl⟩ fun _ ha ↦ nomatch ha
  | cons a as ih =>
    rw [List.mapM_cons, List.forall_mem_cons, ← ih]
    constructor
    · rintro ⟨bs, h⟩
      obtain ⟨b, hb, h⟩ := bind_eq_ok_iff.mp h
      obtain ⟨rest, hrest, -⟩ := bind_eq_ok_iff.mp h
      exact ⟨⟨b, hb⟩, rest, hrest⟩
    · rintro ⟨⟨b, hb⟩, rest, hrest⟩
      refine ⟨b :: rest, bind_eq_ok_iff.mpr ⟨b, hb, ?_⟩⟩
      exact bind_eq_ok_iff.mpr ⟨rest, hrest, rfl⟩

/-- Steps in another order give their results in another order. -/
theorem exists_mapM_of_perm {f : α → Except ε β} {as as' : List α} (h : as.Perm as') {bs : List β}
    (hbs : as.mapM f = .ok bs) : ∃ bs', as'.mapM f = .ok bs' ∧ bs.Perm bs' := by
  induction h generalizing bs with
  | nil => exact ⟨bs, hbs, .refl bs⟩
  | cons a _ ih =>
    rw [List.mapM_cons] at hbs
    obtain ⟨b, hb, hbs⟩ := bind_eq_ok_iff.mp hbs
    obtain ⟨rest, hrest, hbs⟩ := bind_eq_ok_iff.mp hbs
    cases hbs
    obtain ⟨rest', hrest', hperm⟩ := ih hrest
    refine ⟨b :: rest', ?_, hperm.cons b⟩
    rw [List.mapM_cons, hb, hrest']
    rfl
  | swap a a' as =>
    rw [List.mapM_cons, List.mapM_cons] at hbs
    obtain ⟨b', hb', hbs⟩ := bind_eq_ok_iff.mp hbs
    obtain ⟨tail, htail, hbs⟩ := bind_eq_ok_iff.mp hbs
    obtain ⟨b, hb, htail⟩ := bind_eq_ok_iff.mp htail
    obtain ⟨rest, hrest, htail⟩ := bind_eq_ok_iff.mp htail
    cases htail
    cases hbs
    refine ⟨b :: b' :: rest, ?_, .swap b b' rest⟩
    rw [List.mapM_cons, List.mapM_cons, hb, hb', hrest]
    rfl
  | trans _ _ ih ih' =>
    obtain ⟨cs, hcs, hperm⟩ := ih hbs
    obtain ⟨ds, hds, hperm'⟩ := ih' hcs
    exact ⟨ds, hds, hperm.trans hperm'⟩

/-- A computation fails for the reason that one of its steps fails for. -/
theorem exists_of_mapM_eq_error {f : α → Except ε β} {as : List α} {e : ε}
    (h : as.mapM f = .error e) : ∃ a ∈ as, f a = .error e := by
  induction as with
  | nil => cases h
  | cons a as ih =>
    rw [List.mapM_cons] at h
    rcases bind_eq_error_iff.mp h with h | ⟨b, -, h⟩
    · exact ⟨a, List.mem_cons_self, h⟩
    · rcases bind_eq_error_iff.mp h with h | ⟨bs, -, h⟩
      · obtain ⟨a', ha', h⟩ := ih h
        exact ⟨a', List.mem_cons_of_mem a ha', h⟩
      · cases h

/-- The results of a computation that succeeds are those of its steps. -/
theorem mem_iff_of_mapM_eq_ok {f : α → Except ε β} {as : List α} {bs : List β}
    (h : as.mapM f = .ok bs) {b : β} : b ∈ bs ↔ ∃ a ∈ as, f a = .ok b := by
  induction as generalizing bs with
  | nil =>
    cases h
    constructor
    · exact fun hb ↦ nomatch hb
    · rintro ⟨_, ha, _⟩
      exact nomatch ha
  | cons a as ih =>
    rw [List.mapM_cons] at h
    obtain ⟨c, hc, h⟩ := bind_eq_ok_iff.mp h
    obtain ⟨rest, hrest, h⟩ := bind_eq_ok_iff.mp h
    cases h
    rw [List.mem_cons, ih hrest]
    constructor
    · rintro (rfl | ⟨a', ha', hb⟩)
      · exact ⟨a, List.mem_cons_self, hc⟩
      · exact ⟨a', List.mem_cons_of_mem a ha', hb⟩
    · rintro ⟨a', ha', hb⟩
      rcases List.mem_cons.mp ha' with rfl | ha'
      · exact .inl (Except.ok.inj (hb.symm.trans hc))
      · exact .inr ⟨a', ha', hb⟩

end HardcodedText.Except
