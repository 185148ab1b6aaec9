import Mathlib.Data.List.Nodup

/-!
# Looking up keys

Fields of objects and tables are kept as lists of keys and values.  The order of such a list does
not matter as long as no key occurs twice (`lookup_eq_of_perm`).
-/

namespace HardcodedText

variable {α : Type} {entries entries' : List (String × α)} {key : String} {a : α}

theorem lookup_eq_none_iff_notMem : entries.lookup key = none ↔ key ∉ entries.map Prod.fst := by
  rw [List.lookup_eq_none_iff, List.mem_map]
  constructor
  · rintro h ⟨entry, hentry, rfl⟩
    exact bne_iff_ne.mp (h entry hentry) rfl
  · rintro h entry hentry
    exact bne_iff_ne.mpr fun heq ↦ h ⟨entry, hentry, heq.symm⟩

theorem mem_of_lookup_eq_some (h : entries.lookup key = some a) : (key, a) ∈ entries := by
  obtain ⟨before, after, rfl, -⟩ := List.lookup_eq_some_iff.mp h
  exact List.mem_append_right before List.mem_cons_self

/-- Where no key occurs twice, every entry is found. -/
theorem lookup_eq_some_iff_mem (hkeys : (entries.map Prod.fst).Nodup) :
    entries.lookup key = some a ↔ (key, a) ∈ entries := by
  refine ⟨mem_of_lookup_eq_some, fun h ↦ ?_⟩
  cases hlookup : entries.lookup key with
  | none =>
    exact absurd (List.mem_map_of_mem h) (lookup_eq_none_iff_notMem.mp hlookup)
  | some b =>
    have hsame := List.inj_on_of_nodup_map hkeys (mem_of_lookup_eq_some hlookup) h rfl
    rw [(Prod.mk.inj hsame).2]

/-- Where no key occurs twice, the order of the entries does not matter. -/
theorem lookup_eq_of_perm (h : entries'.Perm entries) (hkeys : (entries.map Prod.fst).Nodup)
    (key : String) : entries'.lookup key = entries.lookup key := by
  have hkeys' : (entries'.map Prod.fst).Nodup := (h.map Prod.fst).nodup_iff.mpr hkeys
  refine Option.ext fun a ↦ ?_
  rw [lookup_eq_some_iff_mem hkeys', lookup_eq_some_iff_mem hkeys, h.mem_iff]

theorem lookup_filter_key (p : String → Bool) (key : String) (entries : List (String × α)) :
    (entries.filter fun e ↦ p e.1).lookup key = if p key then entries.lookup key else none := by
  induction entries with
  | nil => exact (ite_self _).symm
  | cons e entries ih =>
    obtain ⟨other, a⟩ := e
    rw [List.filter_cons]
    by_cases hkey : key = other
    · subst hkey
      cases hp : p key with
      | false => rw [if_neg (by simp), ih, hp, if_neg (by simp), if_neg (by simp)]
      | true => rw [if_pos rfl, if_pos rfl, List.lookup_cons_self, List.lookup_cons_self]
    · have hne : (key == other) = false := beq_eq_false_iff_ne.mpr hkey
      rw [List.lookup_cons, hne, ← ih]
      split
      · rw [List.lookup_cons, hne]
      · rfl

end HardcodedText
