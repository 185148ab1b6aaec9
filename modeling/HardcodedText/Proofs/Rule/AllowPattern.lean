import Mathlib.Data.List.Infix
import HardcodedText.Proofs.Text.Blank
import HardcodedText.Rule.Configuration

/-!
# Texts that may be hardcoded

The expressions that are allowed unless others are given can all be read
(`AllowPattern.map_text_standard`).  Blank texts may always be hardcoded, so one that may not is
visible (`Configuration.visible_of_not_allows`).  Any other two texts are told apart by some
configuration (`Configuration.forall_allows_eq_iff`).
-/

namespace HardcodedText

theorem Text.occurs_iff {needle cs : List Char} : occurs needle cs = true ↔ needle <:+: cs := by
  induction cs with
  | nil => rw [occurs, List.isEmpty_iff, List.infix_nil]
  | cons c cs ih =>
    rw [occurs, Bool.or_eq_true, List.isPrefixOf_iff_prefix, ih, List.infix_cons_iff]

/-- The expressions that are allowed unless others are given can all be read. -/
theorem AllowPattern.map_text_standard : standard.map text = standardTexts := by
  rfl

namespace Configuration

theorem allows_iff {config : Configuration} {value : String} :
    config.allows value = true ↔
      (∀ c ∈ value.toList, Text.isBlank c = true) ∨
        ∃ pattern ∈ config.allow, pattern.accepts value = true := by
  rw [allows, Bool.or_eq_true, List.all_eq_true, List.any_eq_true]

theorem visible_of_not_allows {config : Configuration} {value : String}
    (h : (!config.allows value) = true) : Text.Visible value := by
  by_contra hblank
  rw [allows_iff.mpr (.inl (Text.not_visible_iff.mp hblank))] at h
  cases h

/-- Two texts that every configuration treats alike are the same or both blank. -/
theorem forall_allows_eq_iff {v w : String} :
    (∀ config : Configuration, config.allows v = config.allows w) ↔
      v = w ∨
        (∀ c ∈ v.toList, Text.isBlank c = true) ∧ ∀ c ∈ w.toList, Text.isBlank c = true := by
  constructor
  · intro h
    have hblank : (∀ c ∈ v.toList, Text.isBlank c = true) ↔
        ∀ c ∈ w.toList, Text.isBlank c = true := by
      have hnone := h { standard with allow := [] }
      rw [Bool.eq_iff_iff, allows_iff, allows_iff] at hnone
      simpa using hnone
    by_cases hv : ∀ c ∈ v.toList, Text.isBlank c = true
    · exact .inr ⟨hv, hblank.mp hv⟩
    -- Each of two texts that are not blank occurs in the other one.
    have hoccurs (s : String) : s.toList <:+: v.toList ↔ s.toList <:+: w.toList := by
      have hsome := h { standard with allow := [.substring s] }
      rw [Bool.eq_iff_iff, allows_iff, allows_iff, ← hblank] at hsome
      simpa [hv, AllowPattern.accepts, Text.occurs_iff] using hsome
    have hvw : v.toList <:+: w.toList := (hoccurs v).mp List.infix_rfl
    have hwv : w.toList <:+: v.toList := (hoccurs w).mpr List.infix_rfl
    left
    apply String.toList_inj.mp
    exact hvw.eq_of_length (Nat.le_antisymm hvw.length_le hwv.length_le)
  · rintro (rfl | ⟨hv, hw⟩) config
    · rfl
    · rw [allows_iff.mpr (.inl hv), allows_iff.mpr (.inl hw)]

end Configuration

end HardcodedText
