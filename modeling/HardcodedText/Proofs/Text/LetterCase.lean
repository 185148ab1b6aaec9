import HardcodedText.Text.LetterCase

/-!
# No letter is both small and capital

Names are told apart by the case of their first letter, so it matters that the two tables of letters
have nothing in common (`not_isUpper_of_isLower`).  Progressions that overlap run through every
other code point, one through the even and one through the odd ones.
-/

namespace HardcodedText.Text

/-- Whether all members of a progression are even or all are odd. -/
def keepsParity : Nat × Nat × Nat → Bool
  | (first, last, step) => step == 2 || first == last

/-- Whether two progressions have no member in common for a simple reason: one ends before the other
starts, or one has the even and one the odd members of a range. -/
def areApart (p q : Nat × Nat × Nat) : Bool :=
  p.2.1.blt q.1 || q.2.1.blt p.1 || keepsParity p && keepsParity q && (p.1 + q.1) % 2 == 1

theorem not_inProgression_of_areApart {table table' : List (Nat × Nat × Nat)}
    (h : (table.all fun p ↦ table'.all (areApart p)) = true) {n : Nat}
    (hn : inProgression table n = true) : inProgression table' n = false := by
  rw [Bool.eq_false_iff]
  intro hn'
  obtain ⟨⟨first, last, step⟩, hp, hmem⟩ := List.any_eq_true.mp hn
  obtain ⟨⟨first', last', step'⟩, hp', hmem'⟩ := List.any_eq_true.mp hn'
  have hapart := List.all_eq_true.mp (List.all_eq_true.mp h _ hp) _ hp'
  simp only [areApart, keepsParity, Bool.or_eq_true, Bool.and_eq_true, Nat.blt_eq,
    beq_iff_eq] at hapart
  simp only [Bool.and_eq_true, decide_eq_true_eq, beq_iff_eq] at hmem hmem'
  rcases hapart with (hlt | hlt) | ⟨⟨rfl | rfl, rfl | rfl⟩, hodd⟩ <;> omega

theorem small_areApart_capital :
    (LetterCase.small.all fun p ↦ LetterCase.capital.all (areApart p)) = true := by
  decide +kernel

theorem not_isUpper_of_isLower {c : Char} (h : isLower c = true) : isUpper c = false := by
  unfold isLower at h
  unfold isUpper
  split at h
  · next hascii =>
    rw [if_pos hascii]
    rw [Bool.eq_false_iff]
    intro hupper
    have hsmall : 'a'.val ≤ c.val := of_decide_eq_true (Bool.and_eq_true_iff.mp h).1
    have hcapital : c.val ≤ 'Z'.val := (of_decide_eq_true hupper).2
    have hlt : 'Z'.val < 'a'.val := by decide
    exact absurd (UInt32.le_trans hsmall hcapital) (UInt32.not_le.mpr hlt)
  · next hascii =>
    rw [if_neg hascii]
    exact not_inProgression_of_areApart small_areApart_capital h

end HardcodedText.Text
