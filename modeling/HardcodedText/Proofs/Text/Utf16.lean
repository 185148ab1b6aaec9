import HardcodedText.Proofs.Text.Utf8
import HardcodedText.Text.Utf16

/-!
# Joining UTF-16 halves

`Mends` says by rules which text a sequence of code points with surrogates in it stands for.  Each
sequence of code points stands for exactly one text, and that is the one that `joinHalves` makes of
it (`mends_iff`).
-/

namespace HardcodedText.Utf16

/-! ## The halves of a character -/

/-- The first half of a character beyond the basic plane. -/
def high (c : Char) : Nat :=
  0xD800 + (c.toNat - 0x10000) / 0x400

/-- The second half of a character beyond the basic plane. -/
def low (c : Char) : Nat :=
  0xDC00 + (c.toNat - 0x10000) % 0x400

theorem isHigh_iff {n : Nat} : isHigh n = true ↔ 0xD800 ≤ n ∧ n ≤ 0xDBFF := by
  rw [isHigh, Bool.and_eq_true, decide_eq_true_iff, decide_eq_true_iff]

theorem isLow_iff {n : Nat} : isLow n = true ↔ 0xDC00 ≤ n ∧ n ≤ 0xDFFF := by
  rw [isLow, Bool.and_eq_true, decide_eq_true_iff, decide_eq_true_iff]

theorem isHalf_iff {n : Nat} : isHalf n = true ↔ 0xD800 ≤ n ∧ n ≤ 0xDFFF := by
  rw [isHalf, Bool.or_eq_true, isHigh_iff, isLow_iff]
  omega

/-- A character is not a half. -/
theorem isHalf_toNat (c : Char) : isHalf c.toNat = false := by
  rw [Bool.eq_false_iff]
  intro h
  have hvalid := Utf8.toNat_valid c
  rw [isHalf_iff] at h
  omega

theorem isHigh_high (c : Char) : isHigh (high c) = true := by
  have hvalid := Utf8.toNat_valid c
  rw [isHigh_iff, high]
  omega

theorem isLow_low (c : Char) : isLow (low c) = true := by
  rw [isLow_iff, low]
  omega

theorem toNat_ofNat_of_valid {n : Nat} (hn : n < 0x110000) (hhalf : isHalf n = false) :
    (Char.ofNat n).toNat = n := by
  have hvalid : n.isValidChar := by
    rw [Bool.eq_false_iff, Ne, isHalf_iff] at hhalf
    rw [Nat.isValidChar]
    omega
  rw [Char.ofNat, dif_pos hvalid]
  rfl

theorem join_high_low {c : Char} (h : 0x10000 ≤ c.toNat) : join (high c) (low c) = c := by
  have hsum : 0x10000 + (high c - 0xD800) * 0x400 + (low c - 0xDC00) = c.toNat := by
    rw [high, low]
    omega
  rw [join, hsum, Char.ofNat_toNat]

/-- Any two halves that belong together are those of a character. -/
theorem exists_halves {m n : Nat} (hm : isHigh m = true) (hn : isLow n = true) :
    ∃ c : Char, 0x10000 ≤ c.toNat ∧ high c = m ∧ low c = n := by
  rw [isHigh_iff] at hm
  rw [isLow_iff] at hn
  have hhalf : isHalf (0x10000 + (m - 0xD800) * 0x400 + (n - 0xDC00)) = false := by
    rw [Bool.eq_false_iff, Ne, isHalf_iff]
    omega
  have hjoin : (join m n).toNat = 0x10000 + (m - 0xD800) * 0x400 + (n - 0xDC00) :=
    toNat_ofNat_of_valid (by omega) hhalf
  refine ⟨join m n, ?_, ?_, ?_⟩
  · omega
  · rw [high, hjoin]
    omega
  · rw [low, hjoin]
    omega

/-! ## What a sequence stands for -/

/-- The text that a sequence of code points stands for: two halves of a character stand for the
character, a half without the other for the replacement character, a character for itself. -/
inductive Mends : List Nat → List Char → Prop
  | nil : Mends [] []
  | pair {c : Char} {u : List Nat} {v : List Char} (hc : 0x10000 ≤ c.toNat) (h : Mends u v) :
      Mends (high c :: low c :: u) (c :: v)
  | lone {n : Nat} {u : List Nat} {v : List Char} (hn : isHalf n = true)
      (hpair : isHigh n = true → ∀ m ∈ u.head?, isLow m = false) (h : Mends u v) :
      Mends (n :: u) ('\uFFFD' :: v)
  | char {c : Char} {u : List Nat} {v : List Char} (h : Mends u v) : Mends (c.toNat :: u) (c :: v)

theorem joinHalves_pair {m n : Nat} (hm : isHigh m = true) (hn : isLow n = true) (u : List Nat) :
    joinHalves (m :: n :: u) = join m n :: joinHalves u := by
  rw [joinHalves, hm, hn]
  rfl

theorem joinHalves_single {n : Nat} {u : List Nat}
    (h : isHigh n = true → ∀ m ∈ u.head?, isLow m = false) :
    joinHalves (n :: u) = single n :: joinHalves u := by
  cases u with
  | nil => rw [joinHalves_singleton, joinHalves_nil]
  | cons m u =>
    rw [joinHalves, if_neg]
    rw [Bool.and_eq_true]
    rintro ⟨hn, hm⟩
    rw [h hn m rfl] at hm
    cases hm

theorem joinHalves_toNat (c : Char) (u : List Nat) :
    joinHalves (c.toNat :: u) = c :: joinHalves u := by
  have hhalf := isHalf_toNat c
  rw [joinHalves_single, single, hhalf, if_neg Bool.false_ne_true, Char.ofNat_toNat]
  intro hhigh
  rw [isHalf, hhigh] at hhalf
  cases hhalf

theorem Mends.joinHalves_eq {u : List Nat} {v : List Char} (h : Mends u v) : joinHalves u = v := by
  induction h with
  | nil => exact joinHalves_nil
  | @pair c u v hc _ ih => rw [joinHalves_pair (isHigh_high c) (isLow_low c), join_high_low hc, ih]
  | lone hn hpair _ ih => rw [joinHalves_single hpair, single, if_pos hn, ih]
  | char _ ih => rw [joinHalves_toNat, ih]

/-- Every sequence of code points stands for a text. -/
theorem exists_mends {u : List Nat} (h : ∀ n ∈ u, n < 0x110000) : ∃ v, Mends u v := by
  match u with
  | [] => exact ⟨[], .nil⟩
  | n :: u =>
    obtain ⟨hn, hu⟩ := List.forall_mem_cons.mp h
    cases hhalf : isHalf n with
    | false =>
      obtain ⟨v, hv⟩ := exists_mends hu
      rw [← toNat_ofNat_of_valid hn hhalf]
      exact ⟨_, .char hv⟩
    | true =>
      -- Only a low half right after a high one is used up together with it.
      by_cases hpair : isHigh n = true ∧ ∃ m ∈ u.head?, isLow m = true
      · obtain ⟨hhigh, m, hm, hlow⟩ := hpair
        obtain ⟨rest, rfl⟩ := List.head?_eq_some_iff.mp hm
        obtain ⟨v, hv⟩ := exists_mends (List.forall_mem_cons.mp hu).2
        obtain ⟨c, hc, rfl, rfl⟩ := exists_halves hhigh hlow
        exact ⟨_, .pair hc hv⟩
      · obtain ⟨v, hv⟩ := exists_mends hu
        refine ⟨_, .lone hhalf (fun hhigh m hm ↦ ?_) hv⟩
        rw [Bool.eq_false_iff]
        exact fun hlow ↦ hpair ⟨hhigh, m, hm, hlow⟩

theorem mends_iff {u : List Nat} (h : ∀ n ∈ u, n < 0x110000) {v : List Char} :
    Mends u v ↔ joinHalves u = v := by
  constructor
  · exact Mends.joinHalves_eq
  · rintro rfl
    obtain ⟨v, hv⟩ := exists_mends h
    rwa [hv.joinHalves_eq]

/-- Nothing changes where there are no halves. -/
theorem map_toNat_joinHalves {u : List Nat} (h : ∀ n ∈ u, n < 0x110000)
    (hhalf : ∀ n ∈ u, isHalf n = false) : (joinHalves u).map Char.toNat = u := by
  induction u with
  | nil => rw [joinHalves_nil, List.map_nil]
  | cons n u ih =>
    obtain ⟨hn, hu⟩ := List.forall_mem_cons.mp h
    obtain ⟨hsingle, hrest⟩ := List.forall_mem_cons.mp hhalf
    rw [← toNat_ofNat_of_valid hn hsingle, joinHalves_toNat, List.map_cons, ih hu hrest]

end HardcodedText.Utf16
