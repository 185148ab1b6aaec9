import HardcodedText.Text.Blank
import HardcodedText.Text.Utf8

/-!
# Reading back UTF-8

The lenient reader gives back every text that was written (`decodeLossy_encode`), character by
character (`decodeLossy_encodeChar_append`), and makes one replacement of a character that is cut
off (`decodeLossy_cut`).  Bytes below 0x80 stand for themselves and occur in no longer character
(`ascii_notMem_encodeChar`), so line feeds and blanks can be told byte by byte.
-/

namespace HardcodedText.Utf8

theorem toNat_ofNat {n : Nat} (h : n < 0x100) : (UInt8.ofNat n).toNat = n :=
  UInt8.toNat_ofNat_of_lt h

theorem toNat_valid (c : Char) :
    c.toNat < 0xD800 ∨ 0xDFFF < c.toNat ∧ c.toNat < 0x110000 := c.valid

theorem continueWith_succ {low high bits used tail n : Nat} {rest : List UInt8}
    (hlow : low ≤ n) (hhigh : n ≤ high) (hn : n < 0x100) :
    continueWith low high bits used (tail + 1) (.ofNat n :: rest) =
      continueWith 0x80 0xBF (bits * 0x40 + (n - 0x80)) (used + 1) tail rest := by
  rw [continueWith, toNat_ofNat hn, if_pos ⟨hlow, hhigh⟩]

/-- The first byte of a character of three bytes leaves room for its second byte. -/
theorem lead?_three {n : Nat} (hn : 0x800 ≤ n) (hn' : n < 0x10000) (hv : n < 0xD800 ∨ 0xDFFF < n) :
    ∃ low high, lead? (0xE0 + n / 0x1000) = some ⟨2, low, high, n / 0x1000⟩ ∧
      low ≤ 0x80 + n / 0x40 % 0x40 ∧ 0x80 + n / 0x40 % 0x40 ≤ high := by
  unfold lead?
  rw [if_neg (by omega)]
  split
  · next h => exact ⟨_, _, by rw [show n / 0x1000 = 0 by omega], by omega, by omega⟩
  · split
    · next h => exact ⟨_, _, by rw [show n / 0x1000 = 0xD by omega], by omega, by omega⟩
    · rw [if_pos (by omega), Nat.add_sub_cancel_left]
      exact ⟨_, _, rfl, by omega, by omega⟩

/-- The first byte of a character of four bytes leaves room for its second byte. -/
theorem lead?_four {n : Nat} (hn : 0x10000 ≤ n) (hn' : n < 0x110000) :
    ∃ low high, lead? (0xF0 + n / 0x40000) = some ⟨3, low, high, n / 0x40000⟩ ∧
      low ≤ 0x80 + n / 0x1000 % 0x40 ∧ 0x80 + n / 0x1000 % 0x40 ≤ high := by
  unfold lead?
  rw [if_neg (by omega), if_neg (by omega), if_neg (by omega), if_neg (by omega)]
  split
  · next h => exact ⟨_, _, by rw [show n / 0x40000 = 0 by omega], by omega, by omega⟩
  · split
    · rw [Nat.add_sub_cancel_left]
      exact ⟨_, _, rfl, by omega, by omega⟩
    · rw [if_pos (by omega)]
      exact ⟨_, _, by rw [show n / 0x40000 = 4 by omega], by omega, by omega⟩

/-- The first byte of a character announces the others. -/
theorem next_encodeChar (c : Char) (rest : List UInt8) :
    ∃ b bs, encodeChar c = b :: bs ∧ next b (bs ++ rest) = ⟨.ok c, bs.length⟩ := by
  have hvalid := toNat_valid c
  have hchar {n : Nat} (h : n = c.toNat) : Char.ofNat n = c := by rw [h, Char.ofNat_toNat]
  unfold encodeChar
  simp only
  split
  · next h =>
    refine ⟨_, _, rfl, ?_⟩
    rw [next, toNat_ofNat (by omega), if_pos h, hchar rfl]
    rfl
  · split
    · next h h2 =>
      refine ⟨_, _, rfl, ?_⟩
      rw [next, toNat_ofNat (by omega), if_neg (by omega), lead?, if_pos (by omega)]
      simp only [List.cons_append, List.nil_append]
      rw [continueWith_succ (by omega) (by omega) (by omega), continueWith, hchar (by omega)]
      rfl
    · split
      · next h h2 h3 =>
        refine ⟨_, _, rfl, ?_⟩
        obtain ⟨low, high, hlead, hlow, hhigh⟩ :=
          lead?_three (n := c.toNat) (by omega) h3 (by omega)
        rw [next, toNat_ofNat (by omega), if_neg (by omega), hlead]
        simp only [List.cons_append, List.nil_append]
        rw [continueWith_succ hlow hhigh (by omega),
          continueWith_succ (by omega) (by omega) (by omega), continueWith, hchar (by omega)]
        rfl
      · next h h2 h3 =>
        refine ⟨_, _, rfl, ?_⟩
        obtain ⟨low, high, hlead, hlow, hhigh⟩ :=
          lead?_four (n := c.toNat) (by omega) (by omega)
        rw [next, toNat_ofNat (by omega), if_neg (by omega), hlead]
        simp only [List.cons_append, List.nil_append]
        rw [continueWith_succ hlow hhigh (by omega),
          continueWith_succ (by omega) (by omega) (by omega),
          continueWith_succ (by omega) (by omega) (by omega), continueWith, hchar (by omega)]
        rfl

theorem length_encodeChar_pos (c : Char) : 0 < (encodeChar c).length := by
  obtain ⟨b, bs, henc, -⟩ := next_encodeChar c []
  rw [henc]
  exact Nat.succ_pos _

theorem decodeLossy_encodeChar_append (c : Char) (bs : List UInt8) :
    decodeLossy (encodeChar c ++ bs) = c :: decodeLossy bs := by
  obtain ⟨b, more, henc, hnext⟩ := next_encodeChar c bs
  rw [henc, List.cons_append, decodeLossy]
  simp only [hnext, List.drop_left]

@[simp] theorem decodeLossy_nil : decodeLossy [] = [] := by
  rw [decodeLossy]

@[simp] theorem decodeLossy_encode (cs : List Char) : decodeLossy (encode cs) = cs := by
  induction cs with
  | nil => simp
  | cons c cs ih => rw [encode_cons, decodeLossy_encodeChar_append, ih]

/-! ## Characters that are cut off -/

theorem decodeLossy_encode_append (cs : List Char) (bs : List UInt8) :
    decodeLossy (encode cs ++ bs) = cs ++ decodeLossy bs := by
  induction cs with
  | nil => rfl
  | cons c cs ih =>
    rw [encode_cons, List.append_assoc, decodeLossy_encodeChar_append, ih, List.cons_append]

/-- A character is read from as many bytes as are owed. -/
theorem more_of_continueWith_eq_ok {low high bits used tail : Nat} {bs : List UInt8} {c : Char}
    (h : (continueWith low high bits used tail bs).outcome = .ok c) :
    (continueWith low high bits used tail bs).more = used + tail := by
  fun_induction continueWith low high bits used tail bs with
  | case1 => rfl
  | case2 => cases h
  | case3 low high bits used tail b rest hb ih =>
    rw [ih h]
    omega
  | case4 => cases h

/-- If a character can be read, then the beginning of its bytes lacks nothing but the rest. -/
theorem continueWith_cut {low high bits used tail : Nat} {cut rest : List UInt8} {c : Char}
    (h : (continueWith low high bits used tail (cut ++ rest)).outcome = .ok c)
    (hlength : cut.length < tail) :
    continueWith low high bits used tail cut = ⟨.error .unexpectedEnd, used + cut.length⟩ := by
  induction cut generalizing low high bits used tail with
  | nil =>
    obtain ⟨tail, rfl⟩ := Nat.exists_eq_add_one.mpr hlength
    rfl
  | cons b cut ih =>
    obtain ⟨tail, rfl⟩ := Nat.exists_eq_add_one.mpr (Nat.zero_lt_of_lt hlength)
    rw [List.cons_append, continueWith] at h
    rw [continueWith]
    split at h
    · next hb =>
      rw [if_pos hb, ih h (Nat.lt_of_succ_lt_succ hlength), List.length_cons]
      simp only [Step.mk.injEq, true_and]
      omega
    · cases h

/-- Of a character that takes all the bytes there are, the beginning covers what it has. -/
theorem next_cut {b : UInt8} {cut rest : List UInt8} {c : Char}
    (h : next b (cut ++ rest) = ⟨.ok c, (cut ++ rest).length⟩) (hrest : rest ≠ []) :
    next b cut = ⟨.error .unexpectedEnd, cut.length⟩ := by
  have hlength : 0 < rest.length := List.length_pos_iff.mpr hrest
  have hmore := congrArg Step.more h
  unfold next at h hmore ⊢
  rw [List.length_append] at hmore
  split at h
  · next hb =>
    rw [if_pos hb] at hmore
    simp only at hmore
    omega
  · next hb =>
    rw [if_neg hb] at hmore ⊢
    cases hlead : lead? b.toNat with
    | none =>
      rw [hlead] at h
      cases h
    | some l =>
      rw [hlead] at h hmore
      simp only at h hmore ⊢
      have hok := congrArg Step.outcome h
      have howed := more_of_continueWith_eq_ok hok
      rw [continueWith_cut hok (by omega), Nat.zero_add]

/-- A character that is cut off is read as one replacement. -/
theorem decodeLossy_cut {c : Char} {cut rest : List UInt8} (h : encodeChar c = cut ++ rest)
    (hcut : cut ≠ []) (hrest : rest ≠ []) : decodeLossy cut = [replacement] := by
  obtain ⟨b, cut, rfl⟩ := List.exists_cons_of_ne_nil hcut
  obtain ⟨b', bs, henc, hnext⟩ := next_encodeChar c []
  rw [henc, List.cons_append] at h
  obtain ⟨rfl, rfl⟩ := List.cons.inj h
  rw [List.append_nil] at hnext
  rw [decodeLossy]
  simp only [next_cut hnext hrest, List.drop_length, decodeLossy_nil]

/-- The first bytes of a text are those of its first characters, and perhaps the beginning of one
more character. -/
theorem exists_take_encode (cs : List Char) (offset : Nat) :
    (∃ pre post, cs = pre ++ post ∧ (encode cs).take offset = encode pre) ∨
      ∃ pre c post cut rest, cs = pre ++ c :: post ∧ encodeChar c = cut ++ rest ∧ cut ≠ [] ∧
        rest ≠ [] ∧ (encode cs).take offset = encode pre ++ cut := by
  induction cs generalizing offset with
  | nil => exact .inl ⟨[], [], rfl, List.take_nil⟩
  | cons c cs ih =>
    rw [encode_cons]
    rcases Nat.lt_or_ge offset (encodeChar c).length with hoffset | hoffset
    · have htake : (encodeChar c ++ encode cs).take offset = (encodeChar c).take offset :=
        List.take_append_of_le_length (Nat.le_of_lt hoffset)
      rcases Nat.eq_zero_or_pos offset with rfl | hpos
      · exact .inl ⟨[], c :: cs, rfl, rfl⟩
      · refine .inr ⟨[], c, cs, (encodeChar c).take offset, (encodeChar c).drop offset, rfl,
          (List.take_append_drop offset _).symm, ?_, ?_, htake⟩
        · rw [Ne, List.take_eq_nil_iff, not_or]
          exact ⟨by omega, List.ne_nil_of_length_pos (by omega)⟩
        · rw [Ne, List.drop_eq_nil_iff]
          omega
    · obtain ⟨rest, rfl⟩ := Nat.exists_eq_add_of_le hoffset
      rw [List.take_length_add_append]
      rcases ih rest with ⟨pre, post, rfl, htake⟩ | ⟨pre, d, post, cut, more, rfl, henc, hcut⟩
      · exact .inl ⟨c :: pre, post, rfl, by rw [htake, encode_cons]⟩
      · refine .inr ⟨c :: pre, d, post, cut, more, rfl, henc, hcut.1, hcut.2.1, ?_⟩
        rw [hcut.2.2, encode_cons, List.append_assoc]

/-! ## Bytes that stand for themselves -/

theorem encodeChar_of_lt {c : Char} (h : c.toNat < 0x80) : encodeChar c = [.ofNat c.toNat] := by
  simp [encodeChar, h]

/-- The bytes of a longer character are all at least 0x80. -/
theorem ascii_notMem_encodeChar {c : Char} {b : UInt8} (h : 0x80 ≤ c.toNat) (hb : b.toNat < 0x80) :
    b ∉ encodeChar c := by
  have hvalid := toNat_valid c
  intro hmem
  unfold encodeChar at hmem
  simp only at hmem
  rw [if_neg (by omega)] at hmem
  split at hmem
  · simp only [List.mem_cons, List.not_mem_nil, or_false] at hmem
    rcases hmem with rfl | rfl <;> rw [toNat_ofNat (by omega)] at hb <;> omega
  · split at hmem
    · simp only [List.mem_cons, List.not_mem_nil, or_false] at hmem
      rcases hmem with rfl | rfl | rfl <;> rw [toNat_ofNat (by omega)] at hb <;> omega
    · simp only [List.mem_cons, List.not_mem_nil, or_false] at hmem
      rcases hmem with rfl | rfl | rfl | rfl <;> rw [toNat_ofNat (by omega)] at hb <;> omega

theorem exists_encodeChar_eq {b : UInt8} (h : b.toNat < 0x80) :
    ∃ c, encodeChar c = [b] ∧ c.toNat = b.toNat := by
  have hchar : (Char.ofNat b.toNat).toNat = b.toNat := by
    rw [Char.ofNat, dif_pos (.inl (by omega))]
    rfl
  refine ⟨.ofNat b.toNat, ?_, hchar⟩
  rw [encodeChar_of_lt (by omega), hchar, UInt8.ofNat_toNat]

theorem isBlankByte_iff {b : UInt8} :
    Text.isBlankByte b ↔ 0x09 ≤ b.toNat ∧ b.toNat ≤ 0x0D ∨ b.toNat = 0x20 := by
  simp [Text.isBlankByte]

/-- Blank bytes are the encoding of blanks. -/
theorem exists_encode_eq_of_isBlankByte {bs : List UInt8} (h : ∀ b ∈ bs, Text.isBlankByte b) :
    ∃ cs, bs = encode cs ∧ ∀ c ∈ cs, Text.isBlank c ∧ c ≠ '&' := by
  induction bs with
  | nil => exact ⟨[], rfl, fun _ hc ↦ by cases hc⟩
  | cons b bs ih =>
    obtain ⟨cs, rfl, hcs⟩ := ih fun b' hb' ↦ h b' (List.mem_cons_of_mem _ hb')
    have hb := isBlankByte_iff.mp (h b List.mem_cons_self)
    obtain ⟨c, henc, hc⟩ := exists_encodeChar_eq (b := b) (by omega)
    refine ⟨c :: cs, by rw [encode_cons, henc]; rfl, List.forall_mem_cons.mpr ⟨⟨?_, ?_⟩, hcs⟩⟩
    · simp only [Text.isBlank, hc, Bool.or_eq_true, Bool.and_eq_true, decide_eq_true_eq, beq_iff_eq]
      omega
    · rintro rfl
      have : (38 : Nat) = b.toNat := hc
      omega

end HardcodedText.Utf8
