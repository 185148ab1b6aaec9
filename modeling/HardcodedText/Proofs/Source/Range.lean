import HardcodedText.Proofs.Source.Position

/-!
# The text of a range

The text of a range between characters is what has its offsets in the range
(`Document.chars_eq_charsAt`).  So ranges can be put together and taken apart by their offsets alone
(`Document.text_append`, `charsAt_eq_append`).  A byte below 0x80 is a character by itself, so a
range may begin and end at it (`isBoundary_of_getElem?`).
-/

namespace HardcodedText

open Utf8 (encode encodeChar)

/-! ## Characters by their offsets -/

/-- The characters of a text at the offsets that are to be kept.  The first character has the given
offset, and every other one an offset as many bytes later as those before it have. -/
def charsAt (keep : Nat → Bool) (offset : Nat) : List Char → List Char
  | [] => []
  | c :: cs =>
    (if keep offset then [c] else []) ++ charsAt keep (offset + (encodeChar c).length) cs

section

variable {keep : Nat → Bool} {offset : Nat} {cs : List Char}

theorem charsAt_append (cs ds : List Char) :
    charsAt keep offset (cs ++ ds) =
      charsAt keep offset cs ++ charsAt keep (offset + (encode cs).length) ds := by
  induction cs generalizing offset with
  | nil => rfl
  | cons c cs ih =>
    simp only [List.cons_append, charsAt, ih, Utf8.encode_cons, List.length_append,
      List.append_assoc, Nat.add_assoc]

/-- Where all offsets are kept, so are the characters, and where none is, none of them is. -/
theorem charsAt_of_forall (b : Bool)
    (h : ∀ i, offset ≤ i → i < offset + (encode cs).length → keep i = b) :
    charsAt keep offset cs = if b then cs else [] := by
  induction cs generalizing offset with
  | nil => cases b <;> rfl
  | cons c cs ih =>
    have hpos := Utf8.length_encodeChar_pos c
    rw [Utf8.encode_cons, List.length_append] at h
    rw [charsAt, h offset (Nat.le_refl _) (by omega),
      ih fun i hle hlt ↦ h i (by omega) (by omega)]
    cases b <;> rfl

/-- What is kept before an offset comes before what is kept from there on. -/
theorem charsAt_eq_append {before after : Nat → Bool} (cut : Nat)
    (hbefore : ∀ i, before i = true ↔ keep i = true ∧ i < cut)
    (hafter : ∀ i, after i = true ↔ keep i = true ∧ cut ≤ i) :
    charsAt keep offset cs = charsAt before offset cs ++ charsAt after offset cs := by
  induction cs generalizing offset with
  | nil => rfl
  | cons c cs ih =>
    rw [charsAt, charsAt, charsAt, ih]
    by_cases hcut : offset < cut
    · have hafter : after offset = false := by
        rw [Bool.eq_false_iff, Ne, hafter]
        omega
      have hbefore : before offset = keep offset := by
        rw [Bool.eq_iff_iff, hbefore]
        exact and_iff_left hcut
      rw [hafter, hbefore, List.append_assoc]
      rfl
    · -- From here on nothing is before the cut.
      have hnone (i : Nat) (hi : offset ≤ i) : before i = false := by
        rw [Bool.eq_false_iff, Ne, hbefore]
        omega
      have hrest : charsAt before (offset + (encodeChar c).length) cs = [] :=
        charsAt_of_forall false fun i hi _ ↦ hnone i (by omega)
      have hafter : after offset = keep offset := by
        rw [Bool.eq_iff_iff, hafter]
        exact and_iff_left (Nat.not_lt.mp hcut)
      rw [hrest, hnone offset (Nat.le_refl _), hafter]
      rfl

end

/-- Whether an offset is in a range. -/
def Span.covers (s : Span) (offset : Nat) : Bool :=
  s.start ≤ offset && offset < s.stop

theorem Span.covers_iff {s : Span} {offset : Nat} :
    s.covers offset = true ↔ s.start ≤ offset ∧ offset < s.stop := by
  simp [covers]

theorem Span.covers_eq_false_iff {s : Span} {offset : Nat} :
    s.covers offset = false ↔ offset < s.start ∨ s.stop ≤ offset := by
  rw [Bool.eq_false_iff, Ne, covers_iff]
  omega

/-! ## Ranges of a text -/

/-- A byte that stands for itself is a character. -/
theorem isBoundary_of_getElem? {cs : List Char} {offset : Nat} {b : UInt8}
    (h : (encode cs)[offset]? = some b) (hb : b.toNat < 0x80) :
    IsBoundary cs offset ∧ IsBoundary cs (offset + 1) := by
  induction cs generalizing offset with
  | nil => cases h
  | cons c cs ih =>
    rw [Utf8.encode_cons] at h
    rcases Nat.lt_or_ge offset (encodeChar c).length with hlt | hge
    · rw [List.getElem?_append_left hlt] at h
      have hc : c.toNat < 0x80 := Nat.not_le.mp fun hle ↦
        Utf8.ascii_notMem_encodeChar hle hb (List.mem_of_getElem? h)
      have hone : (encodeChar c).length = 1 := by rw [Utf8.encodeChar_of_lt hc]; rfl
      obtain rfl : offset = 0 := by omega
      exact ⟨⟨[], c :: cs, rfl, rfl⟩, ⟨[c], cs, rfl, by simp [hone]⟩⟩
    · rw [List.getElem?_append_right hge] at h
      obtain ⟨⟨pre, post, hcs, hpre⟩, ⟨pre', post', hcs', hpre'⟩⟩ := ih h
      refine ⟨⟨c :: pre, post, by rw [hcs]; rfl, ?_⟩, ⟨c :: pre', post', by rw [hcs']; rfl, ?_⟩⟩
      · rw [Utf8.encode_cons, List.length_append, ← hpre]
        omega
      · rw [Utf8.encode_cons, List.length_append, ← hpre']
        omega

namespace Document

variable {doc : Document} {cs : List Char} {a b c : Nat}

/-- The characters of a range are those with an offset in it. -/
theorem chars_eq_charsAt (hdoc : doc.bytes = encode cs) (ha : IsBoundary cs a)
    (hb : IsBoundary cs b) (hle : a ≤ b) :
    doc.chars ⟨a, b⟩ = charsAt (Span.covers ⟨a, b⟩) 0 cs := by
  obtain ⟨pre, run, post, rfl, rfl, rfl⟩ := ha.exists_append hb hle
  have hslice : doc.slice ⟨(encode pre).length, (encode (pre ++ run)).length⟩ = encode run := by
    rw [slice, hdoc]
    simp
  rw [chars, hslice, Utf8.decodeLossy_encode, charsAt_append, charsAt_append,
    charsAt_of_forall false, charsAt_of_forall true, charsAt_of_forall false]
  · simp
  all_goals
    intro i hi hi'
    simp only [Span.covers_eq_false_iff, Span.covers_iff, Utf8.encode_append, List.length_append]
    omega

/-- Ranges that meet make up one range. -/
theorem text_append (hdoc : doc.bytes = encode cs) (ha : IsBoundary cs a) (hb : IsBoundary cs b)
    (hc : IsBoundary cs c) (hab : a ≤ b) (hbc : b ≤ c) :
    doc.text ⟨a, b⟩ ++ doc.text ⟨b, c⟩ = doc.text ⟨a, c⟩ := by
  rw [text, text, text, ← String.ofList_append, chars_eq_charsAt hdoc ha hb hab,
    chars_eq_charsAt hdoc hb hc hbc, chars_eq_charsAt hdoc ha hc (Nat.le_trans hab hbc)]
  congr 1
  refine (charsAt_eq_append b (fun i ↦ ?_) fun i ↦ ?_).symm
  all_goals
    simp only [Span.covers_iff]
    omega

end Document

end HardcodedText
