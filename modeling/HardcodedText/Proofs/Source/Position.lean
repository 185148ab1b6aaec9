import HardcodedText.Proofs.Text.Utf8
import HardcodedText.Source.Document

/-!
# Offsets and places

The place of an offset between two characters is found by reading the characters before it
(`Document.positionIn_encode`).  Reading on always leads to a later place, so the places of offsets
of this kind are in the order of the offsets (`IsBoundary.before_iff`), and different offsets have
different places (`IsBoundary.eq_of_positionIn_eq`).  An offset inside a character has the place
after it, and one beyond the end that of the end (`Document.exists_positionIn_eq_after`).
-/

namespace HardcodedText

namespace Position

/-- The place after one more character. -/
def next (p : Position) (c : Char) : Position :=
  if c = '\n' then ⟨p.line + 1, 0⟩ else ⟨p.line, p.column + 1⟩

/-- The place after some characters from the beginning. -/
def after (cs : List Char) : Position :=
  cs.foldl next ⟨1, 0⟩

/-- A place comes before another one. -/
def Before (p q : Position) : Prop :=
  p.line < q.line ∨ p.line = q.line ∧ p.column < q.column

theorem Before.irrefl (p : Position) : ¬ p.Before p := by
  unfold Before
  omega

theorem Before.trans {p q r : Position} (h : p.Before q) (h' : q.Before r) : p.Before r := by
  unfold Before at *
  omega

theorem before_next (p : Position) (c : Char) : p.Before (p.next c) := by
  unfold Before next
  split
  · exact .inl (Nat.lt_succ_self _)
  · exact .inr ⟨rfl, Nat.lt_succ_self _⟩

theorem before_foldl (p : Position) (c : Char) (cs : List Char) :
    p.Before ((c :: cs).foldl next p) := by
  induction cs generalizing p c with
  | nil => exact before_next p c
  | cons d cs ih => exact (before_next p c).trans (ih (p.next c) d)

theorem before_after_append (pre : List Char) (c : Char) (cs : List Char) :
    (after pre).Before (after (pre ++ c :: cs)) := by
  rw [after, after, List.foldl_append]
  exact before_foldl _ c cs

end Position

namespace Document

open Utf8

theorem lineFeed_notMem_encodeChar {c : Char} (h : c ≠ '\n') : 0x0A ∉ encodeChar c := by
  by_cases hc : c.toNat < 0x80
  · rw [encodeChar_of_lt hc, List.mem_singleton]
    intro he
    have := congrArg UInt8.toNat he
    rw [toNat_ofNat (by omega)] at this
    exact h (Char.toNat_inj.mp this.symm)
  · exact ascii_notMem_encodeChar (by omega) (by decide)

theorem lastLine_append_lineFeed (bs : List UInt8) : lastLine (bs ++ encodeChar '\n') = [] := by
  have : encodeChar '\n' = [0x0A] := by decide
  simp [lastLine, this]

theorem lastLine_append_of_notMem {more : List UInt8} (h : 0x0A ∉ more) (bs : List UInt8) :
    lastLine (bs ++ more) = lastLine bs ++ more := by
  have hne : ∀ b ∈ more.reverse, (b != 0x0A) = true := by
    intro b hb
    rw [bne_iff_ne]
    rintro rfl
    exact h (List.mem_reverse.mp hb)
  rw [lastLine, List.reverse_append, List.takeWhile_append_of_pos hne, List.reverse_append,
    List.reverse_reverse, lastLine]

theorem lastLine_append_encodeChar {c : Char} (h : c ≠ '\n') (bs : List UInt8) :
    lastLine (bs ++ encodeChar c) = lastLine bs ++ encodeChar c :=
  lastLine_append_of_notMem (lineFeed_notMem_encodeChar h) bs

/-- Reading on from a place: `l` is what the last line holds so far. -/
theorem position_append_encode (cs : List Char) {bs : List UInt8} {l : List Char}
    (h : lastLine bs = encode l) :
    (⟨(bs ++ encode cs).count 0x0A + 1,
      (decodeLossy (lastLine (bs ++ encode cs))).length⟩ : Position) =
        cs.foldl Position.next ⟨bs.count 0x0A + 1, l.length⟩ := by
  induction cs generalizing bs l with
  | nil => simp [h]
  | cons c cs ih =>
    rw [encode_cons, ← List.append_assoc, List.foldl_cons]
    by_cases hc : c = '\n'
    · have hcount : (encodeChar c).count 0x0A = 1 := by rw [hc]; decide
      rw [ih (l := []) (by rw [hc, lastLine_append_lineFeed, encode_nil]), List.count_append,
        hcount, Position.next, if_pos hc]
      rfl
    · have hcount : (encodeChar c).count 0x0A = 0 :=
        List.count_eq_zero.mpr (lineFeed_notMem_encodeChar hc)
      rw [ih (l := l ++ [c]) (by rw [lastLine_append_encodeChar hc, h]; simp),
        List.count_append, hcount, Position.next, if_neg hc, List.length_append]
      rfl

theorem positionIn_of_take {bs : List UInt8} {offset : Nat} {pre : List Char}
    (h : bs.take offset = encode pre) : positionIn bs offset = Position.after pre := by
  have hnil : lastLine [] = encode [] := rfl
  rw [positionIn, h]
  exact position_append_encode pre hnil

theorem positionIn_encode (pre post : List Char) :
    positionIn (encode (pre ++ post)) (encode pre).length = Position.after pre :=
  positionIn_of_take (by rw [encode_append, List.take_left])

theorem position_encode {doc : Document} {pre post : List Char}
    (h : doc.bytes = encode (pre ++ post)) :
    doc.position (encode pre).length = Position.after pre := by
  rw [position, h, positionIn_encode]

/-! ## Offsets inside characters -/

theorem exists_lastLine_append_encode (cs : List Char) {bs : List UInt8} {l : List Char}
    (h : lastLine bs = encode l) : ∃ l', lastLine (bs ++ encode cs) = encode l' := by
  induction cs generalizing bs l with
  | nil => exact ⟨l, by rw [encode_nil, List.append_nil, h]⟩
  | cons c cs ih =>
    rw [encode_cons, ← List.append_assoc]
    by_cases hc : c = '\n'
    · exact ih (l := []) (by rw [hc, lastLine_append_lineFeed, encode_nil])
    · exact ih (l := l ++ [c]) (by rw [lastLine_append_encodeChar hc, h]; simp)

/-- Where a character is cut off, it counts as read. -/
theorem positionIn_of_take_cut {bs cut rest : List UInt8} {offset : Nat} {pre : List Char}
    {c : Char} (h : bs.take offset = encode pre ++ cut) (hc : encodeChar c = cut ++ rest)
    (hcut : cut ≠ []) (hrest : rest ≠ []) : positionIn bs offset = Position.after (pre ++ [c]) := by
  have hfeed : c ≠ '\n' := by
    rintro rfl
    rcases List.singleton_eq_append_iff.mp hc with ⟨rfl, -⟩ | ⟨-, rfl⟩
    · exact hcut rfl
    · exact hrest rfl
  have hnotMem : 0x0A ∉ cut := fun hmem ↦
    lineFeed_notMem_encodeChar hfeed (hc ▸ List.mem_append_left rest hmem)
  obtain ⟨l, hl⟩ := exists_lastLine_append_encode pre (show lastLine [] = encode [] from rfl)
  rw [List.nil_append] at hl
  have hpre : positionIn (encode pre) (encode pre).length = Position.after pre :=
    positionIn_of_take List.take_length
  rw [positionIn, List.take_length, hl, decodeLossy_encode] at hpre
  rw [positionIn, h, lastLine_append_of_notMem hnotMem, hl, decodeLossy_encode_append,
    decodeLossy_cut hc hcut hrest, List.count_append, List.count_eq_zero.mpr hnotMem,
    Position.after, List.foldl_append, List.foldl_cons, List.foldl_nil, ← Position.after, ← hpre,
    Position.next, if_neg hfeed, List.length_append]
  rfl

/-- The place of any offset, inside a character or beyond the end, is that after some of the
characters. -/
theorem exists_positionIn_eq_after (cs : List Char) (offset : Nat) :
    ∃ pre post, cs = pre ++ post ∧ positionIn (encode cs) offset = Position.after pre := by
  rcases exists_take_encode cs offset with ⟨pre, post, hcs, htake⟩ |
    ⟨pre, c, post, cut, rest, hcs, hc, hcut, hrest, htake⟩
  · exact ⟨pre, post, hcs, positionIn_of_take htake⟩
  · exact ⟨pre ++ [c], post, by rw [hcs, List.append_assoc]; rfl,
      positionIn_of_take_cut htake hc hcut hrest⟩

end Document

open Utf8

/-- `IsBoundary cs offset`: the offset falls between two characters of the text `cs`, or at one of
its ends. -/
def IsBoundary (cs : List Char) (offset : Nat) : Prop :=
  ∃ pre post, cs = pre ++ post ∧ offset = (encode pre).length

/-- The offsets between the characters of a text. -/
def boundaries : List Char → List Nat
  | [] => [0]
  | c :: cs => 0 :: (boundaries cs).map ((encodeChar c).length + ·)

theorem mem_boundaries_iff {cs : List Char} {offset : Nat} :
    offset ∈ boundaries cs ↔ IsBoundary cs offset := by
  induction cs generalizing offset with
  | nil =>
    constructor
    · exact fun h ↦ ⟨[], [], rfl, List.mem_singleton.mp h⟩
    · rintro ⟨pre, post, h, rfl⟩
      obtain ⟨rfl, -⟩ := List.append_eq_nil_iff.mp h.symm
      exact List.mem_singleton.mpr rfl
  | cons c cs ih =>
    rw [boundaries, List.mem_cons, List.mem_map]
    constructor
    · rintro (rfl | ⟨rest, hrest, rfl⟩)
      · exact ⟨[], c :: cs, rfl, rfl⟩
      · obtain ⟨pre, post, rfl, rfl⟩ := ih.mp hrest
        exact ⟨c :: pre, post, rfl, by simp⟩
    · rintro ⟨pre, post, h, rfl⟩
      cases pre with
      | nil => exact .inl rfl
      | cons d pre =>
        obtain ⟨rfl, rfl⟩ := List.cons.inj h
        exact .inr ⟨_, ih.mpr ⟨pre, post, rfl, rfl⟩, by simp⟩

instance (cs : List Char) (offset : Nat) : Decidable (IsBoundary cs offset) :=
  decidable_of_iff _ mem_boundaries_iff

namespace IsBoundary

variable {cs : List Char} {a b : Nat}

theorem positionIn_eq {pre post : List Char} (h : cs = pre ++ post)
    (ha : a = (encode pre).length) : Document.positionIn (encode cs) a = Position.after pre := by
  rw [h, ha, Document.positionIn_encode]

/-- Two offsets between characters cut a text in three. -/
theorem exists_append (ha : IsBoundary cs a) (hb : IsBoundary cs b) (hle : a ≤ b) :
    ∃ pre run post, cs = pre ++ (run ++ post) ∧ a = (encode pre).length ∧
      b = (encode (pre ++ run)).length := by
  obtain ⟨pre, rest, hcs, rfl⟩ := ha
  obtain ⟨pre', post, hcs', rfl⟩ := hb
  -- Of two beginnings of one text, one goes on where the other one stops.
  rcases List.append_eq_append_iff.mp (hcs.symm.trans hcs') with ⟨run, rfl, rfl⟩ | ⟨run, rfl, rfl⟩
  · exact ⟨pre, run, post, hcs, rfl, rfl⟩
  · cases run with
    | nil => exact ⟨pre', [], rest, hcs', by simp, by simp⟩
    | cons c run =>
      have hpos := length_encodeChar_pos c
      simp only [encode_append, encode_cons, List.length_append] at hle
      omega

/-- Later offsets between characters have later places. -/
theorem before_of_lt (ha : IsBoundary cs a) (hb : IsBoundary cs b) (h : a < b) :
    (Document.positionIn (encode cs) a).Before (Document.positionIn (encode cs) b) := by
  obtain ⟨pre, run, post, hcs, rfl, rfl⟩ := ha.exists_append hb (Nat.le_of_lt h)
  rw [positionIn_eq hcs rfl, positionIn_eq (hcs.trans (List.append_assoc _ _ _).symm) rfl]
  cases run with
  | nil =>
    rw [List.append_nil] at h
    exact absurd h (Nat.lt_irrefl _)
  | cons c run => exact Position.before_after_append pre c run

theorem before_iff (ha : IsBoundary cs a) (hb : IsBoundary cs b) :
    (Document.positionIn (encode cs) a).Before (Document.positionIn (encode cs) b) ↔ a < b := by
  refine ⟨fun h ↦ Nat.not_le.mp fun hle ↦ ?_, before_of_lt ha hb⟩
  rcases Nat.lt_or_eq_of_le hle with hlt | rfl
  · exact Position.Before.irrefl _ (h.trans (before_of_lt hb ha hlt))
  · exact Position.Before.irrefl _ h

/-- Different offsets between characters have different places. -/
theorem eq_of_positionIn_eq (ha : IsBoundary cs a) (hb : IsBoundary cs b)
    (h : Document.positionIn (encode cs) a = Document.positionIn (encode cs) b) : a = b := by
  refine Nat.le_antisymm (Nat.not_lt.mp fun hlt ↦ ?_) (Nat.not_lt.mp fun hlt ↦ ?_)
  · exact Position.Before.irrefl _ (h ▸ before_of_lt hb ha hlt)
  · exact Position.Before.irrefl _ (h ▸ before_of_lt ha hb hlt)

/-- From one boundary, bytes that stand for themselves lead to another one. -/
theorem add_length (ha : IsBoundary cs a) {bs rest : List UInt8}
    (hdrop : (encode cs).drop a = bs ++ rest) (hbs : ∀ b ∈ bs, b.toNat < 0x80) :
    IsBoundary cs (a + bs.length) := by
  induction bs generalizing a with
  | nil => exact ha
  | cons b bs ih =>
    obtain ⟨pre, post, rfl, rfl⟩ := ha
    rw [encode_append, List.drop_left] at hdrop
    cases post with
    | nil => cases hdrop
    | cons c post =>
      have hb := hbs b List.mem_cons_self
      have hc : c.toNat < 0x80 := by
        refine Nat.not_le.mp fun hc ↦ ascii_notMem_encodeChar hc hb ?_
        obtain ⟨b', bs', henc, -⟩ := next_encodeChar c []
        rw [encode_cons, henc] at hdrop
        rw [henc, (List.cons.inj hdrop).1]
        exact List.mem_cons_self
      rw [encode_cons, encodeChar_of_lt hc] at hdrop
      have hpre : IsBoundary (pre ++ c :: post) ((encode pre).length + 1) :=
        ⟨pre ++ [c], post, by simp, by simp [encodeChar_of_lt hc]⟩
      have := ih hpre (by
        rw [List.append_cons, encode_append]
        simpa [encodeChar_of_lt hc] using (List.cons.inj hdrop).2)
        fun b' hb' ↦ hbs b' (List.mem_cons_of_mem _ hb')
      rwa [List.length_cons, Nat.add_comm bs.length 1, ← Nat.add_assoc]

end IsBoundary

end HardcodedText
