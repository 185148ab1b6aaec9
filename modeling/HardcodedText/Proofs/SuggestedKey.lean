import Mathlib.Logic.Relation
import HardcodedText.Proofs.Check.Quoting
import HardcodedText.Proofs.Lookup
import HardcodedText.Proofs.Text.Blank
import HardcodedText.SuggestedKey

/-!
# What a suggested key depends on

A suggested key is made of letters, digits, syllables of Hangul and one dot, so it can stand between
quotes as it is.  It is the same for texts that differ in what no key has room for (`Rewords`):
other characters, the blanks around words, and the case of letters in the first word or in a word
without Hangul.

Other characters are left out before the text is cut into words.  So what counts are the words of
what is left (`keptWords`), and each change is followed from the text to these.
-/

namespace HardcodedText.SuggestedKey

open Text (isBlank words)

/-! ## Characters of a key -/

/-- The characters of which the body of a key is made. -/
def isKeyChar (c : Char) : Bool :=
  c.isAlphanum || Script.hangul.contains c

theorem contains_hangul_iff {c : Char} :
    Script.hangul.contains c = true ↔ '가' ≤ c ∧ c ≤ '힣' := by
  simp [Script.contains, Script.hangul]

theorem toNat_of_contains_hangul {c : Char} (h : Script.hangul.contains c = true) :
    0xAC00 ≤ c.toNat ∧ c.toNat ≤ 0xD7A3 := by
  obtain ⟨hfirst, hlast⟩ := contains_hangul_iff.mp h
  exact ⟨UInt32.le_iff_toNat_le.mp (Char.le_def.mp hfirst),
    UInt32.le_iff_toNat_le.mp (Char.le_def.mp hlast)⟩

theorem toNat_lt_of_isAlphanum {c : Char} (h : c.isAlphanum = true) : c.toNat < 0x80 := by
  have hle (bound : Char) (hc : c.val ≤ bound.val) : c.toNat ≤ bound.toNat :=
    UInt32.le_iff_toNat_le.mp hc
  rcases Bool.or_eq_true_iff.mp h with halpha | hdigit
  · rcases Bool.or_eq_true_iff.mp halpha with hupper | hlower
    · exact Nat.lt_of_le_of_lt (hle 'Z' (of_decide_eq_true hupper).2) (by decide)
    · have hlast := of_decide_eq_true (Bool.and_eq_true_iff.mp hlower).2
      exact Nat.lt_of_le_of_lt (hle 'z' hlast) (by decide)
  · have hlast := of_decide_eq_true (Bool.and_eq_true_iff.mp hdigit).2
    exact Nat.lt_of_le_of_lt (hle '9' hlast) (by decide)

/-- Only characters below 0x80 have a case here. -/
theorem caseless_of_le {c : Char} (h : 0x80 ≤ c.toNat) : c.toLower = c ∧ c.toUpper = c := by
  have hlt (bound : Char) (hbound : bound.toNat < 0x80) (hle : c.val ≤ bound.val) : False :=
    Nat.not_lt.mpr h (Nat.lt_of_le_of_lt (UInt32.le_iff_toNat_le.mp hle) hbound)
  exact ⟨dif_neg fun hc ↦ hlt 'Z' (by decide) hc.2,
    dif_neg fun hc ↦ hlt 'z' (by decide) hc.2⟩

theorem forall_char {P : Char → Prop} (hascii : ∀ n < 0x80, P (.ofNat n))
    (hother : ∀ c : Char, c.toLower = c → c.toUpper = c → P c) (c : Char) : P c := by
  by_cases hc : c.toNat < 0x80
  · rw [← Char.ofNat_toNat c]
    exact hascii c.toNat hc
  · obtain ⟨hlower, hupper⟩ := caseless_of_le (Nat.not_lt.mp hc)
    exact hother c hlower hupper

/-- A change of characters that keeps letters and digits, blanks and Hangul apart. -/
structure KeepsSort (f : Char → Char) (c : Char) : Prop where
  alphanum : (f c).isAlphanum = c.isAlphanum
  blank : isBlank (f c) = isBlank c
  hangul : Script.hangul.contains (f c) = Script.hangul.contains c

instance (f : Char → Char) (c : Char) : Decidable (KeepsSort f c) :=
  decidable_of_iff ((f c).isAlphanum = c.isAlphanum ∧ isBlank (f c) = isBlank c ∧
      Script.hangul.contains (f c) = Script.hangul.contains c)
    ⟨fun h ↦ ⟨h.1, h.2.1, h.2.2⟩, fun h ↦ ⟨h.1, h.2, h.3⟩⟩

theorem KeepsSort.of_eq {f : Char → Char} {c : Char} (h : f c = c) : KeepsSort f c := by
  constructor <;> rw [h]

theorem keepsSort_toLower (c : Char) : KeepsSort Char.toLower c :=
  forall_char (by decide) (fun _ h _ ↦ .of_eq h) c

theorem keepsSort_toUpper (c : Char) : KeepsSort Char.toUpper c :=
  forall_char (by decide) (fun _ _ h ↦ .of_eq h) c

theorem toUpper_toLower (c : Char) : c.toLower.toUpper = c.toUpper :=
  forall_char (P := fun c ↦ c.toLower.toUpper = c.toUpper) (by decide) (fun _ h _ ↦ by rw [h]) c

theorem isKept_toLower (c : Char) :
    isKept Script.hangul c.toLower = isKept Script.hangul c := by
  have h := keepsSort_toLower c
  rw [isKept, isKept, h.alphanum, h.blank, h.hangul]

theorem isBlank_eq_false_of_isKeyChar {c : Char} (h : isKeyChar c = true) : isBlank c = false := by
  rw [isKeyChar, Bool.or_eq_true] at h
  rcases h with h | h
  · have hall : ∀ n < 0x80, (Char.ofNat n).isAlphanum = true → isBlank (.ofNat n) = false := by
      decide
    have hc := hall c.toNat (toNat_lt_of_isAlphanum h)
    rw [Char.ofNat_toNat] at hc
    exact hc h
  · have hrange := toNat_of_contains_hangul h
    rw [Bool.eq_false_iff]
    intro hblank
    simp only [isBlank, Bool.or_eq_true, Bool.and_eq_true, decide_eq_true_eq,
      beq_iff_eq] at hblank
    omega

theorem isKeyChar_of_isKept {c : Char} (h : isKept Script.hangul c = true)
    (hblank : isBlank c = false) : isKeyChar c = true := by
  rwa [isKept, hblank, Bool.or_false] at h

theorem isKeyChar_toLower (c : Char) : isKeyChar c.toLower = isKeyChar c := by
  have h := keepsSort_toLower c
  rw [isKeyChar, isKeyChar, h.alphanum, h.hangul]

theorem isKeyChar_toUpper (c : Char) : isKeyChar c.toUpper = isKeyChar c := by
  have h := keepsSort_toUpper c
  rw [isKeyChar, isKeyChar, h.alphanum, h.hangul]

/-! ## Small letters -/

/-- No syllable of Hangul has a small form. -/
theorem lowering_apart :
    ∀ range ∈ Text.LetterCase.lowering, range.2.1 < 0xAC00 ∨ 0xD7A3 < range.1 := by
  decide +kernel

theorem text_toLower_of_isKeyChar {c : Char} (h : isKeyChar c = true) :
    Text.toLower c = c.toLower := by
  rw [isKeyChar, Bool.or_eq_true] at h
  rcases h with h | h
  · rw [Text.toLower, if_pos (toNat_lt_of_isAlphanum h)]
  · obtain ⟨hfirst, hlast⟩ := toNat_of_contains_hangul h
    rw [Text.toLower, if_neg (by omega), List.find?_eq_none.mpr, (caseless_of_le (by omega)).1]
    rintro ⟨first, last, step, distance⟩ hmem
    have hapart : last < 0xAC00 ∨ 0xD7A3 < first := lowering_apart _ hmem
    simp only [Bool.and_eq_true, decide_eq_true_eq]
    omega

theorem lower_eq_map {cs : List Char} (h : ∀ c ∈ cs, isKeyChar c = true) :
    Text.lower cs = cs.map Char.toLower := by
  have hafter (before : List Char) : Text.lowerAfter before cs = cs.map Char.toLower := by
    induction cs generalizing before with
    | nil => rfl
    | cons c cs ih =>
      obtain ⟨hc, hcs⟩ := List.forall_mem_cons.mp h
      have hdotted : c ≠ '\u0130' := by
        rintro rfl
        exact absurd hc (by decide)
      have hsigma : c ≠ '\u03A3' := by
        rintro rfl
        exact absurd hc (by decide)
      rw [Text.lowerAfter, Text.lowerAt, if_neg hdotted, if_neg hsigma,
        text_toLower_of_isKeyChar hc, ih hcs]
      rfl
  exact hafter []

/-! ## Words -/

/-- The words of what is left of a text. -/
def keptWords (cs : List Char) : List (List Char) :=
  words (cs.filter (isKept Script.hangul))

/-- Words in camel case, joined. -/
def camelCase : List (List Char) → List Char
  | [] => []
  | first :: later => Text.lower first ++ later.flatMap (laterWord Script.hangul)

theorem body_eq (cs : List Char) : body Script.hangul cs = camelCase (keptWords cs) := by
  rw [body, keptWords]
  cases words (cs.filter (isKept Script.hangul)) <;> rfl

theorem isKeyChar_of_mem_keptWords {cs w : List Char} (h : w ∈ keptWords cs) :
    ∀ c ∈ w, isKeyChar c = true := by
  intro c hc
  obtain ⟨hmem, hblank⟩ := Text.of_mem_words h c hc
  exact isKeyChar_of_isKept (List.mem_filter.mp hmem).2 hblank

theorem isKeyChar_of_mem_laterWord {w : List Char} (h : ∀ c ∈ w, isKeyChar c = true) :
    ∀ c ∈ laterWord Script.hangul w, isKeyChar c = true := by
  unfold laterWord
  split
  · exact h
  · cases w with
    | nil => exact h
    | cons d w =>
      obtain ⟨hd, hw⟩ := List.forall_mem_cons.mp h
      refine List.forall_mem_cons.mpr ⟨(isKeyChar_toUpper d).trans hd, ?_⟩
      rw [List.forall_mem_map]
      exact fun c hc ↦ (isKeyChar_toLower c).trans (hw c hc)

theorem isKeyChar_of_mem_body {cs : List Char} :
    ∀ c ∈ body Script.hangul cs, isKeyChar c = true := by
  rw [body_eq]
  have hwords : ∀ w ∈ keptWords cs, ∀ c ∈ w, isKeyChar c = true :=
    fun w hw ↦ isKeyChar_of_mem_keptWords hw
  generalize keptWords cs = ws at hwords
  cases ws with
  | nil => exact nofun
  | cons first later =>
    obtain ⟨hfirst, hlater⟩ := List.forall_mem_cons.mp hwords
    rw [camelCase, lower_eq_map hfirst, List.forall_mem_append, List.forall_mem_map]
    refine ⟨fun c hc ↦ (isKeyChar_toLower c).trans (hfirst c hc), fun c hc ↦ ?_⟩
    obtain ⟨w, hw, hc⟩ := List.mem_flatMap.mp hc
    exact isKeyChar_of_mem_laterWord (hlater w hw) c hc

/-! ## Texts with the same key -/

/-- A change of a text that its key does not show. -/
inductive Rewords : List Char → List Char → Prop
  /-- A character that is no ASCII letter or digit, no blank and no Hangul is left out. -/
  | drop (pre post : List Char) {c : Char} (halnum : c.isAlphanum = false)
      (hblank : isBlank c = false) (hhangul : Script.hangul.contains c = false) :
      Rewords (pre ++ c :: post) (pre ++ post)
  /-- Blanks are exchanged for others; between other characters some have to be left. -/
  | respace (pre blanks blanks' post : List Char)
      (h : ∀ c ∈ blanks, isBlank c = true) (h' : ∀ c ∈ blanks', isBlank c = true)
      (hends : blanks ≠ [] ∧ blanks' ≠ [] ∨ pre = [] ∨ post = []) :
      Rewords (pre ++ blanks ++ post) (pre ++ blanks' ++ post)
  /-- The case of ASCII letters is changed within a word, that is between blanks.  The word has no
  Hangul, or nothing that counts stands before it but blanks. -/
  | recase (pre word word' post : List Char)
      (hpre : ∀ c ∈ pre.getLast?, isBlank c = true) (hpost : ∀ c ∈ post.head?, isBlank c = true)
      (hword : ∀ c ∈ word, isBlank c = false)
      (hcase : word.map Char.toLower = word'.map Char.toLower)
      (hfree : (∀ c ∈ word, Script.hangul.contains c = false) ∨
        ∀ c ∈ pre, c.isAlphanum = false ∧ Script.hangul.contains c = false) :
      Rewords (pre ++ word ++ post) (pre ++ word' ++ post)

theorem keptWords_append_of_left {cs : List Char} (h : ∀ c ∈ cs.getLast?, isBlank c = true)
    (ds : List Char) : keptWords (cs ++ ds) = keptWords cs ++ keptWords ds := by
  rw [keptWords, List.filter_append]
  refine Text.words_append_of_left (fun c hc ↦ ?_) _
  rcases List.eq_nil_or_concat cs with rfl | ⟨cs, b, rfl⟩
  · cases hc
  · have hb : isBlank b = true := h b (by simp)
    have hkept : isKept Script.hangul b = true := by simp [isKept, hb]
    rw [List.concat_eq_append, List.filter_append, List.filter_cons_of_pos hkept,
      List.filter_nil, List.getLast?_concat] at hc
    exact Option.some.inj hc ▸ hb

theorem keptWords_append_of_right {ds : List Char} (h : ∀ c ∈ ds.head?, isBlank c = true)
    (cs : List Char) : keptWords (cs ++ ds) = keptWords cs ++ keptWords ds := by
  rw [keptWords, List.filter_append]
  refine Text.words_append_of_right (fun c hc ↦ ?_) _
  cases ds with
  | nil => cases hc
  | cons b ds =>
    have hb : isBlank b = true := h b rfl
    have hkept : isKept Script.hangul b = true := by simp [isKept, hb]
    rw [List.filter_cons_of_pos hkept, List.head?_cons] at hc
    exact Option.some.inj hc ▸ hb

/-- Where no letter, digit or Hangul stands, there is no word. -/
theorem keptWords_eq_nil {cs : List Char} (h : ∀ c ∈ cs, isKeyChar c = false) :
    keptWords cs = [] := by
  refine Text.words_eq_nil fun c hc ↦ ?_
  obtain ⟨hmem, hkept⟩ := List.mem_filter.mp hc
  rw [← Bool.not_eq_false]
  intro hblank
  exact Bool.false_ne_true ((h c hmem).symm.trans (isKeyChar_of_isKept hkept hblank))

theorem keptWords_blanks {blanks : List Char} (h : ∀ c ∈ blanks, isBlank c = true) :
    keptWords blanks = [] :=
  keptWords_eq_nil fun c hc ↦ Bool.eq_false_iff.mpr fun hkey ↦
    Bool.false_ne_true ((isBlank_eq_false_of_isKeyChar hkey).symm.trans (h c hc))

/-- Blanks between words only keep them apart. -/
theorem keptWords_space {pre blanks post : List Char} (h : ∀ c ∈ blanks, isBlank c = true)
    (hends : blanks ≠ [] ∨ pre = [] ∨ post = []) :
    keptWords (pre ++ blanks ++ post) = keptWords pre ++ keptWords post := by
  have hlast : ∀ c ∈ blanks.getLast?, isBlank c = true :=
    fun c hc ↦ h c (List.mem_of_getLast? hc)
  have hhead : ∀ c ∈ blanks.head?, isBlank c = true := fun c hc ↦ h c (List.mem_of_head? hc)
  have hpre : keptWords (pre ++ blanks) = keptWords pre := by
    rw [keptWords_append_of_right hhead, keptWords_blanks h, List.append_nil]
  rcases hends with hne | rfl | rfl
  · rw [keptWords_append_of_left (by rwa [List.getLast?_append_of_ne_nil _ hne]), hpre]
  · rw [List.nil_append, keptWords_append_of_left hlast, keptWords_blanks h]
    rfl
  · rw [List.append_nil, hpre, show keptWords [] = [] from rfl, List.append_nil]

/-- What is left of a text without blanks is one word, if there is anything. -/
theorem keptWords_word {cs : List Char} (h : ∀ c ∈ cs, isBlank c = false) :
    keptWords cs = if cs.filter (isKept Script.hangul) = [] then []
      else [cs.filter (isKept Script.hangul)] := by
  rw [keptWords]
  split
  · next hnil => rw [hnil, Text.words_nil]
  · next hne =>
    exact Text.words_eq_singleton hne fun c hc ↦ h c (List.mem_filter.mp hc).1

theorem filter_map_toLower (cs : List Char) :
    (cs.filter (isKept Script.hangul)).map Char.toLower =
      (cs.map Char.toLower).filter (isKept Script.hangul) := by
  rw [List.filter_map]
  congr 2
  funext c
  exact (isKept_toLower c).symm

/-- The case of a later word does not count if it has no Hangul. -/
theorem laterWord_eq_of_case {w w' : List Char} (hcase : w.map Char.toLower = w'.map Char.toLower)
    (h : ∀ c ∈ w, Script.hangul.contains c = false) :
    laterWord Script.hangul w = laterWord Script.hangul w' := by
  have hany (w : List Char) :
      w.any Script.hangul.contains = (w.map Char.toLower).any Script.hangul.contains := by
    rw [List.any_map]
    congr 1
    funext c
    exact (keepsSort_toLower c).hangul.symm
  have hnone : w.any Script.hangul.contains = false :=
    List.any_eq_false.mpr fun c hc ↦ Bool.eq_false_iff.mp (h c hc)
  have hnone' : w'.any Script.hangul.contains = false := by
    rw [← hnone, hany, hany w, hcase]
  unfold laterWord
  rw [hnone, hnone']
  cases w with
  | nil => rw [List.map_eq_nil_iff.mp hcase.symm]
  | cons c w =>
    cases w' with
    | nil => cases hcase
    | cons c' w' =>
      obtain ⟨hc, hw⟩ := List.cons.inj hcase
      show c.toUpper :: w.map Char.toLower = c'.toUpper :: w'.map Char.toLower
      rw [hw, ← toUpper_toLower c, hc, toUpper_toLower]

/-- One word may change its case if it is the first one or has no Hangul. -/
theorem camelCase_eq_of_case {us vs : List (List Char)} {w w' : List Char}
    (hw : ∀ c ∈ w, isKeyChar c = true) (hw' : ∀ c ∈ w', isKeyChar c = true)
    (hcase : w.map Char.toLower = w'.map Char.toLower)
    (hfree : (∀ c ∈ w, Script.hangul.contains c = false) ∨ us = []) :
    camelCase (us ++ [w] ++ vs) = camelCase (us ++ [w'] ++ vs) := by
  cases us with
  | nil =>
    show Text.lower w ++ _ = Text.lower w' ++ _
    rw [lower_eq_map hw, lower_eq_map hw', hcase]
  | cons u us =>
    have hlater := laterWord_eq_of_case hcase (hfree.resolve_right (List.cons_ne_nil u us))
    simp only [List.cons_append, camelCase, List.flatMap_append, List.flatMap_singleton, hlater]

theorem body_eq_of_recase {pre post word word' : List Char}
    (hpre : ∀ c ∈ pre.getLast?, isBlank c = true) (hpost : ∀ c ∈ post.head?, isBlank c = true)
    (hword : ∀ c ∈ word, isBlank c = false)
    (hcase : word.map Char.toLower = word'.map Char.toLower)
    (hfree : (∀ c ∈ word, Script.hangul.contains c = false) ∨
      ∀ c ∈ pre, c.isAlphanum = false ∧ Script.hangul.contains c = false) :
    body Script.hangul (pre ++ word ++ post) = body Script.hangul (pre ++ word' ++ post) := by
  have hword' : ∀ c ∈ word', isBlank c = false := by
    intro c hc
    have hmem : c.toLower ∈ word.map Char.toLower := hcase ▸ List.mem_map_of_mem hc
    obtain ⟨d, hd, heq⟩ := List.mem_map.mp hmem
    rw [← (keepsSort_toLower c).blank, ← heq, (keepsSort_toLower d).blank, hword d hd]
  have hsplit (w : List Char) : keptWords (pre ++ w ++ post) =
      keptWords pre ++ keptWords w ++ keptWords post := by
    rw [keptWords_append_of_right hpost, keptWords_append_of_left hpre]
  have hkept : (word.filter (isKept Script.hangul)).map Char.toLower =
      (word'.filter (isKept Script.hangul)).map Char.toLower := by
    rw [filter_map_toLower, filter_map_toLower, hcase]
  rw [body_eq, body_eq, hsplit, hsplit, keptWords_word hword, keptWords_word hword']
  by_cases hnil : word.filter (isKept Script.hangul) = []
  · rw [hnil] at hkept
    rw [hnil, List.map_eq_nil_iff.mp hkept.symm]
  · have hnil' : word'.filter (isKept Script.hangul) ≠ [] := by
      intro h
      rw [h] at hkept
      exact hnil (List.map_eq_nil_iff.mp hkept)
    have hkey {w : List Char} (hw : ∀ c ∈ w, isBlank c = false) :
        ∀ c ∈ w.filter (isKept Script.hangul), isKeyChar c = true := by
      intro c hc
      obtain ⟨hmem, hkept⟩ := List.mem_filter.mp hc
      exact isKeyChar_of_isKept hkept (hw c hmem)
    rw [if_neg hnil, if_neg hnil']
    refine camelCase_eq_of_case (hkey hword) (hkey hword') hkept (hfree.imp ?_ fun hpre ↦ ?_)
    · exact fun h c hc ↦ h c (List.mem_filter.mp hc).1
    · exact keptWords_eq_nil fun c hc ↦ by rw [isKeyChar, (hpre c hc).1, (hpre c hc).2]; rfl

/-- None of the changes is shown. -/
theorem Rewords.body_eq {cs cs' : List Char} (h : Rewords cs cs') :
    body Script.hangul cs = body Script.hangul cs' := by
  cases h with
  | @drop pre post c halnum hblank hhangul =>
    have hkept : isKept Script.hangul c = false := by
      rw [isKept, halnum, hblank, hhangul]
      rfl
    rw [body, body, List.filter_append, List.filter_append,
      List.filter_cons_of_neg (Bool.eq_false_iff.mp hkept)]
  | respace pre blanks blanks' post h h' hends =>
    rw [SuggestedKey.body_eq, SuggestedKey.body_eq,
      keptWords_space h (hends.imp_left And.left),
      keptWords_space h' (hends.imp_left And.right)]
  | recase pre word word' post hpre hpost hword hcase hfree =>
    exact body_eq_of_recase hpre hpost hword hcase hfree

theorem body_eq_of_eqvGen {cs cs' : List Char} (h : Relation.EqvGen Rewords cs cs') :
    body Script.hangul cs = body Script.hangul cs' := by
  induction h with
  | rel _ _ h => exact h.body_eq
  | refl => rfl
  | symm _ _ _ ih => exact ih.symm
  | trans _ _ _ _ _ ih ih' => exact ih.trans ih'

/-! ## Keys -/

/-- The prefixes of keys. -/
def prefixTable : List String :=
  ["error", "success", "warning", "info", "alert", "confirm", "title", "description", "label",
    "placeholder", "tooltip", "help", "common"]

theorem prefixOf_mem (context : String) : prefixOf context ∈ prefixTable := by
  rw [prefixOf]
  cases h : prefixes.lookup context with
  | none => decide
  | some text =>
    have hall : ∀ entry ∈ prefixes, entry.2 ∈ prefixTable := by decide
    exact hall _ (mem_of_lookup_eq_some h)

/-- A character that may stand between any quotes as it is. -/
def isSafe (c : Char) : Bool :=
  StringLiteral.isPlain c && c != '\\'

theorem isSafe_of_isKeyChar {c : Char} (h : isKeyChar c = true) : isSafe c = true := by
  rw [← Bool.not_eq_false]
  intro hsafe
  have hnone : ['\'', '"', '\x60', '$', '\n', '\r', '\u2028', '\u2029'].any isKeyChar = false := by
    decide
  simp only [isSafe, StringLiteral.isPlain, Bool.and_eq_false_iff, Bool.not_eq_false',
    List.contains_iff_mem, bne_eq_false_iff_eq] at hsafe
  rcases hsafe with hmem | rfl
  · exact List.any_eq_false.mp hnone c hmem h
  · exact absurd h (by decide)

/-- A key is a prefix, a dot, and letters, digits and Hangul.  So it can stand between quotes as it
is, and is read back from there.  Texts that differ only in what no key shows have the same key. -/
theorem suggestedKey_normal_form (context value : String) :
    let key := suggestedKey context value
    (∃ front ∈ prefixTable, ∃ rest : List Char, key = front ++ "." ++ .ofList rest ∧
      ∀ c ∈ rest, c.isAlphanum = true ∨ '가' ≤ c ∧ c ≤ '힣') ∧
    (∀ c ∈ key.toList, isSafe c = true) ∧
    StringLiteral.value ("'" ++ key ++ "'") = key ∧
    ∀ value' : String, Relation.EqvGen Rewords value.toList value'.toList →
      suggestedKey context value' = key := by
  intro key
  have hfront := prefixOf_mem context
  have hrest : ∀ c ∈ body Script.hangul value.toList, isKeyChar c = true := isKeyChar_of_mem_body
  have hkey : key.toList = (prefixOf context).toList ++ '.' :: body Script.hangul value.toList := by
    show (suggestedKey context value).toList = _
    simp [suggestedKey]
  have hsafe : ∀ c ∈ key.toList, isSafe c = true := by
    have htable : ∀ front ∈ prefixTable, front.toList.all isSafe = true := by decide
    rw [hkey, List.forall_mem_append, List.forall_mem_cons]
    exact ⟨List.all_eq_true.mp (htable _ hfront), by decide,
      fun c hc ↦ isSafe_of_isKeyChar (hrest c hc)⟩
  refine ⟨⟨prefixOf context, hfront, body Script.hangul value.toList, rfl, fun c hc ↦ ?_⟩, hsafe,
    ?_, fun value' h ↦ ?_⟩
  · have hc := hrest c hc
    rwa [isKeyChar, Bool.or_eq_true, contains_hangul_iff] at hc
  · have hbackslash : '\\' ∉ key.toList := fun hmem ↦ absurd (hsafe _ hmem) (by decide)
    have hread := StringLiteral.valueChars_quoted_of_notMem (.inl rfl) hbackslash
    rw [StringLiteral.value, String.toList_append, String.toList_append]
    show String.ofList (StringLiteral.valueChars ('\'' :: (key.toList ++ ['\'']))) = key
    rw [hread, String.ofList_toList]
  · show suggestedKey context value' = suggestedKey context value
    rw [suggestedKey, suggestedKey, body_eq_of_eqvGen h]

/-- Punctuation within a word, blanks before another one, and the case of both. -/
theorem suggestedKey_normal_form_title :
    Relation.EqvGen Rewords "a-b  C".toList "aB c!".toList ∧
      suggestedKey "title" "aB c!" = "title.abC" := by
  have hpunctuation : Rewords "a-b  C".toList "ab  C".toList :=
    .drop ['a'] ['b', ' ', ' ', 'C'] (c := '-') (by decide) (by decide) (by decide)
  have hblanks : Rewords "ab  C".toList "ab C".toList :=
    .respace ['a', 'b'] [' ', ' '] [' '] ['C'] (List.all_eq_true.mp rfl) (List.all_eq_true.mp rfl)
      (.inl ⟨by decide, by decide⟩)
  have hfirst : Rewords "ab C".toList "aB C".toList :=
    .recase [] ['a', 'b'] ['a', 'B'] [' ', 'C'] (by simp) (by simp [isBlank])
      (by simp [isBlank]) (by decide) (.inr (by simp))
  have hlater : Rewords "aB C".toList "aB c".toList :=
    .recase ['a', 'B', ' '] ['C'] ['c'] [] (by simp [isBlank]) (by simp)
      (by simp [isBlank]) (by decide) (.inl (List.forall_mem_singleton.mpr rfl))
  have hmark : Rewords "aB c!".toList "aB c".toList :=
    .drop ['a', 'B', ' ', 'c'] [] (c := '!') (by decide) (by decide) (by decide)
  have h : Relation.EqvGen Rewords "a-b  C".toList "aB c!".toList :=
    .trans _ _ _ (.rel _ _ hpunctuation) <| .trans _ _ _ (.rel _ _ hblanks) <|
      .trans _ _ _ (.rel _ _ hfirst) <| .trans _ _ _ (.rel _ _ hlater) <|
      .symm _ _ (.rel _ _ hmark)
  refine ⟨h, ?_⟩
  rw [(suggestedKey_normal_form "title" "a-b  C").2.2.2 _ h]
  decide +kernel

end HardcodedText.SuggestedKey
