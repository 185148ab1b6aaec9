import Mathlib.Data.List.TakeWhile
import HardcodedText.Text.Blank

/-!
# Taking blanks away

Taking away the blanks at the end of a text leaves a beginning of it (`TrimsTo`), and never reaches
past a character that is no blank (`dropTrailingBlanks_append_cons`).  A text is `Visible` if there
is such a character.

Any blank is the end of a word (`words_append_cons`); all else about words follows from this.
-/

namespace HardcodedText.Text

/-- A text with a character that is no blank. -/
def Visible (s : String) : Prop := ∃ c ∈ s.toList, isBlank c = false

instance (s : String) : Decidable (Visible s) :=
  decidable_of_iff (s.toList.any (!isBlank ·) = true) (by simp [Visible])

theorem not_visible_iff {s : String} : ¬ Visible s ↔ ∀ c ∈ s.toList, isBlank c = true := by
  simp [Visible]

theorem dropTrailingBlanks_isPrefix (cs : List Char) : dropTrailingBlanks cs <+: cs := by
  rw [dropTrailingBlanks, ← List.reverse_suffix, List.reverse_reverse]
  exact List.dropWhile_suffix _

theorem strip_isInfix (s : String) : (strip s).toList <:+: s.toList := by
  rw [toList_strip]
  exact (dropTrailingBlanks_isPrefix _).isInfix.trans (List.dropWhile_suffix _).isInfix

theorem Visible.of_strip {s : String} (h : Visible (strip s)) : Visible s := by
  obtain ⟨c, hc, hshown⟩ := h
  exact ⟨c, (strip_isInfix s).mem hc, hshown⟩

/-- What is left of a text without the blanks at its end. -/
structure TrimsTo (cs shown : List Char) : Prop where
  /-- Only blanks are left out. -/
  blanks : ∃ blanks, cs = shown ++ blanks ∧ ∀ b ∈ blanks, isBlank b = true
  /-- No blank is left at the end. -/
  last : ∀ c ∈ shown.getLast?, isBlank c = false

theorem trimsTo_dropTrailingBlanks (cs : List Char) : TrimsTo cs (dropTrailingBlanks cs) := by
  constructor
  · refine ⟨(cs.reverse.takeWhile isBlank).reverse, ?_, fun b hb ↦ ?_⟩
    · rw [dropTrailingBlanks, ← List.reverse_append, List.takeWhile_append_dropWhile,
        List.reverse_reverse]
    · exact List.mem_takeWhile_imp (List.mem_reverse.mp hb)
  · intro c hc
    have hhead := List.head?_dropWhile_not isBlank cs.reverse
    rw [dropTrailingBlanks, List.getLast?_reverse] at hc
    rwa [hc] at hhead

/-- Only what follows a character that is no blank can be left out. -/
theorem dropTrailingBlanks_append_cons (pre post : List Char) {c : Char} (hc : isBlank c = false) :
    dropTrailingBlanks (pre ++ c :: post) = pre ++ c :: dropTrailingBlanks post := by
  have hstop : (c :: pre.reverse).dropWhile isBlank = c :: pre.reverse :=
    List.dropWhile_cons_of_neg (Bool.eq_false_iff.mp hc)
  simp only [dropTrailingBlanks, List.reverse_append, List.reverse_cons, List.append_assoc,
    List.singleton_append, List.dropWhile_append, hstop]
  split
  · next h =>
    rw [List.isEmpty_iff.mp h]
    simp
  · simp

/-! ## Words -/

theorem words_nil : words [] = [] := by
  simp [words]

theorem words_append_cons {b : Char} (hb : isBlank b = true) (cs ds : List Char) :
    words (cs ++ b :: ds) = words cs ++ words ds := by
  rw [words, List.splitOnP_append_cons cs ds hb, List.filter_append]
  rfl

theorem words_eq_nil {cs : List Char} (h : ∀ c ∈ cs, isBlank c = true) : words cs = [] := by
  induction cs with
  | nil => exact words_nil
  | cons c cs ih =>
    obtain ⟨hc, hcs⟩ := List.forall_mem_cons.mp h
    rw [← List.nil_append (c :: cs), words_append_cons hc, words_nil, ih hcs]
    rfl

/-- A text without blanks is one word. -/
theorem words_eq_singleton {cs : List Char} (hne : cs ≠ []) (h : ∀ c ∈ cs, isBlank c = false) :
    words cs = [cs] := by
  rw [words, List.splitOnP_eq_singleton h]
  simp [hne]

/-- Words begin anew after a blank. -/
theorem words_append_of_left {cs : List Char} (h : ∀ c ∈ cs.getLast?, isBlank c = true)
    (ds : List Char) : words (cs ++ ds) = words cs ++ words ds := by
  rcases List.eq_nil_or_concat cs with rfl | ⟨cs, b, rfl⟩
  · rw [List.nil_append, words_nil, List.nil_append]
  · have hb : isBlank b = true := h b (by simp)
    rw [List.concat_eq_append, List.append_assoc, List.singleton_append, words_append_cons hb,
      words_append_cons hb, words_nil, List.append_nil]

/-- Words end before a blank. -/
theorem words_append_of_right {ds : List Char} (h : ∀ c ∈ ds.head?, isBlank c = true)
    (cs : List Char) : words (cs ++ ds) = words cs ++ words ds := by
  cases ds with
  | nil => rw [List.append_nil, words_nil, List.append_nil]
  | cons b ds =>
    have hb : isBlank b = true := h b rfl
    rw [words_append_cons hb, ← List.nil_append (b :: ds), words_append_cons hb, words_nil,
      List.nil_append]

/-- Words are made of characters of the text that are no blanks. -/
theorem of_mem_words {cs w : List Char} (h : w ∈ words cs) :
    ∀ c ∈ w, c ∈ cs ∧ isBlank c = false := by
  have hsplit : w ∈ cs.splitOnP isBlank := (List.mem_filter.mp h).1
  clear h
  induction cs generalizing w with
  | nil =>
    rw [List.splitOnP_nil, List.mem_singleton] at hsplit
    subst hsplit
    exact nofun
  | cons b cs ih =>
    have hmem {c : Char} (hc : c ∈ cs ∧ isBlank c = false) : c ∈ b :: cs ∧ isBlank c = false :=
      ⟨List.mem_cons_of_mem b hc.1, hc.2⟩
    rw [List.splitOnP_cons_eq_if_modifyHead] at hsplit
    split at hsplit
    · rcases List.mem_cons.mp hsplit with rfl | hw
      · exact nofun
      · exact fun c hc ↦ hmem (ih hw c hc)
    · next hb =>
      -- What follows is added to the first of the words after it.
      obtain ⟨first, later, heq⟩ := List.exists_cons_of_ne_nil (List.splitOnP_ne_nil isBlank cs)
      rw [heq, List.modifyHead_cons, List.mem_cons] at hsplit
      rcases hsplit with rfl | hw
      · refine List.forall_mem_cons.mpr ⟨⟨List.mem_cons_self, Bool.eq_false_iff.mpr hb⟩, ?_⟩
        exact fun c hc ↦ hmem (ih (by rw [heq]; exact List.mem_cons_self) c hc)
      · exact fun c hc ↦ hmem (ih (by rw [heq]; exact List.mem_cons_of_mem _ hw) c hc)

end HardcodedText.Text
