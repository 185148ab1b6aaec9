import Mathlib.Data.List.TakeWhile
import HardcodedText.Node.Display
import HardcodedText.Node.OfTree
import HardcodedText.Proofs.Source.Position

/-!
# Where text between tags stands

A run of text stands at its first byte that is not blank, and is shown without the blanks around it.
Bytes know fewer blanks than characters do: the run stands at its first character that is not one of
the blanks of a single byte (`Text.isPlainBlank`), and this is the first character shown if the run
begins with no other blanks (`Node.textOfSpan_at_plain_blanks`).  A no-break space is another one
(`Node.textOfSpan_no_break_space`).
-/

namespace HardcodedText

/-- A blank that is one in encoded text, too: tab, line feed, vertical tab, form feed, carriage
return, space. -/
def Text.isPlainBlank (c : Char) : Bool :=
  (0x09 ≤ c.toNat && c.toNat ≤ 0x0D) || c.toNat == 0x20

namespace Text

theorem isPlainBlank_iff {c : Char} :
    isPlainBlank c ↔ 0x09 ≤ c.toNat ∧ c.toNat ≤ 0x0D ∨ c.toNat = 0x20 := by
  simp [isPlainBlank]

theorem isBlank_of_isPlainBlank {c : Char} (h : isPlainBlank c) : isBlank c := by
  rw [isPlainBlank_iff] at h
  simp only [isBlank, Bool.or_eq_true, Bool.and_eq_true, decide_eq_true_eq, beq_iff_eq]
  omega

/-- The plain blanks that a text begins with are among the blanks that it begins with. -/
theorem takeWhile_isPlainBlank_takeWhile (cs : List Char) :
    (cs.takeWhile isBlank).takeWhile isPlainBlank = cs.takeWhile isPlainBlank := by
  have hboth : (fun c ↦ decide (isPlainBlank c = true ∧ isBlank c = true)) = isPlainBlank := by
    funext c
    rw [Bool.eq_iff_iff, decide_eq_true_iff]
    exact and_iff_left_of_imp isBlank_of_isPlainBlank
  rw [List.takeWhile_takeWhile, hboth]

/-- A text that is not blank has a first character that is none. -/
theorem exists_first_shown {cs : List Char} (h : ∃ c ∈ cs, isBlank c = false) :
    ∃ c rest, cs = cs.takeWhile isBlank ++ c :: rest ∧ isBlank c = false := by
  cases hdrop : cs.dropWhile isBlank with
  | nil =>
    obtain ⟨c, hc, hshown⟩ := h
    exact absurd (List.dropWhile_eq_nil_iff.mp hdrop c hc) (Bool.eq_false_iff.mp hshown)
  | cons c rest =>
    refine ⟨c, rest, ?_, ?_⟩
    · rw [← hdrop, List.takeWhile_append_dropWhile]
    · have hhead := List.head?_dropWhile_not isBlank cs
      rwa [hdrop] at hhead

/-- What stands first when the blanks at both ends are taken away. -/
theorem head?_strip {s : String} {blanks rest : List Char} {c : Char}
    (h : s.toList = blanks ++ c :: rest) (hblanks : ∀ b ∈ blanks, isBlank b)
    (hc : isBlank c = false) : (strip s).toList.head? = some c := by
  have hdrop : dropBlanks s.toList = c :: rest := by
    rw [dropBlanks, h, List.dropWhile_append_of_pos hblanks, List.dropWhile_cons_of_neg]
    exact Bool.eq_false_iff.mp hc
  rw [toList_strip, hdrop, dropTrailingBlanks, List.reverse_cons, List.dropWhile_append,
    List.dropWhile_cons_of_neg (Bool.eq_false_iff.mp hc)]
  split
  · rfl
  · rw [List.reverse_append]
    rfl

end Text

namespace Utf8

/-- Only the blanks of a single byte begin with a byte that is blank. -/
theorem takeWhile_isBlankByte_encode (cs : List Char) :
    (encode cs).takeWhile Text.isBlankByte = encode (cs.takeWhile Text.isPlainBlank) := by
  induction cs with
  | nil => rfl
  | cons c cs ih =>
    rw [encode_cons]
    by_cases hc : Text.isPlainBlank c
    · have hlt : c.toNat < 0x80 := by
        rw [Text.isPlainBlank_iff] at hc
        omega
      have hbyte : Text.isBlankByte (.ofNat c.toNat) := by
        rwa [isBlankByte_iff, toNat_ofNat (by omega), ← Text.isPlainBlank_iff]
      rw [List.takeWhile_cons_of_pos hc, encode_cons, encodeChar_of_lt hlt, List.singleton_append,
        List.takeWhile_cons_of_pos hbyte, ih]
      rfl
    · rw [List.takeWhile_cons_of_neg hc, encode_nil]
      obtain ⟨b, bs, hbytes, -⟩ := next_encodeChar c []
      have hbyte : ¬ Text.isBlankByte b := by
        intro hb
        rw [isBlankByte_iff] at hb
        have hmem : b ∈ encodeChar c := hbytes ▸ List.mem_cons_self
        have hlt : c.toNat < 0x80 :=
          Nat.not_le.mp fun hle ↦ ascii_notMem_encodeChar hle (by omega) hmem
        rw [encodeChar_of_lt hlt, List.mem_singleton] at hmem
        rw [hmem, toNat_ofNat (by omega), ← Text.isPlainBlank_iff] at hb
        exact hc hb
      rw [hbytes, List.cons_append, List.takeWhile_cons_of_neg hbyte]

end Utf8

/-- Reading on leads to another place, so two places are the same if nothing is between them. -/
theorem Position.after_takeWhile_eq_iff {pre cs : List Char} {p : Char → Bool} :
    after (pre ++ cs.takeWhile p) = after (pre ++ cs) ↔ ∀ c ∈ cs, p c = true := by
  constructor
  · intro h
    cases hdrop : cs.dropWhile p with
    | nil => exact List.dropWhile_eq_nil_iff.mp hdrop
    | cons c rest =>
      have hbefore := before_after_append (pre ++ cs.takeWhile p) c rest
      rw [← hdrop, List.append_assoc, List.takeWhile_append_dropWhile, h] at hbefore
      exact absurd hbefore (Before.irrefl _)
  · intro h
    rw [List.takeWhile_eq_self_iff.mpr h]

open Utf8 (encode)

/-- The bytes of the characters `run` after the characters `pre`. -/
def Span.ofRun (pre run : List Char) : Span :=
  ⟨(encode pre).length, (encode (pre ++ run)).length⟩

namespace Node

section

variable {doc : Document} {pre run post : List Char}
  (hdoc : doc.bytes = encode (pre ++ (run ++ post)))

include hdoc

theorem slice_ofRun : doc.slice (.ofRun pre run) = encode run := by
  rw [Document.slice, hdoc, Span.ofRun, Utf8.encode_append, Utf8.encode_append,
    Utf8.encode_append]
  dsimp only
  rw [List.drop_left, List.length_append, Nat.add_sub_cancel_left, List.take_left]

/-- The place of what follows the beginning `lead` of the run. -/
theorem position_lead {lead tail : List Char} (h : run = lead ++ tail) :
    doc.position (encode (pre ++ lead)).length = Position.after (pre ++ lead) := by
  have hsplit : pre ++ (run ++ post) = pre ++ lead ++ (tail ++ post) := by
    rw [h, List.append_assoc, List.append_assoc]
  exact Document.position_encode (hdoc.trans (congrArg encode hsplit))

theorem position_textOfSpan :
    (textOfSpan doc (.ofRun pre run)).position =
      Position.after (pre ++ run.takeWhile Text.isPlainBlank) := by
  rw [← position_lead hdoc List.takeWhile_append_dropWhile.symm, Utf8.encode_append,
    List.length_append, ← Utf8.takeWhile_isBlankByte_encode, ← slice_ofRun hdoc]
  rfl

theorem display_textOfSpan (href : CharacterReference.decodeChars run = run) :
    (textOfSpan doc (.ofRun pre run)).display = Text.strip (.ofList run) := by
  rw [textOfSpan, display, Document.chars, slice_ofRun hdoc, Utf8.decodeLossy_encode, href]

end

/-- Text without references stands at its first character that is no plain blank.  This is the first
character that is shown if no other blanks stand before it. -/
theorem textOfSpan_at_plain_blanks (path text : String) (root : Tree) (pre run post : List Char)
    (htext : text.toList = pre ++ (run ++ post))
    (href : CharacterReference.decodeChars run = run) (hshown : ∃ c ∈ run, Text.isBlank c = false) :
    let doc := Document.ofText path text root
    let node := textOfSpan doc (.ofRun pre run)
    let blanks := run.takeWhile Text.isBlank
    node.position = doc.position (encode (pre ++ run.takeWhile Text.isPlainBlank)).length ∧
      ∃ c rest, run = blanks ++ c :: rest ∧ Text.isBlank c = false ∧
        node.display.toList.head? = some c ∧
        (node.position = doc.position (encode (pre ++ blanks)).length ↔
          ∀ b ∈ blanks, Text.isPlainBlank b = true) := by
  intro doc node blanks
  have hdoc : doc.bytes = encode (pre ++ (run ++ post)) := congrArg encode htext
  have hposition : node.position = Position.after (pre ++ run.takeWhile Text.isPlainBlank) :=
    position_textOfSpan hdoc
  have hdisplay : node.display = Text.strip (.ofList run) := display_textOfSpan hdoc href
  obtain ⟨c, rest, hrun, hc⟩ := Text.exists_first_shown hshown
  refine ⟨?_, c, rest, hrun, hc, ?_, ?_⟩
  · rw [hposition, position_lead hdoc List.takeWhile_append_dropWhile.symm]
  · rw [hdisplay]
    exact Text.head?_strip (String.toList_ofList.trans hrun) (fun b ↦ List.mem_takeWhile_imp) hc
  · rw [hposition, position_lead hdoc hrun, ← Text.takeWhile_isPlainBlank_takeWhile]
    exact Position.after_takeWhile_eq_iff

/-- A line that begins with a space. -/
theorem textOfSpan_at_plain_blanks_line :
    let doc := Document.ofText "a.tsx" "<i>é\n Hi</i>"
      (.node { kind := "jsx_text", span := ⟨5, 9⟩ } [])
    let node := textOfSpan doc (.ofRun "<i>é".toList "\n Hi".toList)
    CharacterReference.decodeChars "\n Hi".toList = "\n Hi".toList ∧
      node.display.toList.head? = some 'H' ∧
      node.position = doc.position (encode "<i>é\n ".toList).length := by
  intro doc node
  have href : CharacterReference.decodeChars "\n Hi".toList = "\n Hi".toList :=
    CharacterReference.decodeChars_of_not_mem (by decide)
  obtain ⟨-, c, rest, hrun, -, hhead, hplace⟩ := textOfSpan_at_plain_blanks "a.tsx"
    "<i>é\n Hi</i>" (.node { kind := "jsx_text", span := ⟨5, 9⟩ } []) "<i>é".toList "\n Hi".toList
    "</i>".toList (by decide) href ⟨'H', by decide, by decide⟩
  have hblanks : "\n Hi".toList.takeWhile Text.isBlank = ['\n', ' '] := by decide
  have hchars : "\n Hi".toList = ['\n', ' ', 'H', 'i'] := by decide
  rw [hblanks, hchars] at hrun
  obtain ⟨rfl, -⟩ : 'H' = c ∧ ['i'] = rest := by simpa using hrun
  exact ⟨href, hhead, hplace.mpr (List.all_eq_true.mp (by decide))⟩

/-- A no-break space is not shown, but the text stands at it. -/
theorem textOfSpan_no_break_space :
    let doc := Document.ofText "a.tsx" "\u00a0Hi"
      (.node { kind := "jsx_text", span := ⟨0, 4⟩ } [])
    let node := textOfSpan doc (.ofRun [] "\u00a0Hi".toList)
    node.display = "Hi" ∧ node.position = doc.position 0 ∧
      node.position ≠ doc.position (encode ['\u00a0']).length := by
  intro doc node
  have hdoc : doc.bytes = encode ([] ++ ("\u00a0Hi".toList ++ [])) := by decide
  have hdisplay := display_textOfSpan hdoc (CharacterReference.decodeChars_of_not_mem (by decide))
  exact ⟨hdisplay.trans (by decide), by decide +kernel, by decide +kernel⟩

end Node

end HardcodedText
