import HardcodedText.Proofs.Text.Blank
import HardcodedText.Report.CodeFrame

/-!
# What a code frame shows

A place that lies in the lines of a text has a frame (`CodeFrame.exists_render_eq`).  Its rows begin
with a mark or a blank, so that no frame can be taken for the note that stands in the place of a
missing one, and the caret in it stands below the character in question (`CodeFrame.length_caret`).
-/

namespace HardcodedText

namespace CodeFrame

/-! ## The caret -/

theorem length_before {column : Int} {cs : List Char} (h : 0 ≤ column) (hle : column ≤ cs.length) :
    ((before column cs).length : Int) = column := by
  rw [before, if_neg (by omega), List.length_take]
  omega

/-- The caret stands as far from the left as the character at the column does in the row above. -/
theorem length_caret {column : Int} {content : String} (h : 0 ≤ column)
    (hle : column ≤ content.length) (width : Nat) :
    ((caret width column content).length : Int) = width + 5 + column + 1 := by
  have hbefore : ((before column content.toList).length : Int) = column :=
    length_before h (by rwa [String.length_toList])
  have hblanks : "  ".length = 2 := by decide
  have hbar : " | ".length = 3 := by decide
  have hcaret : "^".length = 1 := by decide
  simp only [caret, String.length_append, String.length_ofList, padding, List.length_map,
    List.length_replicate, hblanks, hbar, hcaret]
  omega

/-! ## How rows begin -/

theorem head?_ne_of_isPrefix {c : Char} {cs ds : List Char} (h : cs <+: ds)
    (hds : ds.head? ≠ some c) : cs.head? ≠ some c := by
  cases cs with
  | nil => exact fun h ↦ nomatch h
  | cons d cs =>
    obtain ⟨rest, rfl⟩ := h
    exact hds

theorem head?_row_ne {c d : Char} (hc : d ≠ c) (width number : Nat) (content : String) :
    (row (.singleton d) width number content).toList.head? ≠ some c := by
  rw [row, Text.toList_stripEnd]
  refine head?_ne_of_isPrefix (Text.dropTrailingBlanks_isPrefix _) ?_
  simpa using hc

theorem head?_ne_of_mem_rows {width number : Nat} {line column : Int} {content s : String}
    (h : s ∈ rows width line column content number) : s.toList.head? ≠ some '[' := by
  unfold rows at h
  split at h
  · rw [List.mem_cons, List.mem_singleton] at h
    rcases h with rfl | rfl
    · exact head?_row_ne (d := '>') (by decide) width number content
    · rw [caret]
      simp
  · rw [List.mem_singleton.mp h]
    exact head?_row_ne (d := ' ') (by decide) width number content

/-- What is put together from rows begins as the first row does, or with the end of it. -/
theorem head?_intercalate_ne {c : Char} (hc : '\n' ≠ c) {rows : List String}
    (h : ∀ r ∈ rows, r.toList.head? ≠ some c) : ("\n".intercalate rows).toList.head? ≠ some c := by
  rw [String.toList_intercalate]
  cases rows with
  | nil => exact fun h ↦ nomatch h
  | cons r rows =>
    have hr := h r List.mem_cons_self
    rw [List.map_cons]
    by_cases hrows : rows.map String.toList = []
    · rwa [hrows, List.intercalate_singleton]
    · rw [List.intercalate_cons_of_ne_nil hrows, List.append_assoc, List.head?_append]
      cases hhead : r.toList.head? with
      | none => simpa using hc
      | some d => rwa [hhead] at hr

theorem isInfix_intercalate {rows : List String} {r : String} (h : r ∈ rows) :
    r.toList <:+: ("\n".intercalate rows).toList := by
  rw [String.toList_intercalate]
  induction rows with
  | nil => cases h
  | cons r' rows ih =>
    rw [List.map_cons]
    by_cases hrows : rows = []
    · subst hrows
      obtain rfl := List.mem_singleton.mp h
      exact List.intercalate_singleton ▸ List.infix_rfl
    · rw [List.intercalate_cons_of_ne_nil (mt List.map_eq_nil_iff.mp hrows)]
      rcases List.mem_cons.mp h with rfl | h
      · rw [List.append_assoc]
        exact (List.prefix_append _ _).isInfix
      · exact (ih h).trans (List.suffix_append _ _).isInfix

/-! ## Frames -/

/-- A place in one of the lines has a frame, with a caret below that line. -/
theorem exists_render_eq {lines : List String} {line : Int} {content : String} (column : Int)
    (context : Nat) (hpos : 1 ≤ line) (hcontent : lines[(line - 1).toNat]? = some content) :
    ∃ width rows, render lines line column context = .ok ("\n".intercalate rows) ∧
      caret width column content ∈ rows ∧ ∀ r ∈ rows, r.toList.head? ≠ some '[' := by
  obtain ⟨hlt, -⟩ := List.getElem?_eq_some_iff.mp hcontent
  have hle : line ≤ lines.length := by omega
  rw [render, if_neg (by omega)]
  refine ⟨(toString (min (lines.length : Int) (line + context))).length, _, rfl, ?_, ?_⟩
  · refine List.mem_flatMap.mpr ⟨(content, line.toNat), List.mem_filter.mpr ⟨?_, ?_⟩, ?_⟩
    · refine List.mk_mem_zipIdx_iff_le_and_getElem?_sub.mpr ⟨by omega, ?_⟩
      rwa [show line.toNat - 1 = (line - 1).toNat by omega]
    · rw [decide_eq_true_iff]
      omega
    · dsimp only
      rw [rows, if_pos (Int.toNat_of_nonneg (by omega))]
      exact List.mem_cons_of_mem _ List.mem_cons_self
  · intro r hr
    obtain ⟨_, -, hr⟩ := List.mem_flatMap.mp hr
    exact head?_ne_of_mem_rows hr

end CodeFrame

end HardcodedText
