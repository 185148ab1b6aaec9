import HardcodedText.Proofs.Source.Position
import HardcodedText.Report.LineCache

/-!
# Places and lines

Places count line feeds in bytes; frames show the lines of a decoded text.  The two agree: the place
of any offset lies in a line of the text, between its ends (`Document.exists_line_of_position`).

This needs the text to have no carriage returns, which `Text.linesOf` would take away at the end of
a line.  Texts that were read from a file have none, since reading writes every end of line as a
line feed (`Workspace.carriageReturn_notMem_unifyNewlines`).
-/

namespace HardcodedText

namespace Position

theorem modifyHead_nil_append (lines : List (List Char)) :
    lines.modifyHead ([] ++ ·) = lines := by
  cases lines <;> rfl

/-- Reading on from a place: `held` is what its line holds before it. -/
theorem exists_line_foldl (pre post : List Char) (p : Position) (held : List Char)
    (h : held.length = p.column) :
    ∃ line, (((pre ++ post).splitOn '\n').modifyHead (held ++ ·))[
        (pre.foldl next p).line - p.line]? = some line ∧
      p.line ≤ (pre.foldl next p).line ∧ (pre.foldl next p).column ≤ line.length := by
  induction pre generalizing p held with
  | nil =>
    obtain ⟨first, rest, hsplit⟩ := List.exists_cons_of_ne_nil (List.splitOn_ne_nil '\n' post)
    refine ⟨held ++ first, ?_, Nat.le_refl _, ?_⟩
    · rw [List.nil_append, hsplit, List.modifyHead_cons, List.foldl_nil, Nat.sub_self]
      rfl
    · rw [List.foldl_nil, List.length_append, h]
      exact Nat.le_add_right _ _
  | cons c pre ih =>
    rw [List.cons_append, List.splitOn_cons_eq_if_modifyHead, List.foldl_cons]
    by_cases hc : c = '\n'
    · -- The line is over, and the next one holds nothing yet.
      obtain ⟨line, hline, hle, hcolumn⟩ := ih (p.next c) []
        (by rw [next, if_pos hc]; rfl)
      have hnext : (p.next c).line = p.line + 1 := by rw [next, if_pos hc]
      rw [hnext] at hline hle
      refine ⟨line, ?_, Nat.le_of_succ_le hle, hcolumn⟩
      rw [if_pos (by simpa using hc), List.modifyHead_cons, List.getElem?_cons, if_neg (by omega),
        Nat.sub_sub]
      rwa [modifyHead_nil_append] at hline
    · obtain ⟨line, hline, hle, hcolumn⟩ := ih (p.next c) (held ++ [c])
        (by rw [next, if_neg hc, List.length_append, h]; rfl)
      have hnext : (p.next c).line = p.line := by rw [next, if_neg hc]
      rw [hnext] at hline hle
      refine ⟨line, ?_, hle, hcolumn⟩
      rw [if_neg (by simpa using hc), List.modifyHead_modifyHead]
      simpa [Function.comp_def] using hline

/-- The place after some characters of a text lies in one of its lines. -/
theorem exists_line_after (pre post : List Char) :
    ∃ line, ((pre ++ post).splitOn '\n')[(after pre).line - 1]? = some line ∧
      1 ≤ (after pre).line ∧ (after pre).column ≤ line.length := by
  obtain ⟨line, hline, hle, hcolumn⟩ := exists_line_foldl pre post ⟨1, 0⟩ [] rfl
  rw [modifyHead_nil_append] at hline
  exact ⟨line, hline, hle, hcolumn⟩

end Position

namespace Text

theorem mem_of_mem_splitOn {cs line : List Char} {c : Char} (h : line ∈ cs.splitOn '\n')
    (hc : c ∈ line) : c ∈ cs := by
  induction cs generalizing line with
  | nil =>
    rw [List.splitOn_nil, List.mem_singleton] at h
    rwa [h] at hc
  | cons d cs ih =>
    rw [List.splitOn_cons_eq_if_modifyHead] at h
    split at h
    · rcases List.mem_cons.mp h with rfl | h
      · cases hc
      · exact List.mem_cons_of_mem d (ih h hc)
    · obtain ⟨first, rest, hsplit⟩ := List.exists_cons_of_ne_nil (List.splitOn_ne_nil '\n' cs)
      rw [hsplit, List.modifyHead_cons] at h
      rcases List.mem_cons.mp h with rfl | h
      · rcases List.mem_cons.mp hc with rfl | hc
        · exact List.mem_cons_self
        · exact List.mem_cons_of_mem d (ih (hsplit ▸ List.mem_cons_self) hc)
      · exact List.mem_cons_of_mem d (ih (hsplit ▸ List.mem_cons_of_mem first h) hc)

/-- Without carriage returns, the lines are what stands between line feeds. -/
theorem linesOf_eq {text : String} (h : '\r' ∉ text.toList) :
    linesOf text = (text.toList.splitOn '\n').map .ofList := by
  refine List.map_congr_left fun line hline ↦ ?_
  rw [if_neg]
  intro hlast
  exact h (mem_of_mem_splitOn hline (List.mem_of_getLast? hlast))

end Text

theorem Workspace.carriageReturn_notMem_unifyNewlines (cs : List Char) :
    '\r' ∉ unifyNewlines cs := by
  fun_induction unifyNewlines cs with
  | case1 rest ih => simpa using ih
  | case2 rest _ ih => simpa using ih
  | case3 c rest _ hc ih =>
    rw [List.mem_cons, not_or]
    exact ⟨fun h ↦ hc h.symm, ih⟩
  | case4 => simp

namespace Document

/-- The place of any offset lies in one of the lines of the text. -/
theorem exists_line_of_position (path : String) {text : String} (root : Tree)
    (h : '\r' ∉ text.toList) (offset : Nat) :
    ∃ line, (Text.linesOf text)[((ofText path text root).position offset).line - 1]? = some line ∧
      1 ≤ ((ofText path text root).position offset).line ∧
      ((ofText path text root).position offset).column ≤ line.length := by
  obtain ⟨pre, post, htext, hposition⟩ := exists_positionIn_eq_after text.toList offset
  obtain ⟨line, hline, hle, hcolumn⟩ := Position.exists_line_after pre post
  rw [position, ofText, hposition, Text.linesOf_eq h, htext]
  refine ⟨.ofList line, ?_, hle, ?_⟩
  · rw [List.getElem?_map, hline, Option.map_some]
  · rwa [String.length_ofList]

end Document

end HardcodedText
