import Mathlib.Data.List.Forall2
import HardcodedText.Proofs.Report.CodeFrame

/-!
# The rows of a code frame

`Aligned` says row by row what a frame looks like: the numbers of the lines around the line in
question stand at the right of gutters of one width, only the line in question has a mark, and the
row below it has a caret after as much padding as there are characters before the column.

`render_aligned` says that these are the rows of every frame, and for which lines there is one.  The
cut of the lines into those before the window, those in it and those after it is made once, in
`exists_window`.
-/

namespace HardcodedText

namespace CodeFrame

/-! ## The form of a row -/

/-- The number of a line at the right of a gutter of a width. -/
structure RightAligned (width number : Nat) (gutter : List Char) : Prop where
  /-- The gutter has the width. -/
  length_eq : gutter.length = width
  /-- Nothing but blanks stands before the digits of the number. -/
  digits : ∃ blanks, gutter = List.replicate blanks ' ' ++ Nat.toDigits 10 number

/-- The row of a line: a mark, the number of the line in a gutter of a width, a bar, and the line
without the blanks at its end. -/
def ShowsLine (lines : List String) (mark : Char) (width number : Nat) (row : List Char) : Prop :=
  ∃ content gutter shown, lines[number - 1]? = some content ∧
    row = mark :: ' ' :: (gutter ++ ' ' :: '|' :: shown) ∧
    RightAligned width number gutter ∧ Text.TrimsTo (' ' :: content.toList) shown

/-- The row below a line: a caret after padding for the characters before a column, which has tabs
just where the line has some. -/
def ShowsCaret (lines : List String) (width number column : Nat) (row : List Char) : Prop :=
  ∃ content padding, lines[number - 1]? = some content ∧
    row = List.replicate (2 + width) ' ' ++ ' ' :: '|' :: ' ' :: (padding ++ ['^']) ∧
    padding.length = min column content.length ∧
    ∀ i < padding.length,
      padding[i]? = some (if content.toList[i]? = some '\t' then '\t' else ' ')

/-- The number of the first line that is shown around a line. -/
def firstShown (line context : Nat) : Nat := max 1 (line - context)

/-- The number of the last line that is shown around a line, of so many lines. -/
def lastShown (count line context : Nat) : Nat := min count (line + context)

/-- The rows of a frame around a line: those of the lines before it, its own with that of the caret,
and those of the lines after it. -/
structure Aligned (lines : List String) (line column context width : Nat)
    (before : List (List Char)) (target caret : List Char) (after : List (List Char)) : Prop where
  /-- A row for each line of the window before the line. -/
  before_shown : List.Forall₂ (ShowsLine lines ' ' width)
    (List.range' (firstShown line context) (line - firstShown line context)) before
  /-- The line has a mark. -/
  target_shown : ShowsLine lines '>' width line target
  /-- The caret stands below it. -/
  caret_shown : ShowsCaret lines width line column caret
  /-- A row for each line of the window after the line. -/
  after_shown : List.Forall₂ (ShowsLine lines ' ' width)
    (List.range' (line + 1) (lastShown lines.length line context - line)) after

theorem rightAligned_gutter {width number : Nat} (h : (Nat.toDigits 10 number).length ≤ width) :
    RightAligned width number (gutter width number).toList := by
  have hgutter : (gutter width number).toList =
      List.replicate (width - (Nat.toDigits 10 number).length) ' ' ++ Nat.toDigits 10 number := by
    rw [gutter, String.toList_ofList, Nat.toString_eq_ofList_toDigits, String.toList_ofList,
      List.leftpad]
  refine ⟨?_, _, hgutter⟩
  rw [hgutter, List.length_append, List.length_replicate]
  omega

theorem toList_row (mark : Char) (width number : Nat) (content : String) :
    (row (.singleton mark) width number content).toList =
      mark :: ' ' :: ((gutter width number).toList ++
        ' ' :: '|' :: Text.dropTrailingBlanks (' ' :: content.toList)) := by
  have hbar := Text.dropTrailingBlanks_append_cons
    (mark :: ' ' :: ((gutter width number).toList ++ [' '])) (' ' :: content.toList)
    (show Text.isBlank '|' = false by decide)
  rw [row, Text.toList_stripEnd]
  simpa using hbar

theorem showsLine_row {lines : List String} (mark : Char) {width number : Nat} {content : String}
    (hcontent : lines[number - 1]? = some content)
    (hwidth : (Nat.toDigits 10 number).length ≤ width) :
    ShowsLine lines mark width number (row (.singleton mark) width number content).toList :=
  ⟨content, _, _, hcontent, toList_row mark width number content, rightAligned_gutter hwidth,
    Text.trimsTo_dropTrailingBlanks _⟩

theorem before_eq_take (column : Nat) (cs : List Char) : before column cs = cs.take column := by
  rw [before, if_neg (by omega), Int.toNat_natCast]

theorem showsCaret_caret {lines : List String} {number : Nat} {content : String}
    (hcontent : lines[number - 1]? = some content) (width column : Nat) :
    ShowsCaret lines width number column (caret width column content).toList := by
  refine ⟨content, padding (content.toList.take column), hcontent, ?_, ?_, fun i hi ↦ ?_⟩
  · rw [caret, before_eq_take]
    simp [Nat.add_comm 2 width, List.replicate_succ]
  · rw [padding, List.length_map, List.length_take, String.length_toList]
  · rw [padding, List.length_map, List.length_take] at hi
    have hlt : i < content.toList.length := by omega
    rw [padding, List.getElem?_map, List.getElem?_take_of_lt (by omega),
      List.getElem?_eq_getElem hlt, Option.map_some]
    simp

/-! ## The window -/

/-- The lines that are shown around a line, with their numbers. -/
def window (lines : List String) (line context : Nat) : List (String × Nat) :=
  (lines.zipIdx 1).filter fun p ↦
    firstShown line context ≤ p.2 ∧ p.2 ≤ lastShown lines.length line context

theorem of_mem_window {lines : List String} {line context : Nat} {p : String × Nat}
    (h : p ∈ window lines line context) :
    lines[p.2 - 1]? = some p.1 ∧ p.2 ≤ lastShown lines.length line context := by
  obtain ⟨hmem, hshown⟩ := List.mem_filter.mp h
  exact ⟨(List.mk_mem_zipIdx_iff_le_and_getElem?_sub.mp hmem).2, (of_decide_eq_true hshown).2⟩

/-- The lines before a window, the lines of it before and after the one in question, and the lines
after it. -/
theorem exists_parts {lines : List String} {first line last : Nat} (hfirst : 1 ≤ first)
    (hline : first ≤ line) (hlast : line ≤ last) (hlength : last ≤ lines.length) :
    ∃ pre before content after post, lines = pre ++ (before ++ content :: after) ++ post ∧
      1 + pre.length = first ∧ first + before.length = line ∧ line + after.length = last := by
  have hlt : line - 1 < lines.length := by omega
  refine ⟨lines.take (first - 1), (lines.drop (first - 1)).take (line - first), lines[line - 1],
    (lines.drop line).take (last - line), lines.drop last, ?_, ?_, ?_, ?_⟩
  · have htail : (lines.drop line).take (last - line) ++ lines.drop last = lines.drop line := by
      have hdrop : lines.drop last = (lines.drop line).drop (last - line) := by
        rw [List.drop_drop, Nat.add_sub_cancel' hlast]
      rw [hdrop, List.take_append_drop]
    have hcons : lines[line - 1] :: lines.drop line = lines.drop (line - 1) := by
      rw [List.drop_eq_getElem_cons hlt, Nat.sub_add_cancel (by omega)]
    have hmiddle : (lines.drop (first - 1)).take (line - first) ++ lines.drop (line - 1) =
        lines.drop (first - 1) := by
      have hdrop : lines.drop (line - 1) = (lines.drop (first - 1)).drop (line - first) := by
        rw [List.drop_drop]
        congr 1
        omega
      rw [hdrop, List.take_append_drop]
    rw [List.append_assoc, List.append_assoc, List.cons_append, htail, hcons, hmiddle,
      List.take_append_drop]
  · rw [List.length_take]
    omega
  · rw [List.length_take, List.length_drop]
    omega
  · rw [List.length_take, List.length_drop]
    omega

/-- Numbering all lines and choosing those of a window numbers the lines of the window. -/
theorem filter_zipIdx (pre window post : List String) (start : Nat) :
    ((pre ++ window ++ post).zipIdx start).filter (fun p ↦ start + pre.length ≤ p.2 ∧
      p.2 < start + pre.length + window.length) = window.zipIdx (start + pre.length) := by
  rw [List.zipIdx_append, List.zipIdx_append, List.filter_append, List.filter_append]
  have hpre : ∀ p ∈ pre.zipIdx start, ¬ (start + pre.length ≤ p.2 ∧
      p.2 < start + pre.length + window.length) := by
    intro p hp
    have := List.snd_lt_add_of_mem_zipIdx hp
    omega
  have hwindow : ∀ p ∈ window.zipIdx (start + pre.length), start + pre.length ≤ p.2 ∧
      p.2 < start + pre.length + window.length := by
    intro p hp
    exact ⟨List.le_snd_of_mem_zipIdx hp, List.snd_lt_add_of_mem_zipIdx hp⟩
  have hpost : ∀ p ∈ post.zipIdx (start + (pre ++ window).length),
      ¬ (start + pre.length ≤ p.2 ∧ p.2 < start + pre.length + window.length) := by
    intro p hp
    have := List.le_snd_of_mem_zipIdx hp
    rw [List.length_append] at this
    omega
  rw [List.filter_eq_nil_iff.mpr (by simpa using hpre),
    List.filter_eq_self.mpr (by simpa using hwindow),
    List.filter_eq_nil_iff.mpr (by simpa using hpost), List.nil_append, List.append_nil]

theorem firstShown_le {line : Nat} (hpos : 1 ≤ line) (context : Nat) :
    firstShown line context ≤ line := by
  rw [firstShown]
  omega

theorem le_lastShown {count line : Nat} (hle : line ≤ count) (context : Nat) :
    line ≤ lastShown count line context := by
  rw [lastShown]
  omega

/-- The window cut at the line in question. -/
theorem exists_window_eq {lines : List String} {line : Nat} (hpos : 1 ≤ line)
    (hle : line ≤ lines.length) (context : Nat) :
    ∃ (before : List String) (content : String) (after : List String),
      window lines line context =
        before.zipIdx (firstShown line context) ++ (content, line) :: after.zipIdx (line + 1) ∧
      before.length = line - firstShown line context ∧
      after.length = lastShown lines.length line context - line := by
  have hfirst : 1 ≤ firstShown line context := Nat.le_max_left _ _
  have hlength : lastShown lines.length line context ≤ lines.length := Nat.min_le_left _ _
  obtain ⟨pre, before, content, after, post, hlines, hpre, hbefore, hafter⟩ :=
    exists_parts hfirst (firstShown_le hpos context) (le_lastShown hle context) hlength
  refine ⟨before, content, after, ?_, by omega, by omega⟩
  have hwindow := filter_zipIdx pre (before ++ content :: after) post 1
  rw [← hlines, hpre, List.zipIdx_append, hbefore, List.zipIdx_cons] at hwindow
  rw [← hwindow]
  refine List.filter_congr fun p _ ↦ decide_eq_decide.mpr ?_
  rw [List.length_append, List.length_cons]
  omega

theorem flatMap_rows_of_ne {width : Nat} {line column : Int} {numbered : List (String × Nat)}
    (h : ∀ p ∈ numbered, (p.2 : Int) ≠ line) :
    (numbered.flatMap fun p ↦ rows width line column p.1 p.2) =
      numbered.map fun p ↦ row " " width p.2 p.1 := by
  rw [List.map_eq_flatMap]
  refine List.flatMap_congr fun p hp ↦ ?_
  rw [rows, if_neg (h p hp)]

/-! ## Rows have no line feeds -/

theorem lineFeed_notMem_row {content : String} (h : '\n' ∉ content.toList) (mark : Char)
    (hmark : mark ≠ '\n') (width number : Nat) :
    '\n' ∉ (row (.singleton mark) width number content).toList := by
  have hdigits : '\n' ∉ Nat.toDigits 10 number := fun hmem ↦
    absurd (Nat.isDigit_of_mem_toDigits (by decide) (by decide) hmem) (by decide)
  have hgutter : '\n' ∉ (gutter width number).toList := by
    simpa [gutter, List.leftpad, List.mem_replicate] using hdigits
  have hshown : '\n' ∉ Text.dropTrailingBlanks (' ' :: content.toList) := fun hmem ↦ by
    have := (Text.dropTrailingBlanks_isPrefix _).subset hmem
    simp [h] at this
  rw [toList_row]
  simp [hmark.symm, hgutter, hshown]

theorem lineFeed_notMem_caret (width : Nat) (column : Int) (content : String) :
    '\n' ∉ (caret width column content).toList := by
  have hpadding : '\n' ∉ padding (before column content.toList) := fun hmem ↦ by
    obtain ⟨c, -, hc⟩ := List.mem_map.mp hmem
    split at hc <;> cases hc
  simp [caret, hpadding]

theorem lineFeed_notMem_of_mem_rows {width number : Nat} {line column : Int} {content r : String}
    (h : '\n' ∉ content.toList) (hr : r ∈ rows width line column content number) :
    '\n' ∉ r.toList := by
  unfold rows at hr
  split at hr
  · rw [List.mem_cons, List.mem_singleton] at hr
    rcases hr with rfl | rfl
    · exact lineFeed_notMem_row h '>' (by decide) width number
    · exact lineFeed_notMem_caret width column content
  · rw [List.mem_singleton.mp hr]
    exact lineFeed_notMem_row h ' ' (by decide) width number

/-! ## Frames -/

theorem length_toDigits_le {m n : Nat} (h : m ≤ n) :
    (Nat.toDigits 10 m).length ≤ (toString n).length := by
  have hlt : n < 10 ^ (toString n).length :=
    (Nat.length_repr_le_iff Nat.length_repr_pos).mp (Nat.le_refl _)
  have hle := (Nat.length_repr_le_iff Nat.length_repr_pos).mpr (Nat.lt_of_le_of_lt h hlt)
  rwa [Nat.repr_eq_ofList_toDigits, String.length_ofList] at hle

/-- The rows of consecutive lines show these lines. -/
theorem forall₂_showsLine {lines part : List String} {width start : Nat}
    (hpart : ∀ p ∈ part.zipIdx start, lines[p.2 - 1]? = some p.1)
    (hwidth : ∀ p ∈ part.zipIdx start, (Nat.toDigits 10 p.2).length ≤ width) :
    List.Forall₂ (ShowsLine lines ' ' width) (List.range' start part.length)
      (((part.zipIdx start).map fun p ↦ row " " width p.2 p.1).map String.toList) := by
  rw [← List.zipIdx_map_snd, List.map_map, List.forall₂_map_left_iff, List.forall₂_map_right_iff,
    List.forall₂_same]
  intro p hp
  exact showsLine_row ' ' (hpart p hp) (hwidth p hp)

/-- A line of a text has a frame, which consists of the rows of the window. -/
theorem render_eq_ok {lines : List String} {line : Nat} (hpos : 1 ≤ line)
    (hle : line ≤ lines.length) (column context : Nat) :
    render lines line column context = .ok ("\n".intercalate
      ((window lines line context).flatMap fun p ↦
        rows (toString (lastShown lines.length line context)).length line column p.1 p.2)) := by
  have hlast : min (lines.length : Int) (line + context) = lastShown lines.length line context := by
    rw [lastShown]
    omega
  have hwindow : ((lines.zipIdx 1).filter fun p ↦ max 1 ((line : Int) - context) ≤ p.2 ∧
      p.2 ≤ (lastShown lines.length line context : Int)) = window lines line context := by
    refine List.filter_congr fun p hp ↦ decide_eq_decide.mpr ?_
    have := List.le_snd_of_mem_zipIdx hp
    rw [firstShown]
    omega
  rw [render, if_neg (by omega)]
  dsimp only
  rw [hlast, ← hwindow]
  rfl

/-- The rows of the window are those of an aligned frame. -/
theorem exists_aligned {lines : List String} {line : Nat} (hpos : 1 ≤ line)
    (hle : line ≤ lines.length) (column context : Nat) :
    let width := (toString (lastShown lines.length line context)).length
    ∃ before target caret after,
      ((window lines line context).flatMap fun p ↦ rows width line column p.1 p.2).map
        String.toList = before ++ target :: caret :: after ∧
      Aligned lines line column context width before target caret after := by
  intro width
  obtain ⟨before, content, after, hwindow, hbefore, hafter⟩ := exists_window_eq hpos hle context
  have hshown : ∀ p ∈ before.zipIdx (firstShown line context) ++
      (content, line) :: after.zipIdx (line + 1), lines[p.2 - 1]? = some p.1 ∧
        (Nat.toDigits 10 p.2).length ≤ width := by
    intro p hp
    obtain ⟨hcontent, hlast⟩ := of_mem_window (hwindow ▸ hp)
    exact ⟨hcontent, length_toDigits_le hlast⟩
  rw [List.forall_mem_append, List.forall_mem_cons] at hshown
  obtain ⟨hshownBefore, ⟨hcontent, hwidth⟩, hshownAfter⟩ := hshown
  have hother : ∀ p ∈ before.zipIdx (firstShown line context), (p.2 : Int) ≠ line := by
    intro p hp
    have hlt := List.snd_lt_add_of_mem_zipIdx hp
    have hfirst := firstShown_le hpos context
    omega
  have hother' : ∀ p ∈ after.zipIdx (line + 1), (p.2 : Int) ≠ line := by
    intro p hp
    have := List.le_snd_of_mem_zipIdx hp
    omega
  have hrowsBefore := forall₂_showsLine (fun p hp ↦ (hshownBefore p hp).1)
    fun p hp ↦ (hshownBefore p hp).2
  have hrowsAfter := forall₂_showsLine (fun p hp ↦ (hshownAfter p hp).1)
    fun p hp ↦ (hshownAfter p hp).2
  rw [hbefore] at hrowsBefore
  rw [hafter] at hrowsAfter
  refine ⟨_, _, _, _, ?_, hrowsBefore, showsLine_row '>' hcontent hwidth,
    showsCaret_caret hcontent width column, hrowsAfter⟩
  rw [hwindow, List.flatMap_append, List.flatMap_cons, flatMap_rows_of_ne hother,
    flatMap_rows_of_ne hother', rows, if_pos rfl, List.map_append, List.map_append]
  rfl

/-- **Frames are aligned.**  There is a frame for each line of a text and for no other number; its
rows are those of the lines around the line, in order and with the caret below the line. -/
theorem render_aligned {lines : List String} (hlines : ∀ l ∈ lines, '\n' ∉ l.toList) (line : Int)
    (column context : Nat) :
    (render lines line column context = .error ⟨line, lines.length⟩ ↔
      ¬ (1 ≤ line ∧ line ≤ lines.length)) ∧
    (1 ≤ line ∧ line ≤ lines.length →
      ∃ frame width before target caret after, render lines line column context = .ok frame ∧
        frame.toList.splitOn '\n' = before ++ target :: caret :: after ∧
        Aligned lines line.toNat column context width before target caret after) := by
  by_cases hrange : 1 ≤ line ∧ line ≤ lines.length
  · obtain ⟨line, rfl⟩ := Int.eq_ofNat_of_zero_le (show 0 ≤ line by omega)
    have hpos : 1 ≤ line := by omega
    have hle : line ≤ lines.length := by omega
    have hrender := render_eq_ok hpos hle column context
    obtain ⟨before, target, caret, after, hrows, haligned⟩ :=
      exists_aligned hpos hle column context
    refine ⟨?_, fun _ ↦ ⟨_, _, before, target, caret, after, hrender, ?_, haligned⟩⟩
    · rw [hrender]
      exact iff_of_false (fun h ↦ nomatch h) (not_not_intro hrange)
    · rw [String.toList_intercalate, hrows]
      refine List.splitOn_intercalate '\n' (fun r hr ↦ ?_) (by simp)
      rw [← hrows] at hr
      obtain ⟨s, hs, rfl⟩ := List.mem_map.mp hr
      obtain ⟨p, hp, hs⟩ := List.mem_flatMap.mp hs
      have hcontent := List.mem_of_getElem? (of_mem_window hp).1
      exact lineFeed_notMem_of_mem_rows (hlines p.1 hcontent) hs
  · refine ⟨iff_of_true ?_ hrange, fun h ↦ absurd h hrange⟩
    rw [render, if_pos (by omega)]

/-- An empty line, a line with a tab and blanks at its end, and the first number of two digits.  The
column lies beyond the end of its line. -/
theorem render_aligned_tab :
    let lines := ["", "", "", "", "", "", "", "", "\tx ", "y"]
    (∀ l ∈ lines, '\n' ∉ l.toList) ∧
      render lines 9 7 1 = .ok "   8 |\n>  9 | \tx\n     | \t  ^\n  10 | y" ∧
      render lines 11 7 1 = .error ⟨11, 10⟩ ∧
      ∃ frame width before target caret after, render lines 9 7 1 = .ok frame ∧
        frame.toList.splitOn '\n' = before ++ target :: caret :: after ∧
        Aligned lines 9 7 1 width before target caret after := by
  intro lines
  have hlines : ∀ l ∈ lines, '\n' ∉ l.toList := by decide
  refine ⟨hlines, by decide +kernel, ?_, ?_⟩
  · exact (render_aligned hlines 11 7 1).1.mpr (by decide)
  · exact (render_aligned hlines 9 7 1).2 (by decide)

end CodeFrame

end HardcodedText
