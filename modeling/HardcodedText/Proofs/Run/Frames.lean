import HardcodedText.Proofs.Check.Relocate
import HardcodedText.Proofs.Except
import HardcodedText.Proofs.Report.CodeFrame
import HardcodedText.Proofs.Run.Pool
import HardcodedText.Proofs.Source.Lines

/-!
# Frames show the text that was searched

A finding gets its place from the bytes of the text that was searched, and its frame from lines in
the cache.  If the cache knows nothing about the files of a run when it begins, then it is told the
very text in which something was found.  So every place lies in the lines that its frame is made
from (`Workspace.run_diagnostics_shown`).
-/

namespace HardcodedText

/-- `d.ShownIn lines context`: the finding of a diagnostic lies in the lines, and its frame shows it
there. -/
structure Diagnostic.ShownIn (d : Diagnostic) (lines : List String) (context : Nat) : Prop where
  /-- The frame is made from the lines. -/
  frame : CodeFrame.render lines d.finding.line d.finding.column context = .ok d.frame
  /-- It is no note that a frame is missing. -/
  available : ¬ "[code frame unavailable".toList <+: d.frame.toList
  /-- There is such a line. -/
  line : 1 ≤ d.finding.line ∧ d.finding.line ≤ lines.length
  /-- The line is long enough for the column, so that the caret in the frame stands below it. -/
  column : ∃ content, lines[(d.finding.line - 1).toNat]? = some content ∧
    0 ≤ d.finding.column ∧ d.finding.column ≤ content.length ∧
    ∃ width, (CodeFrame.caret width d.finding.column content).toList <:+: d.frame.toList ∧
      ((CodeFrame.caret width d.finding.column content).length : Int) =
        width + 5 + d.finding.column + 1

namespace Diagnostic

theorem frameIn_of_render {lines : List String} {context : Nat} {path frame : String}
    {line column : Int} (h : CodeFrame.render lines line column context = .ok frame) :
    frameIn (some lines) context path line column = (frame, []) := by
  unfold frameIn
  dsimp only
  rw [h]

/-- A finding that lies in the lines is shown there. -/
theorem shownIn_frameIn {f : Finding} {lines : List String} {content : String} (context : Nat)
    (path : String) (hpos : 1 ≤ f.line) (hcontent : lines[(f.line - 1).toNat]? = some content)
    (hcolumn : 0 ≤ f.column) (hle : f.column ≤ content.length) :
    ShownIn ⟨f, (frameIn (some lines) context path f.line f.column).1⟩ lines context := by
  obtain ⟨width, rows, hrender, hcaret, hrows⟩ :=
    CodeFrame.exists_render_eq f.column context hpos hcontent
  have hhead := CodeFrame.head?_intercalate_ne (by decide) hrows
  obtain ⟨hlt, -⟩ := List.getElem?_eq_some_iff.mp hcontent
  have hlast : f.line ≤ lines.length := by omega
  rw [frameIn_of_render hrender]
  constructor
  · exact hrender
  · rintro ⟨rest, hrest⟩
    have hnote : "[code frame unavailable".toList.head? = some '[' := by decide
    rw [← hrest, List.head?_append, hnote] at hhead
    exact hhead rfl
  · exact ⟨hpos, hlast⟩
  · exact ⟨content, hcontent, hcolumn, hle, width, CodeFrame.isInfix_intercalate hcaret,
      CodeFrame.length_caret hcolumn hle width⟩

end Diagnostic

namespace Workspace

variable {ws : Workspace} {config : Configuration} {checks : List Check} {path : String}

theorem carriageReturn_notMem_of_readText {p : Path} {text : String} {tree : Tree}
    (h : ws.readText p = .ok (text, tree)) : '\r' ∉ text.toList := by
  obtain ⟨⟨bytes, tree⟩, -, h⟩ := Except.bind_eq_ok_iff.mp h
  obtain ⟨chars, -, h⟩ := Except.bind_eq_ok_iff.mp h
  cases h
  rw [String.toList_ofList]
  exact carriageReturn_notMem_unifyNewlines chars

/-- The diagnostics of a file that the cache knows nothing about show the text that was searched. -/
theorem shownIn_of_mem_diagnosticsOf {cache : LineCache} {context : Nat} {d : Diagnostic}
    (hcache : cache.find? path = none)
    (h : d ∈ Run.diagnosticsOf ws cache context config checks path) :
    d.path = path ∧ ∃ text tree fs, ws.readText (.ofText path) = .ok (text, tree) ∧
      (Document.ofText path text tree).scan config checks = .ok fs ∧
      d.finding ∈ fs ∧ d.ShownIn (Text.linesOf text) context := by
  obtain ⟨f, hf, rfl⟩ := List.mem_map.mp h
  obtain ⟨text, tree, fs, hread, hscan, hmem, hlines⟩ := exists_of_mem_inspect hf
  have hraw := Document.findings_subset _ _ _ (Document.eq_findings_of_scan hscan ▸ hmem)
  obtain ⟨hpath, offset, hline, hcolumn⟩ := Document.exists_position_of_mem_rawFindings hraw
  obtain ⟨content, hcontent, hpos, hle⟩ := Document.exists_line_of_position path tree
    (carriageReturn_notMem_of_readText hread) offset
  refine ⟨hpath, text, tree, fs, hread, hscan, hmem, ?_⟩
  rw [Run.shownLines, hcache, Option.getD_none, hlines]
  have hindex : (f.line - 1).toNat =
      ((Document.ofText path text tree).position offset).line - 1 := by
    omega
  exact Diagnostic.shownIn_frameIn context path (by omega) (hindex ▸ hcontent) (by omega) (by omega)

/-- **Frames show the text that was searched.**  If nothing is known about the files of a run when
it begins, then each diagnostic belongs to a file whose text was read and searched; the frame is
made from the lines of that text, and the place of the finding lies in them. -/
theorem run_diagnostics_shown {cache : LineCache} {context : Nat} {request : RunRequest}
    {r : RunReport} (hrun : (ws.run cache context request).1 = .ok r)
    (hcache : ∀ files, (ws.discover request.patterns request.root).1 = .ok files →
      ∀ path ∈ files, cache.find? path = none) :
    ∃ checks files, Run.enabledChecks request.checks = .ok checks ∧
      (ws.discover request.patterns request.root).1 = .ok files ∧
      ∀ d ∈ r.diagnostics, d.path ∈ files ∧ ∃ text tree fs,
        ws.readText (.ofText d.path) = .ok (text, tree) ∧
        (Document.ofText d.path text tree).scan request.config checks = .ok fs ∧
        d.finding ∈ fs ∧ d.ShownIn (Text.linesOf text) context := by
  cases hchecks : Run.enabledChecks request.checks with
  | error e =>
    rw [ws.run_of_refused cache context request hchecks] at hrun
    cases hrun
  | ok checks =>
    cases hfiles : (ws.discover request.patterns request.root).1 with
    | error e =>
      rw [(ws.run_of_undiscovered cache context request hchecks hfiles).1] at hrun
      cases hrun
    | ok files =>
      rw [(ws.run_of_discovered cache context request hchecks hfiles).1] at hrun
      cases hrun
      refine ⟨checks, files, rfl, rfl, ?_⟩
      intro d hd
      rw [Run.diagnostics_process, List.mem_flatMap] at hd
      obtain ⟨path, hpath, hd⟩ := hd
      obtain ⟨rfl, hshown⟩ := shownIn_of_mem_diagnosticsOf (hcache files hfiles path hpath) hd
      exact ⟨hpath, hshown⟩

/-- The second line of a file with other ends of line begins with a tab, which the caret keeps. -/
theorem run_diagnostics_shown_tab :
    let message : Entry := .file (Utf8.encode "é\r\n\talert('Né')".toList)
      (.node { kind := "program", span := ⟨0, 16⟩ } [
        .node { kind := "call_expression", span := ⟨4, 16⟩ } [
          .node { kind := "identifier", span := ⟨4, 9⟩, field := some "function" } [],
          .node { kind := "arguments", span := ⟨9, 16⟩, field := some "arguments" } [
            .node { kind := "string", span := ⟨10, 15⟩ } []]]])
    let ws : Workspace := ⟨[], [(["a.js"], message)], by decide⟩
    let config : Configuration := { Configuration.standard with allow := [] }
    let request : RunRequest := ⟨["a.js"], config, ["calls"], .ofText ".", Binary64.zero⟩
    let r := (Run.process ws .empty 2 config [.calls] Binary64.zero ["a.js"]).1
    (ws.run .empty 2 request).1 = .ok r ∧
      r.diagnostics.map (fun d ↦ (d.path, d.finding.line, d.finding.column, d.frame)) =
        [("a.js", 2, 7, "  1 | é\n> 2 | \talert('Né')\n    | \t      ^")] ∧
      ∀ d ∈ r.diagnostics, ∃ text tree, ws.readText (.ofText d.path) = .ok (text, tree) ∧
        d.ShownIn (Text.linesOf text) 2 := by
  intro message ws config request r
  have hfiles : (ws.discover request.patterns request.root).1 = .ok ["a.js"] := by
    decide +kernel
  have hrun : (ws.run .empty 2 request).1 = .ok r :=
    (ws.run_of_discovered .empty 2 request rfl hfiles).1
  obtain ⟨checks, files, -, -, hshown⟩ := run_diagnostics_shown hrun fun _ _ _ _ ↦ rfl
  refine ⟨hrun, by decide +kernel, ?_⟩
  intro d hd
  obtain ⟨-, text, tree, -, hread, -, -, hd⟩ := hshown d hd
  exact ⟨text, tree, hread, hd⟩

end Workspace

end HardcodedText
