import HardcodedText.Proofs.Check.Relocate
import HardcodedText.Proofs.Discovery.Listing
import HardcodedText.Proofs.Report.ByFile
import HardcodedText.Proofs.Run.Settled

/-!
# Runs show their diagnostics by file

A result has its diagnostics in one list; the listing and the summary speak of the files in it.
`RunReport.grouped_by_file` says that all of them mean the same groups.

For the result of a run, the groups one after the other are the diagnostics as they are
(`Workspace.Runs.flatMap_byFile`): a run goes through its files one by one, what is found in a file
has the path of the file, and no file is discovered twice unless the root that is searched and some
of the patterns, but not all of them, start at the root of all directories.
-/

namespace HardcodedText

/-- What is found in a file has the path of that file. -/
theorem Workspace.path_of_mem_inspect {ws : Workspace} {config : Configuration}
    {checks : List Check} {path : String} {f : Finding}
    (h : f ∈ (ws.inspect config checks path).findings) : f.path = path := by
  obtain ⟨text, tree, fs, -, hscan, hmem, -⟩ := exists_of_mem_inspect h
  have hraw := Document.findings_subset _ _ _ (Document.eq_findings_of_scan hscan ▸ hmem)
  exact (Document.exists_position_of_mem_rawFindings hraw).1

theorem Run.path_of_mem_diagnosticsOf {ws : Workspace} {cache : LineCache} {context : Nat}
    {config : Configuration} {checks : List Check} {path : String} {d : Diagnostic}
    (h : d ∈ diagnosticsOf ws cache context config checks path) : d.path = path := by
  obtain ⟨f, hf, rfl⟩ := List.mem_map.mp h
  exact Workspace.path_of_mem_inspect hf

/-- From a settled cache, the diagnostics come file by file. -/
theorem Run.Settled.diagnostics_conclude {ws : Workspace} {config : Configuration}
    {checks : List Check} {files : List String} {cache : LineCache}
    (h : Settled ws config checks files cache) (context : Nat) (elapsed : Binary64) :
    (conclude ws cache context checks elapsed (outcomes ws config checks files)).1.diagnostics =
      files.flatMap (diagnosticsOf ws cache context config checks) := by
  rw [← diagnostics_process ws cache context config checks elapsed files]
  conv_lhs => rw [← h.primeAll_eq]
  rfl

/-- The result of a run has its diagnostics by file already. -/
theorem Workspace.Runs.flatMap_byFile {ws : Workspace} {cache after : LineCache} {context : Nat}
    {request : RunRequest} {jobs : Int} {r : RunReport}
    (h : ws.Runs cache context request jobs (.ok r) after)
    (hstart : Discovery.RelativeIncludes request.patterns ∨
      Discovery.AbsoluteIncludes request.patterns ∨ request.root.Local) :
    r.byFile.flatMap Prod.snd = r.diagnostics := by
  rcases h.cases with ⟨cause, -, hcause, -⟩ | ⟨checks, files, hplan, hsettled, hresult, -⟩
  · cases hcause
  · cases hresult
    have hnodup : files.Nodup :=
      Discovery.nodup_of_discover_eq_ok hstart (ok_of_plan_eq_ok hplan).2
    rw [RunReport.byFile, hsettled.diagnostics_conclude]
    exact Diagnostic.flatMap_byFile_flatMap hnodup fun _ _ ↦ Run.path_of_mem_diagnosticsOf

/-- **Diagnostics by file.**  The diagnostics of a result by file are their groups: each file once,
in the order in which the files first occur, with the diagnostics of that file in their order.  No
diagnostic is lost.  The listing shows the same groups, with a numbered block for each diagnostic,
and it and the summary count the same diagnostics and files; without diagnostics it says only that
nothing was found.  For the result of a run, the groups one after the other are the diagnostics as
they are, unless the root that is searched and some of the patterns, but not all of them, start at
the root of all directories. -/
theorem RunReport.grouped_by_file (r : RunReport) :
    (∀ groups, Diagnostic.GroupsOf r.diagnostics groups ↔ groups = r.byFile) ∧
    (r.byFile.flatMap Prod.snd).Perm r.diagnostics ∧
    (∃ total files : Nat,
      Listing.Shows total files r.byFile (Listing.render r.diagnostics) ∧
      ∀ made summaryPath tablePath,
        (ReportFiles.summary r made summaryPath tablePath).field? "counts" =
          some (.obj [("findings_total", .int total), ("files_with_findings", .int files)])) ∧
    ∀ {ws : Workspace} {cache after : LineCache} {context : Nat} {request : RunRequest}
      {jobs : Int}, ws.Runs cache context request jobs (.ok r) after →
        Discovery.RelativeIncludes request.patterns ∨
            Discovery.AbsoluteIncludes request.patterns ∨ request.root.Local →
          r.byFile.flatMap Prod.snd = r.diagnostics := by
  have hgroups : Diagnostic.GroupsOf r.diagnostics r.byFile := Diagnostic.groupsOf_byFile _
  refine ⟨fun groups ↦ ⟨fun h ↦ h.eq hgroups, fun h ↦ h ▸ hgroups⟩,
    Diagnostic.flatMap_byFile_perm _, ⟨_, _, Listing.shows_render _, fun _ _ _ ↦ ?_⟩,
    fun h hstart ↦ h.flatMap_byFile hstart⟩
  rfl

/-- Two notifications in files that were given in another order than that of their names. -/
theorem RunReport.grouped_by_file_two :
    let message : Entry := .file (Utf8.encode "alert('Hi')".toList)
      (.node { kind := "program", span := ⟨0, 11⟩ } [
        .node { kind := "call_expression", span := ⟨0, 11⟩ } [
          .node { kind := "identifier", span := ⟨0, 5⟩, field := some "function" } [],
          .node { kind := "arguments", span := ⟨5, 11⟩, field := some "arguments" } [
            .node { kind := "string", span := ⟨6, 10⟩ } []]]])
    let ws : Workspace := ⟨[], [(["a.js"], message), (["b.js"], message)], by decide⟩
    let config : Configuration := { Configuration.standard with allow := [] }
    let request : RunRequest := ⟨["b.js", "a.js"], config, ["calls"], .ofText ".", Binary64.zero⟩
    let r := (Run.process ws .empty 0 config [.calls] Binary64.zero ["b.js", "a.js"]).1
    (ws.run .empty 0 request).1 = .ok r ∧
      r.byFile.map (fun g ↦ (g.1, g.2.map (·.frame))) =
        [("b.js", ["> 1 | alert('Hi')\n    |       ^"]),
          ("a.js", ["> 1 | alert('Hi')\n    |       ^"])] ∧
      r.byFile.flatMap Prod.snd = r.diagnostics := by
  intro message ws config request r
  have hfiles : (ws.discover request.patterns request.root).1 = .ok ["b.js", "a.js"] := by
    decide +kernel
  have hrun : (ws.run .empty 0 request).1 = .ok r :=
    (ws.run_of_discovered .empty 0 request rfl hfiles).1
  have hruns := ws.runs_run .empty 0 request
  rw [hrun] at hruns
  obtain ⟨-, -, -, hsame⟩ := grouped_by_file r
  exact ⟨hrun, by decide +kernel, hsame hruns (.inl (by decide +kernel))⟩

/-- Without diagnostics there is nothing to count in the listing, and a file that is found from the
root of all directories as well has its diagnostics in two places. -/
theorem RunReport.not_grouped_by_file :
    (∀ (total files : Nat) (rest : String), Listing.render [] ≠
      s!"Found {total} hardcoded string(s) in {files} file(s)" ++ rest) ∧
    let message : Entry := .file (Utf8.encode "alert('Hi')".toList)
      (.node { kind := "program", span := ⟨0, 11⟩ } [
        .node { kind := "call_expression", span := ⟨0, 11⟩ } [
          .node { kind := "identifier", span := ⟨0, 5⟩, field := some "function" } [],
          .node { kind := "arguments", span := ⟨5, 11⟩, field := some "arguments" } [
            .node { kind := "string", span := ⟨6, 10⟩ } []]]])
    let ws : Workspace := ⟨["w"], [(["w"], .directory), (["w", "a.js"], message),
      (["w", "b.js"], message)], by decide⟩
    let config : Configuration := { Configuration.standard with allow := [] }
    let request : RunRequest :=
      ⟨["a.js", "b.js", "/w/a.js"], config, ["calls"], .ofText "/w", Binary64.zero⟩
    ∃ r, (ws.run .empty 0 request).1 = .ok r ∧
      r.diagnostics.map (·.path) = ["/w/a.js", "/w/b.js", "/w/a.js"] ∧
      (r.byFile.flatMap Prod.snd).map (·.path) = ["/w/a.js", "/w/a.js", "/w/b.js"] := by
  constructor
  · intro total files rest h
    have hchars := congrArg (fun text : String ↦ text.toList.head?) h
    simp only [String.toList_append] at hchars
    cases hchars
  · intro message ws config request
    have hfiles : (ws.discover request.patterns request.root).1 =
        .ok ["/w/a.js", "/w/b.js", "/w/a.js"] := by
      decide +kernel
    exact ⟨_, (ws.run_of_discovered .empty 0 request rfl hfiles).1, by decide +kernel,
      by decide +kernel⟩

end HardcodedText
