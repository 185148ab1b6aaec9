import HardcodedText.CommandLine.Execution
import HardcodedText.Proofs.Check.Independence
import HardcodedText.Proofs.Run.Pool

/-!
# Verdicts

Whether a run is passed is put together from the verdicts on its checks, each of which looks only
for diagnostics of its own check.  No diagnostic escapes them all, since a check that was not asked
for finds nothing (`Run.check_mem_of_mem_diagnosticsOf`).  So a run is passed exactly if it has no
diagnostics (`RunReport.Judged`), and the program ends with the code that says so, unless its report
files cannot be written (`CommandLine.judged_by_diagnostics`).
-/

namespace HardcodedText

/-- `r.Judged names`: the verdicts of a result are those on the checks of the given names, and they
say which of them made no diagnostics. -/
structure RunReport.Judged (r : RunReport) (names : List String) : Prop where
  /-- A run is passed if there is nothing to show. -/
  passed_iff : r.passed = true ↔ r.diagnostics = []
  /-- The checks that were made are those of the names. -/
  checks : r.checks = (Check.all.map Check.name).filter (· ∈ names)
  /-- There is one verdict for each of them. -/
  verdicts : r.verdicts.map Prod.fst = r.checks
  /-- The verdict on a check looks for its diagnostics. -/
  verdict_iff : ∀ c : Check, c.name ∈ names → ∃ ok, r.verdicts.lookup c.name = some ok ∧
    (ok = true ↔ ∀ d ∈ r.diagnostics, d.finding.check ≠ c)
  /-- Only checks of the names make diagnostics. -/
  check_mem : ∀ d ∈ r.diagnostics, d.finding.check.name ∈ names

theorem Check.name_injective : Function.Injective Check.name := by
  intro c c' h
  have hsome : some c = some c' := by rw [← ofName?_name c, h, ofName?_name]
  exact Option.some.inj hsome

namespace Run

variable {ws : Workspace} {cache : LineCache} {context : Nat} {config : Configuration}
  {checks : List Check}

/-- A diagnostic of a file belongs to a check that was made. -/
theorem check_mem_of_mem_diagnosticsOf {path : String} {d : Diagnostic}
    (h : d ∈ diagnosticsOf ws cache context config checks path) : d.finding.check ∈ checks := by
  obtain ⟨f, hf, rfl⟩ := List.mem_map.mp h
  obtain ⟨text, tree, fs, -, hscan, hmem, -⟩ := Workspace.exists_of_mem_inspect hf
  rw [Document.eq_findings_of_scan hscan] at hmem
  exact Document.check_mem_of_mem_rawFindings (Document.findings_subset _ _ _ hmem)

theorem check_mem_of_mem_diagnostics {elapsed : Binary64} {files : List String} {d : Diagnostic}
    (h : d ∈ (process ws cache context config checks elapsed files).1.diagnostics) :
    d.finding.check ∈ checks := by
  rw [diagnostics_process, List.mem_flatMap] at h
  obtain ⟨path, -, h⟩ := h
  exact check_mem_of_mem_diagnosticsOf h

/-! ## Names of checks -/

theorem lookup_map_name {checks : List Check} {c : Check} (hc : c ∈ checks) (v : Check → Bool) :
    (checks.map fun c ↦ (c.name, v c)).lookup c.name = some (v c) := by
  induction checks with
  | nil => cases hc
  | cons c' checks ih =>
    rw [List.map_cons, List.lookup_cons]
    by_cases hname : c.name = c'.name
    · rw [Check.name_injective hname, beq_self_eq_true]
    · rw [beq_false_of_ne hname]
      rcases List.mem_cons.mp hc with rfl | hc
      · exact absurd rfl hname
      · exact ih hc

/-- The checks that are made are those whose names are given, if all the names are known. -/
theorem enabledChecks_eq {names : List String} (hne : names ≠ [])
    (h : ∀ name ∈ names, name ∈ Check.all.map Check.name) :
    enabledChecks names = .ok (Check.all.filter fun c ↦ names.contains c.name) := by
  have hunknown : names.filter (fun name ↦ (Check.ofName? name).isNone) = [] := by
    rw [List.filter_eq_nil_iff]
    intro name hname
    obtain ⟨c, -, rfl⟩ := List.mem_map.mp (h name hname)
    rw [Check.ofName?_name]
    exact Bool.false_ne_true
  have henabled : (Check.all.filter fun c ↦ names.contains c.name) ≠ [] := by
    obtain ⟨name, hname⟩ := List.exists_mem_of_ne_nil names hne
    obtain ⟨c, hc, rfl⟩ := List.mem_map.mp (h name hname)
    exact List.ne_nil_of_mem (List.mem_filter.mpr ⟨hc, List.contains_iff_mem.mpr hname⟩)
  simp only [enabledChecks, hunknown, List.isEmpty_nil, Bool.not_true, Bool.false_eq_true,
    if_false, List.isEmpty_iff, henabled]

/-! ## The verdicts of a run -/

theorem not_any_check_iff {ds : List Diagnostic} {c : Check} :
    (!ds.any (·.finding.check == c)) = true ↔ ∀ d ∈ ds, d.finding.check ≠ c := by
  simp

/-- Where every diagnostic belongs to one of the checks, all of them pass only without any. -/
theorem all_verdicts_iff {checks : List Check} {ds : List Diagnostic}
    (h : ∀ d ∈ ds, d.finding.check ∈ checks) :
    (checks.map fun c ↦ (c.name, !ds.any (·.finding.check == c))).all (·.2) = true ↔ ds = [] := by
  rw [List.all_map, List.all_eq_true]
  constructor
  · intro hall
    refine List.eq_nil_iff_forall_not_mem.mpr fun d hd ↦ ?_
    exact not_any_check_iff.mp (hall _ (h d hd)) d hd rfl
  · rintro rfl c -
    rfl

/-- A run is judged by the checks that its names stand for. -/
theorem judged_process {names : List String} {checks : List Check}
    (hchecks : checks = Check.all.filter fun c ↦ names.contains c.name) (elapsed : Binary64)
    (files : List String) :
    (process ws cache context config checks elapsed files).1.Judged names := by
  have hmem : ∀ c : Check, c ∈ checks ↔ c.name ∈ names := by
    intro c
    rw [hchecks, List.mem_filter, List.contains_iff_mem]
    exact and_iff_right (by cases c <;> decide)
  have hown : ∀ d ∈ (process ws cache context config checks elapsed files).1.diagnostics,
      d.finding.check ∈ checks := fun d hd ↦ check_mem_of_mem_diagnostics hd
  have hnames : checks.map Check.name = (Check.all.map Check.name).filter (· ∈ names) := by
    rw [hchecks, List.filter_map]
    refine congrArg _ (List.filter_congr fun c _ ↦ ?_)
    rw [List.contains_eq_mem, Function.comp_apply]
  constructor
  · rw [passed_process, verdicts_process]
    exact all_verdicts_iff hown
  · exact hnames
  · rw [verdicts_process, List.map_map]
    rfl
  · intro c hc
    rw [verdicts_process]
    exact ⟨_, lookup_map_name ((hmem c).mpr hc) _, not_any_check_iff⟩
  · intro d hd
    exact (hmem _).mp (hown d hd)

end Run

/-- A run that is asked for checks that exist, and whose files are discovered, has a result, which
is judged by these checks. -/
theorem Workspace.exists_run_judged (ws : Workspace) (cache : LineCache) (context : Nat)
    {request : RunRequest} {files : List String} (hne : request.checks ≠ [])
    (hchecks : ∀ name ∈ request.checks, name ∈ Check.all.map Check.name)
    (hfiles : (ws.discover request.patterns request.root).1 = .ok files) :
    ∃ r, (ws.run cache context request).1 = .ok r ∧ r.Judged request.checks :=
  ⟨_, (ws.run_of_discovered cache context request (Run.enabledChecks_eq hne hchecks) hfiles).1,
    Run.judged_process rfl request.elapsed files⟩

namespace CommandLine

/-! ## How the program ends -/

theorem CheckOptions.request_checks (o : CheckOptions) (ws : Workspace) (config : Configuration)
    (elapsed : Binary64) :
    (o.request ws config elapsed).checks ≠ [] ∧
      ∀ name ∈ (o.request ws config elapsed).checks, name ∈ Check.all.map Check.name := by
  unfold request checks
  dsimp only
  split
  · decide
  · split <;> decide

/-- Whether the report files that a check asks for, if any, can be written. -/
def ReportsWritten (s : Setting) (o : CheckOptions) (r : RunReport) : Prop :=
  o.outputDir = "" ∨
    ∃ paths, (ReportFiles.write s.workspace r s.now (.ofText o.outputDir)).2 = .ok paths

theorem exit_finish {s : Setting} {o : CheckOptions} {r : RunReport} (h : ReportsWritten s o r)
    (log : List LogEntry) :
    (finish s o r log).exit = .ok (if r.passed then Exit.clean else Exit.hardcoded) := by
  unfold finish
  dsimp only
  rcases h with h | ⟨paths, h⟩
  · rw [if_pos h]
  · split
    · rfl
    · split
      · next heq => rw [heq] at h; cases h
      · rfl

theorem exit_check {s : Setting} {o : CheckOptions} {config : Configuration} {r : RunReport}
    (hconfig : o.configuration s.characters s.workspace = .ok (.ok config))
    (hrun : (s.workspace.run .empty o.contextLines.toNat
      (o.request s.workspace config s.elapsed)).1 = .ok r)
    (h : ReportsWritten s o r) :
    (check s o).exit = .ok (if r.passed then Exit.clean else Exit.hardcoded) := by
  rw [check, hconfig]
  dsimp only
  split
  · next heq => rw [heq] at hrun; cases hrun
  · next heq =>
    rw [heq] at hrun
    cases hrun
    exact exit_finish h _

/-- **The verdict is that there are no diagnostics.**  A run over the files that were discovered,
with checks that exist, is judged by its diagnostics: on the whole, and check by check.  A check on
the command line, once its configuration and files have been found, ends with 0 if its run has no
diagnostics and else with 1, provided that report files, where asked for, can be written. -/
theorem judged_by_diagnostics :
    (∀ (ws : Workspace) (cache : LineCache) (context : Nat) (request : RunRequest)
        (files : List String),
      request.checks ≠ [] → (∀ name ∈ request.checks, name ∈ Check.all.map Check.name) →
      (ws.discover request.patterns request.root).1 = .ok files →
      ∃ r, (ws.run cache context request).1 = .ok r ∧ r.Judged request.checks) ∧
    ∀ (s : Setting) (args : List String) (o : CheckOptions) (config : Configuration)
        (files : List String),
      readArguments args = .ok (.check o) →
      o.configuration s.characters s.workspace = .ok (.ok config) →
      (s.workspace.discover (Discovery.patternsOf s.workspace o.rootPath o.patterns)
        o.rootPath).1 = .ok files →
      ∃ r, (s.workspace.run .empty o.contextLines.toNat
          (o.request s.workspace config s.elapsed)).1 = .ok r ∧
        (ReportsWritten s o r →
          (execute s args).exit = .ok (if r.diagnostics = [] then 0 else 1)) := by
  constructor
  · intro ws cache context request files hne hchecks hfiles
    exact ws.exists_run_judged cache context hne hchecks hfiles
  · intro s args o config files hargs hconfig hfiles
    obtain ⟨hne, hchecks⟩ := o.request_checks s.workspace config s.elapsed
    obtain ⟨r, hrun, hjudged⟩ :=
      s.workspace.exists_run_judged .empty o.contextLines.toNat hne hchecks hfiles
    refine ⟨r, hrun, fun hwritten ↦ ?_⟩
    rw [execute, hargs]
    refine (exit_check hconfig hrun hwritten).trans (congrArg Except.ok ?_)
    by_cases hnil : r.diagnostics = []
    · rw [if_pos (hjudged.passed_iff.mpr hnil), if_pos hnil, Exit.clean]
    · rw [if_neg (mt hjudged.passed_iff.mp hnil), if_neg hnil, Exit.hardcoded]

/-- A message in the one file that is checked makes the program end with 1, and report files are
written to a new directory. -/
theorem judged_by_diagnostics_message :
    let message : Entry := .file (Utf8.encode "alert('Not saved')".toList)
      (.node { kind := "program", span := ⟨0, 18⟩ } [
        .node { kind := "call_expression", span := ⟨0, 18⟩ } [
          .node { kind := "identifier", span := ⟨0, 5⟩, field := some "function" } [],
          .node { kind := "arguments", span := ⟨5, 18⟩, field := some "arguments" } [
            .node { kind := "string", span := ⟨6, 17⟩ } []]]])
    let s : Setting := ⟨⟨[], [(["a.js"], message)], by decide⟩, .none, Binary64.zero, ""⟩
    let args := ["check", "a.js", "--calls-only", "--output-dir", "out"]
    let o : CheckOptions := { patterns := ["a.js"], callsOnly := true, outputDir := "out" }
    let request := o.request s.workspace .standard s.elapsed
    let r := (Run.process s.workspace .empty 2 request.config [.calls] s.elapsed ["a.js"]).1
    ((s.workspace.run .empty 2 request).1 = .ok r ∧ r.Judged ["calls"]) ∧
      r.diagnostics.map (·.finding.value) = ["Not saved"] ∧ ReportsWritten s o r ∧
      (execute s args).exit = .ok 1 := by
  intro message s args o request r
  have hargs : readArguments args = .ok (.check o) := by decide +kernel
  have hfiles : (s.workspace.discover request.patterns request.root).1 = .ok ["a.js"] := by
    decide +kernel
  have hrun : (s.workspace.run .empty 2 request).1 = .ok r :=
    (s.workspace.run_of_discovered .empty 2 request rfl hfiles).1
  have hevaluated : r.diagnostics.map (·.finding.value) = ["Not saved"] ∧
      (ReportFiles.write s.workspace r s.now (.ofText o.outputDir)).2 =
        .ok ["/out/summary.json", "/out/findings.csv"] := by
    decide +kernel
  have hwritten : ReportsWritten s o r := .inr ⟨_, hevaluated.2⟩
  obtain ⟨r', hrun', hjudged⟩ :=
    judged_by_diagnostics.1 s.workspace .empty 2 request ["a.js"] (by decide) (by decide) hfiles
  obtain ⟨r'', hrun'', hexit⟩ :=
    judged_by_diagnostics.2 s args o .standard ["a.js"] hargs rfl hfiles
  obtain rfl : r = r' := Except.ok.inj (hrun.symm.trans hrun')
  obtain rfl : r = r'' := Except.ok.inj (hrun.symm.trans hrun'')
  rw [if_neg fun hnil ↦ by rw [hnil] at hevaluated; cases hevaluated.1] at hexit
  exact ⟨⟨hrun, hjudged⟩, hevaluated.1, hwritten, hexit hwritten⟩

/-- Report files that cannot be written leave the program without a code: here, their directory is
a file. -/
theorem exit_without_code :
    ¬ ∀ (s : Setting) (args : List String) (o : CheckOptions) (config : Configuration)
        (files : List String),
      readArguments args = .ok (.check o) →
      o.configuration s.characters s.workspace = .ok (.ok config) →
      (s.workspace.discover (Discovery.patternsOf s.workspace o.rootPath o.patterns)
        o.rootPath).1 = .ok files →
      ∃ r, (s.workspace.run .empty o.contextLines.toNat
          (o.request s.workspace config s.elapsed)).1 = .ok r ∧
        (execute s args).exit = .ok (if r.diagnostics = [] then 0 else 1) := by
  intro h
  let s : Setting := ⟨⟨[], [(["a.ts"], .file [] .blank)], by decide⟩, .none, Binary64.zero, ""⟩
  let args := ["check", "a.ts", "-q", "--output-dir", "a.ts"]
  let o : CheckOptions := { patterns := ["a.ts"], outputDir := "a.ts", quiet := true }
  have hargs : readArguments args = .ok (.check o) := by decide +kernel
  have hfiles : (s.workspace.discover (Discovery.patternsOf s.workspace o.rootPath o.patterns)
      o.rootPath).1 = .ok ["a.ts"] := by decide +kernel
  obtain ⟨r, -, hexit⟩ := h s args o .standard ["a.ts"] hargs rfl hfiles
  have hfault : (execute s args).exit.toOption = none := by decide +kernel
  rw [hexit] at hfault
  cases hfault

end CommandLine

end HardcodedText
