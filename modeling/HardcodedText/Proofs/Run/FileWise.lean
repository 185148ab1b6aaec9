import Mathlib.Data.List.Basic
import HardcodedText.Proofs.Report.LineCache
import HardcodedText.Run

/-!
# Runs file by file

The files of a run meet in the line cache, in one list of diagnostics and in the verdicts.  Even so,
each file contributes by itself (`Run.diagnostics_process`): what the cache knows about a file when
its frames are made is what it knew before the run, or else the text that was searched.

Hence a run over two lists of files is the two runs put together, and a file that is broken might as
well not be there (`Run.process_append`).
-/

namespace HardcodedText

namespace FileOutcome

/-- The lines that the cache is told about a file: those of its text, if something was found. -/
def lines? : FileOutcome → Option (List String)
  | scanned text (_ :: _) => some (Text.linesOf text)
  | _ => none

theorem find?_prime (outcome : FileOutcome) (cache : LineCache) (path other : String) :
    (outcome.prime cache path).find? other =
      (cache.find? other).or (if other = path then outcome.lines?.map some else none) := by
  have hkept : cache.find? other =
      (cache.find? other).or (if other = path then none else none) := by
    rw [ite_self, Option.or_none]
  cases outcome with
  | unreadable | unparsable => exact hkept
  | scanned text findings =>
    cases findings with
    | nil => exact hkept
    | cons => exact LineCache.find?_learn cache path _ other

theorem isSome_lines? {outcome : FileOutcome} {f : Finding} (h : f ∈ outcome.findings) :
    outcome.lines?.isSome := by
  cases outcome with
  | unreadable | unparsable => cases h
  | scanned text findings =>
    cases findings with
    | nil => cases h
    | cons => rfl

end FileOutcome

namespace Workspace

/-- A file that cannot be searched. -/
inductive Broken (ws : Workspace) (path : String) : Prop
  /-- There is no file to be read. -/
  | unreadable {cause : AccessError} (h : ws.contents (.ofText path) = .error cause)
  /-- The file does not hold text. -/
  | undecodable {bytes : List UInt8} {tree : Tree} {cause : Utf8.DecodeError}
      (h : ws.contents (.ofText path) = .ok (bytes, tree))
      (hbytes : Utf8.decode bytes = .error cause)
  /-- The tree of the text has a fault. -/
  | unparsable {text : String} {tree : Tree} {cause : ParseError}
      (h : ws.readText (.ofText path) = .ok (text, tree))
      (htree : (Document.ofText path text tree).check = .error cause)

variable {ws : Workspace} {path : String}

theorem Broken.inspect (h : ws.Broken path) (config : Configuration) (checks : List Check) :
    (ws.inspect config checks path).isSkipped ∧ (ws.inspect config checks path).findings = [] := by
  unfold Workspace.inspect
  cases h with
  | unreadable h =>
    rw [readText, h]
    exact ⟨rfl, rfl⟩
  | undecodable h hbytes =>
    rw [readText, h]
    dsimp only [bind, Except.bind]
    rw [hbytes]
    exact ⟨rfl, rfl⟩
  | unparsable h htree =>
    rw [h]
    dsimp only
    rw [Document.scan, htree]
    exact ⟨rfl, rfl⟩

/-- What is found in a file is found in the text of it, and the cache is told that text. -/
theorem exists_of_mem_inspect {config : Configuration} {checks : List Check} {f : Finding}
    (h : f ∈ (ws.inspect config checks path).findings) :
    ∃ text tree fs, ws.readText (.ofText path) = .ok (text, tree) ∧
      (Document.ofText path text tree).scan config checks = .ok fs ∧ f ∈ fs ∧
      (ws.inspect config checks path).lines? = some (Text.linesOf text) := by
  unfold inspect at h ⊢
  split at h
  · cases h
  · next text tree hread =>
    split at h
    · cases h
    · next fs hscan =>
      refine ⟨text, tree, fs, hread, hscan, h, ?_⟩
      cases fs with
      | nil => cases h
      | cons => rfl

end Workspace

namespace Run

section

variable (ws : Workspace) (cache : LineCache) (context : Nat) (config : Configuration)
  (checks : List Check) (elapsed : Binary64)

/-! ## What the cache knows after the search -/

theorem primeAll_cons (path : String) (outcome : FileOutcome)
    (results : List (String × FileOutcome)) :
    primeAll cache ((path, outcome) :: results) = primeAll (outcome.prime cache path) results :=
  rfl

theorem find?_primeAll_outcomes (files : List String) (path : String) :
    (primeAll cache (outcomes ws config checks files)).find? path =
      (cache.find? path).or
        (if path ∈ files then (ws.inspect config checks path).lines?.map some else none) := by
  induction files generalizing cache with
  | nil => exact Option.or_none.symm
  | cons file files ih =>
    rw [outcomes, List.map_cons, primeAll_cons, ← outcomes, ih, FileOutcome.find?_prime,
      Option.or_assoc]
    refine congrArg _ ?_
    by_cases hfile : path = file
    · -- The file is told of first, and once more later only with the same lines.
      subst hfile
      rw [if_pos rfl, if_pos List.mem_cons_self]
      split
      · cases (ws.inspect config checks path).lines? <;> rfl
      · rw [Option.or_none]
    · rw [if_neg hfile, Option.none_or]
      simp only [List.mem_cons, hfile, false_or]

/-! ## The contribution of a file -/

/-- The lines in which the findings of a file are shown: those that are known already, or else those
of the text that was searched. -/
def shownLines (path : String) : Option (List String) :=
  (cache.find? path).getD (ws.inspect config checks path).lines?

/-- The diagnostics of a file. -/
def diagnosticsOf (path : String) : List Diagnostic :=
  (ws.inspect config checks path).findings.map fun f ↦
    ⟨f, (Diagnostic.frameIn (shownLines ws cache config checks path) context path f.line
      f.column).1⟩

theorem mem_located_outcomes {files : List String} {path : String} {f : Finding}
    (h : (path, f) ∈ located (outcomes ws config checks files)) :
    path ∈ files ∧ f ∈ (ws.inspect config checks path).findings := by
  obtain ⟨⟨path', outcome⟩, hresult, hf⟩ := List.mem_flatMap.mp h
  obtain ⟨file, hfile, heq⟩ := List.mem_map.mp hresult
  obtain ⟨g, hg, hgf⟩ := List.mem_map.mp hf
  cases heq
  cases hgf
  exact ⟨hfile, hg⟩

theorem join_find?_primeAll {files : List String} {path : String} {f : Finding}
    (hfile : path ∈ files) (hf : f ∈ (ws.inspect config checks path).findings) :
    ∃ lines, (primeAll cache (outcomes ws config checks files)).find? path = some lines ∧
      lines = shownLines ws cache config checks path := by
  obtain ⟨lines, hlines⟩ := Option.isSome_iff_exists.mp (FileOutcome.isSome_lines? hf)
  rw [find?_primeAll_outcomes, if_pos hfile, shownLines, hlines]
  cases cache.find? path with
  | none => exact ⟨_, rfl, rfl⟩
  | some known => exact ⟨_, rfl, rfl⟩

/-- A run shows the findings of each file by themselves. -/
theorem diagnostics_process (files : List String) :
    (process ws cache context config checks elapsed files).1.diagnostics =
      files.flatMap (diagnosticsOf ws cache context config checks) := by
  have hknown : ∀ pf ∈ located (outcomes ws config checks files),
      (primeAll cache (outcomes ws config checks files)).contains pf.1 := by
    rintro ⟨path, f⟩ h
    obtain ⟨hfile, hf⟩ := mem_located_outcomes ws config checks h
    obtain ⟨lines, hlines, -⟩ := join_find?_primeAll ws cache config checks hfile hf
    exact Option.isSome_iff_exists.mpr ⟨lines, hlines⟩
  change (Diagnostic.ofFindings ws context _ _).1 = _
  rw [(Diagnostic.ofFindings_of_contains ws context _ hknown).1, located, List.map_flatMap,
    outcomes, List.flatMap_map]
  refine List.flatMap_congr fun path hfile ↦ ?_
  rw [List.map_map, diagnosticsOf]
  refine List.map_congr_left fun f hf ↦ ?_
  obtain ⟨lines, hlines, hshown⟩ := join_find?_primeAll ws cache config checks hfile hf
  simp only [Function.comp_apply]
  rw [show primeAll cache (files.map _) = primeAll cache (outcomes ws config checks files) from rfl,
    hlines, Option.join_some, hshown]

theorem verdicts_process (files : List String) :
    (process ws cache context config checks elapsed files).1.verdicts = checks.map fun c ↦
      (c.name, !(process ws cache context config checks elapsed files).1.diagnostics.any
        (·.finding.check == c)) :=
  List.map_map

theorem passed_process (files : List String) :
    (process ws cache context config checks elapsed files).1.passed =
      (process ws cache context config checks elapsed files).1.verdicts.all (·.2) := by
  change List.all _ _ = (List.map _ _).all _
  rw [List.all_map]
  rfl

theorem filesScanned_process (files : List String) :
    (process ws cache context config checks elapsed files).1.filesScanned = files.length :=
  congrArg Int.ofNat (List.length_map _)

theorem filesSkipped_process (files : List String) :
    (process ws cache context config checks elapsed files).1.filesSkipped =
      (files.filter fun path ↦ (ws.inspect config checks path).isSkipped).length := by
  change Int.ofNat ((outcomes ws config checks files).filter (·.2.isSkipped)).length = _
  rw [outcomes, List.filter_map, List.length_map, Function.comp_def]
  rfl

/-! ## Putting runs together -/

/-- Verdicts on the same checks, put together check by check. -/
theorem zipWith_and_map (p q : Check → Bool) :
    List.zipWith (fun v w ↦ (v.1, v.2 && w.2)) (checks.map fun c ↦ (c.name, p c))
      (checks.map fun c ↦ (c.name, q c)) = checks.map fun c ↦ (c.name, p c && q c) := by
  rw [List.zipWith_map, List.zipWith_self]

theorem all_map_and (p q : Check → Bool) :
    (checks.map fun c ↦ (c.name, p c && q c)).all (·.2) =
      ((checks.map fun c ↦ (c.name, p c)).all (·.2) &&
        (checks.map fun c ↦ (c.name, q c)).all (·.2)) := by
  rw [Bool.eq_iff_iff]
  simp only [List.all_map, Function.comp_def, Bool.and_eq_true, List.all_eq_true]
  exact forall₂_and

theorem verdicts_append (xs ys : List String) :
    (process ws cache context config checks elapsed (xs ++ ys)).1.verdicts =
      List.zipWith (fun v w ↦ (v.1, v.2 && w.2))
        (process ws cache context config checks elapsed xs).1.verdicts
        (process ws cache context config checks elapsed ys).1.verdicts := by
  simp only [verdicts_process, zipWith_and_map, diagnostics_process, List.flatMap_append,
    List.any_append, Bool.not_or]

theorem passed_append (xs ys : List String) :
    (process ws cache context config checks elapsed (xs ++ ys)).1.passed =
      ((process ws cache context config checks elapsed xs).1.passed &&
        (process ws cache context config checks elapsed ys).1.passed) := by
  rw [passed_process, verdicts_append, verdicts_process, verdicts_process, zipWith_and_map,
    all_map_and, ← verdicts_process, ← verdicts_process, ← passed_process, ← passed_process]

/-- A broken file shows nothing, so the verdicts stay as they are, too. -/
theorem diagnostics_broken {path : String} (h : ws.Broken path) (xs ys : List String) :
    (process ws cache context config checks elapsed (xs ++ path :: ys)).1.diagnostics =
      (process ws cache context config checks elapsed (xs ++ ys)).1.diagnostics := by
  have hnone : diagnosticsOf ws cache context config checks path = [] := by
    rw [diagnosticsOf, (h.inspect config checks).2, List.map_nil]
  simp only [diagnostics_process, List.flatMap_append, List.flatMap_cons, hnone, List.nil_append]

theorem verdicts_broken {path : String} (h : ws.Broken path) (xs ys : List String) :
    (process ws cache context config checks elapsed (xs ++ path :: ys)).1.verdicts =
      (process ws cache context config checks elapsed (xs ++ ys)).1.verdicts := by
  rw [verdicts_process, verdicts_process,
    diagnostics_broken ws cache context config checks elapsed h]

end

/-- A run over two lists of files gives the diagnostics of the first and then those of the second;
a check passes if it passes on both, and the counts are the sums.  A broken file leaves the
diagnostics and verdicts as they are, wherever it stands, and counts once as looked at and once as
skipped. -/
theorem process_append (ws : Workspace) (cache : LineCache) (context : Nat) (config : Configuration)
    (checks : List Check) (elapsed : Binary64) (xs ys : List String) :
    let report (files : List String) := (process ws cache context config checks elapsed files).1
    ((report (xs ++ ys)).diagnostics = (report xs).diagnostics ++ (report ys).diagnostics ∧
      (report (xs ++ ys)).verdicts =
        List.zipWith (fun v w ↦ (v.1, v.2 && w.2)) (report xs).verdicts (report ys).verdicts ∧
      (report (xs ++ ys)).passed = ((report xs).passed && (report ys).passed) ∧
      (report (xs ++ ys)).filesScanned = (report xs).filesScanned + (report ys).filesScanned ∧
      (report (xs ++ ys)).filesSkipped = (report xs).filesSkipped + (report ys).filesSkipped) ∧
    ∀ path, ws.Broken path →
      (report (xs ++ path :: ys)).diagnostics = (report (xs ++ ys)).diagnostics ∧
      (report (xs ++ path :: ys)).verdicts = (report (xs ++ ys)).verdicts ∧
      (report (xs ++ path :: ys)).passed = (report (xs ++ ys)).passed ∧
      (report (xs ++ path :: ys)).filesScanned = (report (xs ++ ys)).filesScanned + 1 ∧
      (report (xs ++ path :: ys)).filesSkipped = (report (xs ++ ys)).filesSkipped + 1 := by
  intro report
  refine ⟨⟨?_, ?_, ?_, ?_, ?_⟩, fun path hbroken ↦ ⟨?_, ?_, ?_, ?_, ?_⟩⟩
  · simp only [report, diagnostics_process, List.flatMap_append]
  · exact verdicts_append ws cache context config checks elapsed xs ys
  · exact passed_append ws cache context config checks elapsed xs ys
  · simp only [report, filesScanned_process, List.length_append, Int.natCast_add]
  · simp only [report, filesSkipped_process, List.filter_append, List.length_append,
      Int.natCast_add]
  · exact diagnostics_broken ws cache context config checks elapsed hbroken xs ys
  · exact verdicts_broken ws cache context config checks elapsed hbroken xs ys
  · simp only [report, passed_process,
      verdicts_broken ws cache context config checks elapsed hbroken]
  · simp only [report, filesScanned_process, List.length_append, List.length_cons]
    rfl
  · have hskipped := (hbroken.inspect config checks).1
    simp only [report, filesSkipped_process, List.filter_append, List.filter_cons, hskipped,
      if_true, List.length_append, List.length_cons]
    rfl

/-- Between two files with a message, one holds a byte at which no text can begin. -/
theorem process_append_stray_byte :
    let message : Entry := .file (Utf8.encode "alert('No')".toList)
      (.node { kind := "program", span := ⟨0, 11⟩ } [
        .node { kind := "call_expression", span := ⟨0, 11⟩ } [
          .node { kind := "identifier", span := ⟨0, 5⟩, field := some "function" } [],
          .node { kind := "arguments", span := ⟨5, 11⟩, field := some "arguments" } [
            .node { kind := "string", span := ⟨6, 10⟩ } []]]])
    let ws : Workspace := ⟨[], [(["a.js"], message), (["b.js"], .file [0xFF] .blank),
      (["c.js"], message)], by decide⟩
    let config : Configuration := { Configuration.standard with allow := [] }
    let report (files : List String) :=
      (process ws .empty 2 config Check.all Binary64.zero files).1
    ws.Broken "b.js" ∧
      (report ["a.js", "b.js", "c.js"]).diagnostics = (report ["a.js", "c.js"]).diagnostics ∧
      (report ["a.js", "b.js", "c.js"]).diagnostics.length = 2 ∧
      (report ["a.js", "b.js", "c.js"]).verdicts = (report ["a.js", "c.js"]).verdicts ∧
      (report ["a.js", "b.js", "c.js"]).filesSkipped =
        (report ["a.js", "c.js"]).filesSkipped + 1 := by
  intro message ws config report
  have hbytes : Utf8.decode [0xFF] = .error ⟨.invalidStart, 0xFF, 0, 0⟩ := by
    rw [Utf8.decode, Utf8.decodeFrom]
    rfl
  have hbroken : ws.Broken "b.js" := .undecodable rfl hbytes
  obtain ⟨hds, hverdicts, -, -, hskipped⟩ :=
    (process_append ws .empty 2 config Check.all Binary64.zero ["a.js"] ["c.js"]).2 "b.js"
      hbroken
  exact ⟨hbroken, hds, by decide +kernel, hverdicts, hskipped⟩

end Run

end HardcodedText
