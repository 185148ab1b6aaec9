import HardcodedText.Proofs.Run.Pool
import HardcodedText.Session

/-!
# What is known stays known

Steps of a session reach the line cache in two ways only: they tell it a text, or they ask it for
the lines of a file (`LineCache.Use`).  Every session amounts to such uses one after another
(`Session.cache_after`).  A use changes nothing about a file that is known, and only asking for a
file that is not known makes the cache read it.  Hence, over a whole session, what is known about a
file never changes again and no file is read twice (`Session.cache_written_once`).
-/

namespace HardcodedText

/-! ## Uses of the cache -/

/-- A use of the line cache. -/
inductive LineCache.Use
  /-- The cache is told the text of a file. -/
  | prime (path text : String)
  /-- The cache is asked for the lines of a file, when the files are those of a workspace. -/
  | get (ws : Workspace) (path : String)

namespace LineCache

/-- The cache after a use. -/
def use (cache : LineCache) : Use → LineCache
  | .prime path text => cache.prime path text
  | .get ws path => (cache.get ws path).2.1

/-- The cache after some uses. -/
def useAll (cache : LineCache) (uses : List Use) : LineCache :=
  uses.foldl use cache

/-- The files that a use reads: one that is asked for and not known. -/
def readsFor (cache : LineCache) : Use → List String
  | .prime .. => []
  | .get _ path => if cache.contains path then [] else [path]

/-- The files that some uses read. -/
def readsForAll (cache : LineCache) : List Use → List String
  | [] => []
  | u :: uses => cache.readsFor u ++ (cache.use u).readsForAll uses

variable {cache : LineCache} {path : String} {lines : Option (List String)}

theorem useAll_append (cache : LineCache) (uses more : List Use) :
    cache.useAll (uses ++ more) = (cache.useAll uses).useAll more :=
  List.foldl_append

theorem find?_use (h : cache.find? path = some lines) (u : Use) :
    (cache.use u).find? path = some lines := by
  cases u with
  | prime other text => rw [use, prime, find?_learn, h, Option.some_or]
  | get ws other => rw [use, find?_get, h, Option.some_or]

theorem find?_useAll (h : cache.find? path = some lines) (uses : List Use) :
    (cache.useAll uses).find? path = some lines := by
  induction uses generalizing cache with
  | nil => exact h
  | cons u uses ih => exact ih (find?_use h u)

theorem contains_useAll (h : cache.contains path) (uses : List Use) :
    (cache.useAll uses).contains path := by
  obtain ⟨lines, hlines⟩ := Option.isSome_iff_exists.mp h
  exact Option.isSome_iff_exists.mpr ⟨lines, find?_useAll hlines uses⟩

theorem find?_prime (cache : LineCache) (path text : String) :
    (cache.prime path text).find? path =
      some ((cache.find? path).getD (some (Text.linesOf text))) := by
  rw [prime, find?_learn, if_pos rfl]
  cases cache.find? path <;> rfl

theorem contains_get (ws : Workspace) (cache : LineCache) (path : String) :
    (cache.get ws path).2.1.contains path := by
  rw [contains, find?_get, if_pos rfl, Option.isSome_or, Option.isSome_some, Bool.or_true]

/-- Asking for a file without reading it gives the same whatever the files are like. -/
theorem get_eq_of_readsFor_eq_nil {ws : Workspace} (h : cache.readsFor (.get ws path) = [])
    (ws' : Workspace) : cache.get ws' path = cache.get ws path := by
  rw [readsFor] at h
  split at h
  · next hknown =>
    obtain ⟨lines, hlines⟩ := Option.isSome_iff_exists.mp hknown
    rw [get_of_find? hlines, get_of_find? hlines]
  · cases h

/-- A file that a use reads was not known before and is known afterwards. -/
theorem contains_of_mem_readsFor {u : Use} (h : path ∈ cache.readsFor u) :
    cache.contains path = false ∧ (cache.use u).contains path := by
  cases u with
  | prime => cases h
  | get ws other =>
    rw [readsFor] at h
    split at h
    · cases h
    · next hother =>
      rw [List.mem_singleton.mp h]
      exact ⟨Bool.eq_false_iff.mpr hother, contains_get ws cache other⟩

theorem contains_of_mem_readsForAll {uses : List Use} (h : path ∈ cache.readsForAll uses) :
    cache.contains path = false ∧ (cache.useAll uses).contains path := by
  induction uses generalizing cache with
  | nil => cases h
  | cons u uses ih =>
    rcases List.mem_append.mp h with h | h
    · obtain ⟨hbefore, hafter⟩ := contains_of_mem_readsFor h
      exact ⟨hbefore, contains_useAll hafter uses⟩
    · obtain ⟨hbefore, hafter⟩ := ih h
      refine ⟨?_, hafter⟩
      -- What the first use leaves unknown was unknown before it.
      rw [← Bool.not_eq_true] at hbefore ⊢
      exact mt (fun hknown ↦ contains_useAll hknown [u]) hbefore

/-- No file is read twice: once it is read, it is known. -/
theorem readsForAll_nodup (cache : LineCache) (uses : List Use) :
    (cache.readsForAll uses).Nodup := by
  induction uses generalizing cache with
  | nil => exact List.nodup_nil
  | cons u uses ih =>
    rw [readsForAll, List.nodup_append]
    refine ⟨?_, ih _, ?_⟩
    · cases u with
      | prime => exact List.nodup_nil
      | get ws other =>
        rw [readsFor]
        split
        · exact List.nodup_nil
        · exact List.nodup_cons.mpr ⟨List.not_mem_nil, List.nodup_nil⟩
    · rintro path hfirst _ hlater rfl
      have hknown := (contains_of_mem_readsFor hfirst).2
      rw [(contains_of_mem_readsForAll hlater).1] at hknown
      cases hknown

end LineCache

/-! ## What steps do to the cache -/

/-- The uses of the cache once a file has been checked: it is told the text if something was
found. -/
def FileOutcome.uses (path : String) : FileOutcome → List LineCache.Use
  | scanned text (_ :: _) => [.prime path text]
  | _ => []

theorem FileOutcome.prime_eq (outcome : FileOutcome) (cache : LineCache) (path : String) :
    outcome.prime cache path = cache.useAll (outcome.uses path) := by
  cases outcome with
  | unreadable | unparsable => rfl
  | scanned text findings => cases findings <;> rfl

theorem FileOutcome.findings_of_error? {outcome : FileOutcome} (h : outcome.error? ≠ none) :
    outcome.findings = [] := by
  cases outcome with
  | unreadable | unparsable => rfl
  | scanned => exact absurd rfl h

theorem Diagnostic.cache_ofFindings (ws : Workspace) (context : Nat) (cache : LineCache)
    (fs : List (String × Finding)) :
    (ofFindings ws context cache fs).2.1 = cache.useAll (fs.map fun pf ↦ .get ws pf.1) := by
  induction fs generalizing cache with
  | nil => rfl
  | cons pf fs ih =>
    obtain ⟨path, f⟩ := pf
    exact ih (cache.get ws path).2.1

namespace Run

/-- The uses of the cache in a run: it is told the texts, and then asked for the lines of each
finding. -/
def uses (ws : Workspace) (results : List (String × FileOutcome)) : List LineCache.Use :=
  results.flatMap (fun (path, outcome) ↦ outcome.uses path) ++
    (located results).map fun pf ↦ .get ws pf.1

theorem primeAll_eq (cache : LineCache) (results : List (String × FileOutcome)) :
    primeAll cache results =
      cache.useAll (results.flatMap fun (path, outcome) ↦ outcome.uses path) := by
  induction results generalizing cache with
  | nil => rfl
  | cons result results ih =>
    obtain ⟨path, outcome⟩ := result
    rw [primeAll_cons, ih, List.flatMap_cons, LineCache.useAll_append, outcome.prime_eq]

theorem cache_process (ws : Workspace) (cache : LineCache) (context : Nat) (config : Configuration)
    (checks : List Check) (elapsed : Binary64) (files : List String) :
    (process ws cache context config checks elapsed files).2.1 =
      cache.useAll (uses ws (outcomes ws config checks files)) := by
  change (Diagnostic.ofFindings ws context _ _).2.1 = _
  rw [Diagnostic.cache_ofFindings, primeAll_eq, uses, LineCache.useAll_append]

end Run

namespace Session

/-- The uses of the cache in a step. -/
def uses (s : Session) : Step → List LineCache.Use
  | .prime path text => [.prime path text]
  | .get path | .frame path _ _ => if s.isUnusable path then [] else [.get s.workspace path]
  | .format finding path =>
    let path := if path = "" then finding.path else path
    if s.isUnusable path then [] else [.get s.workspace path]
  | .check path config checks => (s.workspace.inspect config checks path).uses path
  | .run request =>
    match Run.enabledChecks request.checks,
      (s.workspace.discover request.patterns request.root).1 with
    | .ok checks, .ok files =>
      Run.uses s.workspace (Run.outcomes s.workspace request.config checks files)
    | _, _ => []
  | .put .. | .delete _ | .contains _ | .report | .clear => []

theorem cache_step_run (s : Session) (request : RunRequest) :
    (s.step (.run request)).2.1.cache = (s.workspace.run s.cache s.context request).2.1 := by
  -- `step` is unfolded as a whole: the equations for its cases take long to derive.
  unfold step
  dsimp only
  split <;> next h => rw [h]

/-- A step does to the cache what its uses do. -/
theorem cache_step (s : Session) (st : Step) :
    (s.step st).2.1.cache = s.cache.useAll (s.uses st) := by
  cases st with
  | put path entry => rfl
  | delete path =>
    unfold step
    dsimp only
    split <;> rfl
  | prime path text => rfl
  | get path =>
    unfold step uses
    dsimp only
    split <;> rfl
  | contains path => rfl
  | frame path line column =>
    unfold step uses
    dsimp only
    split <;> rfl
  | format finding path =>
    unfold step uses
    dsimp only
    generalize (if path = "" then finding.path else path) = shown
    split <;> rfl
  | report => rfl
  | clear => rfl
  | check path config checks =>
    unfold step uses
    dsimp only
    split
    · next h => rw [h]; rfl
    · exact FileOutcome.prime_eq _ _ _
  | run request =>
    rw [cache_step_run, uses]
    cases hchecks : Run.enabledChecks request.checks with
    | error e =>
      rw [s.workspace.run_of_refused s.cache s.context request hchecks]
      rfl
    | ok checks =>
      cases hfiles : (s.workspace.discover request.patterns request.root).1 with
      | error e =>
        exact (s.workspace.run_of_undiscovered s.cache s.context request hchecks hfiles).2
      | ok files =>
        rw [(s.workspace.run_of_discovered s.cache s.context request hchecks hfiles).2,
          Run.cache_process]

/-! ## Whole sessions -/

/-- The session after some steps. -/
def after (s : Session) : List Step → Session
  | [] => s
  | st :: steps => (s.step st).2.1.after steps

/-- The uses of the cache in some steps. -/
def usesIn (s : Session) : List Step → List LineCache.Use
  | [] => []
  | st :: steps => s.uses st ++ (s.step st).2.1.usesIn steps

/-- The files that the cache reads in some steps. -/
def readsIn (s : Session) (steps : List Step) : List String :=
  s.cache.readsForAll (s.usesIn steps)

theorem cache_after (s : Session) (steps : List Step) :
    (s.after steps).cache = s.cache.useAll (s.usesIn steps) := by
  induction steps generalizing s with
  | nil => rfl
  | cons st steps ih => rw [after, ih, usesIn, LineCache.useAll_append, cache_step]

variable {s : Session} {path : String} {lines : Option (List String)}

/-- Where a file is known, asking for it answers what is known and changes nothing, whatever the
files are like. -/
theorem step_get_of_find? (h : s.cache.find? path = some lines) :
    s.step (.get path) = (.ok (.lines lines), s, []) := by
  have husable : ¬ s.isUnusable path := by
    rw [isUnusable, LineCache.contains, h, Option.isSome_some, Bool.not_true, Bool.and_false]
    exact Bool.false_ne_true
  unfold step
  dsimp only
  rw [if_neg husable, LineCache.get_of_find? h]

/-- What asking for a file answers is known afterwards. -/
theorem find?_step_get (h : (s.step (.get path)).1 = .ok (.lines lines)) :
    (s.step (.get path)).2.1.cache.find? path = some lines := by
  have hlines := LineCache.fst_get s.cache s.workspace path
  have hfind := LineCache.find?_get s.cache s.workspace path path
  rcases hget : s.cache.get s.workspace path with ⟨answer, cache, log⟩
  rw [hget] at hlines hfind
  unfold step at h ⊢
  dsimp only at h ⊢
  rw [hget] at h ⊢
  split at h
  · cases h
  · next husable =>
    cases h
    rw [if_neg husable]
    refine hfind.trans ?_
    rw [if_pos rfl, hlines]
    cases s.cache.find? path <;> rfl

/-- Checking a file in which nothing is found changes nothing. -/
theorem step_check_of_nil {config : Configuration} {checks : List Check}
    (h : (s.workspace.inspect config checks path).findings = []) :
    (s.step (.check path config checks)).2.1 = s := by
  unfold step
  dsimp only
  split
  · rfl
  · cases hinspect : s.workspace.inspect config checks path with
    | unreadable | unparsable => rfl
    | scanned text findings =>
      rw [hinspect] at h
      cases findings with
      | nil => rfl
      | cons => cases h

/-- **The line cache is written once.**  In a session, at any time and about any file:

* what is known stays, and asking for it answers just that and reads nothing, whatever steps have
  been taken and whatever the files are like by then;
* a file that was not known is known once its text was told, and so is the answer once its lines
  were asked for, be it that the file could not be read;
* steps do to the cache what their uses do, and a use that counts as reading nothing does not depend
  on the files; in any steps, the uses read the file at most once, and only if it was not known; it
  is known then;
* checking the file changes nothing if that fails or finds nothing. -/
theorem cache_written_once (s : Session) (path : String) :
    (∀ lines, s.cache.find? path = some lines → ∀ steps ws,
      let t := { s.after steps with workspace := ws }
      t.cache.find? path = some lines ∧ t.step (.get path) = (.ok (.lines lines), t, [])) ∧
    ((∀ text, (s.step (.prime path text)).2.1.cache.find? path =
        some ((s.cache.find? path).getD (some (Text.linesOf text)))) ∧
      ∀ lines, (s.step (.get path)).1 = .ok (.lines lines) →
        (s.step (.get path)).2.1.cache.find? path = some lines) ∧
    ((∀ steps, (s.after steps).cache = s.cache.useAll (s.usesIn steps)) ∧
      (∀ ws, s.cache.readsFor (.get ws path) = [] →
        ∀ ws', s.cache.get ws' path = s.cache.get ws path) ∧
      ∀ steps, (s.readsIn steps).count path ≤ 1 ∧ (path ∈ s.readsIn steps →
        s.cache.contains path = false ∧ (s.after steps).cache.contains path = true)) ∧
    ∀ config checks, (s.workspace.inspect config checks path).error? ≠ none ∨
        (s.workspace.inspect config checks path).findings = [] →
      (s.step (.check path config checks)).2.1 = s := by
  refine ⟨?_, ⟨?_, ?_⟩, ⟨s.cache_after, ?_, ?_⟩, ?_⟩
  · intro lines h steps ws t
    have hafter : t.cache.find? path = some lines := by
      change (s.after steps).cache.find? path = some lines
      rw [cache_after]
      exact LineCache.find?_useAll h (s.usesIn steps)
    exact ⟨hafter, step_get_of_find? hafter⟩
  · intro text
    exact LineCache.find?_prime s.cache path text
  · intro lines h
    exact find?_step_get h
  · intro ws h ws'
    exact LineCache.get_eq_of_readsFor_eq_nil h ws'
  · intro steps
    rw [cache_after]
    refine ⟨?_, LineCache.contains_of_mem_readsForAll⟩
    exact List.nodup_iff_count.mp (s.cache.readsForAll_nodup (s.usesIn steps)) path
  · rintro config checks (h | h)
    · exact step_check_of_nil (FileOutcome.findings_of_error? h)
    · exact step_check_of_nil h

/-- A file is asked for, written anew and deleted; another one is asked for before it is there.
Both answers stay, and each file is read once. -/
theorem cache_written_once_missing :
    let file (text : String) : Entry := .file (Utf8.encode text.toList) .blank
    let s : Session := { workspace := ⟨[], [(["a.ts"], file "1")], by decide⟩, context := 2 }
    let steps : List Step := [.put (.ofText "a.ts") (file "2"), .frame "a.ts" 1 0,
      .delete (.ofText "a.ts"), .get "b.ts", .put (.ofText "b.ts") (file "3")]
    let t := (s.step (.get "a.ts")).2.1.after steps
    s.readsIn (.get "a.ts" :: steps ++ [.get "b.ts", .get "a.ts"]) = ["a.ts", "b.ts"] ∧
      (LineCache.load t.workspace "a.ts").1 = none ∧
      (LineCache.load t.workspace "b.ts").1 = some ["3"] ∧
      ∀ ws, let t' := { t with workspace := ws }
        t'.step (.get "a.ts") = (.ok (.lines (some ["1"])), t', []) ∧
          t'.step (.get "b.ts") = (.ok (.lines none), t', []) := by
  intro file s steps t
  have ha : (s.step (.get "a.ts")).2.1.cache.find? "a.ts" = some (some ["1"]) := by decide +kernel
  have hb : t.cache.find? "b.ts" = some none := by decide +kernel
  have hkept := (cache_written_once _ "a.ts").1 _ ha steps
  have hmissing := (cache_written_once t "b.ts").1 _ hb []
  rw [after] at hmissing
  refine ⟨by decide +kernel, by decide +kernel, by decide +kernel, fun ws ↦ ?_⟩
  exact ⟨(hkept ws).2, (hmissing ws).2⟩

end Session

end HardcodedText
