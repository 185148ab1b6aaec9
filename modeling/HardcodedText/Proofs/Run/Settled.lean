import HardcodedText.Proofs.Run.Pool

/-!
# Settled caches

A run tells the line cache about files and then asks it for their lines, so that it may leave
another cache than it found.  But it leaves one that is *settled* for its files (`Run.Settled`):
every file in which something is found is known, be it from the run or from before, rightly or not.
From a settled cache a run learns nothing, however many workers there are
(`Pool.Inv.cache_eq_of_walk`), and shows what is known.

`Workspace.Runs.cases` says so of a run as a whole, and `Workspace.Runs.again` what follows for a
run that is made again.
-/

namespace HardcodedText

/-! ## Settled caches -/

theorem FileOutcome.prime_eq_self {outcome : FileOutcome} {cache : LineCache} {path : String}
    (h : outcome.lines?.isSome → cache.contains path) : outcome.prime cache path = cache := by
  cases outcome with
  | unreadable | unparsable => rfl
  | scanned text findings =>
    cases findings with
    | nil => rfl
    | cons => exact if_pos (h rfl)

namespace Run

/-- `Settled ws config checks files cache`: all files in which something is found are known. -/
def Settled (ws : Workspace) (config : Configuration) (checks : List Check) (files : List String)
    (cache : LineCache) : Prop :=
  ∀ path ∈ files, (ws.inspect config checks path).lines?.isSome → cache.contains path

variable {ws : Workspace} {config : Configuration} {checks : List Check} {files : List String}
  {cache cache' : LineCache}

theorem Settled.of_agree (h : Settled ws config checks files cache) (hagree : cache'.Agree cache) :
    Settled ws config checks files cache' := by
  intro path hpath hlines
  rw [LineCache.contains, hagree path]
  exact h path hpath hlines

/-- Once the cache has been told about the files, it is settled for them. -/
theorem settled_primeAll (ws : Workspace) (config : Configuration) (checks : List Check)
    (files : List String) (cache : LineCache) :
    Settled ws config checks files (primeAll cache (outcomes ws config checks files)) := by
  intro path hpath hlines
  obtain ⟨lines, hlines⟩ := Option.isSome_iff_exists.mp hlines
  rw [LineCache.contains, find?_primeAll_outcomes, if_pos hpath, hlines, Option.isSome_or,
    Option.map_some, Option.isSome_some, Bool.or_true]

/-- A settled cache is told nothing new. -/
theorem Settled.primeAll_eq (h : Settled ws config checks files cache) :
    primeAll cache (outcomes ws config checks files) = cache := by
  induction files with
  | nil => rfl
  | cons path files ih =>
    obtain ⟨hpath, hfiles⟩ := List.forall_mem_cons.mp h
    rw [outcomes, List.map_cons, primeAll_cons, FileOutcome.prime_eq_self hpath]
    exact ih hfiles

/-- To show what was found, a settled cache reads nothing. -/
theorem Settled.cache_conclude (h : Settled ws config checks files cache) (context : Nat)
    (elapsed : Binary64) :
    (conclude ws cache context checks elapsed (outcomes ws config checks files)).2.1 = cache := by
  refine (Diagnostic.ofFindings_of_contains ws context _ ?_).2
  rintro ⟨path, f⟩ hf
  obtain ⟨hpath, hf⟩ := mem_located_outcomes ws config checks hf
  exact h path hpath (FileOutcome.isSome_lines? hf)

end Run

namespace Pool

variable {ws : Workspace} {config : Configuration} {checks : List Check} {jobs : Int}
  {cache : LineCache} {files : List String} {pool pool' : Pool}

/-- No step of a worker changes a settled cache. -/
theorem Inv.cache_eq_of_step (h : Inv ws config checks cache files pool)
    (hsettled : Run.Settled ws config checks files pool.cache)
    (hstep : Step ws config checks jobs pool pool') : pool'.cache = pool.cache := by
  cases hstep with
  | take | search => rfl
  | tell before after path outcome waiting now =>
    have htask : (path, Stage.searched outcome) ∈ before ++ (path, .searched outcome) :: after :=
      List.mem_append_right _ List.mem_cons_self
    obtain rfl : outcome = ws.inspect config checks path := h.leads _ htask
    have hpath : path ∈ files := by
      rw [← h.files_eq]
      exact List.mem_append_left _ (List.mem_map.mpr ⟨_, htask, rfl⟩)
    exact FileOutcome.prime_eq_self (hsettled path hpath)

theorem Inv.cache_eq_of_walk (h : Inv ws config checks cache files pool)
    (hsettled : Run.Settled ws config checks files pool.cache)
    (hwalk : Walk ws config checks jobs pool pool') : pool'.cache = pool.cache := by
  induction hwalk with
  | refl => rfl
  | tail hwalk hstep ih => rw [(h.walk hwalk).cache_eq_of_step (ih ▸ hsettled) hstep, ih]

end Pool

/-! ## What a run comes to -/

/-- What a run is about: the checks to make and the files to look at, or why it does not take
place. -/
def Workspace.plan (ws : Workspace) (request : RunRequest) :
    Except RunError (List Check × List String) :=
  match Run.enabledChecks request.checks, (ws.discover request.patterns request.root).1 with
  | .error cause, _ => .error cause
  | .ok _, .error cause => .error (.discovery cause)
  | .ok checks, .ok files => .ok (checks, files)

theorem Workspace.ok_of_plan_eq_ok {ws : Workspace} {request : RunRequest} {checks : List Check}
    {files : List String} (h : ws.plan request = .ok (checks, files)) :
    Run.enabledChecks request.checks = .ok checks ∧
      (ws.discover request.patterns request.root).1 = .ok files := by
  unfold plan at h
  split at h <;> cases h
  exact ⟨‹_›, ‹_›⟩

namespace Workspace

variable {ws : Workspace} {cache after : LineCache} {context : Nat} {request : RunRequest}
  {jobs : Int} {result : Except RunError RunReport}

/-- A run that fails leaves the cache as it is.  Any other leaves a settled cache, and shows what
that cache knows; if the cache was settled before, it is the same. -/
theorem Runs.cases (h : ws.Runs cache context request jobs result after) :
    (∃ cause, ws.plan request = .error cause ∧ result = .error cause ∧ after = cache) ∨
    ∃ checks files, ws.plan request = .ok (checks, files) ∧
      Run.Settled ws request.config checks files after ∧
      result = .ok (Run.conclude ws after context checks request.elapsed
        (Run.outcomes ws request.config checks files)).1 ∧
      (Run.Settled ws request.config checks files cache → after = cache) := by
  cases h with
  | refused h => exact .inl ⟨_, by rw [plan, h], rfl, rfl⟩
  | undiscovered hchecks h => exact .inl ⟨_, by rw [plan, hchecks, h], rfl, rfl⟩
  | @inOrder checks files hchecks hfiles hfew =>
    have hsettled := Run.settled_primeAll ws request.config checks files cache
    have hafter : (Run.process ws cache context request.config checks request.elapsed files).2.1 =
        Run.primeAll cache (Run.outcomes ws request.config checks files) :=
      hsettled.cache_conclude context request.elapsed
    refine .inr ⟨checks, files, by rw [plan, hchecks, hfiles], ?_, ?_, fun hbefore ↦ ?_⟩
    · rwa [hafter]
    · rw [hafter]
      rfl
    · rw [hafter, hbefore.primeAll_eq]
  | @inPool checks files pool hchecks hfiles hjobs hmany hwalk hdone =>
    have hstart := Pool.Inv.ofFiles ws request.config checks cache files
    obtain ⟨houtcomes, hagree⟩ := (hstart.walk hwalk).of_isDone hdone
    have hsettled := (Run.settled_primeAll ws request.config checks files cache).of_agree hagree
    rw [houtcomes, hsettled.cache_conclude]
    exact .inr ⟨checks, files, by rw [plan, hchecks, hfiles], hsettled, rfl,
      fun hbefore ↦ hstart.cache_eq_of_walk hbefore hwalk⟩

/-- A run that is made again ends as before, but for the time that it takes, and changes nothing
about the cache. -/
theorem Runs.again (h : ws.Runs cache context request jobs result after) {elapsed : Binary64}
    {jobs' : Int} {result' : Except RunError RunReport} {after' : LineCache}
    (h' : ws.Runs after context { request with elapsed } jobs' result' after') :
    result' = result.map (fun r ↦ { r with duration := elapsed }) ∧ after' = after := by
  have hplan : ws.plan { request with elapsed } = ws.plan request := rfl
  rcases h.cases with ⟨cause, hcause, rfl, rfl⟩ | ⟨checks, files, hfiles, hsettled, rfl, -⟩
  · rcases h'.cases with ⟨cause', hcause', rfl, rfl⟩ | ⟨checks, files, hfiles, -⟩
    · rw [hplan, hcause] at hcause'
      cases hcause'
      exact ⟨rfl, rfl⟩
    · rw [hplan, hcause] at hfiles
      cases hfiles
  · rcases h'.cases with ⟨cause', hcause', -⟩ | ⟨checks', files', hfiles', -, rfl, hsame⟩
    · rw [hplan, hfiles] at hcause'
      cases hcause'
    · rw [hplan, hfiles] at hfiles'
      cases hfiles'
      obtain rfl := hsame hsettled
      exact ⟨rfl, rfl⟩

/-- A run without workers is a run with one job. -/
theorem runs_run (ws : Workspace) (cache : LineCache) (context : Nat) (request : RunRequest) :
    ws.Runs cache context request 1 (ws.run cache context request).1
      (ws.run cache context request).2.1 := by
  cases hchecks : Run.enabledChecks request.checks with
  | error cause =>
    rw [ws.run_of_refused cache context request hchecks]
    exact .refused hchecks
  | ok checks =>
    cases hfiles : (ws.discover request.patterns request.root).1 with
    | error cause =>
      obtain ⟨hresult, hcache⟩ := ws.run_of_undiscovered cache context request hchecks hfiles
      rw [hresult, hcache]
      exact .undiscovered hchecks hfiles
    | ok files =>
      obtain ⟨hresult, hcache⟩ := ws.run_of_discovered cache context request hchecks hfiles
      rw [hresult, hcache]
      exact .inOrder hchecks hfiles (.inl (Int.le_refl 1))

end Workspace

end HardcodedText
