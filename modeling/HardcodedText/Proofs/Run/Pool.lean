import Mathlib.Logic.Relation
import HardcodedText.Proofs.Run.FileWise

/-!
# Runs by several workers

With more than one job, the files of a run are handed to a pool of workers.  Each worker takes the
next file, searches it, and tells the line cache about it; the steps of different workers interleave
in any order.  Once all files are finished, their outcomes are shown in the order of discovery.

* `Pool.Inv.step`, `Pool.Inv.walk`: at any time the cache knows what it knew at first, and the lines
  of the finished files.
* `Pool.exists_done`: a pool is never stuck, and comes to an end.
* `Workspace.runs_agree`: however the workers are scheduled, a run ends with the same result as one
  without workers, and with a cache that knows the same.
-/

namespace HardcodedText

/-- How far the check of a file has come. -/
inductive Stage
  /-- A worker has taken the file. -/
  | taken
  /-- The file has been searched, but the cache does not know yet. -/
  | searched (outcome : FileOutcome)
  /-- The cache has been told. -/
  | finished (outcome : FileOutcome)

namespace Stage

/-- Whether a worker is still busy with the file. -/
def isBusy : Stage → Bool
  | finished _ => false
  | _ => true

/-- The outcome for the one who waits for the check. -/
def result? : Stage → Option FileOutcome
  | finished outcome => some outcome
  | _ => none

/-- The number of steps that are left. -/
def left : Stage → Nat
  | taken => 2
  | searched _ => 1
  | finished _ => 0

/-- The outcome, as far as there is one, is the given one. -/
def Leads (expected : FileOutcome) : Stage → Prop
  | taken => True
  | searched outcome => outcome = expected
  | finished outcome => outcome = expected

end Stage

/-- The files of a run on their way through the workers. -/
structure Pool where
  /-- The files that were taken, in the order of discovery. -/
  started : List (String × Stage)
  /-- The files that are waiting. -/
  waiting : List String
  /-- What all workers know about the lines of files. -/
  cache : LineCache

namespace Pool

/-- A pool in which all files are waiting. -/
def ofFiles (cache : LineCache) (files : List String) : Pool := ⟨[], files, cache⟩

/-- The number of workers at work. -/
def busy (started : List (String × Stage)) : Nat :=
  started.countP (·.2.isBusy)

/-- The outcomes of the finished files, in the order of discovery. -/
def results (started : List (String × Stage)) : List (String × FileOutcome) :=
  started.filterMap fun (path, stage) ↦ stage.result?.map fun outcome ↦ (path, outcome)

/-- Whether all files are finished. -/
def IsDone (pool : Pool) : Prop :=
  pool.waiting = [] ∧ ∀ task ∈ pool.started, task.2.isBusy = false

/-- One step of one worker.  Files are taken in order, and only if there is a job left; a file is
searched without regard to the cache; telling the cache is one step. -/
inductive Step (ws : Workspace) (config : Configuration) (checks : List Check) (jobs : Int) :
    Pool → Pool → Prop
  | take (started : List (String × Stage)) (path : String) (waiting : List String)
      (cache : LineCache) (hjobs : busy started < jobs) :
      Step ws config checks jobs ⟨started, path :: waiting, cache⟩
        ⟨started ++ [(path, .taken)], waiting, cache⟩
  | search (before after : List (String × Stage)) (path : String) (waiting : List String)
      (cache : LineCache) :
      Step ws config checks jobs ⟨before ++ (path, .taken) :: after, waiting, cache⟩
        ⟨before ++ (path, .searched (ws.inspect config checks path)) :: after, waiting, cache⟩
  | tell (before after : List (String × Stage)) (path : String) (outcome : FileOutcome)
      (waiting : List String) (cache : LineCache) :
      Step ws config checks jobs ⟨before ++ (path, .searched outcome) :: after, waiting, cache⟩
        ⟨before ++ (path, .finished outcome) :: after, waiting, outcome.prime cache path⟩

/-- Any number of steps, in any interleaving of the workers. -/
def Walk (ws : Workspace) (config : Configuration) (checks : List Check) (jobs : Int) :
    Pool → Pool → Prop :=
  Relation.ReflTransGen (Step ws config checks jobs)

variable {ws : Workspace} {config : Configuration} {checks : List Check} {jobs : Int}
  {cache : LineCache} {files : List String} {pool pool' : Pool}

/-! ## What holds at any time -/

/-- Whether a file is among the finished ones. -/
def Finished (started : List (String × Stage)) (path : String) : Prop :=
  ∃ outcome, (path, Stage.finished outcome) ∈ started

/-- What the workers have done, whatever the order: the files are those given, each outcome is that
of its file, and the cache knows what it knew at first and the lines of the finished files. -/
structure Inv (ws : Workspace) (config : Configuration) (checks : List Check) (cache : LineCache)
    (files : List String) (pool : Pool) : Prop where
  files_eq : pool.started.map Prod.fst ++ pool.waiting = files
  leads : ∀ task ∈ pool.started, task.2.Leads (ws.inspect config checks task.1)
  find?_of_finished : ∀ path, Finished pool.started path →
    pool.cache.find? path = (cache.find? path).or ((ws.inspect config checks path).lines?.map some)
  find?_of_not_finished : ∀ path, ¬ Finished pool.started path →
    pool.cache.find? path = cache.find? path

theorem Inv.ofFiles (ws : Workspace) (config : Configuration) (checks : List Check)
    (cache : LineCache) (files : List String) :
    Inv ws config checks cache files (ofFiles cache files) where
  files_eq := rfl
  leads := by rintro _ ⟨⟩
  find?_of_finished := by rintro _ ⟨_, ⟨⟩⟩
  find?_of_not_finished := fun _ _ ↦ rfl

/-- No step of a worker breaks what holds. -/
theorem Inv.step (h : Inv ws config checks cache files pool)
    (hstep : Step ws config checks jobs pool pool') : Inv ws config checks cache files pool' := by
  obtain ⟨hfiles, hleads, hfinished, hother⟩ := h
  cases hstep with
  | take started path waiting now hjobs =>
    have hsame : ∀ other, Finished (started ++ [(path, .taken)]) other ↔ Finished started other :=
      fun other ↦ by simp [Finished]
    refine ⟨by simpa using hfiles, ?_, ?_, ?_⟩
    · exact List.forall_mem_append.mpr ⟨hleads, List.forall_mem_singleton.mpr trivial⟩
    · exact fun other hdone ↦ hfinished other ((hsame other).mp hdone)
    · exact fun other hdone ↦ hother other fun h ↦ hdone ((hsame other).mpr h)
  | search before after path waiting now =>
    obtain ⟨hbefore, hrest⟩ := List.forall_mem_append.mp hleads
    obtain ⟨-, hafter⟩ := List.forall_mem_cons.mp hrest
    have hsame : ∀ other,
        Finished (before ++ (path, .searched (ws.inspect config checks path)) :: after) other ↔
          Finished (before ++ (path, .taken) :: after) other :=
      fun other ↦ by simp [Finished]
    refine ⟨by simpa using hfiles, ?_, ?_, ?_⟩
    · exact List.forall_mem_append.mpr ⟨hbefore, List.forall_mem_cons.mpr ⟨rfl, hafter⟩⟩
    · exact fun other hdone ↦ hfinished other ((hsame other).mp hdone)
    · exact fun other hdone ↦ hother other fun h ↦ hdone ((hsame other).mpr h)
  | tell before after path outcome waiting now =>
    obtain ⟨hbefore, hrest⟩ := List.forall_mem_append.mp hleads
    obtain ⟨houtcome, hafter⟩ := List.forall_mem_cons.mp hrest
    have hgrown : ∀ other, Finished (before ++ (path, .finished outcome) :: after) other ↔
        other = path ∨ Finished (before ++ (path, .searched outcome) :: after) other := by
      intro other
      simp only [Finished, List.mem_append, List.mem_cons, Prod.mk.injEq]
      grind
    obtain rfl : outcome = ws.inspect config checks path := houtcome
    refine ⟨by simpa using hfiles, ?_, ?_, ?_⟩
    · exact List.forall_mem_append.mpr ⟨hbefore, List.forall_mem_cons.mpr ⟨rfl, hafter⟩⟩
    · intro other hdone
      rw [FileOutcome.find?_prime]
      rcases em (Finished (before ++ (path, .searched (ws.inspect config checks path)) :: after)
        other) with hearlier | hearlier
      · -- Whoever finished the same file earlier told the cache the same.
        rw [hfinished other hearlier, Option.or_assoc]
        refine congrArg _ ?_
        split
        · next heq =>
          subst heq
          cases (ws.inspect config checks other).lines? <;> rfl
        · rw [Option.or_none]
      · obtain rfl : other = path := ((hgrown other).mp hdone).resolve_right hearlier
        rw [hother other hearlier, if_pos rfl]
    · intro other hdone
      rw [hgrown, not_or] at hdone
      rw [FileOutcome.find?_prime, if_neg hdone.1, Option.or_none, hother other hdone.2]

theorem Inv.walk (h : Inv ws config checks cache files pool)
    (hwalk : Walk ws config checks jobs pool pool') : Inv ws config checks cache files pool' := by
  induction hwalk with
  | refl => exact h
  | tail _ hstep ih => exact ih.step hstep

/-! ## The end -/

/-- A pool that is done has the outcomes of all files, and its cache knows what it would know if the
files had been searched one after another. -/
theorem Inv.of_isDone (h : Inv ws config checks cache files pool) (hdone : pool.IsDone) :
    results pool.started = Run.outcomes ws config checks files ∧
      pool.cache.Agree (Run.primeAll cache (Run.outcomes ws config checks files)) := by
  obtain ⟨hfiles, hleads, hfinished, hother⟩ := h
  obtain ⟨hwaiting, hidle⟩ := hdone
  have hall : ∀ path stage, (path, stage) ∈ pool.started →
      stage = .finished (ws.inspect config checks path) := by
    intro path stage htask
    cases stage with
    | taken | searched => cases hidle _ htask
    | finished outcome => exact congrArg Stage.finished (hleads _ htask)
  rw [hwaiting, List.append_nil] at hfiles
  refine ⟨?_, ?_⟩
  · rw [← hfiles, Run.outcomes, List.map_map, results]
    refine List.filterMap_eq_map_iff_forall_eq_some.mpr ?_
    rintro ⟨path, stage⟩ htask
    rw [hall path stage htask]
    rfl
  · intro path
    have hiff : Finished pool.started path ↔ path ∈ files := by
      rw [← hfiles, List.mem_map]
      constructor
      · rintro ⟨outcome, htask⟩
        exact ⟨_, htask, rfl⟩
      · rintro ⟨⟨path, stage⟩, htask, rfl⟩
        exact ⟨_, hall path stage htask ▸ htask⟩
    rw [Run.find?_primeAll_outcomes]
    by_cases hpath : path ∈ files
    · rw [if_pos hpath, hfinished path (hiff.mpr hpath)]
    · rw [if_neg hpath, hother path fun hdone ↦ hpath (hiff.mp hdone), Option.or_none]

/-- The number of steps that are left for files that were taken. -/
def leftOf : List (String × Stage) → Nat
  | [] => 0
  | (_, stage) :: rest => stage.left + leftOf rest

theorem leftOf_append (first rest : List (String × Stage)) :
    leftOf (first ++ rest) = leftOf first + leftOf rest := by
  induction first with
  | nil => exact (Nat.zero_add _).symm
  | cons task first ih =>
    obtain ⟨path, stage⟩ := task
    rw [List.cons_append, leftOf, leftOf, ih, Nat.add_assoc]

/-- The number of steps that are left. -/
def left (pool : Pool) : Nat :=
  3 * pool.waiting.length + leftOf pool.started

theorem Step.left_lt (h : Step ws config checks jobs pool pool') : pool'.left < pool.left := by
  cases h with
  | take =>
    simp only [left, leftOf_append, leftOf, Stage.left, List.length_cons]
    omega
  | search | tell =>
    simp only [left, leftOf_append, leftOf, Stage.left]
    omega

/-- As long as files are not finished, some worker can go on. -/
theorem exists_step (ws : Workspace) (config : Configuration) (checks : List Check)
    (hjobs : 0 < jobs) (h : ¬ pool.IsDone) : ∃ pool', Step ws config checks jobs pool pool' := by
  obtain ⟨started, waiting, cache⟩ := pool
  rcases em (∃ task ∈ started, task.2.isBusy = true) with ⟨⟨path, stage⟩, htask, hbusy⟩ | hidle
  · obtain ⟨before, after, rfl⟩ := List.append_of_mem htask
    cases stage with
    | taken => exact ⟨_, .search before after path waiting cache⟩
    | searched outcome => exact ⟨_, .tell before after path outcome waiting cache⟩
    | finished => cases hbusy
  · have hall : ∀ task ∈ started, task.2.isBusy = false := by
      intro task htask
      exact Bool.eq_false_iff.mpr fun hbusy ↦ hidle ⟨task, htask, hbusy⟩
    cases waiting with
    | nil => exact absurd ⟨rfl, hall⟩ h
    | cons path waiting =>
      have hnone : busy started = 0 :=
        List.countP_eq_zero.mpr fun task htask ↦ by simp [hall task htask]
      exact ⟨_, .take started path waiting cache (by rw [hnone]; exact hjobs)⟩

/-- However far a pool has come, it can be brought to its end. -/
theorem exists_done (ws : Workspace) (config : Configuration) (checks : List Check)
    (hjobs : 0 < jobs) (pool : Pool) :
    ∃ pool', Walk ws config checks jobs pool pool' ∧ pool'.IsDone := by
  induction hleft : pool.left using Nat.strongRecOn generalizing pool with
  | ind n ih =>
    by_cases hdone : pool.IsDone
    · exact ⟨pool, .refl, hdone⟩
    · obtain ⟨next, hstep⟩ := exists_step ws config checks hjobs hdone
      obtain ⟨last, hwalk, hlast⟩ := ih next.left (hleft ▸ hstep.left_lt) next rfl
      exact ⟨last, .head hstep hwalk, hlast⟩

end Pool

/-! ## Runs with jobs -/

/-- How a run with a number of jobs may end, and with which cache.  Workers are used for more than
one job and more than one file. -/
inductive Workspace.Runs (ws : Workspace) (cache : LineCache) (context : Nat) (request : RunRequest)
    (jobs : Int) : Except RunError RunReport → LineCache → Prop
  | refused {cause : RunError} (h : Run.enabledChecks request.checks = .error cause) :
      Runs ws cache context request jobs (.error cause) cache
  | undiscovered {checks : List Check} {cause : DiscoveryError}
      (hchecks : Run.enabledChecks request.checks = .ok checks)
      (h : (ws.discover request.patterns request.root).1 = .error cause) :
      Runs ws cache context request jobs (.error (.discovery cause)) cache
  | inOrder {checks : List Check} {files : List String}
      (hchecks : Run.enabledChecks request.checks = .ok checks)
      (hfiles : (ws.discover request.patterns request.root).1 = .ok files)
      (hfew : jobs ≤ 1 ∨ files.length ≤ 1) :
      Runs ws cache context request jobs
        (.ok (Run.process ws cache context request.config checks request.elapsed files).1)
        (Run.process ws cache context request.config checks request.elapsed files).2.1
  | inPool {checks : List Check} {files : List String} {pool : Pool}
      (hchecks : Run.enabledChecks request.checks = .ok checks)
      (hfiles : (ws.discover request.patterns request.root).1 = .ok files)
      (hjobs : 1 < jobs) (hmany : 1 < files.length)
      (hwalk : Pool.Walk ws request.config checks jobs (.ofFiles cache files) pool)
      (hdone : pool.IsDone) :
      Runs ws cache context request jobs
        (.ok (Run.conclude ws pool.cache context checks request.elapsed
          (Pool.results pool.started)).1)
        (Run.conclude ws pool.cache context checks request.elapsed
          (Pool.results pool.started)).2.1

namespace Run

/-- The end of a run depends on the cache only through what it knows. -/
theorem conclude_congr {cache cache' : LineCache} (h : cache.Agree cache') (ws : Workspace)
    (context : Nat) (checks : List Check) (elapsed : Binary64)
    (results : List (String × FileOutcome)) :
    (conclude ws cache context checks elapsed results).1 =
        (conclude ws cache' context checks elapsed results).1 ∧
      (conclude ws cache context checks elapsed results).2.1.Agree
        (conclude ws cache' context checks elapsed results).2.1 := by
  obtain ⟨hds, hcache⟩ := Diagnostic.ofFindings_congr h ws context (located results)
  refine ⟨?_, hcache⟩
  simp only [conclude, hds]

end Run

namespace Workspace

variable (ws : Workspace) (cache : LineCache) (context : Nat) (request : RunRequest)

theorem run_of_refused {cause : RunError} (h : Run.enabledChecks request.checks = .error cause) :
    ws.run cache context request = (.error cause, cache, []) := by
  rw [run, h]

theorem run_of_undiscovered {checks : List Check} {cause : DiscoveryError}
    (hchecks : Run.enabledChecks request.checks = .ok checks)
    (h : (ws.discover request.patterns request.root).1 = .error cause) :
    (ws.run cache context request).1 = .error (.discovery cause) ∧
      (ws.run cache context request).2.1 = cache := by
  rw [run, hchecks]
  dsimp only
  split
  · next heq => rw [heq] at h; cases h; exact ⟨rfl, rfl⟩
  · next heq => rw [heq] at h; cases h

theorem run_of_discovered {checks : List Check} {files : List String}
    (hchecks : Run.enabledChecks request.checks = .ok checks)
    (h : (ws.discover request.patterns request.root).1 = .ok files) :
    (ws.run cache context request).1 =
        .ok (Run.process ws cache context request.config checks request.elapsed files).1 ∧
      (ws.run cache context request).2.1 =
        (Run.process ws cache context request.config checks request.elapsed files).2.1 := by
  rw [run, hchecks]
  dsimp only
  split
  · next heq => rw [heq] at h; cases h
  · next heq => rw [heq] at h; cases h; exact ⟨rfl, rfl⟩

theorem exists_runs (jobs : Int) :
    ∃ result after, ws.Runs cache context request jobs result after := by
  cases hchecks : Run.enabledChecks request.checks with
  | error cause => exact ⟨_, _, .refused hchecks⟩
  | ok checks =>
    cases hfiles : (ws.discover request.patterns request.root).1 with
    | error cause => exact ⟨_, _, .undiscovered hchecks hfiles⟩
    | ok files =>
      by_cases hfew : jobs ≤ 1 ∨ files.length ≤ 1
      · exact ⟨_, _, .inOrder hchecks hfiles hfew⟩
      · obtain ⟨hjobs, hmany⟩ := not_or.mp hfew
        rw [Int.not_le] at hjobs
        rw [Nat.not_le] at hmany
        obtain ⟨pool, hwalk, hdone⟩ := Pool.exists_done ws request.config checks
          (Int.lt_trans Int.zero_lt_one hjobs) (.ofFiles cache files)
        exact ⟨_, _, .inPool hchecks hfiles hjobs hmany hwalk hdone⟩

/-- With any number of jobs a run comes to an end, and however the workers are scheduled, its result
is that of a run without workers and the cache knows the same afterwards. -/
theorem runs_agree (jobs : Int) :
    (∃ result after, ws.Runs cache context request jobs result after) ∧
      ∀ result after, ws.Runs cache context request jobs result after →
        result = (ws.run cache context request).1 ∧
          after.Agree (ws.run cache context request).2.1 := by
  refine ⟨ws.exists_runs cache context request jobs, ?_⟩
  rintro result after
    (h | ⟨hchecks, h⟩ | ⟨hchecks, hfiles, -⟩ | ⟨hchecks, hfiles, -, -, hwalk, hdone⟩)
  · rw [ws.run_of_refused cache context request h]
    exact ⟨rfl, .refl _⟩
  · obtain ⟨hresult, hcache⟩ := ws.run_of_undiscovered cache context request hchecks h
    rw [hresult, hcache]
    exact ⟨rfl, .refl _⟩
  · obtain ⟨hresult, hcache⟩ := ws.run_of_discovered cache context request hchecks hfiles
    rw [hresult, hcache]
    exact ⟨rfl, .refl _⟩
  · obtain ⟨hresult, hcache⟩ := ws.run_of_discovered cache context request hchecks hfiles
    obtain ⟨houtcomes, hknown⟩ := ((Pool.Inv.ofFiles _ _ _ _ _).walk hwalk).of_isDone hdone
    obtain ⟨hreport, hafter⟩ :=
      Run.conclude_congr hknown ws context _ request.elapsed (Pool.results _)
    rw [hresult, hcache]
    rw [houtcomes] at hreport hafter ⊢
    exact ⟨congrArg Except.ok hreport, hafter⟩

/-- Of two workers, the one with the second file may be the first to tell the cache. -/
theorem runs_agree_two_workers :
    let message : Entry := .file (Utf8.encode "alert('No')".toList)
      (.node { kind := "program", span := ⟨0, 11⟩ } [
        .node { kind := "call_expression", span := ⟨0, 11⟩ } [
          .node { kind := "identifier", span := ⟨0, 5⟩, field := some "function" } [],
          .node { kind := "arguments", span := ⟨5, 11⟩, field := some "arguments" } [
            .node { kind := "string", span := ⟨6, 10⟩ } []]]])
    let ws : Workspace := ⟨[], [(["a.js"], message), (["b.js"], message)], by decide⟩
    let config : Configuration := { Configuration.standard with allow := [] }
    let request : RunRequest := ⟨["a.js", "b.js"], config, ["calls"], .ofText ".", Binary64.zero⟩
    let a := ws.inspect config [.calls] "a.js"
    let b := ws.inspect config [.calls] "b.js"
    let pool : Pool := ⟨[("a.js", .finished a), ("b.js", .finished b)], [],
      a.prime (b.prime .empty "b.js") "a.js"⟩
    let result := Run.conclude ws pool.cache 2 [.calls] Binary64.zero (Pool.results pool.started)
    ws.Runs .empty 2 request 2 (.ok result.1) result.2.1 ∧
      pool.cache.entries.map Prod.fst = ["b.js", "a.js"] ∧
      .ok result.1 = (ws.run .empty 2 request).1 ∧
      result.2.1.Agree (ws.run .empty 2 request).2.1 := by
  intro message ws config request a b pool result
  have hwalk : Pool.Walk ws config [.calls] 2 (.ofFiles .empty ["a.js", "b.js"]) pool :=
    .head (.take [] "a.js" ["b.js"] .empty (by decide)) <|
    .head (.take [("a.js", .taken)] "b.js" [] .empty (by decide)) <|
    .head (.search [("a.js", .taken)] [] "b.js" [] .empty) <|
    .head (.search [] [("b.js", .searched b)] "a.js" [] .empty) <|
    .head (.tell [("a.js", .searched a)] [] "b.js" b [] .empty) <|
    .single (.tell [] [("b.js", .finished b)] "a.js" a [] (b.prime .empty "b.js"))
  have hdone : pool.IsDone := ⟨rfl, by simp [pool, Stage.isBusy]⟩
  have hfiles : (ws.discover request.patterns request.root).1 = .ok ["a.js", "b.js"] := by
    decide +kernel
  have hruns : ws.Runs .empty 2 request 2 (.ok result.1) result.2.1 :=
    .inPool rfl hfiles (by decide) (by decide) hwalk hdone
  obtain ⟨hresult, hafter⟩ := (runs_agree ws .empty 2 request 2).2 _ _ hruns
  exact ⟨hruns, by decide +kernel, hresult, hafter⟩

end Workspace

end HardcodedText
