import HardcodedText.Proofs.Run.Settled
import HardcodedText.Proofs.Session.WriteOnce

/-!
# Making a run again

Two consecutive runs of a session with the same request, between which the files stay as they are,
answer the same, and the second leaves the line cache as the first left it (`Session.run_again`).
What the cache knew before the first run does not matter.
-/

namespace HardcodedText

namespace Session

/-- What a run that was a step answers. -/
def answerOf (result : Except RunError RunReport) : Except Failure Answer :=
  (result.mapError .run).map .result

theorem step_run (s : Session) (request : RunRequest) :
    (s.step (.run request)).1 = answerOf (s.workspace.run s.cache s.context request).1 ∧
      (s.step (.run request)).2.1.workspace = s.workspace ∧
      (s.step (.run request)).2.1.context = s.context := by
  unfold step
  dsimp only
  split <;> next h => rw [h]; exact ⟨rfl, rfl, rfl⟩

/-- **A run that is made again answers the same.**  The files stay as they are, and whatever the
cache knew at first, the second of two runs with the same request ends as the first did, with the
same diagnostics, verdicts and counts or the same failure; only the time that it takes may differ.
It does not change the cache any more.  This holds of the steps of a session, and of runs by several
workers however they are scheduled. -/
theorem run_again (s : Session) (request : RunRequest) (jobs : Int) (elapsed : Binary64) :
    let again := { request with elapsed }
    let first := s.step (.run request)
    let second := first.2.1.step (.run again)
    (∃ result, first.1 = answerOf result ∧
      second.1 = answerOf (result.map fun r ↦ { r with duration := elapsed }) ∧
      second.2.1.cache = first.2.1.cache) ∧
    ∀ result after, s.workspace.Runs s.cache s.context request jobs result after →
      (∃ result' after', s.workspace.Runs after s.context again jobs result' after') ∧
      ∀ result' after', s.workspace.Runs after s.context again jobs result' after' →
        result' = result.map (fun r ↦ { r with duration := elapsed }) ∧ after' = after := by
  intro again first second
  constructor
  · obtain ⟨hanswer, hworkspace, hcontext⟩ := s.step_run request
    obtain ⟨hanswer', -⟩ := first.2.1.step_run again
    have hcache := s.cache_step_run request
    have hcache' := first.2.1.cache_step_run again
    rw [hworkspace, hcontext, hcache] at hanswer' hcache'
    have hfirst := s.workspace.runs_run s.cache s.context request
    obtain ⟨hresult, hafter⟩ := hfirst.again (s.workspace.runs_run _ s.context again)
    refine ⟨(s.workspace.run s.cache s.context request).1, hanswer, ?_, ?_⟩
    · exact hanswer'.trans (congrArg answerOf hresult)
    · exact hcache'.trans (hafter.trans hcache.symm)
  · intro result after hfirst
    exact ⟨s.workspace.exists_runs after s.context again jobs,
      fun result' after' hsecond ↦ hfirst.again hsecond⟩

/-- Of three files, the cache has an old text for one and could not read another: both stay as they
are known, and only the third is learnt by the first run. -/
theorem run_again_stale :
    let message : Entry := .file (Utf8.encode "alert('No')".toList)
      (.node { kind := "program", span := ⟨0, 11⟩ } [
        .node { kind := "call_expression", span := ⟨0, 11⟩ } [
          .node { kind := "identifier", span := ⟨0, 5⟩, field := some "function" } [],
          .node { kind := "arguments", span := ⟨5, 11⟩, field := some "arguments" } [
            .node { kind := "string", span := ⟨6, 10⟩ } []]]])
    let s : Session := {
      workspace := ⟨[], [(["a.js"], message), (["b.js"], message), (["c.js"], message)], by decide⟩
      cache := ⟨[("a.js", some ["old"]), ("b.js", none)]⟩
      context := 2 }
    let config : Configuration := { Configuration.standard with allow := [] }
    let request : RunRequest := ⟨["a.js", "b.js", "c.js"], config, ["calls"], .ofText ".",
      Binary64.zero⟩
    let first :=
      Run.process s.workspace s.cache 2 config [.calls] Binary64.zero ["a.js", "b.js", "c.js"]
    s.workspace.Runs s.cache 2 request 1 (.ok first.1) first.2.1 ∧
      first.2.1.entries =
        [("a.js", some ["old"]), ("b.js", none), ("c.js", some ["alert('No')"])] ∧
      first.1.diagnostics.map Diagnostic.frame =
        ["> 1 | old\n    |    ^", "[code frame unavailable: cannot read b.js]",
          "> 1 | alert('No')\n    |       ^"] ∧
      ∀ result after, s.workspace.Runs first.2.1 2 request 1 result after →
        result = .ok first.1 ∧ after = first.2.1 := by
  intro message s config request first
  have hfiles : (s.workspace.discover request.patterns request.root).1 =
      .ok ["a.js", "b.js", "c.js"] := by
    decide +kernel
  have hfirst : s.workspace.Runs s.cache 2 request 1 (.ok first.1) first.2.1 :=
    .inOrder rfl hfiles (.inl (Int.le_refl 1))
  exact ⟨hfirst, by decide +kernel, by decide +kernel,
    ((run_again s request 1 Binary64.zero).2 _ _ hfirst).2⟩

end Session

end HardcodedText
