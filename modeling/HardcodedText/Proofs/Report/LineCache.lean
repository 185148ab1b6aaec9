import HardcodedText.Report.Diagnostic

/-!
# What the line cache knows

A cache is told about files in some order and keeps what it was told first.  Only what `find?` says
about a path can be observed of a cache, so two caches that agree on every path show the same
frames.

* `LineCache.find?_learn`, `LineCache.find?_get`: what is known after something was learnt or asked.
* `Diagnostic.ofFindings_congr`: caches that agree give the same diagnostics, and agree afterwards.
* `Diagnostic.ofFindings_of_contains`: where all files are known, nothing is read.
-/

namespace HardcodedText

namespace LineCache

variable {cache cache' : LineCache} {ws : Workspace}

/-- Two caches know the same about every file. -/
def Agree (cache cache' : LineCache) : Prop :=
  ∀ path, cache.find? path = cache'.find? path

theorem Agree.refl (cache : LineCache) : Agree cache cache := fun _ ↦ rfl

/-- What is known already stays; only then does the new count. -/
theorem find?_learn (cache : LineCache) (path : String) (lines : Option (List String))
    (other : String) :
    (cache.learn path lines).find? other =
      (cache.find? other).or (if other = path then some lines else none) := by
  unfold learn
  split
  · next h =>
    split
    · next heq =>
      obtain ⟨known, hknown⟩ := Option.isSome_iff_exists.mp h
      rw [heq, hknown, Option.some_or]
    · rw [Option.or_none]
  · rw [find?, find?, List.lookup_append, List.lookup_cons, List.lookup_nil]
    split
    · next heq => rw [if_pos (by simpa using heq)]
    · next heq => rw [if_neg (by simpa using heq)]

theorem fst_get (cache : LineCache) (ws : Workspace) (path : String) :
    (cache.get ws path).1 = (cache.find? path).getD (load ws path).1 := by
  unfold get
  split
  · next h => rw [h, Option.getD_some]
  · next h => rw [h, Option.getD_none]

theorem find?_get (cache : LineCache) (ws : Workspace) (path other : String) :
    (cache.get ws path).2.1.find? other =
      (cache.find? other).or (if other = path then some (load ws path).1 else none) := by
  unfold get
  split
  · next h =>
    split
    · next heq => rw [heq, h, Option.some_or]
    · rw [Option.or_none]
  · exact find?_learn cache path _ other

/-- A file that is known is not read. -/
theorem get_of_find? {path : String} {lines : Option (List String)}
    (h : cache.find? path = some lines) : cache.get ws path = (lines, cache, []) := by
  rw [get, h]

theorem Agree.get (h : Agree cache cache') (ws : Workspace) (path : String) :
    (cache.get ws path).1 = (cache'.get ws path).1 ∧
      Agree (cache.get ws path).2.1 (cache'.get ws path).2.1 := by
  constructor
  · rw [fst_get, fst_get, h path]
  · intro other
    rw [find?_get, find?_get, h other]

end LineCache

namespace Diagnostic

variable {cache cache' : LineCache}

/-- Frames depend on a cache only through what it knows. -/
theorem ofFindings_congr (h : cache.Agree cache') (ws : Workspace) (context : Nat)
    (fs : List (String × Finding)) :
    (ofFindings ws context cache fs).1 = (ofFindings ws context cache' fs).1 ∧
      (ofFindings ws context cache fs).2.1.Agree (ofFindings ws context cache' fs).2.1 := by
  induction fs generalizing cache cache' with
  | nil => exact ⟨rfl, h⟩
  | cons pf fs ih =>
    obtain ⟨path, f⟩ := pf
    obtain ⟨hlines, hcache⟩ := h.get ws path
    obtain ⟨hds, hafter⟩ := ih hcache
    refine ⟨?_, hafter⟩
    simp only [ofFindings, ofFinding, frameAt]
    rw [hlines, hds]

/-- Where every file is known, the frames show what is known and the cache stays as it is. -/
theorem ofFindings_of_contains (ws : Workspace) (context : Nat) (fs : List (String × Finding))
    (h : ∀ pf ∈ fs, cache.contains pf.1) :
    (ofFindings ws context cache fs).1 = fs.map (fun pf ↦
        ⟨pf.2, (frameIn (cache.find? pf.1).join context pf.1 pf.2.line pf.2.column).1⟩) ∧
      (ofFindings ws context cache fs).2.1 = cache := by
  induction fs with
  | nil => exact ⟨rfl, rfl⟩
  | cons pf fs ih =>
    obtain ⟨path, f⟩ := pf
    obtain ⟨lines, hlines⟩ := Option.isSome_iff_exists.mp (h (path, f) List.mem_cons_self)
    obtain ⟨hds, hcache⟩ := ih fun pf hpf ↦ h pf (List.mem_cons_of_mem _ hpf)
    simp only [ofFindings, ofFinding, frameAt, LineCache.get_of_find? hlines, List.map_cons]
    refine ⟨?_, hcache⟩
    rw [hds, hlines, Option.join_some]

end Diagnostic

end HardcodedText
