import HardcodedText.Check.Scan
import HardcodedText.Proofs.Check.Calls
import HardcodedText.Proofs.Finding
import HardcodedText.Proofs.Node.Walk

/-!
# A scan step by step

`Scope.collect` goes through the nodes of a walk and keeps in mind which properties have been
inspected.  Here a single step of it is taken out: what a node gives rise to (`Scope.findingsAt`)
and what it adds to the inspected properties (`Scope.spansAt`).  A walk can then be cut anywhere
(`Scope.collect_append`), and every finding traced to the node that gave rise to it
(`Scope.exists_of_mem_collect`).
-/

namespace HardcodedText

namespace Scope

variable (scope : Scope) (checks : List Check)

/-- The findings that a node of a walk gives rise to when the given properties are `inspected`. -/
def findingsAt (inspected : List Span) : Node → List Finding
  | .element _ name attributes children =>
    if .markup ∈ checks then
      scope.textFindings name children ++ scope.attributeFindings name attributes
    else []
  | .call _ callee arguments =>
    if .calls ∈ checks then scope.callFindings callee arguments else []
  | .property site key n =>
    if site.span ∈ inspected then [] else (scope.propertyFinding? key n).toList
  | _ => []

/-- The properties that are inspected at a node of a walk. -/
def spansAt : Node → List Span
  | .call _ callee arguments =>
    if .calls ∈ checks then scope.inspectedSpans callee arguments else []
  | _ => []

/-- The properties that have been inspected after some nodes of a walk. -/
def spansIn (nodes : List Node) : List Span :=
  nodes.flatMap (scope.spansAt checks)

theorem spansIn_cons (n : Node) (ns : List Node) :
    scope.spansIn checks (n :: ns) = scope.spansAt checks n ++ scope.spansIn checks ns :=
  List.flatMap_cons

theorem collect_nil (inspected : List Span) : scope.collect checks inspected [] = [] := rfl

theorem collect_cons (inspected : List Span) (n : Node) (rest : List Node) :
    scope.collect checks inspected (n :: rest) =
      scope.findingsAt checks inspected n ++
        scope.collect checks (inspected ++ scope.spansAt checks n) rest := by
  cases n with
  | call site callee arguments =>
    rw [collect, findingsAt, spansAt]
    split <;> simp
  | _ => simp [collect, findingsAt, spansAt]

theorem collect_append (inspected : List Span) (ns ms : List Node) :
    scope.collect checks inspected (ns ++ ms) =
      scope.collect checks inspected ns ++
        scope.collect checks (inspected ++ scope.spansIn checks ns) ms := by
  induction ns generalizing inspected with
  | nil => simp [collect_nil, spansIn]
  | cons n ns ih =>
    rw [List.cons_append, collect_cons, collect_cons, ih]
    simp [spansIn]

variable {scope checks}

/-- Each finding is made at a node, and by then at least the properties given in advance are
inspected. -/
theorem exists_of_mem_collect {inspected : List Span} {ns : List Node} {f : Finding}
    (h : f ∈ scope.collect checks inspected ns) :
    ∃ n ∈ ns, ∃ seen, inspected ⊆ seen ∧ f ∈ scope.findingsAt checks seen n := by
  induction ns generalizing inspected with
  | nil => cases h
  | cons n ns ih =>
    rw [collect_cons, List.mem_append] at h
    rcases h with h | h
    · exact ⟨n, List.mem_cons_self, inspected, List.Subset.refl _, h⟩
    · obtain ⟨m, hm, seen, hseen, hf⟩ := ih h
      exact ⟨m, List.mem_cons_of_mem _ hm, seen,
        fun s hs ↦ hseen (List.mem_append_left _ hs), hf⟩

/-- A finding is made at a node when the properties are inspected that the nodes before it
inspect. -/
theorem mem_collect_iff {inspected : List Span} {ns : List Node} {f : Finding} :
    f ∈ scope.collect checks inspected ns ↔ ∃ before n after, ns = before ++ n :: after ∧
      f ∈ scope.findingsAt checks (inspected ++ scope.spansIn checks before) n := by
  constructor
  · intro h
    induction ns generalizing inspected with
    | nil => cases h
    | cons n ns ih =>
      rw [collect_cons, List.mem_append] at h
      rcases h with h | h
      · exact ⟨[], n, ns, rfl, by simpa [spansIn] using h⟩
      · obtain ⟨before, m, after, rfl, hf⟩ := ih h
        refine ⟨n :: before, m, after, rfl, ?_⟩
        rwa [spansIn_cons, ← List.append_assoc]
  · rintro ⟨before, n, after, rfl, hf⟩
    rw [collect_append, collect_cons]
    exact List.mem_append_right _ (List.mem_append_left _ hf)

end Scope

/-- The check that looks at a node of a walk. -/
def Node.family? : Node → Option Check
  | .element .. => some .markup
  | .call .. | .property .. => some .calls
  | _ => none

namespace Scope

variable {scope : Scope} {checks : List Check}

/-! ## Findings belong to the check that made them -/

theorem check_of_mem_textFindings {name : String} {children : List Node} {f : Finding}
    (h : f ∈ scope.textFindings name children) : f.check = .markup := by
  obtain ⟨n, -, rfl⟩ := List.mem_map.mp h
  rfl

theorem check_of_mem_attributeFindings {name : String} {attributes : List (Attribute Node)}
    {f : Finding} (h : f ∈ scope.attributeFindings name attributes) : f.check = .markup := by
  obtain ⟨a, -, ha⟩ := List.mem_filterMap.mp h
  unfold attributeFinding? at ha
  split at ha
  · obtain ⟨-, ha⟩ := Option.ite_none_right_eq_some.mp ha
    cases ha
    rfl
  · cases ha

theorem check_of_mem_callFindings {callee : Node} {arguments : List Node} {f : Finding}
    (h : f ∈ scope.callFindings callee arguments) : f.check = .calls := by
  by_cases hn : scope.config.notifies callee.path
  · obtain ⟨o, ho, rfl⟩ := (mem_callFindings_iff hn).mp h
    cases ho <;> rfl
  · rw [callFindings_of_not_notifies hn] at h
    cases h

theorem check_of_propertyFinding? {key : Option String} {n : Node} {f : Finding}
    (h : scope.propertyFinding? key n = some f) : f.check = .calls := by
  obtain ⟨-, h⟩ := Option.ite_none_right_eq_some.mp h
  unfold valueFinding? at h
  split at h
  · split at h <;> cases h
    rfl
  · obtain ⟨-, h⟩ := Option.ite_none_right_eq_some.mp h
    cases h
    rfl

theorem family?_of_mem_findingsAt {inspected : List Span} {n : Node} {f : Finding}
    (h : f ∈ scope.findingsAt checks inspected n) : n.family? = some f.check := by
  revert h
  fun_cases findingsAt scope checks inspected n with
  | case1 =>
    intro h
    rcases List.mem_append.mp h with h | h
    · rw [check_of_mem_textFindings h]; rfl
    · rw [check_of_mem_attributeFindings h]; rfl
  | case3 =>
    intro h
    rw [check_of_mem_callFindings h]; rfl
  | case6 =>
    intro h
    rw [check_of_propertyFinding? (Option.mem_toList.mp h)]; rfl
  | _ => simp

end Scope

/-! ## The findings of a document -/

namespace Document

theorem findings_subset (doc : Document) (config : Configuration) (checks : List Check) :
    doc.findings config checks ⊆ doc.rawFindings config checks := by
  intro f hf
  exact Finding.firsts_subset _ (Finding.mem_sort_iff.mp hf)

/-- Dropping repeated findings loses no key. -/
theorem exists_mem_findings {doc : Document} {config : Configuration} {checks : List Check}
    {f : Finding} (h : f ∈ doc.rawFindings config checks) :
    ∃ g ∈ doc.findings config checks, g.key = f.key := by
  obtain ⟨g, hg, hkey⟩ := Finding.exists_mem_firsts h
  exact ⟨g, Finding.mem_sort_iff.mpr hg, hkey⟩

theorem eq_findings_of_scan {doc : Document} {config : Configuration} {checks : List Check}
    {fs : List Finding} (h : doc.scan config checks = .ok fs) :
    fs = doc.findings config checks := by
  unfold scan check at h
  split at h <;> cases h
  rfl

/-- Whether a document can be scanned has nothing to do with the rules. -/
theorem scan_eq_ok_of_scan {doc : Document} {config : Configuration} {checks : List Check}
    {fs : List Finding} (h : doc.scan config checks = .ok fs) (config' : Configuration) :
    doc.scan config' checks = .ok (doc.findings config' checks) := by
  unfold scan check at *
  split at h
  · cases h
  · rw [if_neg ‹_›]
    rfl

end Document

end HardcodedText
