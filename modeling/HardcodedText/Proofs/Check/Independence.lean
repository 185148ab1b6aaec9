import HardcodedText.Proofs.Check.Scan
import HardcodedText.Proofs.Finding

/-!
# The checks do not interfere with each other

Both checks write to one list of findings, from which repeated ones are dropped and which is then
sorted.  Still, what one of them finds does not depend on whether the other one runs, too
(`Document.filter_check_findings_all`): the nodes of a walk belong to one check each, the kind of a
finding is part of its key, and sorting is stable.
-/

namespace HardcodedText

namespace Scope

variable {scope : Scope} {checks : List Check}

theorem filter_check_findingsAt (c : Check) (inspected : List Span) (n : Node) :
    (scope.findingsAt checks inspected n).filter (·.check = c) =
      if n.family? = some c then scope.findingsAt checks inspected n else [] := by
  split
  · next h =>
    refine List.filter_eq_self.mpr fun f hf ↦ ?_
    rw [family?_of_mem_findingsAt hf] at h
    simpa using h
  · next h =>
    refine List.filter_eq_nil_iff.mpr fun f hf hc ↦ h ?_
    rw [family?_of_mem_findingsAt hf, of_decide_eq_true hc]

theorem spansAt_eq_nil {n : Node} (h : n.family? ≠ some .calls) : scope.spansAt checks n = [] := by
  cases n <;> first | rfl | exact absurd rfl h

/-- Only the calls that were made matter for a property, and nothing but markup for markup. -/
theorem findingsAt_congr_inspected {n : Node} (h : n.family? ≠ some .calls)
    (inspected inspected' : List Span) :
    scope.findingsAt checks inspected n = scope.findingsAt checks inspected' n := by
  cases n <;> first | rfl | exact absurd rfl h

/-- The findings of a check are those at its own nodes.  As long as only markup is looked at, it
makes no difference which properties are inspected. -/
theorem filter_check_collect (c : Check) {inspected inspected' : List Span}
    (h : c = .calls → inspected = inspected') (ns : List Node) :
    (scope.collect checks inspected ns).filter (·.check = c) =
      scope.collect checks inspected' (ns.filter (·.family? = some c)) := by
  induction ns generalizing inspected inspected' with
  | nil => rfl
  | cons n ns ih =>
    rw [collect_cons, List.filter_append, filter_check_findingsAt, List.filter_cons]
    by_cases hn : n.family? = some c
    · rw [if_pos hn, if_pos (decide_eq_true hn), collect_cons, ih fun hc ↦ by rw [h hc]]
      congr 1
      by_cases hc : c = .calls
      · rw [h hc]
      · exact findingsAt_congr_inspected (fun he ↦ hc (Option.some.inj (hn.symm.trans he))) _ _
    · rw [if_neg hn, if_neg (by simpa using hn), List.nil_append]
      refine ih fun hc ↦ ?_
      rw [spansAt_eq_nil (hc ▸ hn), List.append_nil, h hc]

/-- The nodes of a check are treated alike by all sets of checks that it is in. -/
theorem collect_congr_checks {c : Check} (hc : c ∈ checks) {ns : List Node}
    (hns : ∀ n ∈ ns, n.family? = some c) (inspected : List Span) :
    scope.collect checks inspected ns = scope.collect [c] inspected ns := by
  induction ns generalizing inspected with
  | nil => rfl
  | cons n ns ih =>
    have hn := hns n List.mem_cons_self
    rw [collect_cons, collect_cons, ih fun m hm ↦ hns m (List.mem_cons_of_mem _ hm)]
    cases n <;> cases hn <;> simp [findingsAt, spansAt, hc]

end Scope

namespace Document

@[simp] theorem family?_pairOfTree (doc : Document) (t : Tree) :
    (Node.pairOfTree doc t).family? = some .calls := rfl

/-- Whether properties are asked for makes no difference to the nodes of the other kinds. -/
theorem filter_family?_nodes (doc : Document) (c : Check) {p q : Bool} (h : c = .calls → p = q) :
    (doc.nodes p).filter (·.family? = some c) = (doc.nodes q).filter (·.family? = some c) := by
  rw [nodes_eq, nodes_eq, List.filter_filterMap, List.filter_filterMap]
  congr 1
  funext s
  by_cases hc : c = .calls
  · rw [h hc]
  · have hmarkup : c = .markup := by cases c <;> simp_all
    unfold Stop.node?
    -- Only elements remain, and whether a tree is one does not depend on the request.
    split
    · rfl
    · split
      · rfl
      · split <;> split <;> simp [hmarkup, Option.filter]

/-- A walk comes upon properties only if they are asked for. -/
theorem properties_of_property_mem_nodes {doc : Document} {p : Bool} {site : Site}
    {key : Option String} {n : Node} (h : .property site key n ∈ doc.nodes p) : p = true := by
  rw [nodes_eq, List.mem_filterMap] at h
  obtain ⟨s, -, hs⟩ := h
  unfold Stop.node? at hs
  split at hs
  · simp [Node.elementOfTree] at hs
  · split at hs
    · simp [Node.callOfTree] at hs
    · split at hs
      · next h => exact h.2.1
      · cases hs

theorem check_mem_of_mem_rawFindings {doc : Document} {config : Configuration}
    {checks : List Check} {f : Finding} (h : f ∈ doc.rawFindings config checks) :
    f.check ∈ checks := by
  obtain ⟨n, hn, seen, -, hf⟩ := Scope.exists_of_mem_collect h
  have hfamily := Scope.family?_of_mem_findingsAt hf
  cases n with
  | element site name attributes children =>
    rw [Scope.findingsAt] at hf
    split at hf
    · rw [← Option.some.inj hfamily]; assumption
    · cases hf
  | call site callee arguments =>
    rw [Scope.findingsAt] at hf
    split at hf
    · rw [← Option.some.inj hfamily]; assumption
    · cases hf
  | property site key value =>
    have := properties_of_property_mem_nodes hn
    rw [← Option.some.inj hfamily]
    simp_all
  | _ => cases hfamily

theorem filter_check_rawFindings (doc : Document) (config : Configuration) {checks : List Check}
    {c : Check} (hc : c ∈ checks) :
    (doc.rawFindings config checks).filter (·.check = c) = doc.rawFindings config [c] := by
  have hself : ∀ f ∈ doc.rawFindings config [c], decide (f.check = c) := by
    intro f hf
    simpa using check_mem_of_mem_rawFindings hf
  rw [← List.filter_eq_self.mpr hself, rawFindings, rawFindings,
    Scope.filter_check_collect c fun _ ↦ rfl, Scope.filter_check_collect c fun _ ↦ rfl,
    Scope.collect_congr_checks hc (by simp)]
  refine congrArg _ (doc.filter_family?_nodes c fun he ↦ ?_)
  subst he
  simp [hc]

/-- What a check finds when both run is what it finds alone. -/
theorem filter_check_findings_all (doc : Document) (config : Configuration) (c : Check) :
    (doc.findings config Check.all).filter (·.check = c) = doc.findings config [c] := by
  rw [findings, findings, Finding.filter_sort]
  refine congrArg _ ?_
  calc (Finding.firsts (doc.rawFindings config Check.all)).filter (·.check = c)
    _ = Finding.firsts ((doc.rawFindings config Check.all).filter (·.check = c)) :=
        Finding.filter_firsts (·.kind.check = c) _
    _ = Finding.firsts (doc.rawFindings config [c]) := by
        rw [filter_check_rawFindings doc config (by cases c <;> simp [Check.all])]

end Document

end HardcodedText
