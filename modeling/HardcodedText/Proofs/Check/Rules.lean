import HardcodedText.Proofs.Check.Independence

/-!
# One document under two sets of rules

What the checks make of a node depends on a few questions that they put to the rules: whether a text
is allowed, what the policy of an element is, whether a call shows its arguments.  Where two sets of
rules answer the questions of a check alike, it finds the same
(`Document.findings_congr_of_agreeOn`): no option of one check has an influence on the other.
-/

namespace HardcodedText

namespace Configuration

/-! ## Allowing more -/

/-- `AllowsMore c c'`: the rules `c'` have all the allow patterns of `c`, and ask a template with
expressions for at least as many fixed characters. -/
structure AllowsMore (c c' : Configuration) : Prop where
  /-- No allow pattern is lost. -/
  allow : c.allow ⊆ c'.allow
  /-- No shorter template counts as text. -/
  minimum : c.minimum ≤ c'.minimum

namespace AllowsMore

variable {c c' : Configuration}

theorem allows (h : c.AllowsMore c') {value : String} (hvalue : c.allows value) :
    c'.allows value := by
  rw [Configuration.allows, Bool.or_eq_true, List.any_eq_true] at *
  rcases hvalue with hblank | ⟨p, hp, haccepts⟩
  · exact .inl hblank
  · exact .inr ⟨p, h.allow hp, haccepts⟩

theorem not_allows (h : c.AllowsMore c') {value : String} (hvalue : !c'.allows value) :
    !c.allows value := by
  rw [Bool.not_eq_true', Bool.eq_false_iff] at *
  intro hallowed
  exact hvalue (h.allows hallowed)

theorem isHardcodedTemplate (h : c.AllowsMore c') {parts : List String} {expressions : Nat}
    (ht : c'.isHardcodedTemplate parts expressions) : c.isHardcodedTemplate parts expressions := by
  unfold Configuration.isHardcodedTemplate at *
  by_cases hnone : expressions = 0
  · rw [if_pos hnone] at *
    exact h.not_allows ht
  · rw [if_neg hnone, decide_eq_true_eq] at *
    exact Nat.le_trans h.minimum ht

/-- What is hardcoded text although more is allowed is hardcoded text. -/
theorem isHardcoded (h : c.AllowsMore c') {n : Node} (hn : c'.isHardcoded n) :
    c.isHardcoded n := by
  fun_induction Configuration.isHardcoded c' n with
  | case1 => exact h.not_allows hn
  | case2 => exact h.isHardcodedTemplate hn
  | case3 _ n ih => exact ih hn
  | case4 => cases hn

theorem isRefused (h : c.AllowsMore c') {policy : Policy} {n : Node}
    (hn : c'.isRefused policy n) : c.isRefused policy n := by
  fun_induction Configuration.isRefused c' policy n with
  | case1 | case2 =>
    rw [Configuration.isRefused, Bool.and_eq_true] at *
    exact ⟨hn.1, h.not_allows hn.2⟩
  | case3 => exact hn
  | case4 =>
    rw [Configuration.isRefused, Bool.and_eq_true] at *
    exact ⟨hn.1, h.isHardcodedTemplate hn.2⟩
  | case5 _ n ih => exact ih hn
  | case6 => cases hn

end AllowsMore

/-! ## The options of a check -/

/-- `AgreeOn check c c'`: the rules `c` and `c'` differ at most in options of the other check.  The
policies of elements are the same if they are found under the same names. -/
def AgreeOn : Check → Configuration → Configuration → Prop
  | .markup, c, c' =>
    c'.allow = c.allow ∧ c'.minimum = c.minimum ∧ c'.policies.fallback = c.policies.fallback ∧
      (∀ name, c'.policies.elements.lookup name = c.policies.elements.lookup name) ∧
      ∀ name, c'.policies.components.lookup name = c.policies.components.lookup name
  | .calls, c, c' => c' = { c with policies := c'.policies }

variable {c c' : Configuration}

theorem allowsMore_of_eq (hallow : c'.allow = c.allow) (hminimum : c'.minimum = c.minimum) :
    c.AllowsMore c' :=
  ⟨hallow ▸ List.Subset.refl _, Nat.le_of_eq hminimum.symm⟩

theorem isHardcoded_congr (hallow : c'.allow = c.allow) (hminimum : c'.minimum = c.minimum) :
    c'.isHardcoded = c.isHardcoded := by
  funext n
  rw [Bool.eq_iff_iff]
  exact ⟨(allowsMore_of_eq hallow hminimum).isHardcoded,
    (allowsMore_of_eq hallow.symm hminimum.symm).isHardcoded⟩

theorem isRefused_congr (hallow : c'.allow = c.allow) (hminimum : c'.minimum = c.minimum) :
    c'.isRefused = c.isRefused := by
  funext policy n
  rw [Bool.eq_iff_iff]
  exact ⟨(allowsMore_of_eq hallow hminimum).isRefused,
    (allowsMore_of_eq hallow.symm hminimum.symm).isRefused⟩

end Configuration

namespace Scope

/-! ## What depends on which options -/

section

variable {c c' : Configuration} (h : Configuration.AgreeOn .markup c c') (path : String)
  (imports : List Import) (name : String)

include h

theorem policyOf_congr : policyOf ⟨c', path, imports⟩ name = policyOf ⟨c, path, imports⟩ name := by
  obtain ⟨-, -, hfallback, helements, hcomponents⟩ := h
  simp only [policyOf, hfallback, helements, hcomponents]
  rfl

theorem textFindings_congr (children : List Node) :
    textFindings ⟨c', path, imports⟩ name children =
      textFindings ⟨c, path, imports⟩ name children := by
  have hrefused := Configuration.isRefused_congr h.1 h.2.1
  simp only [textFindings, policyOf_congr h, hrefused]
  rfl

theorem attributeFindings_congr (attributes : List (Attribute Node)) :
    attributeFindings ⟨c', path, imports⟩ name attributes =
      attributeFindings ⟨c, path, imports⟩ name attributes := by
  have hrefused := Configuration.isRefused_congr h.1 h.2.1
  rw [attributeFindings, attributeFindings, policyOf_congr h]
  refine congrArg (List.filterMap · _) (funext fun a ↦ ?_)
  simp only [attributeFinding?, hrefused]
  rfl

end

variable {scope scope' : Scope} {checks : List Check}

/-- Scopes that differ in what they make of no node make the same findings on a walk. -/
theorem collect_congr {ns : List Node}
    (hfindings : ∀ n ∈ ns, ∀ inspected,
      scope'.findingsAt checks inspected n = scope.findingsAt checks inspected n)
    (hspans : ∀ n ∈ ns, scope'.spansAt checks n = scope.spansAt checks n)
    (inspected : List Span) :
    scope'.collect checks inspected ns = scope.collect checks inspected ns := by
  induction ns generalizing inspected with
  | nil => rfl
  | cons n ns ih =>
    obtain ⟨hn, hns⟩ := List.forall_mem_cons.mp hfindings
    obtain ⟨hn', hns'⟩ := List.forall_mem_cons.mp hspans
    rw [collect_cons, collect_cons, hn, hn', ih hns hns']

/-! ### Calls and properties have no policies -/

variable (scope) (policies : Policies)

/-- The same scope with other policies. -/
def withPolicies : Scope := { scope with config := { scope.config with policies := policies } }

theorem isHardcoded_withPolicies :
    (scope.withPolicies policies).config.isHardcoded = scope.config.isHardcoded :=
  Configuration.isHardcoded_congr rfl rfl

theorem callFindings_withPolicies (callee : Node) (arguments : List Node) :
    (scope.withPolicies policies).callFindings callee arguments =
      scope.callFindings callee arguments := by
  have hexposures : (scope.withPolicies policies).exposures callee arguments =
      scope.exposures callee arguments := rfl
  rw [callFindings, callFindings, hexposures]
  refine congrArg (List.filterMap · _) (funext fun e ↦ ?_)
  cases e <;> simp only [exposureFinding?, isHardcoded_withPolicies] <;> rfl

theorem propertyFinding?_withPolicies (key : Option String) (n : Node) :
    (scope.withPolicies policies).propertyFinding? key n = scope.propertyFinding? key n := by
  have hfacing : (scope.withPolicies policies).config.isUserFacing = scope.config.isUserFacing :=
    rfl
  rw [propertyFinding?, propertyFinding?, hfacing]
  split
  · cases n <;> simp only [valueFinding?, isHardcoded_withPolicies] <;> rfl
  · rfl

end Scope

/-! ## The findings of a check -/

namespace Document

variable (doc : Document) {c c' : Configuration}

theorem filter_check_findings (config : Configuration) {checks : List Check} {check : Check}
    (h : check ∈ checks) :
    (doc.findings config checks).filter (·.check = check) = doc.findings config [check] := by
  rw [findings, findings, Finding.filter_sort, ← filter_check_rawFindings doc config h]
  exact congrArg _ (Finding.filter_firsts (·.kind.check = check) _)

theorem filter_check_findings_of_notMem (config : Configuration) {checks : List Check}
    {check : Check} (h : check ∉ checks) :
    (doc.findings config checks).filter (·.check = check) = [] := by
  refine List.filter_eq_nil_iff.mpr fun f hf hcheck ↦ h ?_
  rw [← of_decide_eq_true hcheck]
  exact check_mem_of_mem_rawFindings (doc.findings_subset config checks hf)

/-- Only what a check finds alone has to be compared. -/
theorem filter_check_findings_congr {check : Check}
    (h : doc.rawFindings c' [check] = doc.rawFindings c [check]) (checks : List Check) :
    (doc.findings c' checks).filter (·.check = check) =
      (doc.findings c checks).filter (·.check = check) := by
  by_cases hcheck : check ∈ checks
  · rw [filter_check_findings doc c' hcheck, filter_check_findings doc c hcheck, findings, findings,
      h]
  · rw [filter_check_findings_of_notMem doc c' hcheck, filter_check_findings_of_notMem doc c hcheck]

/-- The check of markup asks about allowed texts and policies only. -/
theorem rawFindings_markup_congr (h : Configuration.AgreeOn .markup c c') :
    doc.rawFindings c' [.markup] = doc.rawFindings c [.markup] := by
  refine Scope.collect_congr (fun n hn inspected ↦ ?_) (fun n _ ↦ ?_) []
  · cases n with
    | element site name attributes children =>
      simp only [scope, Scope.findingsAt, Scope.textFindings_congr h,
        Scope.attributeFindings_congr h]
    | property site key value => exact absurd (properties_of_property_mem_nodes hn) Bool.noConfusion
    | _ => rfl
  · cases n <;> rfl

/-- The check of calls does not ask about policies. -/
theorem rawFindings_calls_congr (h : Configuration.AgreeOn .calls c c') :
    doc.rawFindings c' [.calls] = doc.rawFindings c [.calls] := by
  obtain ⟨policies, rfl⟩ : ∃ policies, c' = { c with policies := policies } := ⟨_, h⟩
  have hscope : doc.scope { c with policies := policies } = (doc.scope c).withPolicies policies :=
    rfl
  rw [rawFindings, rawFindings, hscope]
  refine Scope.collect_congr (fun n _ inspected ↦ ?_) (fun n _ ↦ ?_) []
  · cases n <;> simp only [Scope.findingsAt, Scope.callFindings_withPolicies,
      Scope.propertyFinding?_withPolicies]
    rfl
  · cases n <;> rfl

/-- **No option of one check has an influence on the other.**  Rules that agree on the options of a
check make it find the same, in the same order, whatever else they say and whatever other check is
run. -/
theorem findings_congr_of_agreeOn (checks : List Check) {check : Check}
    (h : Configuration.AgreeOn check c c') :
    (doc.findings c' checks).filter (·.check = check) =
      (doc.findings c checks).filter (·.check = check) := by
  apply filter_check_findings_congr
  cases check with
  | markup => exact doc.rawFindings_markup_congr h
  | calls => exact doc.rawFindings_calls_congr h

/-- In `toast('No');<b>Hi</b>` both checks find something.  Without any rules about calls the check
of markup finds what it found, and with text allowed in all elements the check of calls does. -/
theorem findings_congr_of_agreeOn_toast :
    let doc : Document := .ofText "a.tsx" "toast('No');<b>Hi</b>" <|
      .node { kind := "program", span := ⟨0, 21⟩ } [
        .node { kind := "call_expression", span := ⟨0, 11⟩ } [
          .node { kind := "identifier", span := ⟨0, 5⟩, field := some "function" } [],
          .node { kind := "arguments", span := ⟨5, 11⟩, field := some "arguments" } [
            .node { kind := "string", span := ⟨6, 10⟩ } []]],
        .node { kind := "jsx_element", span := ⟨12, 21⟩ } [
          .node { kind := "jsx_opening_element", span := ⟨12, 15⟩, field := some "open_tag" } [
            .node { kind := "identifier", span := ⟨13, 14⟩, field := some "name" } []],
          .node { kind := "jsx_text", span := ⟨15, 17⟩ } []]]
    let silent : Configuration :=
      { Configuration.toasts with calls := [], properties := [], freeStanding := false }
    let lenient : Configuration :=
      { Configuration.toasts with policies := ⟨⟨[], true, true⟩, [], []⟩ }
    Configuration.AgreeOn .markup .toasts silent ∧ Configuration.AgreeOn .calls .toasts lenient ∧
      (doc.rawFindings .toasts Check.all).map Finding.value = ["No", "Hi"] ∧
      (doc.rawFindings silent Check.all).map Finding.value = ["Hi"] ∧
      (doc.rawFindings lenient Check.all).map Finding.value = ["No"] ∧
      (doc.findings silent Check.all).filter (·.check = .markup) =
        (doc.findings .toasts Check.all).filter (·.check = .markup) ∧
      (doc.findings lenient Check.all).filter (·.check = .calls) =
        (doc.findings .toasts Check.all).filter (·.check = .calls) := by
  intro doc silent lenient
  have hmarkup : Configuration.AgreeOn .markup .toasts silent :=
    ⟨rfl, rfl, rfl, fun _ ↦ rfl, fun _ ↦ rfl⟩
  have hcalls : Configuration.AgreeOn .calls .toasts lenient := rfl
  refine ⟨hmarkup, hcalls, ?_, ?_, ?_, findings_congr_of_agreeOn _ _ hmarkup,
    findings_congr_of_agreeOn _ _ hcalls⟩
  all_goals decide +kernel

end Document

end HardcodedText
