import HardcodedText.Proofs.Check.Rules

/-!
# Looser rules, wider rules

* `Document.loosened_findings`: with more texts allowed, whatever is still found was found before,
  if perhaps with other words.  So a document that passed a check still passes it.
* `Document.widened_findings`: with more properties, more calls or free-standing properties to look
  at, everything that was found is still found, and what is new belongs to the check of calls.

The one thing that could upset this is that a property is passed over which a notification call has
inspected.  What a call inspects depends neither on the texts that are allowed nor on the properties
that the user gets to see.  It does depend on which calls are notification calls, and that is why
there may be more of those only while properties are not looked at on their own.
-/

namespace HardcodedText

/-! ## Findings at nodes -/

/-- What occurs in the arguments of a call occurs there under rules by which more properties are
shown and more texts are hardcoded. -/
theorem Occurs.mono {c c' : Configuration} (hproperties : c.properties ⊆ c'.properties)
    (hhardcoded : ∀ n, c.isHardcoded n → c'.isHardcoded n) {arguments : List Node} {o : Occurrence}
    (h : Occurs c arguments o) : Occurs c' arguments o := by
  cases h with
  | argument hs hn => exact .argument hs (hhardcoded _ hn)
  | property hs hkey hn => exact .property hs (hproperties hkey) (hhardcoded _ hn)
  | nested hs hkey hn => exact .nested hs (hproperties hkey) (hhardcoded _ hn)
  | element hs hkey hn => exact .element hs (hproperties hkey) (hhardcoded _ hn)

namespace Configuration

variable {c c' : Configuration}

theorem notifies_mono (h : c.calls ⊆ c'.calls) {path : String} (hpath : c.notifies path) :
    c'.notifies path := by
  rw [notifies, Bool.and_eq_true, List.any_eq_true] at *
  obtain ⟨hne, p, hp, haccepts⟩ := hpath
  exact ⟨hne, p, h hp, haccepts⟩

theorem isUserFacing_mono (h : c.properties ⊆ c'.properties) {key : Option String}
    (hkey : c.isUserFacing key) : c'.isUserFacing key := by
  rw [isUserFacing_iff] at *
  obtain ⟨k, rfl, hk⟩ := hkey
  exact ⟨k, rfl, h hk⟩

end Configuration

namespace Scope

variable {c c' : Configuration} {path : String} {imports : List Import} {checks : List Check}

theorem callFindings_subset (hcalls : c.calls ⊆ c'.calls)
    (hproperties : c.properties ⊆ c'.properties)
    (hhardcoded : ∀ n, c.isHardcoded n → c'.isHardcoded n) (callee : Node) (arguments : List Node) :
    callFindings ⟨c, path, imports⟩ callee arguments ⊆
      callFindings ⟨c', path, imports⟩ callee arguments := by
  intro f hf
  by_cases hn : c.notifies callee.path
  · obtain ⟨o, ho, rfl⟩ := (mem_callFindings_iff hn).mp hf
    apply (mem_callFindings_iff (Configuration.notifies_mono hcalls hn)).mpr
    exact ⟨o, ho.mono hproperties hhardcoded, rfl⟩
  · rw [callFindings_of_not_notifies hn] at hf
    cases hf

/-- What is inspected depends on the notification calls only. -/
theorem inspectedSpans_subset (hcalls : c.calls ⊆ c'.calls) (callee : Node)
    (arguments : List Node) :
    inspectedSpans ⟨c, path, imports⟩ callee arguments ⊆
      inspectedSpans ⟨c', path, imports⟩ callee arguments := by
  intro span hspan
  by_cases hn : c.notifies callee.path
  · apply (mem_inspectedSpans_iff (Configuration.notifies_mono hcalls hn)).mpr
    exact (mem_inspectedSpans_iff hn).mp hspan
  · rw [inspectedSpans, exposures, if_neg hn] at hspan
    cases hspan

theorem spansIn_subset (hcalls : c.calls ⊆ c'.calls) (ns : List Node) :
    spansIn ⟨c, path, imports⟩ checks ns ⊆ spansIn ⟨c', path, imports⟩ checks ns := by
  intro span hspan
  obtain ⟨n, hn, hspan⟩ := List.mem_flatMap.mp hspan
  refine List.mem_flatMap.mpr ⟨n, hn, ?_⟩
  cases n with
  | call site callee arguments =>
    rw [spansAt] at *
    split
    · rw [if_pos ‹_›] at hspan
      exact inspectedSpans_subset hcalls callee arguments hspan
    · rwa [if_neg ‹_›] at hspan
  | _ => exact hspan

end Scope

/-! ## Looser rules -/

namespace Configuration

/-- `Loosens c c'`: the rules `c'` are the rules `c`, except that they allow more. -/
structure Loosens (c c' : Configuration) : Prop extends AllowsMore c c' where
  /-- The same calls show their arguments. -/
  calls : c'.calls = c.calls
  /-- The same properties are seen by the user. -/
  properties : c'.properties = c.properties
  /-- The same is checked in markup elements. -/
  policies : c'.policies = c.policies
  /-- Properties are checked on their own by both or by neither. -/
  freeStanding : c'.freeStanding = c.freeStanding

end Configuration

/-- `Finding.SameSpot f g`: the findings stand in the same place and are of the same kind. -/
def Finding.SameSpot (f g : Finding) : Prop :=
  g.line = f.line ∧ g.column = f.column ∧ g.kind = f.kind

theorem Finding.SameSpot.refl (f : Finding) : f.SameSpot f := ⟨rfl, rfl, rfl⟩

namespace Configuration.Loosens

open Scope

variable {c c' : Configuration} {path : String} {imports : List Import} {checks : List Check}
  {f : Finding}

theorem policyOf_eq (h : c.Loosens c') (name : String) :
    policyOf ⟨c', path, imports⟩ name = policyOf ⟨c, path, imports⟩ name := by
  simp only [policyOf, h.policies]
  rfl

theorem textFindings_subset (h : c.Loosens c') (name : String) (children : List Node) :
    textFindings ⟨c', path, imports⟩ name children ⊆
      textFindings ⟨c, path, imports⟩ name children := by
  intro f hf
  obtain ⟨n, hn, rfl⟩ := List.mem_map.mp hf
  obtain ⟨hmem, hrefused⟩ := List.mem_filter.mp hn
  rw [h.policyOf_eq] at hrefused
  exact List.mem_map.mpr ⟨n, List.mem_filter.mpr ⟨hmem, h.isRefused hrefused⟩, rfl⟩

theorem attributeFindings_subset (h : c.Loosens c') (name : String)
    (attributes : List (Attribute Node)) :
    attributeFindings ⟨c', path, imports⟩ name attributes ⊆
      attributeFindings ⟨c, path, imports⟩ name attributes := by
  intro f hf
  obtain ⟨a, ha, hf⟩ := List.mem_filterMap.mp hf
  refine List.mem_filterMap.mpr ⟨a, ha, ?_⟩
  rw [h.policyOf_eq] at hf
  unfold attributeFinding? at *
  cases hvalue : a.value with
  | none => simp [hvalue] at hf
  | some n =>
    simp only [hvalue, Option.ite_none_right_eq_some, Bool.and_eq_true] at *
    obtain ⟨⟨hname, hrefused⟩, hf⟩ := hf
    exact ⟨⟨hname, h.isRefused hrefused⟩, hf⟩

/-- The value of a property that is still reported was reported before.  Of an array fewer elements
may be named now. -/
theorem exists_valueFinding? (h : c.Loosens c') {key : String} {n : Node}
    (hf : valueFinding? ⟨c', path, imports⟩ key n = some f) :
    ∃ g, valueFinding? ⟨c, path, imports⟩ key n = some g ∧ f.SameSpot g := by
  have hother : ∀ n : Node, c'.isHardcoded n = true ∧
      finding ⟨c', path, imports⟩ n (propertyRemark "" .objectProperty key n) = f →
      ∃ g, (c.isHardcoded n = true ∧
        finding ⟨c, path, imports⟩ n (propertyRemark "" .objectProperty key n) = g) ∧
          f.SameSpot g := by
    rintro n ⟨hn, rfl⟩
    exact ⟨_, ⟨h.isHardcoded hn, rfl⟩, .refl _⟩
  cases n with
  | array site elements =>
    simp only [valueFinding?] at *
    split at hf
    · cases hf
    · next first more hhard =>
      -- One element is enough for the array to be reported under the stricter rules, too.
      have hfirst : first ∈ elements.filter c'.isHardcoded := hhard ▸ List.mem_cons_self
      obtain ⟨hmem, hfirst⟩ := List.mem_filter.mp hfirst
      have hmem' := List.mem_filter.mpr ⟨hmem, h.isHardcoded hfirst⟩
      obtain ⟨first', more', hcons⟩ := List.exists_cons_of_ne_nil (List.ne_nil_of_mem hmem')
      rw [hcons]
      cases hf
      exact ⟨_, rfl, rfl, rfl, rfl⟩
  | _ =>
    simp only [valueFinding?, Option.ite_none_right_eq_some, Option.some.injEq] at *
    exact hother _ hf

theorem exists_propertyFinding? (h : c.Loosens c') {key : Option String} {n : Node}
    (hf : propertyFinding? ⟨c', path, imports⟩ key n = some f) :
    ∃ g, propertyFinding? ⟨c, path, imports⟩ key n = some g ∧ f.SameSpot g := by
  obtain ⟨hkey, hf⟩ := Option.ite_none_right_eq_some.mp hf
  obtain ⟨g, hg, hsame⟩ := h.exists_valueFinding? hf
  have hkey' : c.isUserFacing key := isUserFacing_mono (h.properties ▸ List.Subset.refl _) hkey
  exact ⟨g, (if_pos hkey').trans hg, hsame⟩

/-- What is still found at a node was found there before. -/
theorem exists_findingsAt (h : c.Loosens c') {inspected inspected' : List Span}
    (hinspected : inspected ⊆ inspected') {n : Node}
    (hf : f ∈ findingsAt ⟨c', path, imports⟩ checks inspected' n) :
    ∃ g ∈ findingsAt ⟨c, path, imports⟩ checks inspected n, f.SameSpot g := by
  cases n with
  | element site name attributes children =>
    rw [findingsAt] at *
    split at hf
    · refine ⟨f, ?_, .refl f⟩
      rw [if_pos ‹_›]
      rcases List.mem_append.mp hf with hf | hf
      · exact List.mem_append_left _ (h.textFindings_subset name children hf)
      · exact List.mem_append_right _ (h.attributeFindings_subset name attributes hf)
    · cases hf
  | call site callee arguments =>
    rw [findingsAt] at *
    split at hf
    · refine ⟨f, ?_, .refl f⟩
      rw [if_pos ‹_›]
      exact callFindings_subset (h.calls ▸ List.Subset.refl _) (h.properties ▸ List.Subset.refl _)
        (fun _ ↦ h.isHardcoded) callee arguments hf
    · cases hf
  | property site key n =>
    rw [findingsAt] at *
    split at hf
    · cases hf
    · next hnot =>
      obtain ⟨g, hg, hsame⟩ := h.exists_propertyFinding? (Option.mem_toList.mp hf)
      rw [if_neg fun hin ↦ hnot (hinspected hin)]
      exact ⟨g, Option.mem_toList.mpr hg, hsame⟩
  | _ => cases hf

end Configuration.Loosens

namespace Document

variable {doc : Document} {c c' : Configuration} {checks : List Check}

theorem exists_rawFindings_of_loosens (h : c.Loosens c') {f : Finding}
    (hf : f ∈ doc.rawFindings c' checks) : ∃ g ∈ doc.rawFindings c checks, f.SameSpot g := by
  obtain ⟨before, n, after, hns, hf⟩ := Scope.mem_collect_iff.mp hf
  rw [h.freeStanding] at hns
  have hspans : (doc.scope c).spansIn checks before ⊆ (doc.scope c').spansIn checks before :=
    Scope.spansIn_subset (h.calls ▸ List.Subset.refl _) before
  obtain ⟨g, hg, hsame⟩ := h.exists_findingsAt hspans hf
  exact ⟨g, Scope.mem_collect_iff.mpr ⟨before, n, after, hns, hg⟩, hsame⟩

theorem exists_findings_of_loosens (h : c.Loosens c') {f : Finding}
    (hf : f ∈ doc.findings c' checks) : ∃ g ∈ doc.findings c checks, f.SameSpot g := by
  obtain ⟨g, hg, hline, hcolumn, hkind⟩ :=
    exists_rawFindings_of_loosens h (doc.findings_subset c' checks hf)
  obtain ⟨g', hg', hkey⟩ := exists_mem_findings hg
  obtain ⟨hline', hcolumn', hkind', -⟩ := Finding.Key.mk.inj hkey
  exact ⟨g', hg', hline'.trans hline, hcolumn'.trans hcolumn, hkind'.trans hkind⟩

/-- A document passes a check under some rules: it can be scanned, and the check finds nothing. -/
def Passes (doc : Document) (config : Configuration) (checks : List Check) (check : Check) : Prop :=
  ∃ fs, doc.scan config checks = .ok fs ∧ ∀ f ∈ fs, f.check ≠ check

/-- **Loosening the rules never adds a finding.**  Under rules that allow more, there is a finding
only where there was one of the same kind before; so a document that passed a check passes it. -/
theorem loosened_findings (doc : Document) (checks : List Check) (h : c.Loosens c') :
    (∀ f ∈ doc.findings c' checks, ∃ g ∈ doc.findings c checks,
      g.line = f.line ∧ g.column = f.column ∧ g.kind = f.kind) ∧
    ∀ check, doc.Passes c checks check → doc.Passes c' checks check := by
  constructor
  · intro f hf
    exact exists_findings_of_loosens h hf
  · rintro check ⟨fs, hscan, hnone⟩
    refine ⟨_, scan_eq_ok_of_scan hscan c', fun f hf ↦ ?_⟩
    obtain ⟨g, hg, -, -, hkind⟩ := exists_findings_of_loosens h hf
    rw [eq_findings_of_scan hscan] at hnone
    have hcheck : g.check = f.check := congrArg Kind.check hkind
    exact hcheck ▸ hnone g hg

/-- Of `x={title:['OK','Hi']}` both texts are named, and the second one alone once the first one is
allowed: the finding is another one, in the same place. -/
theorem loosened_findings_array :
    let doc : Document := .ofText "a.ts" "x=\x7btitle:['OK','Hi']\x7d" <|
      .node { kind := "program", span := ⟨0, 21⟩ } [
        .node { kind := "object", span := ⟨2, 21⟩ } [
          .node { kind := "pair", span := ⟨3, 20⟩ } [
            .node { kind := "property_identifier", span := ⟨3, 8⟩, field := some "key" } [],
            .node { kind := "array", span := ⟨9, 20⟩, field := some "value" } [
              .node { kind := "string", span := ⟨10, 14⟩ } [],
              .node { kind := "string", span := ⟨15, 19⟩ } []]]]]
    let looser : Configuration := { Configuration.toasts with allow := [.substring "OK"] }
    Configuration.Loosens .toasts looser ∧
      (doc.findings .toasts [.calls]).map Finding.key = [⟨1, 9, .objectProperty, "OK, Hi"⟩] ∧
      (doc.findings looser [.calls]).map Finding.key = [⟨1, 9, .objectProperty, "Hi"⟩] ∧
      (∀ f ∈ doc.findings looser [.calls], ∃ g ∈ doc.findings .toasts [.calls],
        g.line = f.line ∧ g.column = f.column ∧ g.kind = f.kind) ∧
      doc.Passes .toasts [.calls] .markup ∧ doc.Passes looser [.calls] .markup := by
  intro doc looser
  have h : Configuration.Loosens .toasts looser :=
    ⟨⟨List.nil_subset _, Nat.le_refl _⟩, rfl, rfl, rfl, rfl⟩
  have hpasses : doc.Passes .toasts [.calls] .markup := ⟨_, rfl, by decide +kernel⟩
  refine ⟨h, ?_, ?_, (loosened_findings doc [.calls] h).1, hpasses,
    (loosened_findings doc [.calls] h).2 .markup hpasses⟩
  all_goals decide +kernel

end Document

/-! ## Wider rules -/

namespace Configuration

/-- `Widens c c'`: the rules `c'` are the rules `c`, except that there is more for the check of
calls to look at: more properties, free-standing ones too, or more notification calls, the last of
these only if properties are not checked on their own. -/
structure Widens (c c' : Configuration) : Prop where
  /-- The same texts are allowed. -/
  allow : c'.allow = c.allow
  /-- The same templates count as text. -/
  minimum : c'.minimum = c.minimum
  /-- The same is checked in markup elements. -/
  policies : c'.policies = c.policies
  /-- The user gets to see at least the same properties. -/
  properties : c.properties ⊆ c'.properties
  /-- Properties are still checked on their own, if they were. -/
  freeStanding : c.freeStanding → c'.freeStanding
  /-- At least the same calls show their arguments. -/
  calls : c.calls ⊆ c'.calls
  /-- No others do, where properties are checked on their own. -/
  fixedCalls : c'.freeStanding → c'.calls ⊆ c.calls

namespace Widens

open Scope

variable {c c' : Configuration} {path : String} {imports : List Import} {checks : List Check}

theorem agreeOn_markup (h : c.Widens c') : AgreeOn .markup c c' :=
  ⟨h.allow, h.minimum, congrArg Policies.fallback h.policies,
    fun _ ↦ by rw [h.policies], fun _ ↦ by rw [h.policies]⟩

theorem isHardcoded_eq (h : c.Widens c') : c'.isHardcoded = c.isHardcoded :=
  isHardcoded_congr h.allow h.minimum

theorem propertyFinding?_eq (h : c.Widens c') {key : Option String} {n : Node} {f : Finding}
    (hf : propertyFinding? ⟨c, path, imports⟩ key n = some f) :
    propertyFinding? ⟨c', path, imports⟩ key n = some f := by
  obtain ⟨hkey, hf⟩ := Option.ite_none_right_eq_some.mp hf
  rw [propertyFinding?, if_pos (isUserFacing_mono h.properties hkey), ← hf]
  cases n <;> simp only [valueFinding?, h.isHardcoded_eq] <;> rfl

/-- What is found at a node is still found there, unless it is a property that is inspected now. -/
theorem findingsAt_subset (h : c.Widens c') {inspected inspected' : List Span} {n : Node}
    (hinspected : ∀ site key value, n = .property site key value → inspected' ⊆ inspected) :
    findingsAt ⟨c, path, imports⟩ checks inspected n ⊆
      findingsAt ⟨c', path, imports⟩ checks inspected' n := by
  intro f hf
  cases n with
  | element site name attributes children =>
    simp only [findingsAt, textFindings_congr h.agreeOn_markup,
      attributeFindings_congr h.agreeOn_markup]
    exact hf
  | call site callee arguments =>
    rw [findingsAt] at *
    split at hf
    · rw [if_pos ‹_›]
      exact callFindings_subset h.calls h.properties (fun _ hn ↦ h.isHardcoded_eq ▸ hn) callee
        arguments hf
    · cases hf
  | property site key n =>
    rw [findingsAt] at *
    split at hf
    · cases hf
    · next hnot =>
      rw [if_neg fun hin ↦ hnot (hinspected site key n rfl hin)]
      exact Option.mem_toList.mpr (h.propertyFinding?_eq (Option.mem_toList.mp hf))
  | _ => exact hf

end Widens

end Configuration

namespace Document

variable {doc : Document} {c c' : Configuration} {checks : List Check}

/-- A walk on which properties are asked for comes upon all other nodes, too. -/
theorem nodes_subset (doc : Document) {p q : Bool} (h : p → q) : doc.nodes p ⊆ doc.nodes q := by
  intro n hn
  rw [nodes_eq, List.mem_filterMap] at *
  obtain ⟨s, hs, hn⟩ := hn
  refine ⟨s, hs, ?_⟩
  unfold Stop.node? at *
  split at hn
  · rwa [if_pos ‹_›]
  · rw [if_neg ‹_›]
    split at hn
    · rwa [if_pos ‹_›]
    · rw [if_neg ‹_›]
      split at hn
      · next hpair => rwa [if_pos ⟨hpair.1, h hpair.2.1, hpair.2.2⟩]
      · cases hn

theorem rawFindings_subset_of_widens (h : c.Widens c') :
    doc.rawFindings c checks ⊆ doc.rawFindings c' checks := by
  intro f hf
  obtain ⟨before, n, after, hns, hf⟩ := Scope.mem_collect_iff.mp hf
  have hrequest : (decide (.calls ∈ checks) && c.freeStanding) →
      decide (.calls ∈ checks) && c'.freeStanding := by
    rw [Bool.and_eq_true, Bool.and_eq_true]
    exact And.imp_right h.freeStanding
  have hmem : n ∈ doc.nodes (decide (.calls ∈ checks) && c.freeStanding) := by simp [hns]
  by_cases hproperty : ∃ site key value, n = .property site key value
  · -- Both walks look at properties, so they are the same, and so is what is inspected on them.
    obtain ⟨site, key, value, rfl⟩ := hproperty
    have hasked := properties_of_property_mem_nodes hmem
    have hfixed := h.fixedCalls (Bool.and_eq_true _ _ ▸ hrequest hasked).2
    have hspans : (doc.scope c').spansIn checks before ⊆ (doc.scope c).spansIn checks before :=
      Scope.spansIn_subset hfixed before
    rw [hasked, ← hrequest hasked] at hns
    exact Scope.mem_collect_iff.mpr ⟨before, _, after, hns,
      h.findingsAt_subset (fun _ _ _ _ ↦ hspans) hf⟩
  · -- Any other node is looked at regardless of what is inspected.
    obtain ⟨before', after', hns'⟩ := List.append_of_mem (doc.nodes_subset hrequest hmem)
    refine Scope.mem_collect_iff.mpr ⟨before', n, after', hns', ?_⟩
    exact h.findingsAt_subset (fun site key value heq ↦ absurd ⟨site, key, value, heq⟩ hproperty) hf

/-- **Widening the rules about calls never loses a finding.**  The key of every finding is still
there, and every finding that was not there before is one of the check of calls. -/
theorem widened_findings (doc : Document) (checks : List Check) (h : c.Widens c') :
    (doc.findings c checks).map Finding.key ⊆ (doc.findings c' checks).map Finding.key ∧
      ∀ f ∈ doc.findings c' checks, f ∉ doc.findings c checks → f.check = .calls := by
  constructor
  · intro key hkey
    obtain ⟨f, hf, rfl⟩ := List.mem_map.mp hkey
    have hraw := rawFindings_subset_of_widens h (doc.findings_subset c checks hf)
    obtain ⟨g, hg, hkey⟩ := exists_mem_findings hraw
    exact List.mem_map.mpr ⟨g, hg, hkey⟩
  · intro f hf hnew
    cases hcheck : f.check with
    | calls => rfl
    | markup =>
      have hsame := doc.filter_check_findings_congr (doc.rawFindings_markup_congr h.agreeOn_markup)
        checks
      have hmem : f ∈ (doc.findings c' checks).filter (·.check = .markup) :=
        List.mem_filter.mpr ⟨hf, decide_eq_true hcheck⟩
      rw [hsame] at hmem
      exact absurd (List.mem_filter.mp hmem).1 hnew

/-- In `toast('No');x={title:'A',hint:'B'}` the call alone is found, and the properties as well
when they are looked at on their own and `hint` is one of them. -/
theorem widened_findings_toast :
    let doc : Document := .ofText "a.ts" "toast('No');x=\x7btitle:'A',hint:'B'\x7d" <|
      .node { kind := "program", span := ⟨0, 34⟩ } [
        .node { kind := "call_expression", span := ⟨0, 11⟩ } [
          .node { kind := "identifier", span := ⟨0, 5⟩, field := some "function" } [],
          .node { kind := "arguments", span := ⟨5, 11⟩, field := some "arguments" } [
            .node { kind := "string", span := ⟨6, 10⟩ } []]],
        .node { kind := "object", span := ⟨14, 34⟩ } [
          .node { kind := "pair", span := ⟨15, 24⟩ } [
            .node { kind := "property_identifier", span := ⟨15, 20⟩, field := some "key" } [],
            .node { kind := "string", span := ⟨21, 24⟩, field := some "value" } []],
          .node { kind := "pair", span := ⟨25, 33⟩ } [
            .node { kind := "property_identifier", span := ⟨25, 29⟩, field := some "key" } [],
            .node { kind := "string", span := ⟨30, 33⟩, field := some "value" } []]]]
    let narrow : Configuration := { Configuration.toasts with freeStanding := false }
    let wide : Configuration := { Configuration.toasts with properties := ["hint", "title"] }
    narrow.Widens wide ∧
      (doc.rawFindings narrow Check.all).map Finding.value = ["No"] ∧
      (doc.rawFindings wide Check.all).map Finding.value = ["No", "A", "B"] ∧
      (doc.findings narrow Check.all).map Finding.key ⊆
        (doc.findings wide Check.all).map Finding.key ∧
      ∀ f ∈ doc.findings wide Check.all, f ∉ doc.findings narrow Check.all → f.check = .calls := by
  intro doc narrow wide
  have h : narrow.Widens wide :=
    ⟨rfl, rfl, rfl, by decide, fun _ ↦ rfl, List.Subset.refl _, fun _ ↦ List.Subset.refl _⟩
  refine ⟨h, ?_, ?_, widened_findings doc Check.all h⟩
  all_goals decide +kernel

end Document

end HardcodedText
