import HardcodedText.Proofs.Check.Scan

/-!
# Properties that a notification call has inspected

A property is looked at on its own unless a notification call has inspected it as part of its
arguments.  `Document.inspected_property_not_lost` says that this loses no text: the walk comes to
the call before it comes to the property, and whatever the property would have been reported for is
among the findings of the call.
-/

namespace HardcodedText

/-! ## One more move -/

theorem Leads.snoc {s s' s'' : Spot} {n n' n'' : Node} {p : List Nat} {i : Nat}
    (h : Leads s n p s' n') (hi : Step s' n' i s'' n'') : Leads s n (p ++ [i]) s'' n'' := by
  induction h with
  | here => exact .down hi .here
  | down hstep _ ih => exact .down hstep (ih hi)

theorem Stands.snoc {arguments : List Node} {p : List Nat} {s s' : Spot} {n n' : Node} {i : Nat}
    (h : Stands arguments p s n) (hi : Step s n i s' n') :
    Stands arguments (p ++ [i]) s' n' := by
  obtain ⟨j, rest, a, rfl, ha, hleads⟩ := h
  exact ⟨j, rest ++ [i], a, rfl, ha, hleads.snoc hi⟩

/-! ## The texts of a property -/

/-- The texts for which the value of a property is reported when it is looked at on its own: the
hardcoded elements of an array, or else the value. -/
def Node.texts (config : Configuration) : Node → List Node
  | .array _ elements => elements.filter config.isHardcoded
  | n => [n]

theorem Scope.isHardcoded_of_mem_texts {scope : Scope} {key : String} {n value : Node}
    {f : Finding} (hf : scope.valueFinding? key value = some f)
    (h : n ∈ value.texts scope.config) : scope.config.isHardcoded n := by
  cases value with
  | array site elements => exact (List.mem_filter.mp h).2
  | _ =>
    cases List.mem_singleton.mp h
    simp only [valueFinding?, Option.ite_none_right_eq_some] at hf
    exact hf.1

/-- The texts of an inspected property stand where a call looks for them. -/
theorem Stands.of_mem_texts {config : Configuration} {arguments : List Node} {p : List Nat}
    {depth : Nat} {site : Site} {key : Option String} {n value : Node}
    (hs : Stands arguments p (.member depth) (.property site key value))
    (h : n ∈ value.texts config) :
    ∃ q, Stands arguments q (.value depth key) n ∨
      Stands arguments q (.element (depth + 1) key) n := by
  have hvalue := hs.snoc .property
  cases value with
  | array site elements =>
    obtain ⟨i, hi⟩ := List.getElem?_of_mem (List.mem_filter.mp h).1
    exact ⟨_, .inr (hvalue.snoc (.arrayValue hi))⟩
  | _ =>
    cases List.mem_singleton.mp h
    exact ⟨_, .inl hvalue⟩

/-- A text that stands under a user-facing key is reported by a call that shows it. -/
theorem Scope.exists_callFinding_of_stands {scope : Scope} {callee n : Node}
    {arguments : List Node} {q : List Nat} {depth : Nat} {key : String}
    (hn : scope.config.notifies callee.path) (hkey : key ∈ scope.config.properties)
    (hhard : scope.config.isHardcoded n)
    (hs : Stands arguments q (.value depth (some key)) n ∨
      Stands arguments q (.element (depth + 1) (some key)) n) :
    ∃ kind, Scope.finding scope n (propertyRemark (callee.path ++ " ") kind key n) ∈
      scope.callFindings callee arguments := by
  rcases hs with hs | hs
  · cases depth with
    | zero => exact ⟨_, (mem_callFindings_iff hn).mpr ⟨_, .property hs hkey hhard, rfl⟩⟩
    | succ depth => exact ⟨_, (mem_callFindings_iff hn).mpr ⟨_, .nested hs hkey hhard, rfl⟩⟩
  · exact ⟨_, (mem_callFindings_iff hn).mpr ⟨_, .element hs hkey hhard, rfl⟩⟩

/-- What a property would be reported for on its own is reported by a call that inspects it. -/
theorem Scope.exists_callFinding_of_mem_texts {scope : Scope} {callee value n : Node}
    {arguments : List Node} {p : List Nat} {depth : Nat} {site : Site} {key : Option String}
    {f : Finding} (hn : scope.config.notifies callee.path)
    (hs : Stands arguments p (.member depth) (.property site key value))
    (hf : scope.propertyFinding? key value = some f) (hmem : n ∈ value.texts scope.config) :
    ∃ g ∈ scope.callFindings callee arguments, g.line = n.position.line ∧
      g.column = n.position.column ∧ g.value = n.display ∧ g.context = key := by
  obtain ⟨hfacing, hf⟩ := Option.ite_none_right_eq_some.mp hf
  obtain ⟨k, rfl, hk⟩ := Configuration.isUserFacing_iff.mp hfacing
  obtain ⟨q, hq⟩ := hs.of_mem_texts hmem
  obtain ⟨kind, hkind⟩ :=
    exists_callFinding_of_stands hn hk (isHardcoded_of_mem_texts hf hmem) hq
  exact ⟨_, hkind, rfl, rfl, rfl, rfl⟩

/-! ## The walk comes to the call first -/

namespace Document

theorem call_mem_nodesBefore {doc : Document} {call pair : Tree} {p q : List Nat}
    (hcall : doc.root.at? p = some call) (hkind : call.kind = "call_expression")
    (hpair : call.at? q = some pair) (hpk : pair.kind = "pair") :
    Node.callOfTree doc call ∈ doc.nodesBefore (p ++ q) := by
  have hq : q ≠ [] := by
    rintro rfl
    cases hpair
    simp [hkind] at hpk
  obtain ⟨b, hb⟩ := Tree.exists_mem_stopsBefore hcall hq false
  exact List.mem_filterMap.mpr ⟨_, hb, by simp [Stop.node?, Tree.isElement, hkind]⟩

/-- A property that is inspected by the time the walk comes to it gives rise to no finding. -/
theorem rawFindings_eq_of_inspected {doc : Document} {config : Configuration}
    {checks : List Check} {pair : Tree} {p : List Nat} (hcalls : .calls ∈ checks)
    (hfree : config.freeStanding) (hpair : doc.root.at? p = some pair) (hpk : pair.kind = "pair")
    (hspan : pair.span ∈ (doc.scope config).spansIn checks (doc.nodesBefore p)) :
    doc.rawFindings config checks =
      (doc.scope config).collect checks [] (doc.nodesBefore p) ++
        (doc.scope config).collect checks
          ((doc.scope config).spansIn checks (doc.nodesBefore p)) (doc.nodesAfter p) := by
  obtain ⟨b, hb⟩ := exists_nodes_eq_append hpair
  rw [rawFindings, decide_eq_true hcalls, hfree, Bool.and_true, hb, List.append_assoc,
    Scope.collect_append, List.nil_append]
  refine congrArg _ ?_
  cases hnode : (⟨pair, b⟩ : Stop).node? doc true with
  | none => rfl
  | some n =>
    have hn : n = Node.pairOfTree doc pair := by
      have := hnode
      simp [Stop.node?, Tree.isElement, hpk] at this
      exact this.2.symm
    rw [Option.toList_some, List.singleton_append, Scope.collect_cons, hn]
    simp [Node.pairOfTree, Scope.findingsAt, Scope.spansAt, hspan, Document.site]

/-- A notification call stands at the path `p` of a document, and below it at `q` a property that is
visited as a member while the arguments of the call are taken apart.  Then the property is among the
inspected ones when the walk comes to it and gives rise to no finding; and each text for which it
would have been reported is reported by the call, at the place of the text and under the key of the
property. -/
theorem inspected_property_not_lost {doc : Document} {config : Configuration}
    {checks : List Check} {call pair : Tree} {p q r : List Nat} {depth : Nat}
    {callSite site : Site} {callee value : Node} {arguments : List Node} {key : Option String}
    (hcalls : .calls ∈ checks) (hfree : config.freeStanding)
    (hcall : doc.root.at? p = some call) (hkind : call.kind = "call_expression")
    (hread : Node.callOfTree doc call = .call callSite callee arguments)
    (hn : config.notifies callee.path)
    (hpair : call.at? q = some pair) (hpk : pair.kind = "pair")
    (hprop : Node.pairOfTree doc pair = .property site key value)
    (hs : Stands arguments r (.member depth) (.property site key value)) :
    (∃ b, doc.nodes true = doc.nodesBefore (p ++ q) ++
      ((⟨pair, b⟩ : Stop).node? doc true).toList ++ doc.nodesAfter (p ++ q)) ∧
    pair.span ∈ (doc.scope config).spansIn checks (doc.nodesBefore (p ++ q)) ∧
    doc.rawFindings config checks =
      (doc.scope config).collect checks [] (doc.nodesBefore (p ++ q)) ++
        (doc.scope config).collect checks
          ((doc.scope config).spansIn checks (doc.nodesBefore (p ++ q)))
          (doc.nodesAfter (p ++ q)) ∧
    ∀ f, (doc.scope config).propertyFinding? key value = some f →
      ∀ n ∈ value.texts config, ∃ g ∈ (doc.scope config).callFindings callee arguments,
        g.line = n.position.line ∧ g.column = n.position.column ∧ g.value = n.display ∧
          g.context = key := by
  have hsite : site.span = pair.span := by
    cases hprop
    rfl
  have hspan : pair.span ∈ (doc.scope config).spansIn checks (doc.nodesBefore (p ++ q)) := by
    refine List.mem_flatMap.mpr ⟨_, call_mem_nodesBefore hcall hkind hpair hpk, ?_⟩
    rw [hread, Scope.spansAt, if_pos hcalls, ← hsite]
    exact (Scope.mem_inspectedSpans_iff hn).mpr ⟨r, depth, site, key, value, hs, rfl⟩
  have hat : doc.root.at? (p ++ q) = some pair := by
    rw [Tree.at?_append, hcall]
    exact hpair
  exact ⟨exists_nodes_eq_append hat, hspan, rawFindings_eq_of_inspected hcalls hfree hat hpk hspan,
    fun f hf n hmem ↦ Scope.exists_callFinding_of_mem_texts hn hs hf hmem⟩

/-- In `toast({more:{title:['A','B']}})` the call reports both texts of the inner property. -/
theorem inspected_property_not_lost_toast :
    let pair : Tree := .node { kind := "pair", span := ⟨13, 28⟩ } [
      .node { kind := "property_identifier", span := ⟨13, 18⟩, field := some "key" } [],
      .node { kind := "array", span := ⟨19, 28⟩, field := some "value" } [
        .node { kind := "string", span := ⟨20, 23⟩ } [],
        .node { kind := "string", span := ⟨24, 27⟩ } []]]
    let call : Tree := .node { kind := "call_expression", span := ⟨0, 31⟩ } [
      .node { kind := "identifier", span := ⟨0, 5⟩, field := some "function" } [],
      .node { kind := "arguments", span := ⟨5, 31⟩, field := some "arguments" } [
        .node { kind := "object", span := ⟨6, 30⟩ } [
          .node { kind := "pair", span := ⟨7, 29⟩ } [
            .node { kind := "property_identifier", span := ⟨7, 11⟩, field := some "key" } [],
            .node { kind := "object", span := ⟨12, 29⟩, field := some "value" } [pair]]]]]
    let doc : Document := .ofText "a.tsx" "toast(\x7bmore:\x7btitle:['A','B']\x7d\x7d)"
      (.node { kind := "program", span := ⟨0, 31⟩ } [call])
    (doc.rawFindings .toasts [.calls]).map Finding.value = ["A", "B"] ∧
      pair.span ∈ (doc.scope .toasts).spansIn [.calls] (doc.nodesBefore [0, 1, 0, 0, 1, 0]) :=
  ⟨by decide +kernel,
    (inspected_property_not_lost (p := [0]) (q := [1, 0, 0, 1, 0]) (r := [0, 0, 0, 0])
      (by decide) rfl rfl rfl rfl (by decide +kernel) rfl rfl rfl
      ⟨0, [0, 0, 0], _, rfl, rfl,
        .down (.enter rfl rfl) (.down .property (.down (.enter rfl rfl) .here))⟩).2.1⟩

end Document

end HardcodedText
