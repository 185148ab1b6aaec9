import HardcodedText.Proofs.Check.Exposure
import HardcodedText.Proofs.Check.Scan
import HardcodedText.Proofs.Node.Layout

/-!
# Parentheses and comments make no difference

Nodes that are alike are the same to all rules: they stand at the same place, show the same text and
expose the same (`Spot.forall₂_exposures`).  So a walk through a tree that has shed parentheses or a
comment finds the same as before (`Document.sameWalk_of_near`), although it may come upon fewer
nodes: what goes with a pair of parentheses has no parts, and nothing is found at such nodes
(`Document.sameWalk_nil_of_childless`).

The main result is `Document.findings_eq_of_eqvGen_sheds`; `Document.findings_ne_of_parentheses`
shows that the parentheses it does not speak of have to be left alone.
-/

namespace HardcodedText

/-! ## Nodes that are alike -/

namespace Node.Alike

theorem site_eq {n n' : Node} (h : Alike n n') : n'.site = n.site := by
  cases h <;> rfl

theorem path_eq : ∀ {n n' : Node}, Alike n n' → n'.path = n.path
  | _, _, .refl _ => rfl
  | _, _, .member h => by rw [Node.path, Node.path, h.path_eq]
  | _, _, .spread _ | _, _, .property _ | _, _, .object _ | _, _, .array _ | _, _, .call
  | _, _, .unread | _, _, .container _ => rfl

theorem display_eq : ∀ {n n' : Node}, Alike n n' → n'.display = n.display
  | _, _, .refl _ => rfl
  | _, _, .container h => by rw [display, display, h.display_eq]
  | _, _, .member _ | _, _, .spread _ | _, _, .property _ | _, _, .object _ | _, _, .array _
  | _, _, .call | _, _, .unread => rfl

theorem isHardcoded_eq (config : Configuration) :
    ∀ {n n' : Node}, Alike n n' → config.isHardcoded n' = config.isHardcoded n
  | _, _, .refl _ => rfl
  | _, _, .container h => h.isHardcoded_eq config
  | _, _, .member _ | _, _, .spread _ | _, _, .property _ | _, _, .object _ | _, _, .array _
  | _, _, .call | _, _, .unread => rfl

theorem isRefused_eq (config : Configuration) (policy : Policy) :
    ∀ {n n' : Node}, Alike n n' → config.isRefused policy n' = config.isRefused policy n
  | _, _, .refl _ => rfl
  | _, _, .container h => by
    rw [Configuration.isRefused, Configuration.isRefused, h.isRefused_eq config policy]
  | _, _, .member _ | _, _, .spread _ | _, _, .property _ | _, _, .object _ | _, _, .array _
  | _, _, .call | _, _, .unread => rfl

end Node.Alike

/-! ## What calls expose -/

/-- `Exposure.Alike e e'`: the same is met, at nodes that are alike. -/
inductive Exposure.Alike : Exposure → Exposure → Prop
  | inspected {span : Span} : Alike (.inspected span) (.inspected span)
  | argument {n n' : Node} : n.Alike n' → Alike (.argument n) (.argument n')
  | value {kind : Kind} {key : String} {n n' : Node} :
    n.Alike n' → Alike (.value kind key n) (.value kind key n')

theorem Exposure.Alike.refl (e : Exposure) : Alike e e := by
  cases e with
  | inspected => exact .inspected
  | argument n => exact .argument (.refl n)
  | value kind key n => exact .value (.refl n)

namespace Spot

open Node (Alike)

variable (shown : Option String → Bool) (s : Spot) {n n' : Node}

theorem forall₂_map_pair {ns ns' : List Node} (h : List.Forall₂ Alike ns ns') :
    List.Forall₂ (fun m m' ↦ m'.1 = m.1 ∧ Alike m.2 m'.2) (ns.map (s, ·)) (ns'.map (s, ·)) := by
  rw [List.forall₂_map_left_iff, List.forall₂_map_right_iff]
  exact h.imp fun _ _ hn ↦ ⟨rfl, hn⟩

theorem forall₂_moves (h : Alike n n') :
    List.Forall₂ (fun m m' ↦ m'.1 = m.1 ∧ Alike m.2 m'.2) (s.moves n) (s.moves n') := by
  cases h with
  | refl => exact List.forall₂_same.mpr fun m _ ↦ ⟨rfl, .refl m.2⟩
  | object h =>
    simp only [moves]
    cases s.opensAt with
    | none => exact .nil
    | some depth => exact forall₂_map_pair _ h
  | array h =>
    cases s with
    | argument | value | element => exact forall₂_map_pair _ h
    | member | inserted => exact .nil
  | @spread _ m m' h =>
    -- What is spread decides whether the move leads on, and that is of the same form in both.
    have hone : ∀ s : Spot, List.Forall₂ (fun m m' ↦ m'.1 = m.1 ∧ Alike m.2 m'.2) [(s, m)]
        [(s, m')] := fun _ ↦ .cons ⟨rfl, h⟩ .nil
    cases h with
    | refl => exact List.forall₂_same.mpr fun m _ ↦ ⟨rfl, .refl m.2⟩
    | _ => cases s <;> first | exact .nil | exact hone _
  | property h =>
    cases s with
    | member => exact .cons ⟨rfl, h⟩ .nil
    | _ => exact .nil
  | member | call | unread | container => cases s <;> exact .nil

theorem forall₂_valueOf (kind : Kind) (key : Option String) (h : Alike n n') :
    List.Forall₂ Exposure.Alike (Exposure.valueOf shown kind key n)
      (Exposure.valueOf shown kind key n') := by
  unfold Exposure.valueOf
  split
  · exact .cons (.value h) .nil
  · exact .nil

theorem forall₂_own (h : Alike n n') :
    List.Forall₂ Exposure.Alike (own shown s n) (own shown s n') := by
  have hargument : List.Forall₂ Exposure.Alike [.argument n] [.argument n'] :=
    .cons (.argument h) .nil
  have hvalue : ∀ kind key, List.Forall₂ Exposure.Alike (Exposure.valueOf shown kind key n)
      (Exposure.valueOf shown kind key n') := fun kind key ↦ forall₂_valueOf shown kind key h
  cases h with
  | refl => exact List.forall₂_same.mpr fun e _ ↦ .refl e
  | @spread _ m m' h =>
    have hinner : ∀ kind key, List.Forall₂ Exposure.Alike (Exposure.valueOf shown kind key m)
        (Exposure.valueOf shown kind key m') := fun kind key ↦ forall₂_valueOf shown kind key h
    cases h with
    | refl => exact List.forall₂_same.mpr fun e _ ↦ .refl e
    | _ => cases s <;> first | exact .nil | exact hvalue _ _ | exact hinner _ _
  | property =>
    cases s with
    | member => exact .cons .inspected .nil
    | argument => exact hargument
    | inserted => exact .nil
    | value | element => exact hvalue _ _
  | _ => cases s <;> first | exact .nil | exact hvalue _ _ | exact hargument

/-- Nodes that are alike expose the same. -/
theorem forall₂_exposures (s : Spot) {n n' : Node} (h : Alike n n') :
    List.Forall₂ Exposure.Alike (exposures shown s n) (exposures shown s n') := by
  rw [exposures_eq, exposures_eq]
  have hmoves := (List.forall₂_and_left _ _).mpr ⟨fun m hm ↦ hm, forall₂_moves s h⟩
  refine List.rel_append (forall₂_own shown s h) (List.rel_flatMap hmoves ?_)
  rintro ⟨spot, m⟩ ⟨spot', m'⟩ ⟨hm, hspot, halike⟩
  obtain rfl : spot' = spot := hspot
  obtain ⟨i, hi⟩ := List.getElem?_of_mem hm
  have := sizeOf_lt_of_step (step_of_moves hi)
  exact forall₂_exposures spot' halike
termination_by sizeOf n

theorem forall₂_ofArguments {ns ns' : List Node} (h : List.Forall₂ Alike ns ns') :
    List.Forall₂ Exposure.Alike (Exposure.ofArguments shown ns)
      (Exposure.ofArguments shown ns') := by
  rw [ofArguments_eq, ofArguments_eq]
  exact List.rel_flatMap h fun _ _ hn ↦ forall₂_exposures shown argument hn

end Spot

/-! ## Findings -/

theorem map_eq_of_forall₂ {α β : Type} {R : α → α → Prop} {f : α → β} {xs xs' : List α}
    (h : List.Forall₂ R xs xs') (hf : ∀ x x', R x x' → f x' = f x) : xs'.map f = xs.map f := by
  induction h with
  | nil => rfl
  | cons hx _ ih => rw [List.map_cons, List.map_cons, hf _ _ hx, ih]

theorem filterMap_eq_of_forall₂ {α β : Type} {R : α → α → Prop} {f : α → Option β}
    {xs xs' : List α} (h : List.Forall₂ R xs xs') (hf : ∀ x x', R x x' → f x' = f x) :
    xs'.filterMap f = xs.filterMap f := by
  induction h with
  | nil => rfl
  | cons hx _ ih => rw [List.filterMap_cons, List.filterMap_cons, hf _ _ hx, ih]

namespace Scope

open Node (Alike)

variable (scope : Scope) {n n' : Node}

theorem finding_eq_of_alike (h : Alike n n') (remark : Remark) :
    scope.finding n' remark = scope.finding n remark := by
  simp only [finding, Node.position, h.site_eq]

section

variable (h : Alike n n')

include h

theorem argumentRemark_eq_of_alike (call : String) :
    argumentRemark call n' = argumentRemark call n := by
  unfold argumentRemark
  -- As always with texts, `rw` would go on to compare them by computing them.
  rewrite [h.display_eq]
  exact Eq.refl _

theorem propertyRemark_eq_of_alike (owner : String) (kind : Kind) (key : String) :
    propertyRemark owner kind key n' = propertyRemark owner kind key n := by
  unfold propertyRemark
  rewrite [h.display_eq]
  exact Eq.refl _

theorem arrayRemark_eq_of_alike (key : String) (texts : List String) :
    arrayRemark key n' texts = arrayRemark key n texts := by
  unfold arrayRemark
  rewrite [h.display_eq]
  exact Eq.refl _

theorem textRemark_eq_of_alike (name : String) : textRemark name n' = textRemark name n := by
  unfold textRemark
  rewrite [h.display_eq]
  exact Eq.refl _

theorem attributeRemark_eq_of_alike (name : String) :
    attributeRemark name n' = attributeRemark name n := by
  unfold attributeRemark
  rewrite [h.display_eq]
  exact Eq.refl _

end

theorem exposureFinding?_eq_of_alike {e e' : Exposure} (h : e.Alike e') (call : String) :
    scope.exposureFinding? call e' = scope.exposureFinding? call e := by
  cases h with
  | inspected => rfl
  | argument h =>
    simp only [exposureFinding?, h.isHardcoded_eq, argumentRemark_eq_of_alike h,
      scope.finding_eq_of_alike h]
  | value h =>
    simp only [exposureFinding?, h.isHardcoded_eq, propertyRemark_eq_of_alike h,
      scope.finding_eq_of_alike h]

theorem forall₂_exposures {callee callee' : Node} {arguments arguments' : List Node}
    (h : Alike callee callee') (harguments : List.Forall₂ Alike arguments arguments') :
    List.Forall₂ Exposure.Alike (scope.exposures callee arguments)
      (scope.exposures callee' arguments') := by
  rw [exposures, exposures, h.path_eq]
  split
  · exact Spot.forall₂_ofArguments _ harguments
  · exact .nil

theorem valueFinding?_eq_of_alike (h : Alike n n') (key : String) :
    scope.valueFinding? key n' = scope.valueFinding? key n := by
  have hplain : (if scope.config.isHardcoded n' then
        some (scope.finding n' (propertyRemark "" .objectProperty key n')) else none) =
      if scope.config.isHardcoded n then
        some (scope.finding n (propertyRemark "" .objectProperty key n)) else none := by
    rw [h.isHardcoded_eq, propertyRemark_eq_of_alike h, scope.finding_eq_of_alike h]
  cases h with
  | refl => rfl
  | @array site elements elements' h =>
    have hfilter : List.Forall₂ Alike (elements.filter scope.config.isHardcoded)
        (elements'.filter scope.config.isHardcoded) :=
      List.rel_filter (fun _ _ hn ↦ by simp only [hn.isHardcoded_eq]) h
    have hfinding : ∀ remark, scope.finding (.array site elements') remark =
        scope.finding (.array site elements) remark := scope.finding_eq_of_alike (.array h)
    have htexts := map_eq_of_forall₂ hfilter fun n n' hn ↦ hn.display_eq
    simp only [valueFinding?]
    generalize elements.filter _ = hard, elements'.filter _ = hard' at hfilter htexts
    cases hfilter with
    | nil => rfl
    | cons hfirst _ =>
      simp only [hfinding, arrayRemark_eq_of_alike hfirst, htexts]
  | _ => exact hplain

theorem attributeFinding?_eq_of_alike {a a' : Attribute Node} (h : a.Alike a') (policy : Policy) :
    scope.attributeFinding? policy a' = scope.attributeFinding? policy a := by
  have hvalue := h.value
  simp only [attributeFinding?, h.name]
  generalize a.value = value, a'.value = value' at hvalue
  cases hvalue with
  | none => simp only
  | some hn =>
    simp only [hn.isRefused_eq, attributeRemark_eq_of_alike hn, scope.finding_eq_of_alike hn]

theorem textFindings_eq_of_alike {children children' : List Node}
    (h : List.Forall₂ Alike children children') (name : String) :
    scope.textFindings name children' = scope.textFindings name children := by
  have hrefused : List.Forall₂ Alike
      (children.filter (scope.config.isRefused (scope.policyOf name)))
      (children'.filter (scope.config.isRefused (scope.policyOf name))) :=
    List.rel_filter (fun _ _ hn ↦ by simp only [hn.isRefused_eq]) h
  rw [textFindings, textFindings]
  refine map_eq_of_forall₂ hrefused fun n n' hn ↦ ?_
  rw [textRemark_eq_of_alike hn, scope.finding_eq_of_alike hn]

theorem callFindings_eq_of_alike {callee callee' : Node} {arguments arguments' : List Node}
    (h : Alike callee callee') (harguments : List.Forall₂ Alike arguments arguments') :
    scope.callFindings callee' arguments' = scope.callFindings callee arguments := by
  rw [callFindings, callFindings, h.path_eq]
  exact filterMap_eq_of_forall₂ (scope.forall₂_exposures h harguments) fun e e' he ↦
    scope.exposureFinding?_eq_of_alike he _

theorem inspectedSpans_eq_of_alike {callee callee' : Node} {arguments arguments' : List Node}
    (h : Alike callee callee') (harguments : List.Forall₂ Alike arguments arguments') :
    scope.inspectedSpans callee' arguments' = scope.inspectedSpans callee arguments := by
  rw [inspectedSpans, inspectedSpans]
  refine filterMap_eq_of_forall₂ (scope.forall₂_exposures h harguments) fun e e' he ↦ ?_
  cases he <;> rfl

theorem findingsAt_eq_of_corresponds (h : n.Corresponds n') (checks : List Check)
    (inspected : List Span) :
    scope.findingsAt checks inspected n' = scope.findingsAt checks inspected n := by
  cases h with
  | element hattributes hchildren =>
    simp only [findingsAt, scope.textFindings_eq_of_alike hchildren, attributeFindings]
    rw [filterMap_eq_of_forall₂ hattributes fun a a' ha ↦ scope.attributeFinding?_eq_of_alike ha _]
  | call hcallee harguments =>
    simp only [findingsAt, scope.callFindings_eq_of_alike hcallee harguments]
  | property h => simp only [findingsAt, propertyFinding?, scope.valueFinding?_eq_of_alike h]

theorem spansAt_eq_of_corresponds (h : n.Corresponds n') (checks : List Check) :
    scope.spansAt checks n' = scope.spansAt checks n := by
  cases h with
  | call hcallee harguments =>
    simp only [spansAt, scope.inspectedSpans_eq_of_alike hcallee harguments]
  | element | property => rfl

/-! ## Walks -/

/-- `SameWalk scope checks ns ns'`: two pieces of a walk give rise to the same findings and inspect
the same properties. -/
structure SameWalk (checks : List Check) (ns ns' : List Node) : Prop where
  /-- The same properties are inspected. -/
  spansIn : scope.spansIn checks ns' = scope.spansIn checks ns
  /-- The same is found. -/
  collect : ∀ inspected, scope.collect checks inspected ns' = scope.collect checks inspected ns

namespace SameWalk

variable {scope} {checks : List Check} {ns ns' ms ms' : List Node}

theorem refl (ns : List Node) : SameWalk scope checks ns ns := ⟨rfl, fun _ ↦ rfl⟩

theorem trans (h : SameWalk scope checks ns ns') (h' : SameWalk scope checks ns' ms) :
    SameWalk scope checks ns ms :=
  ⟨h'.spansIn.trans h.spansIn, fun inspected ↦ (h'.collect inspected).trans (h.collect inspected)⟩

theorem append (h : SameWalk scope checks ns ns') (h' : SameWalk scope checks ms ms') :
    SameWalk scope checks (ns ++ ms) (ns' ++ ms') := by
  constructor
  · rw [Scope.spansIn, Scope.spansIn, List.flatMap_append, List.flatMap_append]
    exact congrArg₂ _ h.spansIn h'.spansIn
  · intro inspected
    rw [collect_append, collect_append, h.collect, h.spansIn, h'.collect]

/-- A node that inspects nothing and that nothing is found at can be left out. -/
theorem silent {found : Option Node}
    (hspans : ∀ n ∈ found, scope.spansAt checks n = [])
    (hfindings : ∀ n ∈ found, ∀ inspected, scope.findingsAt checks inspected n = []) :
    SameWalk scope checks found.toList [] := by
  cases found with
  | none => exact .refl _
  | some n =>
    have hspans := hspans n rfl
    constructor
    · rw [Option.toList_some, spansIn_cons, hspans, List.nil_append]
    · intro inspected
      rw [Option.toList_some, collect_cons, hfindings n rfl, hspans, List.append_nil,
        List.nil_append]

theorem flatMap_nil {ts : List Tree} {f : Tree → List Node}
    (h : ∀ t ∈ ts, SameWalk scope checks (f t) []) : SameWalk scope checks (ts.flatMap f) [] := by
  induction ts with
  | nil => exact .refl _
  | cons t ts ih =>
    obtain ⟨ht, hts⟩ := List.forall_mem_cons.mp h
    rw [List.flatMap_cons]
    exact ht.append (ih hts)

theorem of_rel {found found' : Option Node} (h : Option.Rel Node.Corresponds found found') :
    SameWalk scope checks found.toList found'.toList := by
  cases h with
  | none => exact .refl _
  | some h =>
    have hspans := scope.spansAt_eq_of_corresponds h checks
    constructor
    · simp only [Option.toList_some, spansIn_cons, hspans]
    · intro inspected
      simp only [Option.toList_some, collect_cons, collect_nil,
        scope.findingsAt_eq_of_corresponds h]

end SameWalk

end Scope

namespace Document

variable (doc : Document) (properties inObject : Bool)

/-- The nodes that a walk comes upon in a tree. -/
def nodesIn (t : Tree) : List Node :=
  (t.stops inObject).filterMap (·.node? doc properties)

theorem nodesIn_eq (t : Tree) :
    doc.nodesIn properties inObject t = ((⟨t, inObject⟩ : Stop).node? doc properties).toList ++
      t.children.flatMap (doc.nodesIn properties (t.kind == "object")) := by
  rw [nodesIn, Tree.stops_eq, Tree.stopsOf_eq_flatMap, List.filterMap_cons, List.filterMap_flatMap]
  cases (⟨t, inObject⟩ : Stop).node? doc properties <;> rfl

theorem nodesIn_inField (t : Tree) (field : Option String) :
    doc.nodesIn properties inObject (t.inField field) = doc.nodesIn properties inObject t := by
  have helement : Node.elementOfTree doc (t.inField field) = Node.elementOfTree doc t := by
    by_cases hk : t.kind = "jsx_self_closing_element" <;>
      simp only [Node.elementOfTree, Node.openingTag?, Tree.kind_inField, hk, if_true, if_false] <;>
      rfl
  have hnode : (⟨t.inField field, inObject⟩ : Stop).node? doc properties =
      (⟨t, inObject⟩ : Stop).node? doc properties := by
    simp only [Stop.node?, helement]
    rfl
  rw [nodesIn_eq, nodesIn_eq, hnode]
  rfl

variable {doc properties} {scope : Scope} {checks : List Check}

/-- What a walk comes upon at a tree without parts. -/
theorem node?_of_childless {t : Tree} (h : t.children = []) {inObject : Bool} {n : Node}
    (hn : (⟨t, inObject⟩ : Stop).node? doc properties = some n) :
    (∃ site name, n = .element site name [] []) ∨ (∃ site callee, n = .call site callee []) ∨
      ∃ site value, n = .property site none value := by
  obtain ⟨head, children⟩ := t
  obtain rfl : children = [] := h
  unfold Stop.node? at hn
  split at hn
  · cases hn
    refine .inl ⟨doc.site head.span, "", ?_⟩
    by_cases hk : head.kind = "jsx_self_closing_element" <;>
      simp [Node.elementOfTree, Node.openingTag?, Node.childrenOfTrees, Tree.child?, Tree.kind,
        Tree.span, hk]
  · split at hn
    · cases hn
      exact .inr (.inl ⟨_, _, rfl⟩)
    · split at hn
      · cases hn
        exact .inr (.inr ⟨_, _, rfl⟩)
      · cases hn

/-- At a tree without parts nothing is found. -/
theorem sameWalk_nil_of_childless {t : Tree} (h : t.children = []) (inObject : Bool) :
    scope.SameWalk checks (doc.nodesIn properties inObject t) [] := by
  rw [nodesIn_eq, h, List.flatMap_nil, List.append_nil]
  apply Scope.SameWalk.silent
  · intro n hn
    obtain ⟨site, name, rfl⟩ | ⟨site, callee, rfl⟩ | ⟨site, value, rfl⟩ := node?_of_childless h hn
    · rfl
    · simp [Scope.spansAt, Scope.inspectedSpans, Scope.exposures, Exposure.ofArguments]
    · rfl
  · intro n hn inspected
    obtain ⟨site, name, rfl⟩ | ⟨site, callee, rfl⟩ | ⟨site, value, rfl⟩ := node?_of_childless h hn
    · simp [Scope.findingsAt, Scope.textFindings, Scope.attributeFindings]
    · simp [Scope.findingsAt, Scope.callFindings, Scope.exposures, Exposure.ofArguments]
    · simp [Scope.findingsAt, Scope.propertyFinding?, Configuration.isUserFacing]

/-- At a pair of parentheses is found what is found at what they are around. -/
theorem sameWalk_of_encloses {p x : Tree} (h : Tree.Encloses p x) (inObject : Bool) :
    scope.SameWalk checks (doc.nodesIn properties inObject p) (doc.nodesIn properties false x) := by
  have hnone : (⟨p, inObject⟩ : Stop).node? doc properties = none := by
    simp [Stop.node?, Tree.isElement, h.kind]
  have hobject : (p.kind == "object") = false := by rw [h.kind]; decide
  obtain ⟨before, after, hsplit, hbefore, -, hafter⟩ := List.filter_eq_cons_iff.mp h.content
  have hsilent : ∀ c ∈ p.children, c.isContent = false →
      scope.SameWalk checks (doc.nodesIn properties false c) [] := fun c hc hcontent ↦
    sameWalk_nil_of_childless (h.childless c hc hcontent) false
  rw [hsplit] at hsilent
  have hleft : scope.SameWalk checks (before.flatMap (doc.nodesIn properties false)) [] :=
    .flatMap_nil fun c hc ↦ hsilent c (by simp [hc]) (by simpa using hbefore c hc)
  have hright : scope.SameWalk checks (after.flatMap (doc.nodesIn properties false)) [] :=
    .flatMap_nil fun c hc ↦ hsilent c (by simp [hc])
      (by simpa using List.filter_eq_nil_iff.mp hafter c hc)
  have hall := hleft.append ((Scope.SameWalk.refl (doc.nodesIn properties false x)).append hright)
  rw [List.nil_append, List.append_nil] at hall
  rwa [nodesIn_eq, hnone, hobject, hsplit, List.flatMap_append, List.flatMap_cons]

theorem sameWalk_of_siblings {root : Tree} {head : Tree.Head} {ts ts' : List Tree}
    (h : Tree.Siblings head ts ts')
    (hts : ∀ t ∈ ts, ∀ u, t.Near u → ∀ inObject, scope.SameWalk checks
      (doc.nodesIn properties inObject t) ((doc.withRoot root).nodesIn properties inObject u)) :
    scope.SameWalk checks (ts.flatMap (doc.nodesIn properties (head.kind == "object")))
      (ts'.flatMap ((doc.withRoot root).nodesIn properties (head.kind == "object"))) := by
  induction h with
  | nil => exact .refl _
  | cons hc _ ih =>
    obtain ⟨ht, hts⟩ := List.forall_mem_cons.mp hts
    rw [List.flatMap_cons, List.flatMap_cons]
    refine Scope.SameWalk.append ?_ (ih hts)
    cases hc with
    | near h => exact ht _ h _
    | bare hp =>
      -- No value stands directly in an object literal, so what was in the parentheses is walked
      -- through as it was inside of them.
      have hobject : (head.kind == "object") = false := by
        rw [beq_eq_false_iff_ne]
        intro hk
        have hmem := hp.takesValue.mem_valueKinds
        rw [hk] at hmem
        revert hmem
        decide
      rw [hobject, nodesIn_inField]
      exact (ht _ (.refl _) false).trans (sameWalk_of_encloses hp.encloses false)
  | comment _ _ hc _ ih =>
    obtain ⟨-, hts⟩ := List.forall_mem_cons.mp hts
    rw [List.flatMap_cons]
    exact (sameWalk_nil_of_childless hc.childless _).append (ih hts)

/-- A walk through a tree that has shed something finds the same. -/
theorem sameWalk_of_near {root t t' : Tree} (h : t.Near t') (inObject : Bool) :
    scope.SameWalk checks (doc.nodesIn properties inObject t)
      ((doc.withRoot root).nodesIn properties inObject t') := by
  induction t using Tree.induct generalizing t' inObject with
  | step t ih =>
    rw [nodesIn_eq, nodesIn_eq, h.kind_eq]
    refine Scope.SameWalk.append (.of_rel (Node.rel_node? doc h properties inObject)) ?_
    exact sameWalk_of_siblings h.siblings fun c hc u hu inObject ↦ ih c hc hu inObject

theorem rawFindings_eq_of_sheds {path : String} {bytes : List UInt8} {t t' : Tree}
    (h : t.Sheds true t') (config : Configuration) (checks : List Check) :
    rawFindings ⟨path, bytes, t'⟩ config checks = rawFindings ⟨path, bytes, t⟩ config checks := by
  have hscope : Document.scope ⟨path, bytes, t'⟩ config =
      Document.scope ⟨path, bytes, t⟩ config := by
    rw [Document.scope, Document.scope, imports_eq_of_sheds h]
  rw [rawFindings, rawFindings, hscope, nodes_eq, nodes_eq]
  generalize (decide (.calls ∈ checks) && config.freeStanding) = properties
  have hwalk : (Document.scope ⟨path, bytes, t⟩ config).SameWalk checks
      (nodesIn ⟨path, bytes, t⟩ properties false t)
      ((withRoot ⟨path, bytes, t⟩ t').nodesIn properties false t') :=
    sameWalk_of_near h.near false
  exact hwalk.collect []

/-- **Parentheses and comments make no difference.**  Any number of pairs of parentheses and of
comments may be taken out of the tree of a document or put into it: its findings stay the same. -/
theorem findings_eq_of_eqvGen_sheds (path : String) (bytes : List UInt8) (config : Configuration)
    (checks : List Check) {t t' : Tree} (h : Relation.EqvGen (Tree.Sheds true) t t') :
    findings ⟨path, bytes, t⟩ config checks = findings ⟨path, bytes, t'⟩ config checks := by
  induction h with
  | rel t t' h => rw [findings, findings, rawFindings_eq_of_sheds h]
  | refl t => rfl
  | symm t t' _ ih => exact ih.symm
  | trans t t' t'' _ _ ih ih' => exact ih.trans ih'

/-- In `(toast)(/*!*/'Hi')` the text is found with the parentheses around what is called and the
comment, and without them. -/
theorem findings_eq_of_eqvGen_sheds_toast :
    let bytes := Utf8.encode "(toast)(/*!*/'Hi')".toList
    let name : Tree := .node { kind := "identifier", span := ⟨1, 6⟩ } []
    let inParentheses : Tree :=
      .node { kind := "parenthesized_expression", span := ⟨0, 7⟩, field := some "function" } [
        .node { kind := "(", span := ⟨0, 1⟩, named := false } [], name,
        .node { kind := ")", span := ⟨6, 7⟩, named := false } []]
    let comment : Tree := .node { kind := "comment", span := ⟨8, 13⟩ } []
    let literal : Tree := .node { kind := "string", span := ⟨13, 17⟩ } []
    let root (callee : Tree) (arguments : List Tree) : Tree :=
      .node { kind := "program", span := ⟨0, 18⟩ } [
        .node { kind := "call_expression", span := ⟨0, 18⟩ } [callee,
          .node { kind := "arguments", span := ⟨7, 18⟩, field := some "arguments" } arguments]]
    let before := root inParentheses [comment, literal]
    let after := root (name.inField (some "function")) [literal]
    Relation.EqvGen (Tree.Sheds true) before after ∧
      (findings ⟨"a.ts", bytes, before⟩ .toasts Check.all).map Finding.value = ["Hi"] ∧
      findings ⟨"a.ts", bytes, before⟩ .toasts Check.all =
        findings ⟨"a.ts", bytes, after⟩ .toasts Check.all := by
  intro bytes name inParentheses comment literal root before after
  have hencloses : Tree.Encloses inParentheses name := by
    refine ⟨rfl, rfl, rfl, ?_⟩
    simp [inParentheses, Tree.isContent, name, Tree.isComment]
  have hcallee : Tree.Sheds true before
      (root (name.inField (some "function")) [comment, literal]) :=
    @Tree.Sheds.inside _ _ [] [] _ _ (@Tree.Sheds.parentheses _ _ [] _ _ _
      ⟨by decide, hencloses, by simp⟩ (by simp))
  have hcomment : Tree.Sheds true
      (root (name.inField (some "function")) [comment, literal]) after :=
    @Tree.Sheds.inside _ _ [] [] _ _ (@Tree.Sheds.inside _ _ [_] [] _ _
      (@Tree.Sheds.comment _ _ [] _ _ (by decide) (by decide) ⟨rfl, rfl, rfl⟩))
  have h := Relation.EqvGen.trans _ _ _ (.rel _ _ hcallee) (.rel _ _ hcomment)
  exact ⟨h, by decide +kernel, findings_eq_of_eqvGen_sheds _ _ _ _ h⟩

/-- Not all parentheses can be taken off.  If the document itself is an array, then an import comes
to light in `[(import B from 'm'),<B>Hi</B>]`.  If the tag of an element is an array, then so does
an attribute in `<b (title='Hi')></b>`, and the name is another one in `<(b)>Hi</b>`. -/
theorem findings_ne_of_parentheses :
    let config : Configuration :=
      { Configuration.toasts with policies := ⟨⟨["title"], false, false⟩, [],
          [("m:default", ⟨[], true, true⟩)]⟩ }
    let messages (text : String) (root : Tree) : List String :=
      ((ofText "a.tsx" text root).findings config Check.all).map Finding.message
    let enclose (span : Span) (field : Option String) (x : Tree) : Tree :=
      .node { kind := "parenthesized_expression", span, field } [x]
    let statement : Tree := .node { kind := "import_statement", span := ⟨2, 19⟩ } [
      .node { kind := "import_clause", span := ⟨9, 10⟩ } [
        .node { kind := "identifier", span := ⟨9, 10⟩ } []],
      .node { kind := "string", span := ⟨16, 19⟩, field := some "source" } []]
    let importing (x : Tree) : Tree := .node { kind := "array", span := ⟨0, 31⟩ } [x,
      .node { kind := "jsx_element", span := ⟨21, 30⟩ } [
        .node { kind := "jsx_opening_element", span := ⟨21, 24⟩, field := some "open_tag" } [
          .node { kind := "identifier", span := ⟨22, 23⟩, field := some "name" } []],
        .node { kind := "jsx_text", span := ⟨24, 26⟩ } []]]
    let title : Tree := .node { kind := "jsx_attribute", span := ⟨4, 14⟩ } [
      .node { kind := "property_identifier", span := ⟨4, 9⟩ } [],
      .node { kind := "string", span := ⟨10, 14⟩ } []]
    let titled (x : Tree) : Tree := .node { kind := "jsx_element", span := ⟨0, 20⟩ } [
      .node { kind := "array", span := ⟨0, 16⟩, field := some "open_tag" } [
        .node { kind := "identifier", span := ⟨1, 2⟩, field := some "name" } [], x]]
    let name : Tree := .node { kind := "identifier", span := ⟨2, 3⟩ } []
    let named (x : Tree) : Tree := .node { kind := "jsx_element", span := ⟨0, 11⟩ } [
      .node { kind := "array", span := ⟨0, 5⟩, field := some "open_tag" } [x],
      .node { kind := "jsx_text", span := ⟨5, 7⟩ } []]
    (∀ field, Tree.TakesValue "array" field) ∧
      (Tree.Encloses (enclose ⟨1, 20⟩ none statement) statement ∧
        messages "[(import B from 'm'),<B>Hi</B>]" (importing (enclose ⟨1, 20⟩ none statement)) =
          ["Hardcoded text in <B>"] ∧
        messages "[(import B from 'm'),<B>Hi</B>]" (importing (statement.inField none)) = []) ∧
      (Tree.Encloses (enclose ⟨3, 15⟩ none title) title ∧
        messages "<b (title='Hi')></b>" (titled (enclose ⟨3, 15⟩ none title)) = [] ∧
        messages "<b (title='Hi')></b>" (titled (title.inField none)) =
          ["Hardcoded markup attribute \"title\""]) ∧
      Tree.Encloses (enclose ⟨1, 4⟩ (some "name") name) name ∧
        messages "<(b)>Hi</b>" (named (enclose ⟨1, 4⟩ (some "name") name)) =
          ["Hardcoded text in <(b)>"] ∧
        messages "<(b)>Hi</b>" (named (name.inField (some "name"))) =
          ["Hardcoded text in <b>"] := by
  intro config messages enclose statement importing title titled name named
  have hencloses : ∀ span field (x : Tree), x.isContent →
      Tree.Encloses (enclose span field x) x := by
    intro span field x hx
    refine ⟨rfl, rfl, ?_, ?_⟩
    · simp [enclose, Tree.content, hx]
    · simp [enclose, hx]
  refine ⟨fun _ ↦ .inr (.inl rfl), ⟨hencloses _ _ _ rfl, ?_, ?_⟩, ⟨hencloses _ _ _ rfl, ?_, ?_⟩,
    hencloses _ _ _ rfl, ?_, ?_⟩
  all_goals decide +kernel

end Document

end HardcodedText
