import HardcodedText.Proofs.Check.Scan
import HardcodedText.Proofs.Finding
import HardcodedText.Proofs.Node.Relocate

/-!
# Findings further on

The checks look at the site of a node for two purposes only: a finding bears the place of its node,
and a property that has been inspected is known by its range of bytes.  So nodes with other sites
give rise to the same findings at other places, provided that ranges are still told apart
(`Scope.Moves.collect_eq`).

* `Document.Relocates.rawFindings_eq`: the findings of a document whose tree stands further on.
* `Finding.firsts_map`, `Finding.sort_map`: dropping repeated findings and sorting commute with
  whatever keeps keys apart and places in order.
* `Document.exists_position_of_mem_rawFindings`: every finding stands at a place of the document.
-/

namespace HardcodedText

namespace Node

variable (g : Site → Site)

@[simp] theorem display_mapSites : ∀ n : Node, (n.mapSites g).display = n.display
  | .container site (some n) => by
    rw [mapSites, mapSitesOption, display, display_mapSites n, display]
  | .container _ none => by rw [mapSites, mapSitesOption, display, display]
  | .string .. | .number .. | .template .. | .identifier .. | .member .. | .spread ..
  | .property .. | .object .. | .array .. | .call .. | .text .. | .element .. | .other .. => by
    simp only [mapSites, display]

@[simp] theorem path_mapSites : ∀ n : Node, (n.mapSites g).path = n.path
  | .member site holder key => by
    rw [mapSites, Node.path, Node.path, path_mapSites holder]
  | .string .. | .number .. | .template .. | .identifier .. | .spread .. | .property ..
  | .object .. | .array .. | .call .. | .container .. | .text .. | .element .. | .other .. => by
    simp only [mapSites, Node.path]

end Node

namespace Configuration

variable (config : Configuration) (g : Site → Site)

@[simp] theorem isHardcoded_mapSites :
    ∀ n : Node, config.isHardcoded (n.mapSites g) = config.isHardcoded n
  | .container site (some n) => by
    rw [Node.mapSites, Node.mapSitesOption, isHardcoded, isHardcoded_mapSites n, isHardcoded]
  | .container _ none => by simp only [Node.mapSites, Node.mapSitesOption, isHardcoded]
  | .string .. | .number .. | .template .. | .identifier .. | .member .. | .spread ..
  | .property .. | .object .. | .array .. | .call .. | .text .. | .element .. | .other .. => by
    simp only [Node.mapSites, isHardcoded]

@[simp] theorem isRefused_mapSites (policy : Policy) :
    ∀ n : Node, config.isRefused policy (n.mapSites g) = config.isRefused policy n
  | .container site (some n) => by
    rw [Node.mapSites, Node.mapSitesOption, isRefused, isRefused_mapSites policy n, isRefused]
  | .container _ none => by simp only [Node.mapSites, Node.mapSitesOption, isRefused]
  | .string .. | .number .. | .template .. | .identifier .. | .member .. | .spread ..
  | .property .. | .object .. | .array .. | .call .. | .text .. | .element .. | .other .. => by
    simp only [Node.mapSites, isRefused]

end Configuration

namespace Scope

variable (g : Site → Site) (n : Node)

@[simp] theorem argumentRemark_mapSites (call : String) :
    argumentRemark call (n.mapSites g) = argumentRemark call n := by
  unfold argumentRemark
  -- Here and below, `rw` would go on to compare the two texts by computing them.
  rewrite [Node.display_mapSites]
  exact Eq.refl _

@[simp] theorem propertyRemark_mapSites (owner : String) (kind : Kind) (key : String) :
    propertyRemark owner kind key (n.mapSites g) = propertyRemark owner kind key n := by
  unfold propertyRemark
  rewrite [Node.display_mapSites]
  exact Eq.refl _

@[simp] theorem arrayRemark_mapSites (key : String) (texts : List String) :
    arrayRemark key (n.mapSites g) texts = arrayRemark key n texts := by
  unfold arrayRemark
  rewrite [Node.display_mapSites]
  exact Eq.refl _

@[simp] theorem textRemark_mapSites (name : String) :
    textRemark name (n.mapSites g) = textRemark name n := by
  unfold textRemark
  rewrite [Node.display_mapSites]
  exact Eq.refl _

@[simp] theorem attributeRemark_mapSites (name : String) :
    attributeRemark name (n.mapSites g) = attributeRemark name n := by
  unfold attributeRemark
  rewrite [Node.display_mapSites]
  exact Eq.refl _

end Scope

/-! ## What calls expose -/

/-- What is met at another site. -/
def Exposure.mapSites (g : Site → Site) (σ : Span → Span) : Exposure → Exposure
  | inspected span => inspected (σ span)
  | argument n => argument (n.mapSites g)
  | value kind key n => value kind key (n.mapSites g)

namespace Spot

variable {g : Site → Site} {σ : Span → Span} (shown : Option String → Bool)

theorem moves_mapSites (s : Spot) (n : Node) :
    s.moves (n.mapSites g) = (s.moves n).map fun m ↦ (m.1, m.2.mapSites g) := by
  cases n with
  | object site members =>
    simp only [moves, Node.mapSites, Node.mapSitesAll_eq]
    cases s.opensAt <;> simp [Function.comp_def]
  | array site elements => cases s <;> simp [moves, Node.mapSites, Function.comp_def]
  | spread site n =>
    cases s with
    | argument | element => cases n <;> rfl
    | member => simp [moves, Node.mapSites]
    | inserted | value => simp [moves, Node.mapSites]
  | _ => cases s <;> rfl

theorem valueOf_mapSites (kind : Kind) (key : Option String) (n : Node) :
    Exposure.valueOf shown kind key (n.mapSites g) =
      (Exposure.valueOf shown kind key n).map (Exposure.mapSites g σ) := by
  unfold Exposure.valueOf
  split <;> rfl

theorem own_mapSites (hspan : ∀ site, (g site).span = σ site.span) (s : Spot) (n : Node) :
    own shown s (n.mapSites g) = (own shown s n).map (Exposure.mapSites g σ) := by
  have hvalue : ∀ kind key n, Exposure.valueOf shown kind key (n.mapSites g) =
      (Exposure.valueOf shown kind key n).map (Exposure.mapSites g σ) :=
    valueOf_mapSites shown
  cases s with
  | argument | inserted => cases n <;> rfl
  | member =>
    cases n with
    | property site => exact congrArg (fun span ↦ [Exposure.inspected span]) (hspan site)
    | _ => rfl
  | value depth key =>
    cases n <;> first | rfl | exact hvalue _ key _
  | element depth key =>
    cases n with
    | spread site n =>
      cases n with
      | spread site' n => exact hvalue _ key (.spread site' n)
      | _ => rfl
    | _ => first | rfl | exact hvalue _ key _

/-- Nodes at other sites expose the same at other sites. -/
theorem exposures_mapSites (hspan : ∀ site, (g site).span = σ site.span) (s : Spot) (n : Node) :
    exposures shown s (n.mapSites g) = (exposures shown s n).map (Exposure.mapSites g σ) := by
  rw [exposures_eq, exposures_eq, own_mapSites shown hspan, moves_mapSites, List.map_append,
    List.map_flatMap, List.flatMap_map]
  refine congrArg _ (List.flatMap_congr fun m hm ↦ ?_)
  obtain ⟨i, hi⟩ := List.getElem?_of_mem hm
  have := sizeOf_lt_of_step (step_of_moves hi)
  exact exposures_mapSites hspan m.1 m.2
termination_by sizeOf n

theorem ofArguments_mapSites (hspan : ∀ site, (g site).span = σ site.span) (ns : List Node) :
    Exposure.ofArguments shown (ns.map (Node.mapSites g)) =
      (Exposure.ofArguments shown ns).map (Exposure.mapSites g σ) := by
  rw [ofArguments_eq, ofArguments_eq, List.flatMap_map, List.map_flatMap]
  exact List.flatMap_congr fun n _ ↦ exposures_mapSites shown hspan argument n

end Spot

/-! ## Findings at other places -/

/-- `Moves scope g σ φ`: the sites that `g` gives have the ranges that `σ` gives, which keeps them
apart, and what is found there is what `φ` gives. -/
structure Scope.Moves (scope : Scope) (g : Site → Site) (σ : Span → Span) (φ : Finding → Finding) :
    Prop where
  /-- Ranges are told apart. -/
  injective : Function.Injective σ
  /-- The range of a site. -/
  span : ∀ site, (g site).span = σ site.span
  /-- The finding at a site. -/
  finding : ∀ n remark, scope.finding (n.mapSites g) remark = φ (scope.finding n remark)

namespace Scope.Moves

variable {scope : Scope} {g : Site → Site} {σ : Span → Span} {φ : Finding → Finding}

theorem exposureFinding?_eq (h : scope.Moves g σ φ) (call : String) (e : Exposure) :
    scope.exposureFinding? call (e.mapSites g σ) = (scope.exposureFinding? call e).map φ := by
  cases e with
  | inspected => rfl
  | argument n =>
    simp only [Exposure.mapSites, exposureFinding?, Configuration.isHardcoded_mapSites,
      argumentRemark_mapSites, h.finding]
    split <;> rfl
  | value kind key n =>
    simp only [Exposure.mapSites, exposureFinding?, Configuration.isHardcoded_mapSites,
      propertyRemark_mapSites, h.finding]
    split <;> rfl

theorem exposures_eq (h : scope.Moves g σ φ) (callee : Node) (arguments : List Node) :
    scope.exposures (callee.mapSites g) (arguments.map (Node.mapSites g)) =
      (scope.exposures callee arguments).map (Exposure.mapSites g σ) := by
  rw [exposures, exposures, Node.path_mapSites, Spot.ofArguments_mapSites _ h.span]
  split <;> rfl

theorem callFindings_eq (h : scope.Moves g σ φ) (callee : Node) (arguments : List Node) :
    scope.callFindings (callee.mapSites g) (arguments.map (Node.mapSites g)) =
      (scope.callFindings callee arguments).map φ := by
  rw [callFindings, callFindings, h.exposures_eq, Node.path_mapSites, List.filterMap_map,
    List.map_filterMap]
  exact congrArg (List.filterMap · _) (funext (h.exposureFinding?_eq callee.path))

theorem inspectedSpans_eq (h : scope.Moves g σ φ) (callee : Node) (arguments : List Node) :
    scope.inspectedSpans (callee.mapSites g) (arguments.map (Node.mapSites g)) =
      (scope.inspectedSpans callee arguments).map σ := by
  rw [inspectedSpans, inspectedSpans, h.exposures_eq, List.filterMap_map, List.map_filterMap]
  refine congrArg (List.filterMap · _) (funext fun e ↦ ?_)
  cases e <;> rfl

theorem valueFinding?_eq (h : scope.Moves g σ φ) (key : String) (n : Node) :
    scope.valueFinding? key (n.mapSites g) = (scope.valueFinding? key n).map φ := by
  have hother : (if scope.config.isHardcoded (n.mapSites g) then
        some (scope.finding (n.mapSites g)
          (propertyRemark "" .objectProperty key (n.mapSites g))) else none) =
      (if scope.config.isHardcoded n then
        some (scope.finding n (propertyRemark "" .objectProperty key n)) else none).map φ := by
    rw [Configuration.isHardcoded_mapSites, propertyRemark_mapSites, h.finding]
    split <;> rfl
  cases n with
  | array site elements =>
    have hfilter : (elements.map (Node.mapSites g)).filter scope.config.isHardcoded =
        (elements.filter scope.config.isHardcoded).map (Node.mapSites g) := by
      rw [List.filter_map]
      exact congrArg _
        (List.filter_congr fun n _ ↦ Configuration.isHardcoded_mapSites scope.config g n)
    have hfinding := h.finding (.array site elements)
    simp only [Node.mapSites, Node.mapSitesAll_eq] at hfinding
    simp only [Node.mapSites, Node.mapSitesAll_eq, valueFinding?, hfilter]
    cases elements.filter scope.config.isHardcoded with
    | nil => rfl
    | cons first more =>
      simp only [List.map_cons, hfinding, arrayRemark_mapSites, Node.display_mapSites,
        List.map_map, Function.comp_def, Option.map_some]
  | _ => exact hother

theorem propertyFinding?_eq (h : scope.Moves g σ φ) (key : Option String) (n : Node) :
    scope.propertyFinding? key (n.mapSites g) = (scope.propertyFinding? key n).map φ := by
  rw [propertyFinding?, propertyFinding?]
  split
  · exact h.valueFinding?_eq _ n
  · rfl

theorem textFindings_eq (h : scope.Moves g σ φ) (name : String) (children : List Node) :
    scope.textFindings name (children.map (Node.mapSites g)) =
      (scope.textFindings name children).map φ := by
  rw [textFindings, textFindings, List.filter_map, List.map_map, List.map_map]
  simp only [Function.comp_def, Configuration.isRefused_mapSites]
  exact List.map_congr_left fun n _ ↦ by rw [h.finding, textRemark_mapSites]

theorem attributeFindings_eq (h : scope.Moves g σ φ) (name : String)
    (attributes : List (Attribute Node)) :
    scope.attributeFindings name (attributes.map (Node.mapSitesAttribute g)) =
      (scope.attributeFindings name attributes).map φ := by
  rw [attributeFindings, attributeFindings, List.filterMap_map, List.map_filterMap]
  refine congrArg (List.filterMap · _) (funext fun a ↦ ?_)
  obtain ⟨site, name, value⟩ := a
  cases value with
  | none => rfl
  | some n =>
    simp only [Function.comp_apply, Node.mapSitesAttribute, Node.mapSitesOption, attributeFinding?,
      Configuration.isRefused_mapSites, attributeRemark_mapSites, h.finding]
    split <;> rfl

variable (checks : List Check)

theorem findingsAt_eq (h : scope.Moves g σ φ) (inspected : List Span) (n : Node) :
    scope.findingsAt checks (inspected.map σ) (n.mapSites g) =
      (scope.findingsAt checks inspected n).map φ := by
  cases n with
  | element site name attributes children =>
    simp only [Node.mapSites, Node.mapSitesAll_eq, Node.mapSitesAttributes_eq, findingsAt,
      h.textFindings_eq, h.attributeFindings_eq]
    split
    · rw [List.map_append]
    · rfl
  | call site callee arguments =>
    simp only [Node.mapSites, Node.mapSitesAll_eq, findingsAt, h.callFindings_eq]
    split <;> rfl
  | property site key n =>
    simp only [Node.mapSites, findingsAt, h.span, List.mem_map_of_injective h.injective,
      h.propertyFinding?_eq]
    split
    · rfl
    · cases scope.propertyFinding? key n <;> rfl
  | _ => rfl

theorem spansAt_eq (h : scope.Moves g σ φ) (n : Node) :
    scope.spansAt checks (n.mapSites g) = (scope.spansAt checks n).map σ := by
  cases n with
  | call site callee arguments =>
    simp only [Node.mapSites, Node.mapSitesAll_eq, spansAt, h.inspectedSpans_eq]
    split <;> rfl
  | _ => rfl

/-- The nodes of a walk at other sites give rise to the same findings in the same order, at other
places. -/
theorem collect_eq (h : scope.Moves g σ φ) (inspected : List Span) (ns : List Node) :
    scope.collect checks (inspected.map σ) (ns.map (Node.mapSites g)) =
      (scope.collect checks inspected ns).map φ := by
  induction ns generalizing inspected with
  | nil => rfl
  | cons n ns ih =>
    rw [List.map_cons, collect_cons, collect_cons, h.findingsAt_eq, h.spansAt_eq,
      ← List.map_append, ih, ← List.map_append]

end Scope.Moves

namespace Document.Relocates

variable {k : Nat} {g : Site → Site} {doc doc' : Document}

theorem scope_eq (h : Relocates k g doc doc') (config : Configuration) :
    doc'.scope config = doc.scope config := by
  rw [scope, scope, h.path, h.imports_eq]

/-- A document whose tree stands further on has the same findings at other places. -/
theorem rawFindings_eq (h : Relocates k g doc doc') {φ : Finding → Finding}
    {config : Configuration} (hmoves : (doc.scope config).Moves g (Span.shift k) φ)
    (checks : List Check) :
    doc'.rawFindings config checks = (doc.rawFindings config checks).map φ := by
  rw [rawFindings, rawFindings, h.scope_eq, h.nodes_eq]
  exact hmoves.collect_eq checks [] _

end Document.Relocates

/-! ## Repeated findings and the order of findings -/

namespace Finding

variable {φ : Finding → Finding}

theorem firstsFrom_map {κ : Key → Key} (hκ : Function.Injective κ) (h : ∀ f, (φ f).key = κ f.key)
    (seen : List Key) (fs : List Finding) :
    firstsFrom (seen.map κ) (fs.map φ) = (firstsFrom seen fs).map φ := by
  induction fs generalizing seen with
  | nil => rfl
  | cons f fs ih =>
    simp only [List.map_cons, firstsFrom, h, List.mem_map_of_injective hκ]
    split
    · exact ih seen
    · rw [← List.map_cons, ih, List.map_cons]

theorem firsts_map {κ : Key → Key} (hκ : Function.Injective κ) (h : ∀ f, (φ f).key = κ f.key)
    (fs : List Finding) : firsts (fs.map φ) = (firsts fs).map φ :=
  firstsFrom_map hκ h [] fs

theorem sort_map (h : ∀ f f', (φ f).atOrBefore (φ f') = f.atOrBefore f') (fs : List Finding) :
    sort (fs.map φ) = (sort fs).map φ :=
  (List.map_mergeSort fun f _ f' _ ↦ (h f f').symm).symm

end Finding

/-! ## Where findings stand

A document is a relocation of itself by any function that leaves its own places alone.  So its
findings stay the same when all other places are replaced: they stand at its own places. -/

namespace Document

variable (doc : Document)

open Classical in
/-- The place itself, if it is that of some offset, and else the beginning. -/
noncomputable def settle (p : Position) : Position :=
  if ∃ offset, doc.position offset = p then p else doc.position 0

theorem exists_position_eq_settle (p : Position) :
    ∃ offset, doc.position offset = doc.settle p := by
  unfold settle
  split
  · assumption
  · exact ⟨0, rfl⟩

/-- The finding in the document, at a place of it. -/
noncomputable def settled (f : Finding) : Finding :=
  let p := doc.settle ⟨f.line.toNat, f.column.toNat⟩
  { f with path := doc.path, line := p.line, column := p.column }

theorem relocates_settle :
    Relocates 0 (fun site ↦ ⟨doc.settle site.position, site.span⟩) doc doc where
  path := rfl
  root := doc.root.shift_zero.symm
  slice _ := rfl
  site offset span := by
    rw [settle, if_pos ⟨offset, rfl⟩]
    rfl

theorem moves_settle (config : Configuration) :
    (doc.scope config).Moves (fun site ↦ ⟨doc.settle site.position, site.span⟩) (Span.shift 0)
      doc.settled where
  injective := Span.shift_injective 0
  span _ := rfl
  finding n remark := by
    simp only [Scope.finding, Node.position, Node.site_mapSites]
    rfl

theorem rawFindings_eq_map_settled (config : Configuration) (checks : List Check) :
    doc.rawFindings config checks = (doc.rawFindings config checks).map doc.settled :=
  doc.relocates_settle.rawFindings_eq (doc.moves_settle config) checks

variable {doc} {config : Configuration} {checks : List Check} {f : Finding}

/-- A finding stands in the document, at the place of some byte. -/
theorem exists_position_of_mem_rawFindings (h : f ∈ doc.rawFindings config checks) :
    f.path = doc.path ∧ ∃ offset, f.line = (doc.position offset).line ∧
      f.column = (doc.position offset).column := by
  rw [rawFindings_eq_map_settled] at h
  obtain ⟨g, -, rfl⟩ := List.mem_map.mp h
  obtain ⟨offset, hoffset⟩ := doc.exists_position_eq_settle ⟨g.line.toNat, g.column.toNat⟩
  refine ⟨rfl, offset, ?_⟩
  rw [hoffset]
  exact ⟨rfl, rfl⟩

end Document

end HardcodedText
