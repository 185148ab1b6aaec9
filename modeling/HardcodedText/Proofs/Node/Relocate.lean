import Mathlib.Data.List.Basic
import HardcodedText.Proofs.Node.OfTree
import HardcodedText.Proofs.Node.Walk
import HardcodedText.Proofs.Source.Shift

/-!
# The nodes of a document further on

Where the tree of a document stands further on over the same bytes (`Document.Relocates`), a walk
comes upon the same nodes, except that they have other sites (`Document.Relocates.nodes_eq`).
-/

namespace HardcodedText

namespace Node

variable (g : Site → Site)

mutual

/-- The node with another site, and so all nodes in it. -/
def mapSites : Node → Node
  | .string site value => .string (g site) value
  | .number site raw => .number (g site) raw
  | .template site parts expressions => .template (g site) parts expressions
  | .identifier site name => .identifier (g site) name
  | .member site holder key => .member (g site) (mapSites holder) key
  | .spread site argument => .spread (g site) (mapSites argument)
  | .property site key value => .property (g site) key (mapSites value)
  | .object site members => .object (g site) (mapSitesAll members)
  | .array site elements => .array (g site) (mapSitesAll elements)
  | .call site callee arguments => .call (g site) (mapSites callee) (mapSitesAll arguments)
  | .container site expression => .container (g site) (mapSitesOption expression)
  | .text site value => .text (g site) value
  | .element site name attributes children =>
    .element (g site) name (mapSitesAttributes attributes) (mapSitesAll children)
  | .other site kind => .other (g site) kind

/-- Several nodes with other sites. -/
def mapSitesAll : List Node → List Node
  | [] => []
  | n :: ns => mapSites n :: mapSitesAll ns

/-- A node with another site, if there is one. -/
def mapSitesOption : Option Node → Option Node
  | none => none
  | some n => some (mapSites n)

/-- An attribute with another site. -/
def mapSitesAttribute : Attribute Node → Attribute Node
  | ⟨site, name, value⟩ => ⟨g site, name, mapSitesOption value⟩

/-- Several attributes with other sites. -/
def mapSitesAttributes : List (Attribute Node) → List (Attribute Node)
  | [] => []
  | a :: as => mapSitesAttribute a :: mapSitesAttributes as

end

@[simp] theorem mapSitesAll_eq (ns : List Node) : mapSitesAll g ns = ns.map (mapSites g) := by
  induction ns with
  | nil => rfl
  | cons n ns ih => rw [mapSitesAll, ih, List.map_cons]

@[simp] theorem mapSitesAttributes_eq (as : List (Attribute Node)) :
    mapSitesAttributes g as = as.map (mapSitesAttribute g) := by
  induction as with
  | nil => rfl
  | cons a as ih => rw [mapSitesAttributes, ih, List.map_cons]

@[simp] theorem site_mapSites (n : Node) : (n.mapSites g).site = g n.site := by
  cases n <;> rfl

end Node

/-- The stop at a tree that stands further on. -/
def Stop.shift (k : Nat) (s : Stop) : Stop := ⟨s.tree.shift k, s.inObject⟩

theorem Tree.stops_shift (k : Nat) (t : Tree) (inObject : Bool) :
    (t.shift k).stops inObject = (t.stops inObject).map (Stop.shift k) := by
  induction t using Tree.induct generalizing inObject with
  | step t ih =>
    rw [stops_eq, stops_eq, stopsOf_eq_flatMap, stopsOf_eq_flatMap, kind_shift, children_shift,
      List.map_cons, List.map_flatMap, List.flatMap_map]
    exact congrArg _ (List.flatMap_congr fun c hc ↦ ih c hc _)

namespace Document.Relocates

open Node

variable {k : Nat} {g : Site → Site} {doc doc' : Document}

/-! ## Values -/

/-- The last part of a template ends before its closing mark, if there is room for one. -/
theorem text_template_eq (h : Relocates k g doc doc') (cursor stop : Nat) :
    doc'.text ⟨cursor + k, stop + k - 1⟩ = doc.text ⟨cursor, stop - 1⟩ := by
  cases stop with
  | zero =>
    have hempty : ∀ (d : Document) (span : Span), span.stop ≤ span.start → d.text span = "" := by
      intro d span hspan
      rw [text, chars, Document.slice, Nat.sub_eq_zero_of_le hspan, List.take_zero,
        Utf8.decodeLossy, String.ofList_nil]
    rw [hempty _ _ (by dsimp only; omega), hempty _ _ (by dsimp only; omega)]
  | succ stop =>
    rw [show stop + 1 + k - 1 = stop + k by omega, Nat.add_sub_cancel]
    exact h.text_eq ⟨cursor, stop⟩

theorem fixedParts_eq (h : Relocates k g doc doc') (cursor stop : Nat) (inserted : List Span) :
    doc'.fixedParts (cursor + k) (stop + k - 1) (inserted.map (Span.shift k)) =
      doc.fixedParts cursor (stop - 1) inserted := by
  induction inserted generalizing cursor with
  | nil =>
    rw [List.map_nil, fixedParts, fixedParts, h.text_template_eq]
  | cons s rest ih =>
    rw [List.map_cons, fixedParts, fixedParts]
    exact congrArg₂ List.cons (h.text_eq ⟨cursor, s.start⟩) (ih s.stop)

theorem substitutions_map_shift (parts : List Tree) :
    substitutions (parts.map (Tree.shift k)) = (substitutions parts).map (Span.shift k) := by
  rw [substitutions, Tree.filter_map_shift k fun t ↦ by rw [Tree.kind_shift], List.map_map,
    substitutions, List.map_map]
  exact List.map_congr_left fun t _ ↦ Tree.span_shift k t

theorem template_eq (h : Relocates k g doc doc') (span : Span) (parts : List Tree) :
    doc'.template (span.shift k) (parts.map (Tree.shift k)) =
      (doc.template span parts).mapSites g := by
  have hparts := h.fixedParts_eq (span.start + 1) span.stop (substitutions parts)
  rw [Nat.add_right_comm] at hparts
  simp only [template, mapSites, substitutions_map_shift, h.site_eq, List.length_map]
  exact congrArg (Node.template _ · _) hparts

theorem fieldText?_eq (h : Relocates k g doc doc') (field : String) (parts : List Tree) :
    doc'.fieldText? field (parts.map (Tree.shift k)) = doc.fieldText? field parts := by
  rw [fieldText?, fieldText?, Tree.find?_map_shift k fun t ↦ by rw [Tree.head_shift],
    Option.map_map]
  refine congrArg (Option.map · _) (funext fun t ↦ ?_)
  rw [Function.comp_apply, Tree.span_shift, h.text_eq]

theorem key?_eq (h : Relocates k g doc doc') (parts : List Tree) :
    doc'.key? (parts.map (Tree.shift k)) = doc.key? parts := by
  rw [key?, Tree.find?_map_shift k fun t ↦ by rw [Tree.head_shift], Option.bind_map, key?]
  refine congrArg (Option.bind _) (funext fun t ↦ ?_)
  rw [Function.comp_apply, keyName?, keyName?, Tree.kind_shift, Tree.span_shift, h.text_eq,
    h.stringValue_eq]

/-! ### What is known of the parts carries over to lists of them -/

theorem ofContent_eq {parts : List Tree} (hparts : ∀ c ∈ parts,
      ofTree doc' (c.shift k) = (ofTree doc c).mapSites g) :
    ofContent doc' (parts.map (Tree.shift k)) = (ofContent doc parts).map (mapSites g) := by
  rw [Node.ofContent_eq, Node.ofContent_eq, Tree.filter_map_shift k (Tree.isContent_shift k),
    List.map_map, List.map_map]
  exact List.map_congr_left fun c hc ↦ hparts c (List.mem_filter.mp hc).1

theorem ofMembers_eq {parts : List Tree} (hparts : ∀ c ∈ parts,
      memberOfTree doc' (c.shift k) = (memberOfTree doc c).mapSites g) :
    ofMembers doc' (parts.map (Tree.shift k)) = (ofMembers doc parts).map (mapSites g) := by
  rw [Node.ofMembers_eq, Node.ofMembers_eq, Tree.filter_map_shift k (Tree.isContent_shift k),
    List.map_map, List.map_map]
  exact List.map_congr_left fun c hc ↦ hparts c (List.mem_filter.mp hc).1

theorem ofField_eq {parts : List Tree} (hparts : ∀ c ∈ parts,
      ofTree doc' (c.shift k) = (ofTree doc c).mapSites g) (field : String) :
    ofField doc' field (parts.map (Tree.shift k)) = (ofField doc field parts).map (mapSites g) := by
  rw [Node.ofField_eq, Node.ofField_eq, Tree.find?_map_shift k fun t ↦ by rw [Tree.head_shift]]
  cases hfound : parts.find? fun t ↦ t.head.field == some field with
  | none => rfl
  | some c => exact congrArg some (hparts c (List.mem_of_find?_eq_some hfound))

theorem ofCallee_eq (h : Relocates k g doc doc') {parts : List Tree} (hparts : ∀ c ∈ parts,
      ofTree doc' (c.shift k) = (ofTree doc c).mapSites g) :
    ofCallee doc' (parts.map (Tree.shift k)) = (ofCallee doc parts).map (mapSites g) := by
  induction parts with
  | nil => rfl
  | cons c parts ih =>
    obtain ⟨hc, hrest⟩ := List.forall_mem_cons.mp hparts
    rw [List.map_cons, ofCallee, ofCallee, Tree.head_shift, ih hrest]
    split
    · rw [Option.map_some, Tree.kind_shift, Tree.span_shift, h.site_eq, hc]
      split <;> rfl
    · rfl

theorem pairOfTree_eq (h : Relocates k g doc doc') {t : Tree} (hparts : ∀ c ∈ t.children,
      ofTree doc' (c.shift k) = (ofTree doc c).mapSites g) :
    pairOfTree doc' (t.shift k) = (pairOfTree doc t).mapSites g := by
  rw [pairOfTree, pairOfTree, Tree.children_shift, Tree.span_shift, h.site_eq, h.key?_eq,
    ofField_eq hparts, mapSites]
  cases ofField doc "value" t.children <;> rfl

/-- A tree further on is read as the same value, and so it is among the members of an object. -/
theorem ofTree_eq_and (h : Relocates k g doc doc') (t : Tree) :
    ofTree doc' (t.shift k) = (ofTree doc t).mapSites g ∧
      memberOfTree doc' (t.shift k) = (memberOfTree doc t).mapSites g := by
  induction t using Tree.induct with
  | step t ih =>
    have hvalues : ∀ c ∈ t.children, ofTree doc' (c.shift k) = (ofTree doc c).mapSites g :=
      fun c hc ↦ (ih c hc).1
    have hmembers : ∀ c ∈ t.children,
        memberOfTree doc' (c.shift k) = (memberOfTree doc c).mapSites g :=
      fun c hc ↦ (ih c hc).2
    have hvalue : ofTree doc' (t.shift k) = (ofTree doc t).mapSites g := by
      obtain ⟨head, parts⟩ := t
      rw [Tree.shift_node, ofTree, ofTree]
      rw [Tree.children_node] at hvalues hmembers
      simp only [h.site_eq, h.stringValue_eq, h.text_eq, h.template_eq, h.fieldText?_eq,
        ofContent_eq hvalues, ofMembers_eq hmembers, ofField_eq hvalues, h.ofCallee_eq hvalues]
      cases Form.ofKind head.kind with
      | parentheses =>
        cases ofContent doc parts with
        | nil => rfl
        | cons n ns => cases ns <;> rfl
      | member =>
        cases ofField doc "object" parts <;> cases doc.fieldText? "property" parts <;> rfl
      | spread => cases ofContent doc parts <;> rfl
      | call => cases ofCallee doc parts <;> rfl
      | container => cases ofContent doc parts <;> rfl
      | object | array => simp only [mapSites, mapSitesAll_eq]
      | string | number | template | name | other => rfl
    refine ⟨hvalue, ?_⟩
    rw [memberOfTree, memberOfTree, Tree.kind_shift, h.pairOfTree_eq hvalues, hvalue,
      Tree.span_shift, h.site_eq, h.text_eq]
    split
    · rfl
    · split <;> rfl

theorem ofTree_eq (h : Relocates k g doc doc') (t : Tree) :
    ofTree doc' (t.shift k) = (ofTree doc t).mapSites g :=
  (h.ofTree_eq_and t).1

/-! ## Calls and elements -/

theorem callOfTree_eq (h : Relocates k g doc doc') (t : Tree) :
    callOfTree doc' (t.shift k) = (callOfTree doc t).mapSites g := by
  have hcontent : ∀ parts : List Tree, ofContent doc' (parts.map (Tree.shift k)) =
      (ofContent doc parts).map (mapSites g) := fun _ ↦ ofContent_eq fun c _ ↦ h.ofTree_eq c
  simp only [callOfTree, Tree.child?_shift, Tree.children_shift, Tree.span_shift, h.site_eq,
    h.ofCallee_eq fun c _ ↦ h.ofTree_eq c]
  cases t.child? "arguments" with
  | none => cases ofCallee doc t.children <;> rfl
  | some list =>
    simp only [Option.map_some, Tree.kind_shift, Tree.children_shift, hcontent, mapSites,
      mapSitesAll_eq]
    congr 1
    · cases ofCallee doc t.children <;> rfl
    · split <;> rfl

theorem textOfSpan_eq (h : Relocates k g doc doc') (span : Span) :
    textOfSpan doc' (span.shift k) = (textOfSpan doc span).mapSites g := by
  simp only [textOfSpan, mapSites, h.slice, h.chars_eq, h.site]
  rw [show (span.shift k).start = span.start + k from rfl, Nat.add_right_comm]

theorem attributeValue_eq (h : Relocates k g doc doc') (t : Tree) :
    attributeValue doc' (t.shift k) = (attributeValue doc t).mapSites g := by
  simp only [attributeValue, Tree.kind_shift, Tree.isElement_shift, Tree.span_shift, h.site_eq,
    h.chars_eq, h.ofTree_eq]
  split
  · rfl
  · split <;> rfl

theorem attributeOfTree_eq (h : Relocates k g doc doc') (t : Tree) :
    attributeOfTree doc' (t.shift k) = mapSitesAttribute g (attributeOfTree doc t) := by
  simp only [attributeOfTree, mapSitesAttribute, Tree.content_shift, Tree.span_shift, h.site_eq]
  cases t.content with
  | nil => rfl
  | cons name rest =>
    cases rest with
    | nil => simp only [List.map_cons, List.map_nil, Tree.span_shift, h.text_eq, mapSitesOption]
    | cons value rest =>
      simp only [List.map_cons, Tree.span_shift, h.text_eq, h.attributeValue_eq, mapSitesOption]

theorem childOfTree?_eq (h : Relocates k g doc doc') (t : Tree) :
    childOfTree? doc' (t.shift k) = (childOfTree? doc t).map (mapSites g) := by
  simp only [childOfTree?, Tree.kind_shift, Tree.isElement_shift, Tree.isComment_shift,
    Tree.head_shift, Tree.span_shift, h.site_eq, h.ofTree_eq]
  split
  · rfl
  · split
    · rfl
    · split <;> rfl

theorem childrenOfTrees_eq (h : Relocates k g doc doc') (run : Option Span) (ts : List Tree) :
    childrenOfTrees doc' (run.map (Span.shift k)) (ts.map (Tree.shift k)) =
      (childrenOfTrees doc run ts).map (mapSites g) := by
  have hrun : ∀ run : Option Span, ((run.map (Span.shift k)).map (textOfSpan doc')).toList =
      (run.map (textOfSpan doc)).toList.map (mapSites g) := by
    intro run
    cases run with
    | none => rfl
    | some span => exact congrArg (fun n ↦ [n]) (h.textOfSpan_eq span)
  induction ts generalizing run with
  | nil => rw [List.map_nil, childrenOfTrees, childrenOfTrees, hrun]
  | cons t ts ih =>
    rw [List.map_cons, childrenOfTrees, childrenOfTrees, Tree.isText_shift]
    split
    · -- The run goes on: its beginning and its end have moved alike.
      rw [← ih, Tree.span_shift]
      cases run <;> rfl
    · have hrest := ih none
      rw [Option.map_none] at hrest
      rw [hrun, h.childOfTree?_eq, hrest, List.map_append, List.map_append]
      cases childOfTree? doc t <;> rfl

theorem openingTag?_shift (t : Tree) :
    openingTag? (t.shift k) = (openingTag? t).map (Tree.shift k) := by
  rw [openingTag?, openingTag?, Tree.kind_shift, Tree.child?_shift, Tree.children_shift,
    Tree.find?_map_shift k fun t ↦ by rw [Tree.kind_shift]]
  split
  · rfl
  · cases t.child? "open_tag" <;> rfl

theorem elementOfTree_eq (h : Relocates k g doc doc') (t : Tree) :
    elementOfTree doc' (t.shift k) = (elementOfTree doc t).mapSites g := by
  have hattributes : ∀ ts : List Tree,
      ((ts.map (Tree.shift k)).filter fun c ↦ c.head.named && c.kind == "jsx_attribute").map
          (attributeOfTree doc') =
        ((ts.filter fun c ↦ c.head.named && c.kind == "jsx_attribute").map
          (attributeOfTree doc)).map (mapSitesAttribute g) := by
    intro ts
    rw [Tree.filter_map_shift k fun t ↦ by rw [Tree.head_shift, Tree.kind_shift], List.map_map,
      List.map_map]
    exact List.map_congr_left fun c _ ↦ h.attributeOfTree_eq c
  have hchildren := h.childrenOfTrees_eq none t.children
  rw [Option.map_none] at hchildren
  simp only [elementOfTree, openingTag?_shift, Tree.kind_shift, Tree.span_shift,
    Tree.children_shift, h.site_eq, mapSites, mapSitesAttributes_eq, mapSitesAll_eq, hchildren]
  congr 1
  · cases openingTag? t with
    | none => rfl
    | some tag =>
      simp only [Option.map_some, Option.bind_some, Tree.child?_shift]
      cases tag.child? "name" with
      | none => rfl
      | some name => simp only [Option.map_some, Tree.span_shift, h.text_eq]
  · cases openingTag? t with
    | none => rfl
    | some tag =>
      simp only [Option.map_some, Option.getD_some, Tree.children_shift]
      exact hattributes tag.children
  · split <;> rfl

/-! ## The walk -/

theorem node?_eq (h : Relocates k g doc doc') (properties : Bool) (s : Stop) :
    (s.shift k).node? doc' properties = (s.node? doc properties).map (mapSites g) := by
  simp only [Stop.node?, Stop.shift, Tree.isElement_shift, Tree.kind_shift, h.elementOfTree_eq,
    h.callOfTree_eq, h.pairOfTree_eq fun c _ ↦ h.ofTree_eq c]
  split
  · rfl
  · split
    · rfl
    · split <;> rfl

/-- A walk comes upon the same nodes in the same order, at their other sites. -/
theorem nodes_eq (h : Relocates k g doc doc') (properties : Bool) :
    doc'.nodes properties = (doc.nodes properties).map (mapSites g) := by
  rw [Document.nodes_eq, Document.nodes_eq, h.root, Tree.stops_shift, List.filterMap_map,
    List.map_filterMap]
  exact congrArg (List.filterMap · _) (funext fun s ↦ h.node?_eq properties s)

end Document.Relocates

end HardcodedText
