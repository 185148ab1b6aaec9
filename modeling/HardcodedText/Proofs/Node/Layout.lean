import HardcodedText.Proofs.Node.OfTree
import HardcodedText.Proofs.Node.Walk
import HardcodedText.Proofs.Source.Layout

/-!
# Parentheses and comments in what trees are read as

A tree that has shed parentheses or a comment is read as a node like before (`Node.alike_ofTree`).
It need not be the same node: a call is not looked into where it is called itself, unless it is in
parentheses.  But nothing becomes of what is known about it then, as the rules do not look into
calls that are values.  What a walk comes upon are nodes with parts that are alike
(`Node.rel_node?`).
-/

namespace HardcodedText

open HardcodedText.Tree

/-- The document with another tree. -/
def Document.withRoot (doc : Document) (root : Tree) : Document := { doc with root := root }

namespace Node

/-- `Alike n n'`: the nodes are the same values, save for what is inside of calls. -/
inductive Alike : Node → Node → Prop
  | refl (n : Node) : Alike n n
  | member {site : Site} {holder holder' : Node} {key : String} :
    Alike holder holder' → Alike (.member site holder key) (.member site holder' key)
  | spread {site : Site} {n n' : Node} : Alike n n' → Alike (.spread site n) (.spread site n')
  | property {site : Site} {key : Option String} {n n' : Node} :
    Alike n n' → Alike (.property site key n) (.property site key n')
  | object {site : Site} {members members' : List Node} :
    List.Forall₂ Alike members members' → Alike (.object site members) (.object site members')
  | array {site : Site} {elements elements' : List Node} :
    List.Forall₂ Alike elements elements' → Alike (.array site elements) (.array site elements')
  | call {site : Site} {callee callee' : Node} {arguments arguments' : List Node} :
    Alike (.call site callee arguments) (.call site callee' arguments')
  | unread {site : Site} {callee : Node} {arguments : List Node} {kind : String} :
    Alike (.call site callee arguments) (.other site kind)
  | container {site : Site} {n n' : Node} :
    Alike n n' → Alike (.container site (some n)) (.container site (some n'))

theorem alike_getD {found found' : Option Node} (h : Option.Rel Alike found found') (n : Node) :
    Alike (found.getD n) (found'.getD n) := by
  cases h with
  | none => exact .refl n
  | some h => exact h

theorem forall₂_toList {α : Type} {R : α → α → Prop} {found found' : Option α}
    (h : Option.Rel R found found') : List.Forall₂ R found.toList found'.toList := by
  cases h with
  | none => exact .nil
  | some h => exact .cons h .nil

theorem rel_map {α β : Type} {R : α → α → Prop} {S : β → β → Prop} {f f' : α → β}
    {found found' : Option α} (h : Option.Rel R found found')
    (hf : ∀ a a', R a a' → S (f a) (f' a')) :
    Option.Rel S (found.map f) (found'.map f') := by
  cases h with
  | none => exact .none
  | some h => exact .some (hf _ _ h)

/-! ## Values -/

variable (doc : Document) {root : Tree}

theorem ofTree_inField (t : Tree) (field : Option String) :
    ofTree doc (t.inField field) = ofTree doc t := by
  cases t with
  | node head parts => rw [inField, ofTree, ofTree]; rfl

theorem ofTree_of_encloses {p x : Tree} (h : Encloses p x) : ofTree doc p = ofTree doc x := by
  obtain ⟨head, parts⟩ := p
  have hform : Form.ofKind head.kind = .parentheses := by
    rw [show head.kind = "parenthesized_expression" from h.kind]
    rfl
  have hcontent : parts.filter isContent = [x] := h.content
  simp only [ofTree, hform, ofContent_eq, hcontent, List.map_cons, List.map_nil]

theorem ofTree_of_call {t : Tree} (hk : t.kind = "call_expression") :
    ofTree doc t = .call (doc.site t.span)
      ((ofCallee doc t.children).getD (absent (doc.site t.span))) [] := by
  obtain ⟨head, parts⟩ := t
  have hform : Form.ofKind head.kind = .call := by
    rw [show head.kind = "call_expression" from hk]
    rfl
  simp only [ofTree, hform]
  rfl

/-- The node of a tree that is called. -/
def calleeOfTree (t : Tree) : Node :=
  if t.kind = "call_expression" then .other (doc.site t.span) t.kind else ofTree doc t

theorem ofCallee_eq (ts : List Tree) :
    ofCallee doc ts =
      (ts.find? fun t ↦ t.head.field == some "function").map (calleeOfTree doc) := by
  induction ts with
  | nil => rfl
  | cons t ts ih =>
    by_cases h : t.head.field = some "function" <;> simp [ofCallee, calleeOfTree, h, ih]

section

variable {doc} {head : Head} {ts ts' : List Tree}

/-- What has lost its parentheses is read as before. -/
theorem alike_of_counterpart {t t' : Tree} (h : Counterpart head t t')
    (ht : ∀ u, Near t u → Alike (ofTree doc t) (ofTree (doc.withRoot root) u)) :
    Alike (ofTree doc t) (ofTree (doc.withRoot root) t') := by
  cases h with
  | near h => exact ht _ h
  | bare h =>
    -- Both sides read what is in the parentheses, though in two documents.
    rw [ofTree_inField, ← ofTree_of_encloses _ h.encloses]
    exact ht _ (.refl _)

variable (h : Siblings head ts ts')
  (hvalues : ∀ t ∈ ts, ∀ u, Near t u → Alike (ofTree doc t) (ofTree (doc.withRoot root) u))

include h hvalues

theorem forall₂_ofContent :
    List.Forall₂ Alike (ofContent doc ts) (ofContent (doc.withRoot root) ts') := by
  rw [ofContent_eq, ofContent_eq, List.forall₂_map_left_iff, List.forall₂_map_right_iff]
  refine h.forall₂_content.imp ?_
  rintro t t' ⟨ht, htt'⟩
  exact alike_of_counterpart htt' (hvalues t ht)

theorem rel_ofField (field : String) :
    Option.Rel Alike (ofField doc field ts) (ofField (doc.withRoot root) field ts') := by
  rw [ofField_eq, ofField_eq]
  refine rel_map (h.rel_find? field) ?_
  rintro t t' ⟨⟨ht, -⟩, htt'⟩
  exact alike_of_counterpart htt' (hvalues t ht)

/-- A call in parentheses is looked into where it is called, and is no more without them. -/
theorem rel_ofCallee :
    Option.Rel Alike (ofCallee doc ts) (ofCallee (doc.withRoot root) ts') := by
  rw [ofCallee_eq, ofCallee_eq]
  refine rel_map (h.rel_find? "function") ?_
  rintro t t' ⟨⟨ht, -⟩, htt'⟩
  have halike := alike_of_counterpart htt' (hvalues t ht)
  rw [calleeOfTree, calleeOfTree]
  cases htt' with
  | near h =>
    rw [h.kind_eq, h.span_eq]
    split
    · exact .refl _
    · exact halike
  | bare h =>
    rw [if_neg (by rw [h.encloses.kind]; decide), kind_inField]
    split
    · next hk =>
      rw [ofTree_of_encloses _ h.encloses, ofTree_of_call _ hk]
      exact .unread
    · exact halike

end

theorem forall₂_ofMembers {t t' : Tree} (h : Near t t') (hk : t.kind = "object")
    (hmembers : ∀ c ∈ t.children, ∀ u, Near c u →
      Alike (memberOfTree doc c) (memberOfTree (doc.withRoot root) u)) :
    List.Forall₂ Alike (ofMembers doc t.children) (ofMembers (doc.withRoot root) t'.children) := by
  rw [ofMembers_eq, ofMembers_eq, List.forall₂_map_left_iff, List.forall₂_map_right_iff]
  refine (h.forall₂_content (by rw [hk]; decide)).imp ?_
  rintro c c' ⟨hc, hcc'⟩
  exact hmembers c hc c' hcc'

theorem map_text_eq_of_rel {found found' : Option Tree} (h : Option.Rel Near found found') :
    (found'.map fun c ↦ (doc.withRoot root).text c.span) = found.map fun c ↦ doc.text c.span := by
  cases h with
  | none => rfl
  | some h =>
    rw [Option.map_some, Option.map_some, h.span_eq]
    rfl

theorem key?_eq_of_near {t t' : Tree} (h : Near t t') (hk : t.kind = "pair") :
    (doc.withRoot root).key? t'.children = doc.key? t.children := by
  have hrel : Option.Rel Near (t.child? "key") (t'.child? "key") :=
    h.rel_child?_of_not_takesValue (by rw [hk]; decide)
  change (t'.child? "key").bind (doc.withRoot root).keyName? = (t.child? "key").bind doc.keyName?
  generalize t.child? "key" = found, t'.child? "key" = found' at hrel
  cases hrel with
  | none => rfl
  | some hc =>
    simp only [Option.bind_some, Document.keyName?, hc.kind_eq, hc.span_eq]
    rfl

theorem fixedParts_withRoot (cursor stop : Nat) (inserted : List Span) :
    (doc.withRoot root).fixedParts cursor stop inserted = doc.fixedParts cursor stop inserted := by
  induction inserted generalizing cursor with
  | nil => rfl
  | cons s rest ih =>
    rw [Document.fixedParts, Document.fixedParts, ih]
    rfl

theorem template_eq_of_near {t t' : Tree} (h : Near t t') (hk : t.kind = "template_string") :
    (doc.withRoot root).template t'.span t'.children = doc.template t.span t.children := by
  have hinserted :
      Document.substitutions t'.children = Document.substitutions t.children := by
    rw [Document.substitutions, Document.substitutions, List.map_eq_flatMap, List.map_eq_flatMap]
    apply h.siblings.flatMap_eq fun head ↦ head.kind == "template_substitution"
    · rw [← kind, hk]
      decide
    · intro c c' hc _
      rw [hc.span_eq]
    · intro c hc hq
      exact absurd (beq_iff_eq.mp hq) (hc.kind_ne (by decide))
  simp only [Document.template, hinserted, h.span_eq, fixedParts_withRoot]
  rfl

theorem alike_pairOfTree {t t' : Tree} (h : Near t t') (hk : t.kind = "pair")
    (hvalues : ∀ c ∈ t.children, ∀ u, Near c u →
      Alike (ofTree doc c) (ofTree (doc.withRoot root) u)) :
    Alike (pairOfTree doc t) (pairOfTree (doc.withRoot root) t') := by
  rw [pairOfTree, pairOfTree, key?_eq_of_near doc h hk, h.span_eq]
  exact .property (alike_getD (rel_ofField h.siblings hvalues "value") _)

/-- The step from the parts of a tree to the tree, by the forms of trees. -/
theorem alike_ofTree_of_parts {t t' : Tree} (h : Near t t')
    (hvalues : ∀ c ∈ t.children, ∀ u, Near c u →
      Alike (ofTree doc c) (ofTree (doc.withRoot root) u))
    (hmembers : ∀ c ∈ t.children, ∀ u, Near c u →
      Alike (memberOfTree doc c) (memberOfTree (doc.withRoot root) u)) :
    Alike (ofTree doc t) (ofTree (doc.withRoot root) t') := by
  have hcontent := forall₂_ofContent h.siblings hvalues
  have hholder := rel_ofField h.siblings hvalues "object"
  obtain ⟨head, parts⟩ := t
  obtain ⟨head', parts'⟩ := t'
  obtain rfl : head' = head := h.head_eq
  rw [children_node, children_node] at hcontent hholder
  rw [ofTree, ofTree]
  generalize ofContent doc parts = ns, ofContent (doc.withRoot root) parts' = ns' at hcontent
  generalize ofField doc "object" parts = n, ofField (doc.withRoot root) "object" parts' = n'
    at hholder
  cases hform : Form.ofKind head'.kind with
  | parentheses =>
    cases hcontent with
    | nil => exact .refl _
    | cons hn hns =>
      cases hns with
      | nil => exact hn
      | cons => exact .refl _
  | template =>
    have htemplate : (doc.withRoot root).template head'.span parts' =
        doc.template head'.span parts := template_eq_of_near doc h (Form.kind_eq hform rfl)
    exact htemplate ▸ .refl _
  | member =>
    have hplace : ¬ TakesValue head'.kind (some "property") := by
      rw [Form.kind_eq hform rfl]
      decide
    have hproperty : (doc.withRoot root).fieldText? "property" parts' =
        doc.fieldText? "property" parts :=
      map_text_eq_of_rel doc (h.rel_child?_of_not_takesValue hplace)
    simp only [hproperty]
    cases hholder with
    | none => exact .refl _
    | some hn =>
      cases doc.fieldText? "property" parts with
      | none => exact .refl _
      | some key => exact .member hn
  | object => exact .object (forall₂_ofMembers doc h (Form.kind_eq hform rfl) hmembers)
  | array => exact .array hcontent
  | spread =>
    cases hcontent with
    | nil => exact .refl _
    | cons hn _ => exact .spread hn
  | call => exact .call
  | container =>
    cases hcontent with
    | nil => exact .refl _
    | cons hn _ => exact .container hn
  | string | number | name | other => exact .refl _

/-- A tree that has shed something is read as a value like before, and so it is among the members of
an object. -/
theorem alike_ofTree_and {t t' : Tree} (h : Near t t') :
    Alike (ofTree doc t) (ofTree (doc.withRoot root) t') ∧
      Alike (memberOfTree doc t) (memberOfTree (doc.withRoot root) t') := by
  induction t using Tree.induct generalizing t' with
  | step t ih =>
    have hvalues : ∀ c ∈ t.children, ∀ u, Near c u →
        Alike (ofTree doc c) (ofTree (doc.withRoot root) u) := fun c hc u hu ↦ (ih c hc hu).1
    have hvalue := alike_ofTree_of_parts doc h hvalues fun c hc u hu ↦ (ih c hc hu).2
    refine ⟨hvalue, ?_⟩
    rw [memberOfTree, memberOfTree, h.kind_eq]
    split
    · next hk => exact alike_pairOfTree doc h hk hvalues
    · split
      · rw [h.span_eq]
        exact .refl _
      · exact hvalue

theorem alike_ofTree {t t' : Tree} (h : Near t t') :
    Alike (ofTree doc t) (ofTree (doc.withRoot root) t') :=
  (alike_ofTree_and doc h).1

/-! ## Calls and elements -/

variable {t t' : Tree}

theorem alike_attributeValue (h : Near t t') :
    Alike (attributeValue doc t) (attributeValue (doc.withRoot root) t') := by
  rw [attributeValue, attributeValue, h.kind_eq, h.span_eq, h.isElement_eq]
  split
  · exact .refl _
  · split
    · exact .refl _
    · exact alike_ofTree doc h

end Node

/-- `Attribute.Alike a a'`: the attributes have the same name, and their values are alike. -/
structure Attribute.Alike (a a' : Attribute Node) : Prop where
  /-- The name is the same. -/
  name : a'.name = a.name
  /-- The values are alike. -/
  value : Option.Rel Node.Alike a.value a'.value

namespace Node

variable (doc : Document) {root t t' : Tree}

theorem alike_attributeOfTree (h : Near t t') (hk : t.kind = "jsx_attribute") :
    (attributeOfTree doc t).Alike (attributeOfTree (doc.withRoot root) t') := by
  have hcontent : List.Forall₂ Near t.content t'.content :=
    (h.forall₂_content (by rw [hk]; decide)).imp fun _ _ hc ↦ hc.2
  rw [attributeOfTree, attributeOfTree]
  generalize t.content = ts, t'.content = ts' at hcontent
  cases hcontent with
  | nil => exact ⟨rfl, .none⟩
  | cons hname hrest =>
    cases hrest with
    | nil => exact ⟨by simp only [hname.span_eq]; rfl, .none⟩
    | cons hvalue _ =>
      exact ⟨by simp only [hname.span_eq]; rfl, .some (alike_attributeValue doc hvalue)⟩

theorem rel_childOfTree? (h : Near t t') :
    Option.Rel Alike (childOfTree? doc t) (childOfTree? (doc.withRoot root) t') := by
  rw [childOfTree?, childOfTree?, h.kind_eq, h.head_eq, h.span_eq, h.isElement_eq, h.isComment_eq]
  split
  · exact .none
  · split
    · exact .some (.refl _)
    · split
      · exact .none
      · exact .some (alike_ofTree doc h)

theorem forall₂_childrenOfTrees {ts ts' : List Tree} (h : List.Forall₂ Near ts ts')
    (run : Option Span) :
    List.Forall₂ Alike (childrenOfTrees doc run ts)
      (childrenOfTrees (doc.withRoot root) run ts') := by
  have hrun : ∀ run : Option Span, List.Forall₂ Alike (run.map (textOfSpan doc)).toList
      (run.map (textOfSpan (doc.withRoot root))).toList :=
    fun _ ↦ List.forall₂_same.mpr fun n _ ↦ .refl n
  induction h generalizing run with
  | nil => exact hrun run
  | cons ht _ ih =>
    rw [childrenOfTrees, childrenOfTrees, ht.isText_eq, ht.span_eq]
    split
    · exact ih _
    · refine List.rel_append (List.rel_append (hrun run) ?_) (ih none)
      exact forall₂_toList (rel_childOfTree? doc ht)

theorem rel_openingTag? (h : Near t t') (he : t.isElement) :
    Option.Rel (fun tag tag' ↦ IsTag tag ∧ Near tag tag') (openingTag? t) (openingTag? t') := by
  rw [openingTag?, openingTag?, h.kind_eq]
  split
  · next hk => exact .some ⟨.inr (by rw [hk]; decide), h⟩
  · next hk =>
    have hchildren := h.forall₂_children he hk
    have hfield : Option.Rel _ (t.child? "open_tag") (t'.child? "open_tag") :=
      rel_find?_of_forall₂ hchildren fun head ↦ head.field == some "open_tag"
    have hkind : Option.Rel _ (t.children.find? (·.kind == "jsx_opening_element"))
        (t'.children.find? (·.kind == "jsx_opening_element")) :=
      rel_find?_of_forall₂ hchildren fun head ↦ head.kind == "jsx_opening_element"
    generalize t.child? "open_tag" = tag, t'.child? "open_tag" = tag' at hfield
    cases hfield with
    | some htag => exact .some ⟨.inl (beq_iff_eq.mp htag.1), htag.2⟩
    | none =>
      simp only [Option.none_or]
      generalize t.children.find? _ = tag, t'.children.find? _ = tag' at hkind
      cases hkind with
      | none => exact .none
      | some htag =>
        refine .some ⟨.inr ?_, htag.2⟩
        rw [kind, beq_iff_eq.mp htag.1]
        decide

/-- `Corresponds n n'`: the nodes are the same to whoever comes upon them on a walk. -/
inductive Corresponds : Node → Node → Prop
  | call {site : Site} {callee callee' : Node} {arguments arguments' : List Node} :
    Alike callee callee' → List.Forall₂ Alike arguments arguments' →
      Corresponds (.call site callee arguments) (.call site callee' arguments')
  | property {site : Site} {key : Option String} {n n' : Node} :
    Alike n n' → Corresponds (.property site key n) (.property site key n')
  | element {site : Site} {name : String} {attributes attributes' : List (Attribute Node)}
      {children children' : List Node} :
    List.Forall₂ Attribute.Alike attributes attributes' → List.Forall₂ Alike children children' →
      Corresponds (.element site name attributes children)
        (.element site name attributes' children')

theorem corresponds_callOfTree (h : Near t t') (hk : t.kind = "call_expression") :
    Corresponds (callOfTree doc t) (callOfTree (doc.withRoot root) t') := by
  have hvalues : ∀ ts : List Tree, ∀ c ∈ ts, ∀ u, Near c u →
      Alike (ofTree doc c) (ofTree (doc.withRoot root) u) := fun _ _ _ _ ↦ alike_ofTree doc
  have hlist : Option.Rel Near (t.child? "arguments") (t'.child? "arguments") :=
    h.rel_child?_of_not_takesValue (by rw [hk]; decide)
  rw [callOfTree, callOfTree, h.span_eq]
  apply Corresponds.call
  · exact alike_getD (rel_ofCallee h.siblings (hvalues _)) _
  · generalize t.child? "arguments" = list, t'.child? "arguments" = list' at hlist
    cases hlist with
    | none => exact .nil
    | some hlist =>
      simp only [hlist.kind_eq]
      split
      · exact forall₂_ofContent hlist.siblings (hvalues _)
      · exact .nil

theorem corresponds_pairOfTree (h : Near t t') (hk : t.kind = "pair") :
    Corresponds (pairOfTree doc t) (pairOfTree (doc.withRoot root) t') := by
  rw [pairOfTree, pairOfTree, key?_eq_of_near doc h hk, h.span_eq]
  exact .property (alike_getD (rel_ofField h.siblings (fun _ _ _ ↦ alike_ofTree doc) "value") _)

theorem corresponds_elementOfTree (h : Near t t') (he : t.isElement) :
    Corresponds (elementOfTree doc t) (elementOfTree (doc.withRoot root) t') := by
  have hchildren : List.Forall₂ Alike
      (if t.kind = "jsx_self_closing_element" then [] else childrenOfTrees doc none t.children)
      (if t.kind = "jsx_self_closing_element" then []
        else childrenOfTrees (doc.withRoot root) none t'.children) := by
    split
    · exact .nil
    · next hk => exact forall₂_childrenOfTrees doc (h.forall₂_children he hk) none
  have htag := rel_openingTag? h he
  simp only [elementOfTree, h.kind_eq, h.span_eq]
  generalize openingTag? t = tag, openingTag? t' = tag' at htag
  cases htag with
  | none => exact .element .nil hchildren
  | some htag =>
    obtain ⟨htag, hnear⟩ := htag
    have hname := hnear.rel_child? fun p x hp ↦ (htag.of_removable hp).2
    simp only [Option.bind_some, Option.map_some, Option.getD_some, map_text_eq_of_rel doc hname]
    refine .element ?_ hchildren
    rw [List.forall₂_map_left_iff, List.forall₂_map_right_iff]
    refine (htag.forall₂_attributes hnear).imp ?_
    rintro c c' ⟨hk, hc⟩
    exact alike_attributeOfTree doc hc hk

/-- A walk comes upon the same nodes. -/
theorem rel_node? (h : Near t t') (properties inObject : Bool) :
    Option.Rel Corresponds ((⟨t, inObject⟩ : Stop).node? doc properties)
      ((⟨t', inObject⟩ : Stop).node? (doc.withRoot root) properties) := by
  simp only [Stop.node?, h.isElement_eq, h.kind_eq]
  split
  · next he => exact .some (corresponds_elementOfTree doc h he)
  · split
    · next hk => exact .some (corresponds_callOfTree doc h hk)
    · split
      · next hk => exact .some (corresponds_pairOfTree doc h hk.1)
      · exact .none

end Node

end HardcodedText
