import HardcodedText.Proofs.Check.MarkupPlaces

/-!
# Where findings come from

Every finding goes back to a tree of the document, or to a run of text in it, and says where that
stands and what it shows (`Finding.On`).  `Origin` lists the ways in which this can be, and
`Document.origin_of_mem_rawFindings` says that there is no other one.  A statement about all
findings is then shown by cases on `Origin`, without another look at the walk.

The arguments of a call are the only place where trees are taken apart.  One move leads from what is
read from a tree to what is read from a tree in it (`Node.exists_readFrom_of_step`), and so does any
number of moves (`Node.ReadFrom.exists_of_leads`).
-/

namespace HardcodedText

open Node (ofTree)

/-- Where a finding in a document comes from. -/
inductive Origin (doc : Document) (config : Configuration) (f : Finding) : Prop
  /-- Text that a call shows, or that is the value of a property. -/
  | value {t : Tree} (ht : t.Within doc.root) (hn : config.isHardcoded (ofTree doc t) = true)
      (hf : f.On (ofTree doc t))
  /-- The texts in an array that is the value of a property. -/
  | array {t : Tree} {site : Site} {elements : List Node} (ht : t.Within doc.root)
      (harray : ofTree doc t = .array site elements)
      (hne : elements.filter config.isHardcoded ≠ []) (hplace : f.place = site.position)
      (hvalue : f.value = ", ".intercalate ((elements.filter config.isHardcoded).map Node.display))
  /-- A tree between the tags of an element. -/
  | child {t : Tree} {policy : Policy} (ht : t.Within doc.root)
      (hn : config.isRefused policy (ofTree doc t) = true) (hf : f.On (ofTree doc t))
  /-- A run of text between the tags of an element. -/
  | text {run : Span} {policy : Policy}
      (hn : config.isRefused policy (Node.textOfSpan doc run) = true)
      (hf : f.On (Node.textOfSpan doc run))
  /-- The value of an attribute. -/
  | attributeValue {t : Tree} {policy : Policy} (ht : t.Within doc.root)
      (hn : config.isRefused policy (Node.attributeValue doc t) = true)
      (hf : f.On (Node.attributeValue doc t))

/-! ## Calls -/

/-- What the content of a tree is read as goes back to trees within. -/
theorem Tree.exists_of_getElem?_content {t : Tree} {r : Tree → Node} {i : Nat} {n : Node}
    (h : (t.content.map r)[i]? = some n) : ∃ c, c.Within t ∧ n = r c := by
  rw [List.getElem?_map, Option.map_eq_some_iff] at h
  obtain ⟨c, hc, rfl⟩ := h
  have hchild : c ∈ t.children := (List.mem_filter.mp (List.mem_of_getElem? hc)).1
  exact ⟨c, .inr (.child hchild), rfl⟩

namespace Node

variable {doc : Document} {t : Tree} {n n' : Node} {s s' : Spot}

/-- What a tree is read as in the place of a value or of a member.  Plain nodes may come from
anywhere. -/
def ReadFrom (doc : Document) (t : Tree) (n : Node) : Prop :=
  n.IsPlain ∨ n = ofTree doc t ∨ n = memberOfTree doc t

theorem ReadFrom.reads (h : n.ReadFrom doc t) : n.Reads doc t := by
  rcases h with h | rfl | rfl
  · exact .plain h
  · exact reads_ofTree doc t
  · exact reads_memberOfTree doc t

/-- A move leads to what is read from a tree within. -/
theorem exists_readFrom_of_step {i : Nat} (h : n.Reads doc t) (hstep : Step s n i s' n') :
    ∃ u, u.Within t ∧ n'.ReadFrom doc u := by
  have hmoves := Spot.moves_of_step hstep
  induction t using Tree.induct generalizing n with
  | step t ih =>
    cases h with
    | parentheses hk hc =>
      obtain ⟨u, hu, hn'⟩ := ih _ hc (reads_ofTree doc _) hstep hmoves
      exact ⟨u, hu.trans (.inr (.child hc)), hn'⟩
    | atom _ hn _ =>
      rw [Spot.moves_of_isAtom hn] at hmoves
      cases hmoves
    | plain hn =>
      rw [Spot.moves_of_isPlain hn] at hmoves
      cases hmoves
    | object hk =>
      cases hstep with
      | enter _ hmember =>
        obtain ⟨c, hc, rfl⟩ := Tree.exists_of_getElem?_content hmember
        exact ⟨c, hc, .inr (.inr rfl)⟩
    | array hk =>
      cases hstep with
      | arrayArgument h | arrayValue h | arrayElement h =>
        obtain ⟨c, hc, rfl⟩ := Tree.exists_of_getElem?_content h
        exact ⟨c, hc, .inr (.inl rfl)⟩
    | @spread c hk hc =>
      cases hstep with
      | spreadArgument | spreadMember | spreadElement =>
        exact ⟨c, .inr (.child hc), .inr (.inl rfl)⟩
    | @property c key hk hc =>
      cases hstep with
      | property => exact ⟨c, .inr (.child hc), .inr (.inl rfl)⟩
    | bare hn =>
      cases hstep with
      | property => exact ⟨t, .refl t, .inl hn⟩

/-- So does any number of moves. -/
theorem ReadFrom.exists_of_leads {p : List Nat} (h : n.ReadFrom doc t)
    (hleads : Leads s n p s' n') : ∃ u, u.Within t ∧ n'.ReadFrom doc u := by
  induction hleads generalizing t with
  | here => exact ⟨t, .refl t, h⟩
  | down hstep _ ih =>
    obtain ⟨c, hc, hpart⟩ := exists_readFrom_of_step h.reads hstep
    obtain ⟨u, hu, hn'⟩ := ih hpart
    exact ⟨u, hu.trans hc, hn'⟩

/-- Hardcoded text is read in the place of a value. -/
theorem ReadFrom.eq_ofTree {config : Configuration} (h : n.ReadFrom doc t)
    (hn : config.isHardcoded n = true) : n = ofTree doc t := by
  rcases h with h | rfl | rfl
  · exact absurd (Configuration.isAtom_of_isHardcoded hn) h.not_isAtom
  · rfl
  · unfold memberOfTree at hn ⊢
    split at hn
    · cases hn
    · split at hn
      · cases hn
      · rw [if_neg ‹_›, if_neg ‹_›]

end Node

namespace Scope

variable {doc : Document} {scope : Scope} {f : Finding}

/-- What a call shows is hardcoded and stands in its arguments. -/
theorem exists_of_mem_callFindings {callee : Node} {arguments : List Node}
    (h : f ∈ scope.callFindings callee arguments) :
    ∃ p s n, Stands arguments p s n ∧ scope.config.isHardcoded n = true ∧ f.On n := by
  by_cases hnotifies : scope.config.notifies callee.path
  · obtain ⟨o, ho, rfl⟩ := (mem_callFindings_iff hnotifies).mp h
    cases ho with
    | argument hs hn | property hs _ hn | nested hs _ hn | element hs _ hn =>
      exact ⟨_, _, _, hs, hn, rfl, rfl⟩
  · rw [callFindings_of_not_notifies hnotifies] at h
    cases h

/-- What a call shows is read from a tree in it. -/
theorem exists_ofTree_of_mem_callFindings {callee : Node} {list : Tree}
    (h : f ∈ scope.callFindings callee (list.content.map (ofTree doc))) :
    ∃ u, u.Within list ∧ scope.config.isHardcoded (ofTree doc u) = true ∧ f.On (ofTree doc u) := by
  obtain ⟨p, s, n, ⟨i, rest, a, -, ha, hleads⟩, hn, hf⟩ := exists_of_mem_callFindings h
  obtain ⟨c, hc, rfl⟩ := Tree.exists_of_getElem?_content ha
  have hargument : (ofTree doc c).ReadFrom doc c := .inr (.inl rfl)
  obtain ⟨u, hu, hread⟩ := hargument.exists_of_leads hleads
  obtain rfl := hread.eq_ofTree hn
  exact ⟨u, hu.trans hc, hn, hf⟩

end Scope

/-! ## Elements -/

namespace Node

variable {doc : Document} {t : Tree}

theorem within_of_openingTag? {tag : Tree} (h : openingTag? t = some tag) : tag.Within t := by
  unfold openingTag? at h
  split at h
  · cases h
    exact .refl _
  · rcases Option.or_eq_some_iff.mp h with h | ⟨-, h⟩
    · exact .inr (.child (List.mem_of_find?_eq_some h))
    · exact .inr (.child (List.mem_of_find?_eq_some h))

/-- The value of an attribute is a string, or read in the place of a value unless it is an
element. -/
theorem attributeValue_cases (doc : Document) (t : Tree) :
    (∃ value, attributeValue doc t = .string (doc.site t.span) value) ∨
      (∃ kind, attributeValue doc t = .other (doc.site t.span) kind) ∨
      attributeValue doc t = ofTree doc t := by
  unfold attributeValue
  split
  · exact .inl ⟨_, rfl⟩
  · split
    · exact .inr (.inl ⟨_, rfl⟩)
    · exact .inr (.inr rfl)

/-- Between the tags of an element stand runs of text and what its children contribute. -/
theorem of_mem_childrenOfTrees {run : Option Span} {ts : List Tree} {n : Node}
    (h : n ∈ childrenOfTrees doc run ts) :
    (∃ span, n = textOfSpan doc span) ∨ ∃ c ∈ ts, childOfTree? doc c = some n := by
  have hrun {run : Option Span} (h : n ∈ (run.map (textOfSpan doc)).toList) :
      ∃ span, n = textOfSpan doc span := by
    rw [Option.mem_toList, Option.map_eq_some_iff] at h
    obtain ⟨span, -, rfl⟩ := h
    exact ⟨span, rfl⟩
  induction ts generalizing run with
  | nil => exact .inl (hrun h)
  | cons c ts ih =>
    have hlater (h : (∃ span, n = textOfSpan doc span) ∨ ∃ d ∈ ts, childOfTree? doc d = some n) :
        (∃ span, n = textOfSpan doc span) ∨ ∃ d ∈ c :: ts, childOfTree? doc d = some n :=
      h.imp_right fun ⟨d, hd, hn⟩ ↦ ⟨d, List.mem_cons_of_mem c hd, hn⟩
    rw [childrenOfTrees] at h
    split at h
    · exact hlater (ih h)
    · rw [List.mem_append, List.mem_append] at h
      rcases h with (h | h) | h
      · exact .inl (hrun h)
      · exact .inr ⟨c, List.mem_cons_self, Option.mem_toList.mp h⟩
      · exact hlater (ih h)

/-- A child that is refused is read in the place of a value. -/
theorem eq_ofTree_of_childOfTree? {config : Configuration} {policy : Policy} {n : Node}
    (h : childOfTree? doc t = some n) (hn : config.isRefused policy n = true) :
    n = ofTree doc t := by
  unfold childOfTree? at h
  split at h
  · cases h
  · split at h
    · cases h
      cases hn
    · split at h
      · cases h
      · exact (Option.some.inj h).symm

end Node

namespace Scope

variable {doc : Document} {scope : Scope} {f : Finding}

theorem origin_of_mem_textFindings {t : Tree} {name : String} (ht : t.Within doc.root)
    (h : f ∈ scope.textFindings name (Node.childrenOfTrees doc none t.children)) :
    Origin doc scope.config f := by
  obtain ⟨n, hn, rfl⟩ := List.mem_map.mp h
  obtain ⟨hmem, hrefused⟩ := List.mem_filter.mp hn
  rcases Node.of_mem_childrenOfTrees hmem with ⟨run, rfl⟩ | ⟨c, hc, hchild⟩
  · exact .text hrefused ⟨rfl, rfl⟩
  · obtain rfl := Node.eq_ofTree_of_childOfTree? hchild hrefused
    exact .child (.trans (.inr (.child hc)) ht) hrefused ⟨rfl, rfl⟩

theorem origin_of_mem_attributeFindings {tag : Tree} {name : String} {attributes : List Tree}
    (ht : tag.Within doc.root) (hattributes : attributes ⊆ tag.children)
    (h : f ∈ scope.attributeFindings name (attributes.map (Node.attributeOfTree doc))) :
    Origin doc scope.config f := by
  obtain ⟨a, ha, hf⟩ := List.mem_filterMap.mp h
  obtain ⟨c, hc, rfl⟩ := List.mem_map.mp ha
  obtain ⟨n, hn, hrefused, hon⟩ := Node.exists_of_attributeFinding? hf
  obtain ⟨v, hv, rfl⟩ := Node.exists_of_value_attributeOfTree hn
  have hwithin : v.Within doc.root := .trans (.inr (.step (hattributes hc) (.child hv))) ht
  exact .attributeValue hwithin hrefused hon

/-! ## The walk -/

variable {checks : List Check} {seen : List Span} {t : Tree}

theorem origin_elementOfTree (ht : t.Within doc.root)
    (h : f ∈ scope.findingsAt checks seen (Node.elementOfTree doc t)) :
    Origin doc scope.config f := by
  rw [Node.elementOfTree, findingsAt] at h
  split at h
  · rcases List.mem_append.mp h with h | h
    · split at h
      · cases h
      · exact origin_of_mem_textFindings ht h
    · cases htag : Node.openingTag? t with
      | none =>
        rw [htag] at h
        cases h
      | some tag =>
        rw [htag] at h
        exact origin_of_mem_attributeFindings ((Node.within_of_openingTag? htag).trans ht)
          List.filter_sublist.subset h
  · cases h

theorem origin_callOfTree (ht : t.Within doc.root)
    (h : f ∈ scope.findingsAt checks seen (Node.callOfTree doc t)) :
    Origin doc scope.config f := by
  obtain ⟨callee, arguments, hcall, harguments⟩ := Node.exists_callOfTree_eq doc t
  rw [hcall, findingsAt] at h
  split at h
  · rcases harguments with rfl | ⟨list, hlist, -, rfl⟩
    · rw [callFindings_nil] at h
      cases h
    · obtain ⟨u, hu, hn, hf⟩ := exists_ofTree_of_mem_callFindings h
      exact .value (hu.trans (.trans (.inr (.child hlist)) ht)) hn hf
  · cases h

theorem origin_pairOfTree (ht : t.Within doc.root)
    (h : f ∈ scope.findingsAt checks seen (Node.pairOfTree doc t)) :
    Origin doc scope.config f := by
  rw [Node.pairOfTree, findingsAt] at h
  split at h
  · cases h
  · rw [Node.ofField_eq, Option.mem_toList] at h
    have hproperty := of_propertyFinding? h
    cases hv : t.children.find? fun c ↦ c.head.field == some "value" with
    | none =>
      rw [hv] at hproperty
      rcases hproperty with ⟨hn, -⟩ | ⟨site, elements, hn, -⟩
      · cases hn
      · cases hn
    | some c =>
      rw [hv] at hproperty
      have hwithin : c.Within doc.root := .trans (.inr (.child (List.mem_of_find?_eq_some hv))) ht
      rcases hproperty with ⟨hn, hf⟩ | ⟨site, elements, hn, hne, hplace, hvalue⟩
      · exact .value hwithin hn hf
      · exact .array hwithin hn hne hplace hvalue

end Scope

/-- **Every finding comes from a tree or a run of text.** -/
theorem Document.origin_of_mem_rawFindings {doc : Document} {config : Configuration}
    {checks : List Check} {f : Finding} (h : f ∈ doc.rawFindings config checks) :
    Origin doc config f := by
  obtain ⟨n, hn, seen, -, hf⟩ := Scope.exists_of_mem_collect h
  rw [nodes_eq, List.mem_filterMap] at hn
  obtain ⟨s, hs, hnode⟩ := hn
  have ht : s.tree.Within doc.root := Tree.within_of_mem_stops hs
  unfold Stop.node? at hnode
  split at hnode
  · cases hnode
    exact Scope.origin_elementOfTree ht hf
  · split at hnode
    · cases hnode
      exact Scope.origin_callOfTree ht hf
    · split at hnode
      · cases hnode
        exact Scope.origin_pairOfTree ht hf
      · cases hnode

end HardcodedText
