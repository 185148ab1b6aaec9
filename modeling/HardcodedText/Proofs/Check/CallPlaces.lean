import HardcodedText.Proofs.Check.Scan
import HardcodedText.Proofs.Node.OfTree
import HardcodedText.Proofs.Source.Places

/-!
# The places of what calls and properties show

The findings of a notification call stand at different offsets in its arguments.  None of these lies
in anything that the walk looks at later on, except for properties that the call has inspected
(`Node.placed_callOfTree`).  The same is true of a property, which has one finding at most
(`Node.placed_pairOfTree`).

Both follow the trees: what a tree exposes stands in it (`Spot.placed_exposures`), and different
children stand apart.
-/

namespace HardcodedText

/-- The place of a finding. -/
def Finding.place (f : Finding) : Position :=
  ⟨f.line.toNat, f.column.toNat⟩

/-- A finding stands where a node stands and shows its text. -/
structure Finding.On (f : Finding) (n : Node) : Prop where
  place : f.place = n.position
  value : f.value = n.display

theorem Configuration.isAtom_of_isHardcoded {config : Configuration} {n : Node}
    (h : config.isHardcoded n) : n.IsAtom := by
  cases n <;> trivial

namespace Scope

variable (scope : Scope) (call : String)

/-- The places of the hardcoded text among what is exposed. -/
def places (es : List Exposure) : List Position :=
  (es.filterMap (scope.exposureFinding? call)).map Finding.place

theorem places_append (es es' : List Exposure) :
    scope.places call (es ++ es') = scope.places call es ++ scope.places call es' := by
  rw [places, List.filterMap_append, List.map_append]
  rfl

theorem places_flatMap {α : Type} (as : List α) (f : α → List Exposure) :
    scope.places call (as.flatMap f) = as.flatMap fun a ↦ scope.places call (f a) := by
  induction as with
  | nil => rfl
  | cons a as ih => rw [List.flatMap_cons, places_append, ih, List.flatMap_cons]

/-- A node that is exposed is reported where it stands, if at all. -/
theorem places_singleton {e : Exposure} {n : Node}
    (he : e = .argument n ∨ ∃ kind key, e = .value kind key n) :
    scope.places call [e] = [] ∨
      scope.config.isHardcoded n ∧ scope.places call [e] = [n.position] := by
  have hplace : ∀ f, scope.exposureFinding? call e = some f →
      scope.config.isHardcoded n ∧ f.place = n.position := by
    intro f hf
    rcases he with rfl | ⟨kind, key, rfl⟩
    all_goals
      obtain ⟨hn, hf⟩ := Option.ite_none_right_eq_some.mp hf
      cases hf
      exact ⟨hn, rfl⟩
  cases hf : scope.exposureFinding? call e with
  | none => exact .inl (by rw [places, List.filterMap_cons_none hf]; rfl)
  | some f =>
    obtain ⟨hn, hf'⟩ := hplace f hf
    refine .inr ⟨hn, ?_⟩
    rw [places, List.filterMap_cons_some hf, ← hf']
    rfl

theorem places_valueOf (shown : Option String → Bool) (kind : Kind) (key : Option String)
    (n : Node) :
    scope.places call (Exposure.valueOf shown kind key n) = [] ∨
      scope.config.isHardcoded n ∧
        scope.places call (Exposure.valueOf shown kind key n) = [n.position] := by
  unfold Exposure.valueOf
  split
  · exact scope.places_singleton call (.inr ⟨_, _, rfl⟩)
  · exact .inl rfl

/-- What a node exposes by itself stands where the node stands. -/
theorem places_own (shown : Option String → Bool) (s : Spot) (n : Node) :
    scope.places call (s.own shown n) = [] ∨
      scope.config.isHardcoded n ∧ scope.places call (s.own shown n) = [n.position] := by
  fun_cases Spot.own shown s n with
  | case5 => exact scope.places_singleton call (.inl rfl)
  | case8 | case13 => exact scope.places_valueOf call shown _ _ _
  | case11 depth key site site' m =>
    -- The operand of two spreads is exposed, but a spread is never hardcoded.
    rcases scope.places_valueOf call shown .nestedObjectProperty key (.spread site' m) with h | h
    · exact .inl h
    · cases h.1
  | _ => exact .inl rfl

theorem places_own_of_not_isAtom {n : Node} (h : ¬ n.IsAtom) (shown : Option String → Bool)
    (s : Spot) : scope.places call (s.own shown n) = [] := by
  rcases scope.places_own call shown s n with hnil | ⟨hn, -⟩
  · exact hnil
  · exact absurd (Configuration.isAtom_of_isHardcoded hn) h

end Scope

namespace Spot

theorem moves_of_isAtom {s : Spot} {n : Node} (h : n.IsAtom) : s.moves n = [] := by
  cases n <;> cases s <;> first | rfl | exact h.elim

theorem moves_of_isPlain {s : Spot} {n : Node} (h : n.IsPlain) : s.moves n = [] := by
  cases n <;> cases s <;> first | rfl | exact h.elim

/-- The elements of an array all lead on to one kind of spot, or none of them does. -/
theorem moves_array (s : Spot) (site : Site) (ns : List Node) :
    s.moves (.array site ns) = [] ∨ ∃ s', s.moves (.array site ns) = ns.map (s', ·) := by
  cases s with
  | argument => exact .inr ⟨.argument, rfl⟩
  | value depth key => exact .inr ⟨.element (depth + 1) key, rfl⟩
  | element depth key => exact .inr ⟨.element depth key, rfl⟩
  | member | inserted => exact .inl rfl

theorem moves_spread (s : Spot) (site : Site) (n : Node) :
    s.moves (.spread site n) = [] ∨ ∃ s', s.moves (.spread site n) = [(s', n)] := by
  cases s with
  | argument | element => cases n <;> first | exact .inr ⟨_, rfl⟩ | exact .inl rfl
  | member depth => exact .inr ⟨.inserted depth, by simp [moves]⟩
  | inserted | value => exact .inl (by simp [moves])

variable (shown : Option String → Bool)

/-- The properties that are looked at when a node at a spot is taken apart. -/
def spans (s : Spot) (n : Node) : List Span :=
  (exposures shown s n).filterMap Exposure.span?

theorem spans_subset_of_mem_moves {s : Spot} {n : Node} {m : Spot × Node} (h : m ∈ s.moves n) :
    m.1.spans shown m.2 ⊆ s.spans shown n := by
  intro span hspan
  obtain ⟨e, he, hspan⟩ := List.mem_filterMap.mp hspan
  refine List.mem_filterMap.mpr ⟨e, ?_, hspan⟩
  rw [exposures_eq]
  exact List.mem_append_right _ (List.mem_flatMap.mpr ⟨m, h, he⟩)

theorem span_mem_spans (depth : Nat) (site : Site) (key : Option String) (n : Node) :
    site.span ∈ (member depth).spans shown (.property site key n) := by
  refine List.mem_filterMap.mpr ⟨.inspected site.span, ?_, rfl⟩
  rw [exposures_eq]
  exact List.mem_append_left _ (List.mem_singleton.mpr rfl)

variable {shown} {doc : Document} {cs : List Char} {scope : Scope} {call : String}

/-- A node that is not an atom shows what the trees show to which it leads on. -/
theorem placed_of_moves {s : Spot} {n : Node} {t : Tree} {ts : List Tree} {r : Tree → Spot × Node}
    (h : t.WellFormed cs) (hn : ¬ n.IsAtom) (hts : ts.Sublist t.children)
    (hmoves : s.moves n = ts.map r)
    (ih : ∀ c ∈ ts, Placed doc (c.Shows cs ((r c).1.spans shown (r c).2))
      (scope.places call (exposures shown (r c).1 (r c).2))) :
    Placed doc (t.ShowsBelow cs (s.spans shown n)) (scope.places call (exposures shown s n)) := by
  have hplaces : scope.places call (exposures shown s n) =
      ts.flatMap fun c ↦ scope.places call (exposures shown (r c).1 (r c).2) := by
    rw [exposures_eq, Scope.places_append, scope.places_own_of_not_isAtom call hn, hmoves,
      List.flatMap_map, Scope.places_flatMap, List.nil_append]
  rw [hplaces]
  have hshows : ∀ c ∈ ts, Placed doc (c.Shows cs (s.spans shown n))
      (scope.places call (exposures shown (r c).1 (r c).2)) := by
    refine fun c hc ↦ (ih c hc).imp fun b hb ↦ hb.mono (spans_subset_of_mem_moves shown ?_)
    rw [hmoves]
    exact List.mem_map_of_mem hc
  refine (Placed.flatMap_shows h hts hshows).imp ?_
  rintro b ⟨c, hc, hb⟩
  exact h.showsBelow (hts.subset hc) hb

theorem placed_of_move {s s' : Spot} {n m : Node} {t c : Tree} (h : t.WellFormed cs)
    (hn : ¬ n.IsAtom) (hc : c ∈ t.children) (hmoves : s.moves n = [(s', m)])
    (ih : Placed doc (c.Shows cs (s'.spans shown m)) (scope.places call (exposures shown s' m))) :
    Placed doc (t.ShowsBelow cs (s.spans shown n)) (scope.places call (exposures shown s n)) :=
  placed_of_moves (r := fun _ ↦ (s', m)) h hn (List.singleton_sublist.mpr hc) hmoves
    fun _ hc' ↦ List.mem_singleton.mp hc' ▸ ih

theorem placed_of_moves_nil {s : Spot} {n : Node} {Q : Nat → Prop} (hn : ¬ n.IsAtom)
    (hmoves : s.moves n = []) : Placed doc Q (scope.places call (exposures shown s n)) := by
  rw [exposures_eq, hmoves, List.flatMap_nil, List.append_nil,
    scope.places_own_of_not_isAtom call hn]
  exact .nil

/-- What a tree exposes stands in it, and in nothing of it that a walk may look at except for the
properties that are looked at now. -/
theorem placed_exposures {t : Tree} {n : Node} (h : t.WellFormed cs) (hr : n.Reads doc t)
    (s : Spot) :
    Placed doc (t.Shows cs (s.spans shown n)) (scope.places call (exposures shown s n)) := by
  induction t using Tree.induct generalizing n s with
  | step t ih =>
    have hcontent : t.content.Sublist t.children := List.filter_sublist
    have hpart : ∀ c ∈ t.content, ∀ n, n.Reads doc c → ∀ s : Spot,
        Placed doc (c.Shows cs (s.spans shown n)) (scope.places call (exposures shown s n)) := by
      intro c hc n hr s
      exact ih c (hcontent.subset hc) (h.of_child (hcontent.subset hc)) hr s
    cases hr with
    | parentheses hk hc =>
      refine (ih _ hc (h.of_child hc) (Node.reads_ofTree doc _) s).imp fun b hb ↦ ?_
      exact (h.showsBelow hc hb).shows_of_not_isStop (Tree.isStop_of_kind hk (by decide))
    | atom hs hn hsite =>
      rw [exposures_eq, moves_of_isAtom hn, List.flatMap_nil, List.append_nil]
      rcases scope.places_own call shown s n with hown | ⟨-, hown⟩
      · rw [hown]
        exact .nil
      · rw [hown, Node.position_of_site hsite]
        exact .singleton (h.laidOut.shows_start hs)
    | plain hn => exact placed_of_moves_nil hn.not_isAtom (moves_of_isPlain hn)
    | object hk =>
      have hstop := Tree.isStop_of_kind hk (by decide)
      cases hs : s.opensAt with
      | none => exact placed_of_moves_nil id (by simp [moves, hs])
      | some depth =>
        refine (placed_of_moves (r := fun c ↦ (.member depth, Node.memberOfTree doc c)) h id
          hcontent (by simp [moves, hs]) fun c hc ↦ ?_).imp fun b hb ↦ hb.shows_of_not_isStop hstop
        exact hpart c hc _ (Node.reads_memberOfTree doc c) _
    | array hk =>
      have hstop := Tree.isStop_of_kind hk (by decide)
      rcases s.moves_array (doc.site t.span) (t.content.map (Node.ofTree doc)) with
        hmoves | ⟨s', hmoves⟩
      · exact placed_of_moves_nil id hmoves
      · rw [List.map_map] at hmoves
        refine (placed_of_moves h id hcontent hmoves fun c hc ↦ ?_).imp
          fun b hb ↦ hb.shows_of_not_isStop hstop
        exact hpart c hc _ (Node.reads_ofTree doc c) _
    | @spread c hk hc =>
      have hstop := Tree.isStop_of_kind hk (by decide)
      rcases s.moves_spread (doc.site t.span) (Node.ofTree doc c) with hmoves | ⟨s', hmoves⟩
      · exact placed_of_moves_nil id hmoves
      · refine (placed_of_move h id hc hmoves ?_).imp fun b hb ↦ hb.shows_of_not_isStop hstop
        exact ih c hc (h.of_child hc) (Node.reads_ofTree doc c) s'
    | @property c key hk hc =>
      cases s with
      | member depth =>
        -- The property is a stop of its own, but one that is inspected here.
        refine (placed_of_move h id hc rfl ?_).imp
          fun b hb ↦ hb.shows fun _ ↦ ⟨hk, span_mem_spans shown depth (doc.site t.span) key _⟩
        exact ih c hc (h.of_child hc) (Node.reads_ofTree doc c) (.value depth key)
      | _ => exact placed_of_moves_nil id rfl
    | @bare v key hn =>
      cases s with
      | member depth =>
        rw [exposures_eq, Scope.places_append, scope.places_own_of_not_isAtom call id,
          List.nil_append]
        change Placed doc _ (scope.places call ([(value depth key, v)].flatMap _))
        rw [List.flatMap_singleton]
        exact placed_of_moves_nil hn.not_isAtom (moves_of_isPlain hn)
      | _ => exact placed_of_moves_nil id rfl

end Spot

namespace Scope

variable {scope : Scope} {checks : List Check} {doc : Document} {cs : List Char}

/-- What the arguments of a call show stands in constructs among them. -/
theorem placed_callFindings {list : Tree} (h : list.WellFormed cs) (callee : Node) :
    Placed doc (fun b ↦ ∃ c ∈ list.content, c.Shows cs
        (scope.inspectedSpans callee (list.content.map (Node.ofTree doc))) b)
      ((scope.callFindings callee (list.content.map (Node.ofTree doc))).map Finding.place) := by
  by_cases hn : scope.config.notifies callee.path
  · have hplaces : (scope.callFindings callee (list.content.map (Node.ofTree doc))).map
        Finding.place = list.content.flatMap fun c ↦ scope.places callee.path
          (Spot.exposures scope.config.isUserFacing .argument (Node.ofTree doc c)) := by
      rw [callFindings_of_notifies hn, ← places, Spot.ofArguments_eq, List.flatMap_map,
        places_flatMap]
    rw [hplaces]
    refine Placed.flatMap_shows h List.filter_sublist fun c hc ↦ ?_
    have hwf := h.of_child (List.mem_filter.mp hc).1
    refine (Spot.placed_exposures hwf (Node.reads_ofTree doc c) .argument).imp
      fun b hb ↦ hb.mono ?_
    intro span hspan
    obtain ⟨e, he, hspan⟩ := List.mem_filterMap.mp hspan
    rw [inspectedSpans, exposures, if_pos hn, Spot.ofArguments_eq, List.flatMap_map]
    exact List.mem_filterMap.mpr ⟨e, List.mem_flatMap.mpr ⟨c, hc, he⟩, hspan⟩
  · rw [callFindings_of_not_notifies hn]
    exact .nil

theorem callFindings_nil (callee : Node) : scope.callFindings callee [] = [] := by
  by_cases hn : scope.config.notifies callee.path
  · rw [callFindings_of_notifies hn]
    rfl
  · rw [callFindings_of_not_notifies hn]

/-- What is found at a property is its value, or the texts in an array that is its value. -/
theorem of_propertyFinding? {key : Option String} {n : Node} {f : Finding}
    (h : scope.propertyFinding? key n = some f) :
    scope.config.isHardcoded n = true ∧ f.On n ∨
      ∃ site elements, n = .array site elements ∧
        elements.filter scope.config.isHardcoded ≠ [] ∧ f.place = site.position ∧
        f.value =
          ", ".intercalate ((elements.filter scope.config.isHardcoded).map Node.display) := by
  obtain ⟨-, h⟩ := Option.ite_none_right_eq_some.mp h
  unfold valueFinding? at h
  split at h
  · split at h
    · cases h
    · next heq =>
      cases h
      exact .inr ⟨_, _, rfl, by rw [heq]; exact List.cons_ne_nil _ _, rfl, by rw [heq]; rfl⟩
  · obtain ⟨hn, h⟩ := Option.ite_none_right_eq_some.mp h
    cases h
    exact .inl ⟨hn, rfl, rfl⟩

/-- The finding for the value of a property stands where the value stands. -/
theorem place_of_propertyFinding? {key : Option String} {n : Node} {f : Finding}
    (h : scope.propertyFinding? key n = some f) :
    f.place = n.position ∧ (n.IsAtom ∨ ∃ site elements, n = .array site elements) := by
  rcases of_propertyFinding? h with ⟨hn, hon⟩ | ⟨site, elements, rfl, -, hplace, -⟩
  · exact ⟨hon.place, .inl (Configuration.isAtom_of_isHardcoded hn)⟩
  · exact ⟨hplace, .inr ⟨site, elements, rfl⟩⟩

end Scope

namespace Node

variable {doc : Document} {cs : List Char} {t : Tree} {scope : Scope} {checks : List Check}

theorem exists_callOfTree_eq (doc : Document) (t : Tree) :
    ∃ callee arguments, callOfTree doc t = .call (doc.site t.span) callee arguments ∧
      (arguments = [] ∨ ∃ list ∈ t.children, list.kind = "arguments" ∧
        arguments = list.content.map (ofTree doc)) := by
  refine ⟨_, _, rfl, ?_⟩
  split
  · split
    · rename_i list hlist hk
      exact .inr ⟨list, List.mem_of_find?_eq_some hlist, hk, ofContent_eq doc _⟩
    · exact .inl rfl
  · exact .inl rfl

/-- A call shows text in its arguments only. -/
theorem placed_callOfTree (h : t.WellFormed cs) (inspected : List Span) :
    Placed doc (fun b ↦ t.ShowsBelow cs (scope.spansAt checks (callOfTree doc t)) b ∧ t.Anchored b)
      ((scope.findingsAt checks inspected (callOfTree doc t)).map Finding.place) := by
  obtain ⟨callee, arguments, hcall, harguments⟩ := exists_callOfTree_eq doc t
  rw [hcall, Scope.spansAt, Scope.findingsAt]
  split
  · rcases harguments with rfl | ⟨list, hlist, hk, rfl⟩
    · rw [Scope.callFindings_nil]
      exact .nil
    · refine (Scope.placed_callFindings (h.of_child hlist) callee).imp ?_
      rintro b ⟨c, hc, hb⟩
      obtain ⟨hchild, hcontent⟩ := List.mem_filter.mp hc
      have hlistShows := ((h.of_child hlist).showsBelow hchild hb).shows_of_not_isStop
        (Tree.isStop_of_kind hk (by decide))
      refine ⟨h.showsBelow hlist hlistShows, c, ?_, ?_, hb.start_le⟩
      · exact (Tree.Below.step hlist (.child hchild)).within
      · exact (Bool.and_eq_true_iff.mp hcontent).1
  · exact .nil

/-- A property shows nothing but its value. -/
theorem placed_pairOfTree (h : t.WellFormed cs) (inspected : List Span) :
    Placed doc (fun b ↦ t.ShowsBelow cs [] b ∧ t.span ∉ inspected)
      ((scope.findingsAt checks inspected (pairOfTree doc t)).map Finding.place) := by
  rw [pairOfTree, ofField_eq, Scope.findingsAt]
  split
  · exact .nil
  · rename_i hspan
    cases hf : scope.propertyFinding? (doc.key? t.children) _ with
    | none => exact .nil
    | some f =>
      obtain ⟨hplace, hn⟩ := Scope.place_of_propertyFinding? hf
      cases hv : t.children.find? fun c ↦ c.head.field == some "value" with
      | none =>
        rw [hv] at hn
        rcases hn with hn | ⟨_, _, hn⟩
        · exact hn.elim
        · cases hn
      | some c =>
        rw [hv] at hn hplace
        have hc := List.mem_of_find?_eq_some hv
        obtain ⟨b, hpos, hb⟩ := exists_shows_ofTree (h.of_child hc) hn
        have hplaces : (some f).toList.map Finding.place = [doc.position b] := by
          rw [← hpos]
          exact congrArg (fun p ↦ [p]) hplace
        rw [hplaces]
        exact .singleton ⟨h.showsBelow hc hb, hspan⟩

end Node

end HardcodedText
