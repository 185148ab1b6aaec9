import Mathlib.Data.List.Basic
import Mathlib.Data.List.TakeWhile
import HardcodedText.Proofs.Check.CallPlaces

/-!
# The places of text in markup

The findings of an element stand at different offsets between its tags and in the tag that opens it,
and none of them lies in anything that the walk looks at later on (`Node.placed_elementOfTree`).

Adjacent pieces of text form one run, which stands where its first byte stands that is not blank.
This is inside of the run, since text that consists of blanks alone is never reported
(`Node.exists_offset_textOfSpan`).
-/

namespace HardcodedText

/-! ## Blank text -/

theorem Configuration.allows_strip_of_isBlank (config : Configuration) {cs : List Char}
    (h : ∀ c ∈ cs, Text.isBlank c) : config.allows (Text.strip (.ofList cs)) := by
  have hnil : cs.dropWhile Text.isBlank = [] := List.dropWhile_eq_nil_iff.mpr h
  simp [allows, Text.dropBlanks, Text.dropTrailingBlanks, hnil]

theorem Configuration.isAtom_of_isRefused {config : Configuration} {policy : Policy} {n : Node}
    (h : config.isRefused policy n) : n.IsAtom := by
  cases n <;> trivial

namespace Node

variable {doc : Document} {cs : List Char} {config : Configuration} {policy : Policy}

/-- Text that is reported has a byte that is not blank. -/
theorem length_takeWhile_lt {span : Span} (h : config.isRefused policy (textOfSpan doc span)) :
    ((doc.slice span).takeWhile Text.isBlankByte).length < (doc.slice span).length := by
  refine Nat.lt_of_le_of_ne (List.takeWhile_prefix _).length_le fun hlength ↦ ?_
  have hblank : ∀ b ∈ doc.slice span, Text.isBlankByte b := by
    have heq := (List.takeWhile_prefix Text.isBlankByte).eq_of_length hlength
    exact List.takeWhile_eq_self_iff.mp heq
  obtain ⟨ds, hds, hall⟩ := Utf8.exists_encode_eq_of_isBlankByte hblank
  have hchars : CharacterReference.decodeChars (doc.chars span) = ds := by
    rw [Document.chars, hds, Utf8.decodeLossy_encode]
    exact CharacterReference.decodeChars_of_not_mem fun hmem ↦ (hall _ hmem).2 rfl
  have hallows := config.allows_strip_of_isBlank fun c hc ↦ (hall c hc).1
  simp [textOfSpan, Configuration.isRefused, hchars, hallows] at h

/-- Text that is reported stands in its range. -/
theorem exists_offset_textOfSpan {span : Span} (hdoc : doc.bytes = Utf8.encode cs)
    (hstart : IsBoundary cs span.start) (h : config.isRefused policy (textOfSpan doc span)) :
    ∃ b, (textOfSpan doc span).position = doc.position b ∧
      span.start ≤ b ∧ b < span.stop ∧ IsBoundary cs b := by
  have hlt := length_takeWhile_lt h
  have hslice : (doc.slice span).length ≤ span.stop - span.start := List.length_take_le _ _
  refine ⟨_, rfl, Nat.le_add_right _ _, by omega, ?_⟩
  have hdrop : (Utf8.encode cs).drop span.start =
      (doc.slice span).takeWhile Text.isBlankByte ++
        ((doc.slice span).dropWhile Text.isBlankByte ++
          (doc.bytes.drop span.start).drop (span.stop - span.start)) := by
    rw [← List.append_assoc, List.takeWhile_append_dropWhile, Document.slice,
      List.take_append_drop, hdoc]
  refine hstart.add_length hdrop fun b hb ↦ ?_
  have := Utf8.isBlankByte_iff.mp (List.mem_takeWhile_imp hb)
  omega

end Node

/-! ## Between the tags of an element -/

/-- What a run of adjacent pieces of text covers. -/
def Tree.runSpan (ts : List Tree) : Option Span :=
  ts.getLast?.map fun last ↦
    ⟨(ts.head?.map fun t ↦ t.span.start).getD last.span.start, last.span.stop⟩

theorem Tree.runSpan_concat (ts : List Tree) (t : Tree) :
    runSpan (ts ++ [t]) =
      some ⟨((runSpan ts).map Span.start).getD t.span.start, t.span.stop⟩ := by
  cases ts with
  | nil => rfl
  | cons a ts => simp [runSpan, List.getLast?_cons]

/-- A run goes from one piece of text to another one. -/
theorem Tree.exists_of_runSpan {ts : List Tree} {r : Span} (h : runSpan ts = some r) :
    ∃ first ∈ ts, ∃ last ∈ ts, r.start = first.span.start ∧ r.stop = last.span.stop := by
  obtain ⟨last, hlast, rfl⟩ := Option.map_eq_some_iff.mp h
  have hmem := List.mem_of_getLast? hlast
  cases ts with
  | nil => cases hmem
  | cons a ts => exact ⟨a, List.mem_cons_self, last, hmem, rfl, rfl⟩

/-- The offset `b` lies in the element `t`, but in no tag that opens it and in nothing below it that
a walk may look at. -/
structure Tree.Between (cs : List Char) (t : Tree) (b : Nat) : Prop extends
    ShowsBelow cs [] t b where
  /-- It is not in a tag that opens an element. -/
  outside : ∀ c ∈ t.children, c.kind = "jsx_opening_element" →
    b < c.span.start ∨ c.span.stop ≤ b

namespace Node

variable {doc : Document} {cs : List Char} {config : Configuration} {policy : Policy} {t : Tree}

/-- The places of the nodes that a policy refuses. -/
def refusedPlaces (config : Configuration) (policy : Policy) (ns : List Node) : List Position :=
  (ns.filter (config.isRefused policy)).map position

theorem refusedPlaces_append (ns ms : List Node) :
    refusedPlaces config policy (ns ++ ms) =
      refusedPlaces config policy ns ++ refusedPlaces config policy ms := by
  rw [refusedPlaces, List.filter_append, List.map_append]
  rfl

/-- If a node is refused, then it is enough to know where it stands. -/
theorem placed_refusedPlaces_toList {n? : Option Node} {Q : Nat → Prop}
    (h : ∀ n, n? = some n → config.isRefused policy n → ∃ b, n.position = doc.position b ∧ Q b) :
    Placed doc Q (refusedPlaces config policy n?.toList) := by
  cases n? with
  | none => exact .nil
  | some n =>
    by_cases hn : config.isRefused policy n
    · obtain ⟨b, hpos, hb⟩ := h n rfl hn
      rw [refusedPlaces, Option.toList_some, List.filter_cons_of_pos hn, List.filter_nil,
        List.map_singleton, hpos]
      exact .singleton hb
    · rw [refusedPlaces, Option.toList_some, List.filter_cons_of_neg hn, List.filter_nil]
      exact .nil

/-- A run of text stands after what is before the run and before what is after it. -/
theorem placed_run {pre mid post : List Tree} (hdoc : doc.bytes = Utf8.encode cs)
    (h : t.WellFormed cs) (hsplit : t.children = pre ++ mid ++ post)
    (htext : ∀ c ∈ mid, c.isText) :
    Placed doc (fun b ↦ (∀ c ∈ pre, c.span.stop ≤ b) ∧ (∃ c ∈ mid, b < c.span.stop) ∧
        t.Between cs b)
      (refusedPlaces config policy ((Tree.runSpan mid).map (textOfSpan doc)).toList) := by
  refine placed_refusedPlaces_toList fun n hn hrefused ↦ ?_
  obtain ⟨r, hr, rfl⟩ := Option.map_eq_some_iff.mp hn
  obtain ⟨first, hfirst, last, hlast, hstart, hstop⟩ := Tree.exists_of_runSpan hr
  have hmem : ∀ c, c ∈ t.children ↔ c ∈ pre ∨ c ∈ mid ∨ c ∈ post := by
    intro c
    rw [hsplit, List.mem_append, List.mem_append, or_assoc]
  have hfirstMem := (hmem first).mpr (.inr (.inl hfirst))
  have hlastMem := (hmem last).mpr (.inr (.inl hlast))
  have hstartBoundary : IsBoundary cs r.start :=
    hstart ▸ (h.of_child hfirstMem).laidOut.start_boundary
  obtain ⟨b, hpos, hlo, hhi, hboundary⟩ :=
    exists_offset_textOfSpan hdoc hstartBoundary hrefused
  rw [hstart] at hlo
  rw [hstop] at hhi
  have hordered := h.laidOut.ordered
  rw [hsplit, List.pairwise_append, List.pairwise_append] at hordered
  have hpre : ∀ c ∈ pre, c.span.stop ≤ b := fun c hc ↦
    Nat.le_trans (hordered.1.2.2 c hc first hfirst) hlo
  have hpost : ∀ c ∈ post, b < c.span.start := fun c hc ↦
    Nat.lt_of_lt_of_le hhi (hordered.2.2 last (List.mem_append_right _ hlast) c hc)
  refine ⟨b, hpos, hpre, ⟨last, hlast, hhi⟩, ⟨⟨⟨?_, ?_, hboundary⟩, ?_⟩, ?_⟩⟩
  · exact Nat.le_trans (h.laidOut.nested first hfirstMem).1 hlo
  · exact Nat.lt_of_lt_of_le hhi (h.laidOut.nested last hlastMem).2
  · intro d hd hstop
    obtain ⟨c, hc, hd⟩ := Tree.below_iff.mp hd
    have hwf := h.of_child hc
    rcases (hmem c).mp hc with hc | hc | hc
    · exact hwf.clear_of_outside (.inr (hpre c hc)) d hd hstop
    · exact hwf.laidOut.clear_of_isText (htext c hc) d hd hstop
    · exact hwf.clear_of_outside (.inl (hpost c hc)) d hd hstop
  · intro c hc hk
    rcases (hmem c).mp hc with hc | hc | hc
    · exact .inr (hpre c hc)
    · have := htext c hc
      simp [Tree.isText, hk] at this
    · exact .inl (hpost c hc)

/-- Anything else between the tags stands in its tree. -/
theorem placed_childOfTree? {c : Tree} (h : t.WellFormed cs) (hc : c ∈ t.children) :
    Placed doc (fun b ↦ c.Covers cs b ∧ t.Between cs b)
      (refusedPlaces config policy (childOfTree? doc c).toList) := by
  refine placed_refusedPlaces_toList fun n hn hrefused ↦ ?_
  have hatom := Configuration.isAtom_of_isRefused hrefused
  unfold childOfTree? at hn
  split at hn
  · cases hn
  · rename_i htag
    split at hn
    · cases hn
      exact hatom.elim
    · split at hn
      · cases hn
      · cases hn
        obtain ⟨b, hpos, hb⟩ := exists_shows_ofTree (h.of_child hc) (.inl hatom)
        refine ⟨b, hpos, hb.toCovers, h.showsBelow hc hb, fun tag htagMem hk ↦ ?_⟩
        have hne : c ≠ tag := fun he ↦ htag (.inl (he ▸ hk))
        rcases h.disjoint hc htagMem hne with hle | hle
        · exact .inl (Nat.lt_of_lt_of_le hb.lt_stop hle)
        · exact .inr (Nat.le_trans hle hb.start_le)

/-- What stands between the tags of an element, after the trees `pre` and the run `mid`. -/
theorem placed_childrenOfTrees {pre mid post : List Tree} (hdoc : doc.bytes = Utf8.encode cs)
    (h : t.WellFormed cs) (hsplit : t.children = pre ++ mid ++ post)
    (htext : ∀ c ∈ mid, c.isText) :
    Placed doc (fun b ↦ (∀ c ∈ pre, c.span.stop ≤ b) ∧ t.Between cs b)
      (refusedPlaces config policy (childrenOfTrees doc (Tree.runSpan mid) post)) := by
  induction post generalizing pre mid with
  | nil =>
    rw [childrenOfTrees]
    exact (placed_run hdoc h hsplit htext).imp fun b hb ↦ ⟨hb.1, hb.2.2⟩
  | cons c post ih =>
    rw [childrenOfTrees]
    split
    · rename_i hc
      rw [← Tree.runSpan_concat]
      refine ih (by rw [hsplit]; simp) fun m hm ↦ ?_
      rcases List.mem_append.mp hm with hm | hm
      · exact htext m hm
      · exact List.mem_singleton.mp hm ▸ hc
    · -- The run ends here: what follows stands after the run and after this tree.
      have hc : c ∈ t.children := by simp [hsplit]
      have hrest : Placed doc
          (fun b ↦ (∀ x ∈ pre ++ mid ++ [c], x.span.stop ≤ b) ∧ t.Between cs b)
          (refusedPlaces config policy (childrenOfTrees doc none post)) :=
        @ih (pre ++ mid ++ [c]) [] (by rw [hsplit]; simp) fun _ hm ↦ by cases hm
      have hbefore : ∀ x ∈ pre ++ mid, x.span.stop ≤ c.span.start := by
        have hordered := h.laidOut.ordered
        rw [hsplit, List.pairwise_append] at hordered
        exact fun x hx ↦ hordered.2.2 x hx c List.mem_cons_self
      rw [refusedPlaces_append, refusedPlaces_append]
      refine ((placed_run hdoc h hsplit htext).append (placed_childOfTree? h hc) ?_
        |>.append hrest ?_).imp ?_
      · rintro a b ⟨-, ⟨m, hm, ha⟩, -⟩ ⟨hb, -⟩ rfl
        have hle := hbefore m (List.mem_append_right _ hm)
        have hstart := hb.start_le
        omega
      · rintro a b (⟨-, ⟨m, hm, ha⟩, -⟩ | ⟨ha, -⟩) ⟨hb, -⟩ rfl
        · exact Nat.not_le.mpr ha (hb m (by simp [hm]))
        · exact Nat.not_le.mpr ha.lt_stop (hb c (by simp))
      · rintro b ((⟨hb, -, hbetween⟩ | ⟨hb, hbetween⟩) | ⟨hb, hbetween⟩)
        · exact ⟨hb, hbetween⟩
        · refine ⟨fun x hx ↦ ?_, hbetween⟩
          exact Nat.le_trans (hbefore x (List.mem_append_left _ hx)) hb.start_le
        · exact ⟨fun x hx ↦ hb x (by simp [hx]), hbetween⟩

theorem placed_children (hdoc : doc.bytes = Utf8.encode cs) (h : t.WellFormed cs) :
    Placed doc (t.Between cs)
      (refusedPlaces config policy (childrenOfTrees doc none t.children)) := by
  have hsplit : t.children = [] ++ [] ++ t.children := rfl
  have hnone : Tree.runSpan [] = none := rfl
  rw [← hnone]
  exact (placed_childrenOfTrees hdoc h hsplit fun _ hc ↦ by cases hc).imp fun b hb ↦ hb.2

/-! ## In the tag that opens an element -/

/-- Text in an attribute stands in the tree of its value. -/
theorem exists_shows_attributeValue {c : Tree} (h : c.WellFormed cs)
    (hn : (attributeValue doc c).IsAtom) :
    ∃ b, (attributeValue doc c).position = doc.position b ∧ c.Shows cs [] b := by
  unfold attributeValue at hn ⊢
  split at hn
  · rename_i hk
    have hs : c.isSolid := by simp [Tree.isSolid, hk]
    rw [if_pos hk]
    exact ⟨c.span.start, rfl, h.laidOut.shows_start hs⟩
  · rename_i hk
    rw [if_neg hk]
    split at hn
    · exact hn.elim
    · rename_i he
      rw [if_neg he]
      exact exists_shows_ofTree h (.inl hn)

theorem exists_of_value_attributeOfTree {c : Tree} {n : Node}
    (h : (attributeOfTree doc c).value = some n) :
    ∃ v ∈ c.children, n = attributeValue doc v := by
  unfold attributeOfTree at h
  simp only at h
  split at h
  · rename_i name v rest hcontent
    cases h
    have hv : v ∈ c.content := by simp [hcontent]
    exact ⟨v, (List.mem_filter.mp hv).1, rfl⟩
  · cases h

variable {scope : Scope}

theorem exists_of_attributeFinding? {a : Attribute Node} {f : Finding}
    (h : scope.attributeFinding? policy a = some f) :
    ∃ n, a.value = some n ∧ scope.config.isRefused policy n ∧ f.On n := by
  unfold Scope.attributeFinding? at h
  split at h
  · rename_i n hn
    obtain ⟨hrefused, h⟩ := Option.ite_none_right_eq_some.mp h
    cases h
    exact ⟨n, hn, (Bool.and_eq_true_iff.mp hrefused).2, rfl, rfl⟩
  · cases h

theorem placed_attributeOfTree {c : Tree} (h : c.WellFormed cs) (hk : c.kind = "jsx_attribute") :
    Placed doc (c.Shows cs [])
      ((scope.attributeFinding? policy (attributeOfTree doc c)).toList.map Finding.place) := by
  cases hf : scope.attributeFinding? policy (attributeOfTree doc c) with
  | none => exact .nil
  | some f =>
    obtain ⟨n, hn, hrefused, hon⟩ := exists_of_attributeFinding? hf
    obtain ⟨v, hv, rfl⟩ := exists_of_value_attributeOfTree hn
    obtain ⟨b, hpos, hb⟩ := exists_shows_attributeValue (h.of_child hv)
      (Configuration.isAtom_of_isRefused hrefused)
    rw [Option.toList_some, List.map_singleton, hon.place, hpos]
    refine .singleton ((h.showsBelow hv hb).shows_of_not_isStop ?_)
    exact Tree.isStop_of_kind hk (by decide)

/-- The attributes in a tag stand apart. -/
theorem placed_attributes {tag : Tree} (h : tag.WellFormed cs) (name : String) :
    Placed doc (tag.ShowsBelow cs [])
      ((scope.attributeFindings name
        ((tag.children.filter fun c ↦ c.head.named && c.kind == "jsx_attribute").map
          (attributeOfTree doc))).map Finding.place) := by
  have hshows : ∀ c ∈ tag.children.filter fun c ↦ c.head.named && c.kind == "jsx_attribute",
      Placed doc (c.Shows cs []) ((scope.attributeFinding? (scope.policyOf name)
        (attributeOfTree doc c)).toList.map Finding.place) := by
    intro c hc
    obtain ⟨hchild, hk⟩ := List.mem_filter.mp hc
    exact placed_attributeOfTree (h.of_child hchild) (by simpa using (Bool.and_eq_true_iff.mp hk).2)
  rw [Scope.attributeFindings, List.filterMap_map, List.filterMap_eq_flatMap_toList,
    List.map_flatMap]
  refine (Placed.flatMap_shows h List.filter_sublist hshows).imp ?_
  rintro b ⟨c, hc, hb⟩
  exact h.showsBelow (List.mem_filter.mp hc).1 hb

/-- The tag that opens an element is the element itself or one of its children. -/
theorem openingTag?_cases {tag : Tree} (h : t.WellFormed cs) (htag : openingTag? t = some tag) :
    t.kind = "jsx_self_closing_element" ∧ tag = t ∨
      t.kind ≠ "jsx_self_closing_element" ∧ tag ∈ t.children ∧
        tag.kind = "jsx_opening_element" := by
  unfold openingTag? at htag
  split at htag
  · rename_i hk
    exact .inl ⟨hk, (Option.some.inj htag).symm⟩
  · rename_i hk
    refine .inr ⟨hk, ?_⟩
    rcases Option.or_eq_some_iff.mp htag with htag | ⟨-, htag⟩
    · have hmem := List.mem_of_find?_eq_some htag
      exact ⟨hmem, h.laidOut.open_tag tag hmem (by simpa using List.find?_some htag)⟩
    · exact ⟨List.mem_of_find?_eq_some htag, by simpa using List.find?_some htag⟩

variable {checks : List Check}

theorem map_place_textFindings (name : String) (children : List Node) :
    (scope.textFindings name children).map Finding.place =
      refusedPlaces scope.config (scope.policyOf name) children := by
  rw [Scope.textFindings, List.map_map]
  rfl

/-- An element shows text between its tags and in the tag that opens it. -/
theorem placed_elementOfTree (hdoc : doc.bytes = Utf8.encode cs) (h : t.WellFormed cs)
    (inspected : List Span) :
    Placed doc (t.ShowsBelow cs [])
      ((scope.findingsAt checks inspected (elementOfTree doc t)).map Finding.place) := by
  rw [elementOfTree, Scope.findingsAt]
  split
  · rw [List.map_append, map_place_textFindings]
    cases htag : openingTag? t with
    | none =>
      have hk : t.kind ≠ "jsx_self_closing_element" := fun hk ↦ by simp [openingTag?, hk] at htag
      rw [if_neg hk]
      change Placed doc _ (_ ++ [])
      rw [List.append_nil]
      exact (placed_children hdoc h).imp fun b hb ↦ hb.toShowsBelow
    | some tag =>
      rcases openingTag?_cases h htag with ⟨hk, rfl⟩ | ⟨hk, hmem, htagKind⟩
      · rw [if_pos hk]
        exact placed_attributes h _
      · rw [if_neg hk]
        refine ((placed_children hdoc h).append (placed_attributes (h.of_child hmem) _) ?_).imp ?_
        · rintro a b ha hb rfl
          have hstart := hb.start_le
          have hstop := hb.lt_stop
          have := ha.outside tag hmem htagKind
          omega
        · rintro b (hb | hb)
          · exact hb.toShowsBelow
          · refine h.showsBelow hmem (hb.shows_of_not_isStop ?_)
            exact Tree.isStop_of_kind htagKind (by decide)
  · exact .nil

end Node

end HardcodedText
