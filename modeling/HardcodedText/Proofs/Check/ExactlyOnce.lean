import HardcodedText.Proofs.Check.MarkupPlaces
import HardcodedText.Proofs.Finding

/-!
# Every text is reported once

A literal may be looked at from a notification call, from another call around that one, and as the
property of an object.  `Document.rawFindings_nodup` says that it is reported by one of these only:
in a well-formed tree whose elements and properties are constructs of their own, no two findings
stand at the same place, so no finding is ever dropped as a repetition of another one.

The argument follows the walk.  A stop reports text that is apart from all stops below it, except
for properties that it marks as inspected (`Stop.placed_findingsAt`), and below it no inspected
property is reported (`Scope.placed_collect_stops`).
-/

namespace HardcodedText

/-- The offset `b` lies in something in the tree `t` that a walk looks at, and not before every
construct in it.  This may be a property only if it is not `inspected`. -/
def Tree.Reported (cs : List Char) (inspected : List Span) (t : Tree) (b : Nat) : Prop :=
  ∃ d, Within d t ∧ d.isStop ∧ d.Covers cs b ∧ d.Anchored b ∧
    (d.kind = "pair" → d.span ∉ inspected)

/-- Findings at different places have different keys. -/
theorem Finding.nodup_map_key {fs : List Finding} (h : (fs.map place).Nodup) :
    (fs.map key).Nodup := by
  refine List.pairwise_map.mpr ((List.pairwise_map.mp h).imp fun hne heq ↦ hne ?_)
  have hline := congrArg Key.line heq
  have hcolumn := congrArg Key.column heq
  simp only [key] at hline hcolumn
  rw [place, place, hline, hcolumn]

namespace Tree.Reported

variable {cs : List Char} {inspected inspected' : List Span} {t c : Tree} {b : Nat}

theorem of_within (h : Reported cs inspected c b) (hc : Within c t) :
    Reported cs inspected t b := by
  obtain ⟨d, hd, hrest⟩ := h
  exact ⟨d, hd.trans hc, hrest⟩

theorem mono (h : Reported cs inspected t b) (hsub : inspected' ⊆ inspected) :
    Reported cs inspected' t b := by
  obtain ⟨d, hd, hstop, hcovers, hanchored, hspan⟩ := h
  exact ⟨d, hd, hstop, hcovers, hanchored, fun hk hmem ↦ hspan hk (hsub hmem)⟩

theorem covers (h : Reported cs inspected t b) (hwf : t.WellFormed cs) : t.Covers cs b := by
  obtain ⟨d, hd, -, hcovers, -⟩ := h
  exact hcovers.of_within hwf hd

/-- What is reported below a tree is not what the tree itself shows. -/
theorem ne_of_showsBelow {skip : List Span} {a : Nat} (ha : t.ShowsBelow cs skip a)
    (hc : c ∈ t.children) (h : Reported cs inspected c b) (hskip : skip ⊆ inspected) : a ≠ b := by
  obtain ⟨d, hd, hstop, hcovers, hanchored, hspan⟩ := h
  rcases ha.clear d (hd.below (.child hc)) hstop with ⟨hk, hmem⟩ | hapart
  · exact absurd (hskip hmem) (hspan hk)
  · exact hapart.ne hcovers hanchored

end Tree.Reported

variable {doc : Document} {cs : List Char} {scope : Scope} {checks : List Check}
  {properties : Bool}

/-- The step of a walk: what a stop reports stands in it, and in nothing below it that is still to
be reported. -/
theorem Stop.placed_findingsAt {s : Stop} {n : Node} (hdoc : doc.bytes = Utf8.encode cs)
    (h : s.tree.WellFormed cs) (hnames : s.tree.NamesConstructs)
    (hn : s.node? doc properties = some n) (inspected : List Span) :
    s.tree.isStop ∧ Placed doc
      (fun b ↦ s.tree.ShowsBelow cs (scope.spansAt checks n) b ∧ s.tree.Anchored b ∧
        (s.tree.kind = "pair" → s.tree.span ∉ inspected))
      ((scope.findingsAt checks inspected n).map Finding.place) := by
  unfold node? at hn
  split at hn
  · rename_i he
    cases hn
    refine ⟨by simp [Tree.isStop, he], ?_⟩
    refine (Node.placed_elementOfTree hdoc h inspected).imp fun b hb ↦ ⟨hb, ?_, ?_⟩
    · exact ⟨s.tree, .refl _, hnames _ (.refl _) (.inl he), hb.start_le⟩
    · intro hk
      simp [Tree.isElement, hk] at he
  · split at hn
    · rename_i hk
      cases hn
      refine ⟨by simp [Tree.isStop, hk], ?_⟩
      refine (Node.placed_callOfTree h inspected).imp fun b hb ↦ ⟨hb.1, hb.2, fun hk' ↦ ?_⟩
      simp [hk'] at hk
    · split at hn
      · rename_i hk
        cases hn
        refine ⟨by simp [Tree.isStop, hk.1], ?_⟩
        refine (Node.placed_pairOfTree h inspected).imp fun b hb ↦ ⟨hb.1, ?_, fun _ ↦ hb.2⟩
        exact ⟨s.tree, .refl _, hnames _ (.refl _) (.inr hk.1), hb.1.start_le⟩
      · cases hn

namespace Scope

/-- What a walk through trees beside each other reports, provided that this is known for each. -/
theorem placed_collect_stopsOf {ts : List Tree} {inObject : Bool}
    (hordered : ts.Pairwise fun a b ↦ a.span.stop ≤ b.span.start)
    (hwf : ∀ t ∈ ts, t.WellFormed cs)
    (hts : ∀ t ∈ ts, ∀ inspected, Placed doc (t.Reported cs inspected)
      ((scope.collect checks inspected
        ((t.stops inObject).filterMap (·.node? doc properties))).map Finding.place))
    (inspected : List Span) :
    Placed doc (fun b ↦ ∃ t ∈ ts, t.Reported cs inspected b)
      ((scope.collect checks inspected
        ((Tree.stopsOf inObject ts).filterMap (·.node? doc properties))).map Finding.place) := by
  induction ts generalizing inspected with
  | nil => exact .nil
  | cons t ts ih =>
    obtain ⟨hlater, hordered⟩ := List.pairwise_cons.mp hordered
    have hhead := hts t List.mem_cons_self inspected
    have htail := ih hordered (fun u hu ↦ hwf u (List.mem_cons_of_mem _ hu))
      fun u hu ↦ hts u (List.mem_cons_of_mem _ hu)
    rw [Tree.stopsOf, List.filterMap_append, collect_append, List.map_append]
    refine (hhead.append (htail _) ?_).imp ?_
    · rintro a b ha ⟨u, hu, hb⟩ rfl
      have hstop := (ha.covers (hwf t List.mem_cons_self)).lt_stop
      have hstart := (hb.covers (hwf u (List.mem_cons_of_mem _ hu))).start_le
      have hle := hlater u hu
      omega
    · rintro b (hb | ⟨u, hu, hb⟩)
      · exact ⟨t, List.mem_cons_self, hb⟩
      · exact ⟨u, List.mem_cons_of_mem _ hu, hb.mono (List.subset_append_left _ _)⟩

/-- What a walk through a tree reports stands at different offsets, each in something that the walk
looks at. -/
theorem placed_collect_stops {t : Tree} (hdoc : doc.bytes = Utf8.encode cs)
    (h : t.WellFormed cs) (hnames : t.NamesConstructs) (inObject : Bool)
    (inspected : List Span) :
    Placed doc (t.Reported cs inspected)
      ((scope.collect checks inspected
        ((t.stops inObject).filterMap (·.node? doc properties))).map Finding.place) := by
  induction t using Tree.induct generalizing inObject inspected with
  | step t ih =>
    have hbelow : ∀ inspected, Placed doc (fun b ↦ ∃ c ∈ t.children, c.Reported cs inspected b)
        ((scope.collect checks inspected ((Tree.stopsOf (t.kind == "object") t.children).filterMap
          (·.node? doc properties))).map Finding.place) :=
      placed_collect_stopsOf h.laidOut.ordered (fun c hc ↦ h.of_child hc) fun c hc ↦
        ih c hc (h.of_child hc) (hnames.of_within (Tree.Below.child hc).within) _
    rw [Tree.stops_eq, List.filterMap_cons]
    cases hn : (⟨t, inObject⟩ : Stop).node? doc properties with
    | none =>
      refine (hbelow inspected).imp ?_
      rintro b ⟨c, hc, hb⟩
      exact hb.of_within (Tree.Below.child hc).within
    | some n =>
      obtain ⟨hstop, hown⟩ := Stop.placed_findingsAt hdoc h hnames hn inspected
      simp only [collect_cons, List.map_append]
      refine (hown.append (hbelow _) ?_).imp ?_
      · rintro a b ⟨ha, -⟩ ⟨c, hc, hb⟩
        exact hb.ne_of_showsBelow ha hc (List.subset_append_right _ _)
      · rintro b (⟨hb, hanchored, hspan⟩ | ⟨c, hc, hb⟩)
        · exact ⟨t, .refl t, hstop, hb.toCovers, hanchored, hspan⟩
        · exact (hb.mono (List.subset_append_left _ _)).of_within (Tree.Below.child hc).within

end Scope

namespace Document

/-- No text is reported twice: the findings of a document all stand at different places, so their
keys are different and none of them is dropped. -/
theorem rawFindings_nodup (path text : String) (root : Tree) (config : Configuration)
    (checks : List Check) (h : root.WellFormed text.toList) (hnames : root.NamesConstructs) :
    (((ofText path text root).rawFindings config checks).map Finding.place).Nodup ∧
    (((ofText path text root).rawFindings config checks).map Finding.key).Nodup ∧
    Finding.firsts ((ofText path text root).rawFindings config checks) =
      (ofText path text root).rawFindings config checks := by
  have hplaces : (((ofText path text root).rawFindings config checks).map Finding.place).Nodup := by
    rw [rawFindings, nodes_eq]
    refine (Scope.placed_collect_stops rfl h hnames false []).nodup fun b hb ↦ ?_
    exact (hb.covers h).boundary
  have hkeys := Finding.nodup_map_key hplaces
  exact ⟨hplaces, hkeys, Finding.firsts_eq_self hkeys⟩

/-- In `toast({title:['A',<b>B</b>]})` the call reports the first text and the element the second
one; the property, which is inspected by then, reports nothing. -/
theorem rawFindings_nodup_toast :
    let text := "toast(\x7btitle:['A',<b>B</b>]\x7d)"
    let root : Tree := .node { kind := "program", span := ⟨0, 29⟩ } [
      .node { kind := "call_expression", span := ⟨0, 29⟩ } [
        .node { kind := "identifier", span := ⟨0, 5⟩, field := some "function" } [],
        .node { kind := "arguments", span := ⟨5, 29⟩, field := some "arguments" } [
          .node { kind := "object", span := ⟨6, 28⟩ } [
            .node { kind := "pair", span := ⟨7, 27⟩ } [
              .node { kind := "property_identifier", span := ⟨7, 12⟩, field := some "key" } [],
              .node { kind := "array", span := ⟨13, 27⟩, field := some "value" } [
                .node { kind := "string", span := ⟨14, 17⟩ } [],
                .node { kind := "jsx_element", span := ⟨18, 26⟩ } [
                  .node { kind := "jsx_opening_element", span := ⟨18, 21⟩,
                          field := some "open_tag" } [],
                  .node { kind := "jsx_text", span := ⟨21, 22⟩ } [],
                  .node { kind := "jsx_closing_element", span := ⟨22, 26⟩,
                          field := some "close_tag" } []]]]]]]]
    let raw := (ofText "a.tsx" text root).rawFindings .toasts Check.all
    root.WellFormed text.toList ∧ root.NamesConstructs ∧
      raw.map Finding.value = ["A", "B"] ∧
      (raw.map Finding.place).Nodup ∧ (raw.map Finding.key).Nodup ∧ Finding.firsts raw = raw :=
  ⟨by decide, by decide, by decide +kernel,
    rawFindings_nodup _ _ _ _ _ (by decide) (by decide)⟩

/-- Elements have to be constructs of their own.  Here, one that is not begins where an expression
in markup begins, and the two texts are told apart neither by place nor by key. -/
theorem exists_rawFindings_repeated :
    ¬ ∀ (path text : String) (root : Tree) (config : Configuration) (checks : List Check),
      root.head.faulty = false → root.WellFormed text.toList →
      (((ofText path text root).rawFindings config checks).map Finding.key).Nodup := by
  intro h
  have hroot := h "a.tsx" "<b>hello'hello'"
    (.node { kind := "program", span := ⟨0, 15⟩ } [
      .node { kind := "jsx_element", span := ⟨0, 15⟩ } [
        .node { kind := "jsx_opening_element", span := ⟨0, 3⟩, field := some "open_tag" } [
          .node { kind := "identifier", span := ⟨1, 2⟩, field := some "name" } []],
        .node { kind := "jsx_expression", span := ⟨3, 15⟩ } [
          .node { kind := "jsx_element", span := ⟨3, 8⟩, named := false } [
            .node { kind := "jsx_text", span := ⟨3, 8⟩, named := false } []],
          .node { kind := "string", span := ⟨8, 15⟩ } []]]])
    .toasts [.markup] rfl (by decide)
  revert hroot
  decide +kernel

end Document

end HardcodedText
