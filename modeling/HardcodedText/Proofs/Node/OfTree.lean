import HardcodedText.Node.OfTree
import HardcodedText.Proofs.Source.WellFormed

/-!
# What trees are read as

`Node.Reads` says once and for all what node a tree gives rise to in the place of a value or among
the members of an object, and to which trees the parts of the node go back.  Later proofs go by its
cases and do not open `Node.ofTree`.

An atom stands where the tree that it was read from begins, or one in parentheses in it.  If the
tree is well-formed, then nothing else begins there (`Node.exists_shows_ofTree`).
-/

namespace HardcodedText

namespace Form

/-- The only kind with a form, unless there are several. -/
def kind? : Form → Option String
  | parentheses => some "parenthesized_expression"
  | string => some "string"
  | number => some "number"
  | template => some "template_string"
  | member => some "member_expression"
  | object => some "object"
  | array => some "array"
  | spread => some "spread_element"
  | call => some "call_expression"
  | container => some "jsx_expression"
  | name | other => none

theorem kind_eq {form : Form} {kind kind' : String} (h : ofKind kind = form)
    (hform : form.kind? = some kind') : kind = kind' := by
  subst h
  revert hform
  fun_cases ofKind kind with
  | case5 | case12 =>
    intro h
    cases h
  | _ =>
    intro h
    cases h
    assumption

end Form

namespace Node

/-- Text, numbers and expressions within markup, which are not taken apart. -/
def IsAtom : Node → Prop
  | string _ _ | number _ _ | template _ _ _ | container _ _ | text _ _ => True
  | _ => False

/-- Names, members, calls and whatever the rules have no use for. -/
def IsPlain : Node → Prop
  | identifier _ _ | member _ _ _ | call _ _ _ | other _ _ => True
  | _ => False

/-- The node of a tree among the members of an object literal. -/
def memberOfTree (doc : Document) (t : Tree) : Node :=
  if t.kind = "pair" then pairOfTree doc t
  else if t.kind = "shorthand_property_identifier" then
    .property (doc.site t.span) (some (doc.text t.span))
      (.identifier (doc.site t.span) (doc.text t.span))
  else ofTree doc t

theorem ofMembers_eq (doc : Document) (ts : List Tree) :
    ofMembers doc ts = (ts.filter Tree.isContent).map (memberOfTree doc) := by
  induction ts with
  | nil => rfl
  | cons t ts ih =>
    cases t with
    | node head parts =>
      rw [ofMembers, List.filter_cons, ih]
      split
      · rfl
      · rfl

/-- `Reads doc t n`: the tree `t` is read as the node `n`. -/
inductive Reads (doc : Document) (t : Tree) : Node → Prop
  /-- Parentheses stand for what is in them. -/
  | parentheses {c : Tree} : t.kind = "parenthesized_expression" → c ∈ t.children →
    Reads doc t (ofTree doc c)
  /-- An atom stands where the tree stands. -/
  | atom {n : Node} : t.isSolid → n.IsAtom → n.site = doc.site t.span → Reads doc t n
  /-- The members of an object are read as members. -/
  | object : t.kind = "object" →
    Reads doc t (.object (doc.site t.span) (t.content.map (memberOfTree doc)))
  /-- The elements of an array are read as values. -/
  | array : t.kind = "array" →
    Reads doc t (.array (doc.site t.span) (t.content.map (ofTree doc)))
  /-- So is what is spread. -/
  | spread {c : Tree} : t.kind = "spread_element" → c ∈ t.children →
    Reads doc t (.spread (doc.site t.span) (ofTree doc c))
  /-- So is the value of a property. -/
  | property {c : Tree} {key : Option String} : t.kind = "pair" → c ∈ t.children →
    Reads doc t (.property (doc.site t.span) key (ofTree doc c))
  /-- The value of a property may be left out. -/
  | bare {n : Node} {key : Option String} : n.IsPlain →
    Reads doc t (.property (doc.site t.span) key n)
  /-- Anything else is not looked into. -/
  | plain {n : Node} : n.IsPlain → Reads doc t n

variable {doc : Document}

theorem reads_ofTree (doc : Document) (t : Tree) : Reads doc t (ofTree doc t) := by
  obtain ⟨head, parts⟩ := t
  rw [ofTree]
  split
  case h_1 h =>
    rw [ofContent_eq]
    split
    · rename_i inner hinner
      obtain ⟨c, hc, rfl⟩ := List.map_eq_singleton_iff.mp hinner
      have hmem : c ∈ parts.filter Tree.isContent := by simp [hc]
      exact .parentheses (Form.kind_eq h rfl) (List.mem_filter.mp hmem).1
    · exact .plain trivial
  case h_2 h | h_3 h | h_4 h | h_11 h =>
    exact .atom (by simp [Tree.isSolid, Tree.kind, Form.kind_eq h rfl]) trivial rfl
  case h_7 h =>
    rw [ofMembers_eq]
    exact .object (Form.kind_eq h rfl)
  case h_8 h =>
    rw [ofContent_eq]
    exact .array (Form.kind_eq h rfl)
  case h_9 h =>
    rw [ofContent_eq]
    split
    · rename_i argument rest hcons
      obtain ⟨c, more, hc, rfl, -⟩ := List.map_eq_cons_iff.mp hcons
      have hmem : c ∈ parts.filter Tree.isContent := by simp [hc]
      exact .spread (Form.kind_eq h rfl) (List.mem_filter.mp hmem).1
    · exact .plain trivial
  case h_6 h =>
    split
    · exact .plain trivial
    · exact .plain trivial
  all_goals exact .plain trivial

theorem reads_pairOfTree (doc : Document) {t : Tree} (h : t.kind = "pair") :
    Reads doc t (pairOfTree doc t) := by
  rw [pairOfTree, ofField_eq]
  cases hv : t.children.find? fun c ↦ c.head.field == some "value" with
  | none => exact .bare trivial
  | some c => exact .property h (List.mem_of_find?_eq_some hv)

theorem reads_memberOfTree (doc : Document) (t : Tree) : Reads doc t (memberOfTree doc t) := by
  unfold memberOfTree
  split
  · exact reads_pairOfTree doc ‹_›
  · split
    · exact .bare trivial
    · exact reads_ofTree doc t

/-! ## Where atoms stand -/

theorem IsPlain.not_isAtom {n : Node} (h : n.IsPlain) : ¬ n.IsAtom := by
  cases n <;> first | exact h.elim | exact id

theorem position_of_site {n : Node} {span : Span} (h : n.site = doc.site span) :
    n.position = doc.position span.start := by
  rw [position, h]
  rfl

variable {cs : List Char} {skip : List Span}

/-- The atom or array that a tree is read as stands in the tree, but in nothing of it that a walk
may look at. -/
theorem exists_shows_ofTree {t : Tree} (h : t.WellFormed cs)
    (hn : (ofTree doc t).IsAtom ∨ ∃ site elements, ofTree doc t = .array site elements) :
    ∃ b, (ofTree doc t).position = doc.position b ∧ t.Shows cs skip b := by
  induction t using Tree.induct with
  | step t ih =>
    have hr := reads_ofTree doc t
    generalize ofTree doc t = n at hn hr
    have hstart : t.isSolid → n.site = doc.site t.span →
        ∃ b, n.position = doc.position b ∧ t.Shows cs skip b := fun hs hsite ↦
      ⟨t.span.start, position_of_site hsite, h.laidOut.shows_start hs⟩
    cases hr with
    | parentheses hk hc =>
      obtain ⟨b, hpos, hb⟩ := ih _ hc (h.of_child hc) hn
      refine ⟨b, hpos, (h.showsBelow hc hb).shows_of_not_isStop ?_⟩
      exact Tree.isStop_of_kind hk (by decide)
    | atom hs _ hsite => exact hstart hs hsite
    | array hk => exact hstart (by simp [Tree.isSolid, hk]) rfl
    | plain hp =>
      rcases hn with hn | ⟨site, elements, rfl⟩
      · exact absurd hn hp.not_isAtom
      · exact hp.elim
    | object | spread | property | bare =>
      rcases hn with hn | ⟨site, elements, hn⟩
      · exact hn.elim
      · cases hn

end Node

end HardcodedText
