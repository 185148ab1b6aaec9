import Mathlib.Data.List.Forall2
import Mathlib.Logic.Relation
import HardcodedText.Proofs.Source.Tree
import HardcodedText.Source.Import

/-!
# Parentheses and comments in trees

`Tree.Sheds` says that one pair of parentheses or one comment is taken out of a tree, somewhere in
it.  Whoever reads a tree takes all the content of a node, or looks for parts of it by field or by
kind.  So it is said once what such a step does to the parts of a node (`Tree.Near.siblings`), and
then what is found among them (`Tree.Siblings.forall₂_filter`, `Tree.Near.rel_child?`).

Imports are the one thing that is read off the tree as such: `Document.imports_eq_of_sheds`.
-/

namespace HardcodedText

open Relation (ReflGen)

namespace Tree

/-- The tree in another field of its parent. -/
def inField (t : Tree) (field : Option String) : Tree :=
  .node { t.head with field := field } t.children

section

variable (t : Tree) (field : Option String)

@[simp] theorem kind_inField : (t.inField field).kind = t.kind := rfl

@[simp] theorem isContent_inField : (t.inField field).isContent = t.isContent := rfl

end

/-- A comment without parts that fills no field. -/
structure IsRemark (t : Tree) : Prop where
  /-- It is a comment. -/
  isComment : t.isComment
  /-- It fills no field. -/
  field : t.head.field = none
  /-- It has no parts. -/
  childless : t.children = []

/-- `Encloses p x`: the tree `p` is a pair of parentheses around `x`.  Whatever else is between
them, such as comments, has no parts. -/
structure Encloses (p x : Tree) : Prop where
  /-- It is an expression in parentheses. -/
  kind : p.kind = "parenthesized_expression"
  /-- It is a construct of its own. -/
  named : p.head.named
  /-- It has `x` in it and nothing else that matters. -/
  content : p.content = [x]
  /-- The rest has no parts. -/
  childless : ∀ c ∈ p.children, c.isContent = false → c.children = []

/-- Whether a tree of a kind has a value in the part that fills the given field. -/
def TakesValue (kind : String) (field : Option String) : Prop :=
  kind = "arguments" ∨ kind = "array" ∨ kind = "spread_element" ∨ kind = "jsx_expression" ∨
    kind = "parenthesized_expression" ∨ kind = "call_expression" ∧ field = some "function" ∨
    kind = "pair" ∧ field = some "value" ∨ kind = "member_expression" ∧ field = some "object"

instance (kind : String) (field : Option String) : Decidable (TakesValue kind field) :=
  inferInstanceAs (Decidable (_ ∨ _))

/-- The kinds of tree that have values among their parts. -/
def valueKinds : List String :=
  ["arguments", "array", "spread_element", "jsx_expression", "parenthesized_expression",
    "call_expression", "pair", "member_expression"]

theorem TakesValue.mem_valueKinds {kind : String} {field : Option String}
    (h : TakesValue kind field) : kind ∈ valueKinds := by
  rcases h with rfl | rfl | rfl | rfl | rfl | ⟨rfl, -⟩ | ⟨rfl, -⟩ | ⟨rfl, -⟩ <;> decide

/-- `Removable head p x`: below a node with the given head, the parentheses `p` around `x` can be
taken off unnoticed.  Should the node be taken for a tag, then its name is read as it is written,
and its attributes are told by their kind. -/
structure Removable (head : Head) (p x : Tree) : Prop where
  /-- There is a value in parentheses. -/
  takesValue : TakesValue head.kind p.head.field
  /-- The parentheses are around `x`. -/
  encloses : Encloses p x
  /-- They are not around a part of a tag. -/
  tag : head.field = some "open_tag" → x.kind ≠ "jsx_attribute" ∧ p.head.field ≠ some "name"

/-- `Sheds whole t t'`: one pair of parentheses or one comment is taken out of `t`, which leaves
`t'`.  If `t` is the tree of a `whole` document, then no import may come to light. -/
inductive Sheds : Bool → Tree → Tree → Prop
  /-- What is in parentheses takes their place. -/
  | parentheses {whole : Bool} {head : Head} {before after : List Tree} {p x : Tree} :
    Removable head p x → (whole → x.kind ≠ "import_statement") →
      Sheds whole (.node head (before ++ p :: after))
        (.node head (before ++ x.inField p.head.field :: after))
  /-- A comment is left out.  Between the tags of an element it stays, as it divides text. -/
  | comment {whole : Bool} {head : Head} {before after : List Tree} {c : Tree} :
    head.kind ≠ "jsx_element" → head.kind ≠ "jsx_fragment" → IsRemark c →
      Sheds whole (.node head (before ++ c :: after)) (.node head (before ++ after))
  /-- Either happens further down. -/
  | inside {whole : Bool} {head : Head} {before after : List Tree} {t t' : Tree} :
    Sheds false t t' →
      Sheds whole (.node head (before ++ t :: after)) (.node head (before ++ t' :: after))

/-- `Near t t'`: the tree `t'` is `t`, or what one step leaves of it. -/
def Near : Tree → Tree → Prop := ReflGen (Sheds false)

theorem Near.refl (t : Tree) : Near t t := ReflGen.refl

theorem Sheds.near {whole : Bool} {t t' : Tree} (h : Sheds whole t t') : Near t t' := by
  apply ReflGen.single
  cases h with
  | parentheses hp _ => exact .parentheses hp (by simp)
  | comment hne hne' hc => exact .comment hne hne' hc
  | inside h => exact .inside h

theorem Near.head_eq {t t' : Tree} (h : Near t t') : t'.head = t.head := by
  cases h with
  | refl => rfl
  | single h => cases h <;> rfl

theorem Near.kind_eq {t t' : Tree} (h : Near t t') : t'.kind = t.kind :=
  congrArg Head.kind h.head_eq

theorem Near.span_eq {t t' : Tree} (h : Near t t') : t'.span = t.span :=
  congrArg Head.span h.head_eq

theorem Near.isComment_eq {t t' : Tree} (h : Near t t') : t'.isComment = t.isComment := by
  simp only [isComment, h.kind_eq]

theorem Near.isContent_eq {t t' : Tree} (h : Near t t') : t'.isContent = t.isContent := by
  simp only [isContent, h.head_eq, h.isComment_eq]

theorem Near.isText_eq {t t' : Tree} (h : Near t t') : t'.isText = t.isText := by
  simp only [isText, h.kind_eq]

theorem Near.isElement_eq {t t' : Tree} (h : Near t t') : t'.isElement = t.isElement := by
  simp only [isElement, h.kind_eq]

/-! ## What a step does to the parts of a node -/

/-- `Counterpart head t t'`: below a node with the given head, `t'` stands where `t` stood. -/
inductive Counterpart (head : Head) : Tree → Tree → Prop
  /-- The tree has stayed, though something may have been taken out of it. -/
  | near {t t' : Tree} : Near t t' → Counterpart head t t'
  /-- The tree has lost its parentheses. -/
  | bare {p x : Tree} : Removable head p x → Counterpart head p (x.inField p.head.field)

/-- The parts of a node with the given head before and after a step, one by one but for comments. -/
inductive Siblings (head : Head) : List Tree → List Tree → Prop
  | nil : Siblings head [] []
  | cons {t t' : Tree} {ts ts' : List Tree} :
    Counterpart head t t' → Siblings head ts ts' → Siblings head (t :: ts) (t' :: ts')
  | comment {c : Tree} {ts ts' : List Tree} :
    head.kind ≠ "jsx_element" → head.kind ≠ "jsx_fragment" → IsRemark c →
      Siblings head ts ts' → Siblings head (c :: ts) ts'

theorem Siblings.refl (head : Head) (ts : List Tree) : Siblings head ts ts := by
  induction ts with
  | nil => exact .nil
  | cons t ts ih => exact .cons (.near (.refl t)) ih

theorem Siblings.append {head : Head} {ts ts' : List Tree} (before : List Tree)
    (h : Siblings head ts ts') : Siblings head (before ++ ts) (before ++ ts') := by
  induction before with
  | nil => exact h
  | cons t before ih => exact .cons (.near (.refl t)) ih

/-- A step changes one of the parts of a node, or takes a comment from among them. -/
theorem Near.siblings {t t' : Tree} (h : Near t t') : Siblings t.head t.children t'.children := by
  cases h with
  | refl => exact .refl _ _
  | single h =>
    cases h with
    | parentheses hp _ => exact .append _ (.cons (.bare hp) (.refl _ _))
    | comment hne hne' hc => exact .append _ (.comment hne hne' hc (.refl _ _))
    | inside h => exact .append _ (.cons (.near (.single h)) (.refl _ _))

section

variable {head : Head} {t t' : Tree} {ts ts' : List Tree}

theorem Counterpart.field_eq (h : Counterpart head t t') : t'.head.field = t.head.field := by
  cases h with
  | near h => rw [h.head_eq]
  | bare => rfl

theorem Encloses.isContent {p x : Tree} (h : Encloses p x) : p.isContent ∧ x.isContent := by
  constructor
  · simp [Tree.isContent, isComment, h.kind, h.named]
  · have hx : x ∈ p.content := by simp [h.content]
    exact (List.mem_filter.mp hx).2

theorem Counterpart.isContent_eq (h : Counterpart head t t') : t'.isContent = t.isContent := by
  cases h with
  | near h => exact h.isContent_eq
  | bare h => rw [isContent_inField, h.encloses.isContent.1, h.encloses.isContent.2]

/-- Where there are no values, no parentheses are lost. -/
theorem Counterpart.near_of_notMem (h : Counterpart head t t') (hplace : head.kind ∉ valueKinds) :
    Near t t' := by
  cases h with
  | near h => exact h
  | bare h => exact absurd h.takesValue.mem_valueKinds hplace

theorem IsRemark.not_isContent {c : Tree} (h : IsRemark c) : c.isContent = false := by
  simp [isContent, h.isComment]

theorem IsRemark.kind_ne {c : Tree} (h : IsRemark c) {kind : String}
    (hk : kind ∉ ["comment", "html_comment"]) : c.kind ≠ kind := by
  rintro rfl
  have hcomment := h.isComment
  simp only [Tree.isComment, Bool.or_eq_true, beq_iff_eq] at hcomment
  simp only [List.mem_cons, List.not_mem_nil, or_false] at hk
  exact hk hcomment

/-! ## What is found among the parts -/

/-- Nothing gets lost of those parts that are told by something that a step does not change. -/
theorem Siblings.forall₂_filter {q : Tree → Bool} (h : Siblings head ts ts')
    (hq : ∀ t t', Counterpart head t t' → q t' = q t) (hremark : ∀ c, IsRemark c → q c = false) :
    List.Forall₂ (fun t t' ↦ t ∈ ts.filter q ∧ Counterpart head t t') (ts.filter q)
      (ts'.filter q) := by
  refine (List.forall₂_and_left _ _).mpr ⟨fun _ ht ↦ ht, ?_⟩
  induction h with
  | nil => exact .nil
  | cons ht _ ih =>
    rw [List.filter_cons, List.filter_cons, hq _ _ ht]
    split
    · exact .cons ht ih
    · exact ih
  | comment _ _ hc _ ih => rwa [List.filter_cons_of_neg (by simp [hremark _ hc])]

/-- What is content stays content. -/
theorem Siblings.forall₂_content (h : Siblings head ts ts') :
    List.Forall₂ (fun t t' ↦ t ∈ ts ∧ Counterpart head t t') (ts.filter isContent)
      (ts'.filter isContent) := by
  refine (h.forall₂_filter (fun _ _ ↦ Counterpart.isContent_eq)
    fun _ ↦ IsRemark.not_isContent).imp ?_
  rintro t t' ⟨ht, htt'⟩
  exact ⟨(List.mem_filter.mp ht).1, htt'⟩

theorem Near.forall₂_content (h : Near t t') (hplace : t.kind ∉ valueKinds) :
    List.Forall₂ (fun c c' ↦ c ∈ t.children ∧ Near c c') t.content t'.content := by
  refine h.siblings.forall₂_content.imp ?_
  rintro c c' ⟨hc, hcc'⟩
  exact ⟨hc, hcc'.near_of_notMem hplace⟩

theorem rel_head? {R : Tree → Tree → Prop} (h : List.Forall₂ R ts ts') :
    Option.Rel R ts.head? ts'.head? := by
  cases h with
  | nil => exact .none
  | cons h _ => exact .some h

/-- What fills a field still fills it. -/
theorem Siblings.rel_find? (h : Siblings head ts ts') (field : String) :
    Option.Rel (fun t t' ↦ (t ∈ ts ∧ t.head.field = some field) ∧ Counterpart head t t')
      (ts.find? (·.head.field == some field)) (ts'.find? (·.head.field == some field)) := by
  rw [← List.head?_filter, ← List.head?_filter]
  refine rel_head? ((h.forall₂_filter ?_ ?_).imp ?_)
  · intro t t' ht
    rw [ht.field_eq]
  · intro c hc
    simp [hc.field]
  · rintro t t' ⟨ht, htt'⟩
    exact ⟨by simpa using ht, htt'⟩

/-- A part that fills a field has stayed, unless it may lose its parentheses there. -/
theorem Near.rel_child? (h : Near t t') {field : String}
    (hplace : ∀ p x, Removable t.head p x → p.head.field ≠ some field) :
    Option.Rel Near (t.child? field) (t'.child? field) := by
  have hrel : Option.Rel _ (t.child? field) (t'.child? field) := h.siblings.rel_find? field
  generalize t.child? field = found, t'.child? field = found' at hrel
  cases hrel with
  | none => exact .none
  | some hc =>
    obtain ⟨⟨-, hfield⟩, hc⟩ := hc
    cases hc with
    | near hc => exact .some hc
    | bare hp => exact absurd hfield (hplace _ _ hp)

theorem Near.rel_child?_of_not_takesValue (h : Near t t') {field : String}
    (hplace : ¬ TakesValue t.kind (some field)) :
    Option.Rel Near (t.child? field) (t'.child? field) := by
  apply h.rel_child?
  intro p x hp hfield
  exact hplace (hfield ▸ hp.takesValue)

/-- What is gathered from some parts that are not values stays the same, if each of them gives the
same as before and comments give nothing. -/
theorem Siblings.flatMap_eq {α : Type} {f : Tree → List α} (q : Head → Bool)
    (h : Siblings head ts ts') (hplace : head.kind ∉ valueKinds)
    (hnear : ∀ t t', Near t t' → q t.head → f t' = f t)
    (hremark : ∀ c, IsRemark c → q c.head → f c = []) :
    (ts'.filter (q ·.head)).flatMap f = (ts.filter (q ·.head)).flatMap f := by
  induction h with
  | nil => rfl
  | cons ht _ ih =>
    have ht := ht.near_of_notMem hplace
    rw [List.filter_cons, List.filter_cons, ht.head_eq]
    split
    · rw [List.flatMap_cons, List.flatMap_cons, hnear _ _ ht ‹_›, ih]
    · exact ih
  | comment _ _ hc _ ih =>
    rw [ih, List.filter_cons]
    split
    · rw [List.flatMap_cons, hremark _ hc ‹_›, List.nil_append]
    · rfl

/-! ## Elements and their tags -/

/-- The parts of an element have all stayed. -/
theorem Near.forall₂_children (h : Near t t') (he : t.isElement)
    (hk : t.kind ≠ "jsx_self_closing_element") : List.Forall₂ Near t.children t'.children := by
  have hkinds : t.kind = "jsx_element" ∨ t.kind = "jsx_fragment" := by
    simp only [isElement, Bool.or_eq_true, beq_iff_eq] at he
    tauto
  have hplace : t.kind ∉ valueKinds := by
    rcases hkinds with hk | hk <;> rw [hk] <;> decide
  have hsiblings := h.siblings
  generalize t.children = ts, t'.children = ts' at hsiblings
  induction hsiblings with
  | nil => exact .nil
  | cons hc _ ih => exact .cons (hc.near_of_notMem hplace) ih
  | comment hne hne' => exact absurd hkinds (not_or.mpr ⟨hne, hne'⟩)

theorem rel_find?_of_forall₂ (h : List.Forall₂ Near ts ts') (q : Head → Bool) :
    Option.Rel (fun c c' ↦ q c.head ∧ Near c c') (ts.find? (q ·.head)) (ts'.find? (q ·.head)) := by
  induction h with
  | nil => exact .none
  | cons hc _ ih =>
    rw [List.find?_cons, List.find?_cons, hc.head_eq]
    split
    · exact .some ⟨‹_›, hc⟩
    · exact ih

/-- What can be the tag of an element: its name and its attributes do not lose parentheses. -/
def IsTag (t : Tree) : Prop := t.head.field = some "open_tag" ∨ t.kind ∉ valueKinds

theorem IsTag.of_removable {p x : Tree} (ht : IsTag t) (h : Removable t.head p x) :
    x.kind ≠ "jsx_attribute" ∧ p.head.field ≠ some "name" := by
  rcases ht with hfield | hkind
  · exact h.tag hfield
  · exact absurd h.takesValue.mem_valueKinds hkind

/-- The attributes of a tag have all stayed. -/
theorem IsTag.forall₂_attributes (ht : IsTag t) (h : Near t t') :
    List.Forall₂ (fun c c' ↦ c.kind = "jsx_attribute" ∧ Near c c')
      (t.children.filter fun c ↦ c.head.named && c.kind == "jsx_attribute")
      (t'.children.filter fun c ↦ c.head.named && c.kind == "jsx_attribute") := by
  refine (h.siblings.forall₂_filter ?_ ?_).imp ?_
  · intro c c' hc
    cases hc with
    | near hc => rw [hc.head_eq, hc.kind_eq]
    | bare hp =>
      have hx := (ht.of_removable hp).1
      simp [hp.encloses.kind, hx]
  · intro c hc
    have hk : c.kind ≠ "jsx_attribute" := hc.kind_ne (by decide)
    simp [hk]
  · rintro c c' ⟨hc, hcc'⟩
    have hk : c.kind = "jsx_attribute" := by
      have hq := (List.mem_filter.mp hc).2
      rw [Bool.and_eq_true, beq_iff_eq] at hq
      exact hq.2
    cases hcc' with
    | near hcc' => exact ⟨hk, hcc'⟩
    | bare hp => simp [hp.encloses.kind] at hk

end

end Tree

/-! ## Imports -/

namespace Document

open HardcodedText.Tree

variable (doc : Document) (source : String) {t t' : Tree}

theorem specifierImport?_eq_of_near (h : Near t t') :
    doc.specifierImport? source t' = doc.specifierImport? source t := by
  rw [specifierImport?, specifierImport?, h.kind_eq]
  split
  · next hk =>
    have hname : Option.Rel Near (t.child? "name") (t'.child? "name") :=
      h.rel_child?_of_not_takesValue (by rw [hk]; decide)
    have halias : Option.Rel Near (t.child? "alias") (t'.child? "alias") :=
      h.rel_child?_of_not_takesValue (by rw [hk]; decide)
    generalize t.child? "name" = name, t'.child? "name" = name' at hname
    generalize t.child? "alias" = other, t'.child? "alias" = other' at halias
    cases hname with
    | none => rfl
    | some hname =>
      cases halias with
      | none => simp [hname.span_eq]
      | some halias => simp [hname.span_eq, halias.span_eq]
  · rfl

theorem itemImports_eq_of_near (h : Near t t') :
    doc.itemImports source t' = doc.itemImports source t := by
  simp only [itemImports, h.kind_eq, h.span_eq, List.filter_filter, List.map_eq_flatMap,
    List.filterMap_eq_flatMap_toList]
  split
  · rfl
  · split
    · next hk =>
      apply h.siblings.flatMap_eq fun head ↦ decide (head.kind = "identifier") && head.named
      · rw [← kind, hk]
        decide
      · intro t t' h _
        rw [h.span_eq]
      · intro c hc hq
        rw [Bool.and_eq_true, decide_eq_true_eq] at hq
        exact absurd hq.1 (hc.kind_ne (by decide))
    · split
      · next hk =>
        apply h.siblings.flatMap_eq Head.named
        · rw [← kind, hk]
          decide
        · intro t t' h _
          rw [doc.specifierImport?_eq_of_near source h]
        · intro c hc _
          rw [specifierImport?, if_neg (hc.kind_ne (by decide))]
          rfl
      · rfl

theorem clauseImports_eq_of_near (h : Near t t') (hk : t.kind = "import_clause") :
    (t'.children.filter (·.head.named)).flatMap (doc.itemImports source) =
      (t.children.filter (·.head.named)).flatMap (doc.itemImports source) := by
  apply h.siblings.flatMap_eq Head.named
  · rw [← kind, hk]
    decide
  · intro t t' h _
    exact doc.itemImports_eq_of_near source h
  · intro c hc _
    simp only [itemImports]
    rw [if_neg (hc.kind_ne (by decide)), if_neg (hc.kind_ne (by decide)),
      if_neg (hc.kind_ne (by decide))]

/-- A statement gives the same names with other parentheses and comments. -/
theorem statementImports_eq_of_near (h : Near t t') :
    doc.statementImports t' = doc.statementImports t := by
  rw [statementImports, statementImports, h.kind_eq]
  split
  · next hk =>
    have hsource : Option.Rel Near (t.child? "source") (t'.child? "source") :=
      h.rel_child?_of_not_takesValue (by rw [hk]; decide)
    generalize t.child? "source" = literal, t'.child? "source" = literal' at hsource
    cases hsource with
    | none => rfl
    | some hsource =>
      simp only [hsource.span_eq]
      apply h.siblings.flatMap_eq fun head ↦ head.named && head.kind == "import_clause"
      · rw [← kind, hk]
        decide
      · intro t t' h hq
        rw [Bool.and_eq_true, beq_iff_eq] at hq
        exact doc.clauseImports_eq_of_near _ h hq.2
      · intro c hc hq
        rw [Bool.and_eq_true, beq_iff_eq] at hq
        exact absurd hq.2 (hc.kind_ne (by decide))
  · rfl

theorem flatMap_statementImports_eq_of_sheds (h : Sheds true t t') :
    (t'.children.filter (·.head.named)).flatMap doc.statementImports =
      (t.children.filter (·.head.named)).flatMap doc.statementImports := by
  have hskip : ∀ {c : Tree} {ts : List Tree}, c.kind ≠ "import_statement" →
      ((c :: ts).filter (·.head.named)).flatMap doc.statementImports =
        (ts.filter (·.head.named)).flatMap doc.statementImports := by
    intro c ts hk
    rw [List.filter_cons]
    split
    · rw [List.flatMap_cons, statementImports, if_neg hk, List.nil_append]
    · rfl
  cases h with
  | @parentheses _ _ _ _ p x hp himport =>
    have hkind : p.kind ≠ "import_statement" := by
      rw [hp.encloses.kind]
      decide
    have hkind' : (x.inField p.head.field).kind ≠ "import_statement" := himport rfl
    simp only [children_node, List.filter_append, List.flatMap_append, hskip hkind, hskip hkind']
  | comment _ _ hc =>
    simp only [children_node, List.filter_append, List.flatMap_append,
      hskip (hc.kind_ne (by decide))]
  | inside h =>
    simp only [children_node, List.filter_append, List.flatMap_append, List.filter_cons,
      h.near.head_eq]
    split
    · rw [List.flatMap_cons, List.flatMap_cons, doc.statementImports_eq_of_near h.near]
    · rfl

/-- No import comes or goes with parentheses and comments. -/
theorem imports_eq_of_sheds {path : String} {bytes : List UInt8} (h : Sheds true t t') :
    imports ⟨path, bytes, t'⟩ = imports ⟨path, bytes, t⟩ :=
  flatMap_statementImports_eq_of_sheds ⟨path, bytes, t⟩ h

end Document

end HardcodedText
