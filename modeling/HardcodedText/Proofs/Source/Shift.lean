import HardcodedText.Proofs.Source.Tree
import HardcodedText.Source.Document
import HardcodedText.Source.Import

/-!
# Trees further on in a text

`Tree.shift` moves all ranges of a tree by a number of bytes.  What a tree says of itself besides
its ranges stays, so whatever is looked for by kind or field is found in the same place.

`Document.Relocates` relates two documents of which the second has the tree of the first further on,
over the same bytes.  Texts of ranges, imports and faults are the same in both; only the sites of
constructs differ, in a way that is given by a function.
-/

namespace HardcodedText

/-- The range that lies so many bytes further on. -/
def Span.shift (k : Nat) (s : Span) : Span := ⟨s.start + k, s.stop + k⟩

theorem Span.shift_injective (k : Nat) : Function.Injective (shift k) := by
  intro s t h
  obtain ⟨hstart, hstop⟩ := Span.mk.inj h
  obtain ⟨start, stop⟩ := s
  obtain ⟨start', stop'⟩ := t
  rw [Span.mk.injEq]
  exact ⟨Nat.add_right_cancel hstart, Nat.add_right_cancel hstop⟩

namespace Tree

variable (k : Nat)

mutual

/-- The tree with all its ranges so many bytes further on. -/
def shift : Tree → Tree
  | .node head children => .node { head with span := head.span.shift k } (shiftAll children)

/-- The trees with all their ranges so many bytes further on. -/
def shiftAll : List Tree → List Tree
  | [] => []
  | t :: ts => shift t :: shiftAll ts

end

theorem shiftAll_eq_map (ts : List Tree) : shiftAll k ts = ts.map (shift k) := by
  induction ts with
  | nil => rfl
  | cons t ts ih => rw [shiftAll, ih, List.map_cons]

theorem shift_node (head : Head) (children : List Tree) :
    shift k (.node head children) =
      .node { head with span := head.span.shift k } (children.map (shift k)) := by
  rw [shift, shiftAll_eq_map]

@[simp] theorem head_shift (t : Tree) :
    (t.shift k).head = { t.head with span := t.head.span.shift k } := by
  cases t
  rw [shift_node, head_node, head_node]

@[simp] theorem children_shift (t : Tree) : (t.shift k).children = t.children.map (shift k) := by
  cases t
  rw [shift_node, children_node, children_node]

@[simp] theorem kind_shift (t : Tree) : (t.shift k).kind = t.kind := by
  rw [kind, kind, head_shift]

@[simp] theorem span_shift (t : Tree) : (t.shift k).span = t.span.shift k := by
  rw [span, span, head_shift]

@[simp] theorem isElement_shift (t : Tree) : (t.shift k).isElement = t.isElement := by
  simp only [isElement, kind_shift]

@[simp] theorem isText_shift (t : Tree) : (t.shift k).isText = t.isText := by
  simp only [isText, kind_shift]

@[simp] theorem isComment_shift (t : Tree) : (t.shift k).isComment = t.isComment := by
  simp only [isComment, kind_shift]

@[simp] theorem isContent_shift (t : Tree) : (t.shift k).isContent = t.isContent := by
  simp only [isContent, head_shift, isComment_shift]

@[simp] theorem isFault_shift (t : Tree) : (t.shift k).isFault = t.isFault := by
  simp only [isFault, head_shift, kind_shift]

/-- What is picked out by what trees say of themselves is the same further on. -/
theorem filter_map_shift {p : Tree → Bool} (h : ∀ t, p (t.shift k) = p t) (ts : List Tree) :
    (ts.map (shift k)).filter p = (ts.filter p).map (shift k) := by
  rw [List.filter_map]
  exact congrArg _ (List.filter_congr fun t _ ↦ h t)

theorem find?_map_shift {p : Tree → Bool} (h : ∀ t, p (t.shift k) = p t) (ts : List Tree) :
    (ts.map (shift k)).find? p = (ts.find? p).map (shift k) := by
  rw [List.find?_map]
  exact congrArg (Option.map (shift k) <| List.find? · ts) (funext h)

theorem content_shift (t : Tree) : (t.shift k).content = t.content.map (shift k) := by
  rw [content, content, children_shift, filter_map_shift k (isContent_shift k)]

theorem child?_shift (t : Tree) (field : String) :
    (t.shift k).child? field = (t.child? field).map (shift k) := by
  rw [child?, child?, children_shift, find?_map_shift k fun t ↦ by rw [head_shift]]

theorem firstFault?_map_shift (ts : List Tree) :
    firstFault? (ts.map (shift k)) = (firstFault? ts).map (shift k) := by
  fun_induction firstFault? ts with
  | case1 => rw [List.map_nil, firstFault?, Option.map_none]
  | case2 t rest h => rw [List.map_cons, firstFault?, isFault_shift, if_pos h, Option.map_some]
  | case3 t rest h hfaulty ih =>
    rw [List.map_cons, firstFault?, isFault_shift, if_neg h, head_shift, if_pos hfaulty,
      children_shift, ← List.map_append, ih]
  | case4 t rest h hfaulty ih =>
    rw [List.map_cons, firstFault?, isFault_shift, if_neg h, head_shift, if_neg hfaulty, ih]

theorem shift_zero (t : Tree) : t.shift 0 = t := by
  induction t using Tree.induct with
  | step t ih =>
    obtain ⟨head, children⟩ := t
    have hchildren : children.map (shift 0) = children :=
      (List.map_congr_left ih).trans (List.map_id' children)
    rw [shift_node, hchildren]
    rfl

end Tree

namespace Document

/-- `Relocates k g doc doc'`: the tree of `doc'` is that of `doc`, but `k` bytes further on, where
the same bytes stand; `g` takes the sites of constructs to where they stand now. -/
structure Relocates (k : Nat) (g : Site → Site) (doc doc' : Document) : Prop where
  /-- Both have the same name. -/
  path : doc'.path = doc.path
  /-- The tree is further on. -/
  root : doc'.root = doc.root.shift k
  /-- The bytes are the same there. -/
  slice : ∀ span, doc'.slice (span.shift k) = doc.slice span
  /-- The sites are those that `g` gives. -/
  site : ∀ offset span, g ⟨doc.position offset, span⟩ = ⟨doc'.position (offset + k), span.shift k⟩

namespace Relocates

variable {k : Nat} {g : Site → Site} {doc doc' : Document}

theorem chars_eq (h : Relocates k g doc doc') (span : Span) :
    doc'.chars (span.shift k) = doc.chars span := by
  rw [chars, chars, h.slice]

theorem text_eq (h : Relocates k g doc doc') (span : Span) :
    doc'.text (span.shift k) = doc.text span := by
  rw [text, text, h.chars_eq]

theorem stringValue_eq (h : Relocates k g doc doc') (span : Span) :
    doc'.stringValue (span.shift k) = doc.stringValue span := by
  rw [stringValue, stringValue, h.chars_eq]

theorem site_eq (h : Relocates k g doc doc') (span : Span) :
    doc'.site (span.shift k) = g (doc.site span) := by
  rw [Document.site, Document.site, h.site]
  rfl

/-! ## Imports -/

theorem specifierImport?_eq (h : Relocates k g doc doc') (source : String) (t : Tree) :
    doc'.specifierImport? source (t.shift k) = doc.specifierImport? source t := by
  rw [specifierImport?, specifierImport?, Tree.kind_shift, Tree.child?_shift, Tree.child?_shift]
  split
  · cases t.child? "name" with
    | none => rfl
    | some name =>
      cases t.child? "alias" <;>
        simp only [Option.map_some, Option.map_none, Option.getD_some, Option.getD_none,
          Tree.span_shift, h.text_eq]
  · rfl

theorem itemImports_eq (h : Relocates k g doc doc') (source : String) (t : Tree) :
    doc'.itemImports source (t.shift k) = doc.itemImports source t := by
  have hnamed : (t.shift k).children.filter (·.head.named) =
      (t.children.filter (·.head.named)).map (Tree.shift k) := by
    rw [Tree.children_shift, Tree.filter_map_shift k fun t ↦ by rw [Tree.head_shift]]
  have hnames : ∀ ts : List Tree, (ts.map (Tree.shift k)).filter (·.kind = "identifier") =
      (ts.filter (·.kind = "identifier")).map (Tree.shift k) :=
    Tree.filter_map_shift k fun t ↦ by rw [Tree.kind_shift]
  rw [itemImports, itemImports, hnamed, Tree.kind_shift, Tree.span_shift, h.text_eq]
  simp only [hnames, List.map_map, List.filterMap_map, Function.comp_def, Tree.span_shift,
    h.text_eq, h.specifierImport?_eq]

theorem statementImports_eq (h : Relocates k g doc doc') (t : Tree) :
    doc'.statementImports (t.shift k) = doc.statementImports t := by
  rw [statementImports, statementImports, Tree.kind_shift, Tree.child?_shift]
  split
  · cases t.child? "source" with
    | none => rfl
    | some literal =>
      simp only [Option.map_some, Tree.children_shift, Tree.span_shift, h.stringValue_eq]
      rw [Tree.filter_map_shift k fun t ↦ by rw [Tree.head_shift, Tree.kind_shift],
        List.flatMap_map]
      refine congrArg (List.flatMap · _) (funext fun clause ↦ ?_)
      rw [Tree.children_shift, Tree.filter_map_shift k fun t ↦ by rw [Tree.head_shift],
        List.flatMap_map]
      exact congrArg (List.flatMap · _) (funext fun item ↦ h.itemImports_eq _ item)
  · rfl

theorem imports_eq (h : Relocates k g doc doc') : doc'.imports = doc.imports := by
  rw [imports, imports, h.root, Tree.children_shift,
    Tree.filter_map_shift k fun t ↦ by rw [Tree.head_shift], List.flatMap_map]
  exact congrArg (List.flatMap · _) (funext h.statementImports_eq)

end Relocates

end Document

end HardcodedText
