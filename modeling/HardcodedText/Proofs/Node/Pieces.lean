import Mathlib.Data.List.Chain
import HardcodedText.Node.OfTree

/-!
# Runs of text between tags

Between the tags of an element, trees of text that follow one another are read as one text.
`Tree.IsCut ts ps` says that `ps` are the trees `ts` cut into pieces: text in runs that go on as
long as they can, and every other tree by itself.  There is one such cut (`Tree.isCut_iff`), and
reading the trees gives what its pieces give, in order (`Node.childrenOfTrees_of_isCut`).  Of a run
only its two ends count, not where a parser cuts it.
-/

namespace HardcodedText

namespace Tree

/-- A piece of what stands between the tags of an element. -/
inductive Piece
  /-- Trees that follow one another. -/
  | run (first : Tree) (more : List Tree)
  /-- A tree by itself. -/
  | single (t : Tree)

namespace Piece

/-- The trees of a piece. -/
def trees : Piece → List Tree
  | run first more => first :: more
  | single t => [t]

/-- Whether a piece is a run. -/
def isRun : Piece → Bool
  | run _ _ => true
  | single _ => false

/-- The range from the beginning of the first tree to the end of the last one. -/
def span : Piece → Span
  | run first more => ⟨first.span.start, (more.getLastD first).span.stop⟩
  | single t => t.span

/-- Two pieces that differ at most in where a run is cut. -/
inductive SameEnds : Piece → Piece → Prop
  | run {first first' : Tree} {more more' : List Tree}
      (h : (run first more).span = (run first' more').span) :
      SameEnds (run first more) (run first' more')
  | single (t : Tree) : SameEnds (single t) (single t)

end Piece

/-- The trees `ts` are cut into the pieces `ps`. -/
structure IsCut (ts : List Tree) (ps : List Piece) : Prop where
  /-- Every tree is in one piece, in order. -/
  trees : ps.flatMap Piece.trees = ts
  /-- The runs are the pieces of text. -/
  text : ∀ p ∈ ps, ∀ t ∈ p.trees, t.isText = p.isRun
  /-- No run goes on in the next piece. -/
  maximal : ps.IsChain fun p q ↦ ¬ (p.isRun = true ∧ q.isRun = true)

/-! ## There is one cut -/

/-- Puts a tree of text before pieces. -/
def consText (t : Tree) : List Piece → List Piece
  | .run first more :: ps => .run t (first :: more) :: ps
  | ps => .run t [] :: ps

/-- The pieces of trees. -/
def pieces : List Tree → List Piece
  | [] => []
  | t :: ts => if t.isText then consText t (pieces ts) else .single t :: pieces ts

/-- Trees that a run does not go on with. -/
def EndsRun (ts : List Tree) : Prop :=
  ∀ t ∈ ts.head?, t.isText = false

variable {ts : List Tree} {p : Piece} {ps : List Piece} {t first : Tree} {more : List Tree}

theorem IsCut.tail (h : IsCut ts (p :: ps)) : IsCut (ps.flatMap Piece.trees) ps :=
  ⟨rfl, fun q hq ↦ h.text q (List.mem_cons_of_mem _ hq), h.maximal.tail⟩

theorem IsCut.cons_single (h : IsCut ts ps) (ht : t.isText = false) :
    IsCut (t :: ts) (.single t :: ps) := by
  refine ⟨by rw [List.flatMap_cons, h.trees]; rfl, ?_, ?_⟩
  · rw [List.forall_mem_cons]
    exact ⟨fun u hu ↦ List.mem_singleton.mp hu ▸ ht, h.text⟩
  · exact List.isChain_cons.mpr ⟨fun _ _ hrun ↦ Bool.false_ne_true hrun.1, h.maximal⟩

theorem IsCut.consText (h : IsCut ts ps) (ht : t.isText = true) :
    IsCut (t :: ts) (consText t ps) := by
  have htext {us : List Tree} (hus : ∀ u ∈ us, u.isText = true) : ∀ u ∈ t :: us, u.isText = true :=
    List.forall_mem_cons.mpr ⟨ht, hus⟩
  match ps, h with
  | [], h =>
    have hrun : ∀ q ∈ [Piece.run t []], ∀ u ∈ q.trees, u.isText = q.isRun :=
      List.forall_mem_singleton.mpr (htext nofun)
    exact ⟨congrArg (t :: ·) h.trees, hrun, .singleton _⟩
  | .single u :: ps, h =>
    refine ⟨congrArg (t :: ·) h.trees, List.forall_mem_cons.mpr ⟨htext nofun, h.text⟩, ?_⟩
    exact h.maximal.cons_cons fun hrun ↦ Bool.false_ne_true hrun.2
  | .run first more :: ps, h =>
    obtain ⟨hrun, hrest⟩ := List.forall_mem_cons.mp h.text
    obtain ⟨hnext, hchain⟩ := List.isChain_cons.mp h.maximal
    exact ⟨congrArg (t :: ·) h.trees, List.forall_mem_cons.mpr ⟨htext hrun, hrest⟩,
      List.isChain_cons.mpr ⟨hnext, hchain⟩⟩

theorem isCut_pieces (ts : List Tree) : IsCut ts (pieces ts) := by
  induction ts with
  | nil => exact ⟨rfl, nofun, .nil⟩
  | cons t ts ih =>
    rw [pieces]
    split
    · next ht => exact ih.consText ht
    · next ht => exact ih.cons_single (Bool.eq_false_iff.mpr ht)

/-- After a run comes a tree that is no text, if any. -/
theorem IsCut.endsRun (h : IsCut ts (.run first more :: ps)) :
    EndsRun (ps.flatMap Piece.trees) := by
  intro t ht
  match ps, h with
  | .single u :: ps, h =>
    obtain rfl : u = t := Option.some.inj ht
    exact h.text (.single u) (by simp) u List.mem_cons_self
  | .run u us :: ps, h => exact absurd ⟨rfl, rfl⟩ (List.isChain_cons_cons.mp h.maximal).1

theorem pieces_run (htext : ∀ t ∈ first :: more, t.isText = true) (hends : EndsRun ts) :
    pieces (first :: more ++ ts) = .run first more :: pieces ts := by
  induction more generalizing first with
  | nil =>
    rw [List.singleton_append, pieces, if_pos (htext first List.mem_cons_self)]
    match ts, hends with
    | [], _ => rfl
    | t :: ts, hends =>
      rw [pieces, hends t rfl]
      rfl
  | cons t more ih =>
    obtain ⟨hfirst, hmore⟩ := List.forall_mem_cons.mp htext
    rw [List.cons_append, pieces, if_pos hfirst, ih hmore]
    rfl

/-- Every list of trees is cut in one way. -/
theorem isCut_iff : IsCut ts ps ↔ ps = pieces ts := by
  constructor
  · intro h
    induction ps generalizing ts with
    | nil =>
      rw [← h.trees]
      rfl
    | cons p ps ih =>
      have hrest := ih h.tail
      have htext := h.text p List.mem_cons_self
      rw [← h.trees, List.flatMap_cons]
      cases p with
      | run first more => rw [Piece.trees, pieces_run htext h.endsRun, ← hrest]
      | single t =>
        have ht : t.isText = false := htext t List.mem_cons_self
        rw [Piece.trees, List.singleton_append, pieces, ht, ← hrest]
        rfl
  · rintro rfl
    exact isCut_pieces ts

/-- Whether a tree that is no text says something between tags: named constructs do, up to the tags
themselves and comments. -/
def isShown (t : Tree) : Bool :=
  t.head.named && t.kind != "jsx_opening_element" && t.kind != "jsx_closing_element" && !t.isComment

end Tree

open HardcodedText.Tree (Piece IsCut)

/-! ## What the pieces give -/

namespace Node

variable {doc : Document} {ts : List Tree} {ps : List Piece}

/-- The node that a piece gives.  A run gives its text from end to end, with the references in it
replaced; elements are not looked into. -/
def ofPiece? (doc : Document) : Piece → Option Node
  | .run first more =>
    let span := (Piece.run first more).span
    some (.text ⟨(textOfSpan doc span).position, span⟩
      (.ofList (CharacterReference.decodeChars (doc.chars span))))
  | .single t =>
    if t.isShown then some (if t.isElement then .other (doc.site t.span) t.kind else ofTree doc t)
    else none

theorem ofPiece?_single (t : Tree) : ofPiece? doc (.single t) = childOfTree? doc t := by
  have hapart : t.isElement = true → t.isComment = false := by
    intro h
    simp only [Tree.isElement, Bool.or_eq_true, beq_iff_eq] at h
    rcases h with (h | h) | h <;> simp [Tree.isComment, h]
  rw [ofPiece?, childOfTree?]
  by_cases htag : t.kind = "jsx_opening_element" ∨ t.kind = "jsx_closing_element" ∨ !t.head.named
  · have hshown : t.isShown = false := by
      rcases htag with htag | htag | htag
      · simp [Tree.isShown, htag]
      · simp [Tree.isShown, htag]
      · simpa [Tree.isShown] using fun hnamed ↦ by simp [hnamed] at htag
    rw [if_pos htag, hshown]
    rfl
  · rw [if_neg htag]
    simp only [not_or, Bool.not_eq_true', Bool.not_eq_false] at htag
    have hshown : t.isShown = !t.isComment := by
      simp [Tree.isShown, htag]
    rw [hshown]
    cases helement : t.isElement with
    | true =>
      rw [hapart helement]
      rfl
    | false => cases t.isComment <;> rfl

/-- Text goes into the run that was begun. -/
theorem childrenOfTrees_append (start stop : Nat) {more : List Tree}
    (htext : ∀ t ∈ more, t.isText = true) (ts : List Tree) :
    childrenOfTrees doc (some ⟨start, stop⟩) (more ++ ts) =
      childrenOfTrees doc (some ⟨start, (more.map (·.span.stop)).getLastD stop⟩) ts := by
  induction more generalizing stop with
  | nil => rfl
  | cons t more ih =>
    obtain ⟨ht, hmore⟩ := List.forall_mem_cons.mp htext
    rw [List.cons_append, childrenOfTrees, if_pos ht, List.map_cons, List.getLastD_cons]
    exact ih _ hmore

/-- A run is over before a tree that is no text, and at the end. -/
theorem childrenOfTrees_of_endsRun (run : Option Span) (h : Tree.EndsRun ts) :
    childrenOfTrees doc run ts =
      (run.map (textOfSpan doc)).toList ++ childrenOfTrees doc none ts := by
  cases ts with
  | nil => simp [childrenOfTrees]
  | cons t ts => simp [childrenOfTrees, h t rfl]

theorem childrenOfTrees_of_isCut (h : IsCut ts ps) :
    childrenOfTrees doc none ts = ps.filterMap (ofPiece? doc) := by
  induction ps generalizing ts with
  | nil =>
    rw [← h.trees]
    rfl
  | cons p ps ih =>
    have hrest := ih h.tail
    have htext := h.text p List.mem_cons_self
    rw [← h.trees, List.flatMap_cons, List.filterMap_cons]
    cases p with
    | run first more =>
      obtain ⟨hfirst, hmore⟩ : first.isText = true ∧ ∀ t ∈ more, t.isText = true :=
        List.forall_mem_cons.mp htext
      have hstop : (more.map (·.span.stop)).getLastD first.span.stop =
          (more.getLastD first).span.stop := by
        simp only [List.getLastD_eq_getLast?, List.getLast?_map]
        cases more.getLast? <;> rfl
      rw [Piece.trees, List.cons_append, childrenOfTrees, if_pos hfirst]
      show childrenOfTrees doc (some ⟨first.span.start, first.span.stop⟩) _ = _
      rw [childrenOfTrees_append _ _ hmore, hstop, childrenOfTrees_of_endsRun _ h.endsRun, hrest]
      rfl
    | single t =>
      have ht : t.isText = false := htext t List.mem_cons_self
      rw [Piece.trees, List.singleton_append, childrenOfTrees, if_neg (Bool.eq_false_iff.mp ht),
        hrest, ofPiece?_single]
      cases childOfTree? doc t <;> rfl

/-- Only the ends of a run count. -/
theorem ofPiece?_eq_of_sameEnds {p q : Piece} (h : p.SameEnds q) :
    ofPiece? doc p = ofPiece? doc q := by
  cases h with
  | run h => simp only [ofPiece?, h]
  | single t => rfl

theorem filterMap_ofPiece?_eq_of_sameEnds {ps qs : List Piece}
    (h : List.Forall₂ Piece.SameEnds ps qs) :
    ps.filterMap (ofPiece? doc) = qs.filterMap (ofPiece? doc) := by
  induction h with
  | nil => rfl
  | cons hpiece _ ih =>
    rw [List.filterMap_cons, List.filterMap_cons, ih, ofPiece?_eq_of_sameEnds hpiece]

/-- The trees between the tags of an element have one cut into pieces.  Its runs of text give one
text each, from end to end, and the other trees that are shown one node each, in order.  Where a run
is cut into trees does not matter. -/
theorem childrenOfTrees_pieces (doc : Document) (ts : List Tree) :
    ∃ ps, (∀ ps', IsCut ts ps' ↔ ps' = ps) ∧
      childrenOfTrees doc none ts = ps.filterMap (ofPiece? doc) ∧
      ∀ ts' ps', IsCut ts' ps' → List.Forall₂ Piece.SameEnds ps ps' →
        childrenOfTrees doc none ts' = childrenOfTrees doc none ts := by
  have hread : childrenOfTrees doc none ts = (Tree.pieces ts).filterMap (ofPiece? doc) :=
    childrenOfTrees_of_isCut (Tree.isCut_pieces ts)
  refine ⟨Tree.pieces ts, fun ps' ↦ Tree.isCut_iff, hread, ?_⟩
  intro ts' ps' hcut hends
  rw [childrenOfTrees_of_isCut hcut, hread, filterMap_ofPiece?_eq_of_sameEnds hends]

/-- A text with a reference in it, in three trees and in one. -/
theorem childrenOfTrees_pieces_reference :
    let doc := Document.ofText "a.tsx" "<b>a&amp;b</b>" default
    let tag : Tree := .node { kind := "jsx_opening_element", span := ⟨0, 3⟩ } []
    let text (kind : String) (start stop : Nat) : Tree := .node { kind, span := ⟨start, stop⟩ } []
    let parts := [tag, text "jsx_text" 3 4, text "html_character_reference" 4 9,
      text "jsx_text" 9 10]
    let whole := [tag, text "jsx_text" 3 10]
    IsCut whole [.single tag, .run (text "jsx_text" 3 10) []] ∧
      (childrenOfTrees doc none parts).map Node.span = [⟨3, 10⟩] ∧
      childrenOfTrees doc none whole = childrenOfTrees doc none parts := by
  intro doc tag text parts whole
  have hwhole : IsCut whole [.single tag, .run (text "jsx_text" 3 10) []] :=
    Tree.isCut_iff.mpr rfl
  have hparts : IsCut parts [.single tag, .run (text "jsx_text" 3 4)
      [text "html_character_reference" 4 9, text "jsx_text" 9 10]] := Tree.isCut_iff.mpr rfl
  obtain ⟨ps, hcut, hread, hsame⟩ := childrenOfTrees_pieces doc parts
  obtain rfl := (hcut _).mp hparts
  refine ⟨hwhole, by rw [hread]; rfl, hsame whole _ hwhole ?_⟩
  exact .cons (.single tag) (.cons (.run rfl) .nil)

end Node

end HardcodedText
