import HardcodedText.Node.Display
import HardcodedText.Node.OfTree
import HardcodedText.Proofs.Source.Range

/-!
# The fixed parts of a template

A template is the text between two backticks, cut where expressions are inserted.  If these stand in
order, apart from each other and between characters (`Tree.IsTemplateIn`), then nothing of the text
is lost or repeated: the fixed parts with the insertions between them make up the text, and the
fixed parts alone are the characters that are in no insertion (`Node.ofTree_template_parts`).
-/

namespace HardcodedText

open Utf8 (encode)

/-- Ranges of a text from `start` to `stop` that stand in order, apart from each other and between
characters. -/
structure Span.InOrder (cs : List Char) (start stop : Nat) (spans : List Span) : Prop where
  /-- They go forwards, and lie between the two ends. -/
  inside : ∀ s ∈ spans, start ≤ s.start ∧ s.start ≤ s.stop ∧ s.stop ≤ stop
  /-- Each ends before the next ones start. -/
  ordered : spans.Pairwise fun s s' ↦ s.stop ≤ s'.start
  /-- They start and end between characters. -/
  boundary : ∀ s ∈ spans, IsBoundary cs s.start ∧ IsBoundary cs s.stop

theorem Span.InOrder.tail {cs : List Char} {start stop : Nat} {s : Span} {spans : List Span}
    (h : InOrder cs start stop (s :: spans)) : InOrder cs s.stop stop spans := by
  obtain ⟨hnext, hordered⟩ := List.pairwise_cons.mp h.ordered
  refine ⟨fun s' hs' ↦ ⟨hnext s' hs', (h.inside s' (List.mem_cons_of_mem _ hs')).2⟩, hordered,
    fun s' hs' ↦ h.boundary s' (List.mem_cons_of_mem _ hs')⟩

/-- A template of the text `cs`. -/
structure Tree.IsTemplateIn (cs : List Char) (t : Tree) : Prop where
  kind : t.kind = "template_string"
  /-- There is room for two backticks. -/
  marks : t.span.start + 2 ≤ t.span.stop
  /-- The first byte is a backtick. -/
  opens : (encode cs)[t.span.start]? = some 0x60
  /-- The last byte is a backtick. -/
  closes : (encode cs)[t.span.stop - 1]? = some 0x60
  /-- Insertions stand between these. -/
  inserted : Span.InOrder cs (t.span.start + 1) (t.span.stop - 1)
    (Document.substitutions t.children)

namespace Node

/-- The parts of a text with the insertions between them. -/
def weave : List String → List String → String
  | part :: parts, insertion :: insertions => part ++ insertion ++ weave parts insertions
  | parts, [] => String.join parts
  | [], insertions => String.join insertions

theorem length_fixedText (parts : List String) : (fixedText parts).length = fixedLength parts := by
  induction parts with
  | nil => rfl
  | cons part parts ih =>
    rw [fixedText, String.join_cons, String.length_append, ← fixedText, ih]
    rfl

section

variable {doc : Document} {cs : List Char} {cursor stop : Nat} {inserted : List Span}

theorem length_fixedParts (doc : Document) (cursor stop : Nat) (inserted : List Span) :
    (doc.fixedParts cursor stop inserted).length = inserted.length + 1 := by
  induction inserted generalizing cursor with
  | nil => rfl
  | cons s inserted ih => rw [Document.fixedParts, List.length_cons, ih, List.length_cons]

/-- From a cursor on, parts and insertions make up the text. -/
theorem weave_fixedParts (hdoc : doc.bytes = encode cs) (hcursor : IsBoundary cs cursor)
    (hstop : IsBoundary cs stop) (hle : cursor ≤ stop)
    (h : Span.InOrder cs cursor stop inserted) :
    weave (doc.fixedParts cursor stop inserted) (inserted.map doc.text) =
      doc.text ⟨cursor, stop⟩ := by
  induction inserted generalizing cursor with
  | nil => simp [Document.fixedParts, weave]
  | cons s inserted ih =>
    obtain ⟨hbefore, hs, hafter⟩ := h.inside s List.mem_cons_self
    obtain ⟨hstart, hend⟩ := h.boundary s List.mem_cons_self
    rw [Document.fixedParts, List.map_cons, weave, ih hend hafter h.tail,
      Document.text_append hdoc hcursor hstart hend hbefore hs,
      Document.text_append hdoc hcursor hend hstop (Nat.le_trans hbefore hs) hafter]

/-- Whether an offset from the cursor on is in no insertion. -/
def isFixed (cursor stop : Nat) (inserted : List Span) (offset : Nat) : Bool :=
  Span.covers ⟨cursor, stop⟩ offset && !inserted.any (·.covers offset)

theorem isFixed_iff {offset : Nat} :
    isFixed cursor stop inserted offset = true ↔
      Span.covers ⟨cursor, stop⟩ offset = true ∧ ∀ s ∈ inserted, ¬ s.covers offset = true := by
  simp [isFixed]

/-- From a cursor on, the parts are the characters in no insertion. -/
theorem fixedText_fixedParts (hdoc : doc.bytes = encode cs) (hcursor : IsBoundary cs cursor)
    (hstop : IsBoundary cs stop) (hle : cursor ≤ stop)
    (h : Span.InOrder cs cursor stop inserted) :
    fixedText (doc.fixedParts cursor stop inserted) =
      .ofList (charsAt (isFixed cursor stop inserted) 0 cs) := by
  induction inserted generalizing cursor with
  | nil =>
    have hkeep : isFixed cursor stop [] = Span.covers ⟨cursor, stop⟩ := by
      funext i
      simp [isFixed]
    rw [hkeep, ← Document.chars_eq_charsAt hdoc hcursor hstop hle, fixedText,
      Document.fixedParts, String.join_cons]
    simp [Document.text]
  | cons s inserted ih =>
    obtain ⟨hbefore, hs, hafter⟩ := h.inside s List.mem_cons_self
    obtain ⟨hstart, hend⟩ := h.boundary s List.mem_cons_self
    have hlater : ∀ s' ∈ inserted, s.stop ≤ s'.start := (List.pairwise_cons.mp h.ordered).1
    have hsplit : charsAt (isFixed cursor stop (s :: inserted)) 0 cs =
        charsAt (Span.covers ⟨cursor, s.start⟩) 0 cs ++
          charsAt (isFixed s.stop stop inserted) 0 cs := by
      refine charsAt_eq_append s.stop (fun i ↦ ?_) fun i ↦ ?_
      · simp only [isFixed_iff, Span.covers_iff, List.forall_mem_cons]
        constructor
        · intro hi
          refine ⟨⟨⟨hi.1, by omega⟩, by omega, fun s' hs' ↦ ?_⟩, by omega⟩
          have := hlater s' hs'
          omega
        · rintro ⟨⟨⟨hi, -⟩, hs, -⟩, hi'⟩
          omega
      · simp only [isFixed_iff, Span.covers_iff, List.forall_mem_cons]
        constructor
        · rintro ⟨⟨hi, hi'⟩, hrest⟩
          exact ⟨⟨⟨by omega, hi'⟩, by omega, hrest⟩, hi⟩
        · rintro ⟨⟨⟨-, hi'⟩, -, hrest⟩, hi⟩
          exact ⟨⟨hi, hi'⟩, hrest⟩
    rw [hsplit, String.ofList_append, ← ih hend hafter h.tail,
      ← Document.chars_eq_charsAt hdoc hcursor hstart hbefore, fixedText, Document.fixedParts,
      String.join_cons]
    rfl

end

theorem ofTree_template {doc : Document} {t : Tree} (h : t.kind = "template_string") :
    ofTree doc t = doc.template t.span t.children := by
  obtain ⟨head, parts⟩ := t
  have hform : Form.ofKind head.kind = .template := by
    rw [show head.kind = "template_string" from h]
    decide
  rw [ofTree, hform]
  rfl

/-- The node of a template has one fixed part more than insertions.  Woven together they are the
text between the backticks; the fixed parts alone are the characters of it that are in no insertion,
and are counted as such. -/
theorem ofTree_template_parts (path source : String) (root t : Tree)
    (h : t.IsTemplateIn source.toList) :
    let doc := Document.ofText path source root
    let inserted := Document.substitutions t.children
    let start := t.span.start + 1
    let stop := t.span.stop - 1
    ∃ parts, ofTree doc t = .template (doc.site t.span) parts inserted.length ∧
      parts.length = inserted.length + 1 ∧
      weave parts (inserted.map doc.text) = doc.text ⟨start, stop⟩ ∧
      fixedText parts = .ofList (charsAt (isFixed start stop inserted) 0 source.toList) ∧
      fixedLength parts = (fixedText parts).length := by
  intro doc inserted start stop
  have hdoc : doc.bytes = encode source.toList := rfl
  have hmarks := h.marks
  have hle : start ≤ stop := by omega
  have hstart : IsBoundary source.toList start :=
    (isBoundary_of_getElem? h.opens (by decide)).2
  have hstop : IsBoundary source.toList stop :=
    (isBoundary_of_getElem? h.closes (by decide)).1
  refine ⟨doc.fixedParts start stop inserted, ofTree_template h.kind,
    length_fixedParts doc start stop inserted, ?_, ?_, (length_fixedText _).symm⟩
  · exact weave_fixedParts hdoc hstart hstop hle h.inserted
  · exact fixedText_fixedParts hdoc hstart hstop hle h.inserted

/-- Two insertions that meet, between characters of two bytes. -/
theorem ofTree_template_parts_meeting :
    let doc := Document.ofText "a.ts" "x=`é$\x7ba\x7d$\x7bb\x7dü`" default
    let piece (kind : String) (start stop : Nat) (parts : List Tree) : Tree :=
      .node { kind, span := ⟨start, stop⟩ } parts
    let t := piece "template_string" 2 16 [piece "`" 2 3 [], piece "template_substitution" 5 9 [],
      piece "template_substitution" 9 13 [], piece "`" 15 16 []]
    ∃ parts, ofTree doc t = .template (doc.site ⟨2, 16⟩) parts 2 ∧ parts.length = 3 ∧
      weave parts [doc.text ⟨5, 9⟩, doc.text ⟨9, 13⟩] = doc.text ⟨3, 15⟩ ∧
      fixedText parts = "éü" ∧ fixedLength parts = 2 := by
  intro doc piece t
  have hinserted : Document.substitutions t.children = [⟨5, 9⟩, ⟨9, 13⟩] := by decide
  have h : t.IsTemplateIn "x=`é$\x7ba\x7d$\x7bb\x7dü`".toList := {
    kind := rfl
    marks := by decide
    opens := by decide
    closes := by decide
    inserted := {
      inside := by rw [hinserted]; decide
      ordered := by rw [hinserted]; decide
      boundary := by rw [hinserted]; decide } }
  obtain ⟨parts, hnode, hlength, hweave, hfixed, hcount⟩ :=
    ofTree_template_parts "a.ts" "x=`é$\x7ba\x7d$\x7bb\x7dü`" default t h
  rw [hinserted] at hnode hlength hweave hfixed
  have htext : fixedText parts = "éü" := hfixed.trans (by decide)
  exact ⟨parts, hnode, hlength, hweave, htext, hcount.trans (by rw [htext]; decide)⟩

end Node

end HardcodedText
