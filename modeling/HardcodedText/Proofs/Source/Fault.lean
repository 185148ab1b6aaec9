import HardcodedText.Proofs.Source.Position
import HardcodedText.Proofs.Source.Tree

/-!
# The first fault of a document

The parser marks those nodes at or below which there is a fault (`Tree.Marked`).  The search for a
fault leaves out what is below the other nodes, and keeps the trees that are still to be looked at
in the order of the document; so it comes upon the first fault of all (`Tree.firstFault?_eq_find?`).
A document is refused if its tree has a fault anywhere, and the error tells of the first one
(`Document.check_reports_first_fault`).
-/

namespace HardcodedText

namespace Tree

/-- `Marked t`: of the nodes of `t`, those are marked as faulty that are a fault or have one below
them. -/
def Marked (t : Tree) : Prop :=
  ∀ d, Within d t → (d.head.faulty = true ↔ ∃ f, Within f d ∧ f.isFault = true)

instance (t : Tree) : Decidable t.Marked :=
  decidable_of_iff
    (∀ d ∈ t.subtrees, d.head.faulty = true ↔ ∃ f ∈ d.subtrees, f.isFault = true) <| by
    simp only [mem_subtrees_iff, Marked]

theorem Marked.of_child {t c : Tree} (h : t.Marked) (hc : c ∈ t.children) : c.Marked :=
  fun d hd ↦ h d (hd.trans (Below.child hc).within)

/-- A tree that is not marked has no fault. -/
theorem Marked.find?_subtrees {t : Tree} (h : t.Marked) (ht : t.head.faulty = false) :
    t.subtrees.find? isFault = none := by
  rw [List.find?_eq_none]
  intro d hd hfault
  have := (h t (.refl t)).mpr ⟨d, mem_subtrees_iff.mp hd, hfault⟩
  rw [ht] at this
  cases this

/-- The search for a fault finds the first one in the order of the document. -/
theorem firstFault?_eq_find? {ts : List Tree} (h : ∀ t ∈ ts, t.Marked) :
    firstFault? ts = (subtreesOf ts).find? isFault := by
  fun_induction firstFault? ts with
  | case1 => rfl
  | case2 t rest hfault =>
    rw [subtreesOf, subtrees_eq, List.cons_append, List.find?_cons_of_pos hfault]
  | case3 t rest hfault hfaulty ih =>
    obtain ⟨ht, hrest⟩ := List.forall_mem_cons.mp h
    have hnext : ∀ u ∈ t.children ++ rest, u.Marked := by
      intro u hu
      rcases List.mem_append.mp hu with hu | hu
      · exact ht.of_child hu
      · exact hrest u hu
    rw [ih hnext, subtreesOf_append, subtreesOf, subtrees_eq, List.cons_append,
      List.find?_cons_of_neg hfault]
  | case4 t rest hfault hfaulty ih =>
    obtain ⟨ht, hrest⟩ := List.forall_mem_cons.mp h
    rw [ih hrest, subtreesOf, List.find?_append,
      ht.find?_subtrees (Bool.eq_false_iff.mpr hfaulty), Option.none_or]

/-- Where there is a fault at all, the search finds one, and it is the first. -/
theorem Marked.exists_firstFault? {t : Tree} (h : t.Marked) (ht : t.head.faulty = true) :
    ∃ before fault after, t.subtrees = before ++ fault :: after ∧
      (∀ d ∈ before, d.isFault = false) ∧ fault.isFault = true ∧
      firstFault? [t] = some fault := by
  have hsearch : firstFault? [t] = t.subtrees.find? isFault := by
    rw [firstFault?_eq_find? (List.forall_mem_singleton.mpr h), subtreesOf, subtreesOf,
      List.append_nil]
  obtain ⟨d, hd, hfault⟩ := (h t (.refl t)).mp ht
  obtain ⟨fault, hfound⟩ : ∃ fault, t.subtrees.find? isFault = some fault :=
    Option.isSome_iff_exists.mp
      (List.find?_isSome.mpr ⟨d, mem_subtrees_iff.mpr hd, hfault⟩)
  obtain ⟨hisFault, before, after, hsplit, hbefore⟩ := List.find?_eq_some_iff_append.mp hfound
  refine ⟨before, fault, after, hsplit, fun u hu ↦ ?_, hisFault, hsearch.trans hfound⟩
  simpa using hbefore u hu

end Tree

namespace Document

open Utf8

theorem check_of_not_faulty {doc : Document} (h : doc.root.head.faulty = false) :
    doc.check = .ok doc := by
  rw [check, h, if_neg Bool.false_ne_true]

theorem check_of_firstFault? {doc : Document} {fault : Tree} (h : doc.root.head.faulty = true)
    (hfirst : Tree.firstFault? [doc.root] = some fault) :
    doc.check = .error {
      missing := if fault.head.missing then some fault.kind else none
      position := doc.position fault.span.start } := by
  rw [check, if_pos h, hfirst]
  rfl

/-- **The error is about the first fault.**  In a tree whose marks are right, a document is refused
if and only if there is a fault, and is else passed on as it is.  The error stands at the start of
the fault that comes first in the document, and says that something is missing if and only if that
fault is a node that the parser made up.  It is always a fault that the search has found. -/
theorem check_reports_first_fault (path text : String) (root : Tree) (hmarked : root.Marked) :
    let doc := ofText path text root
    ((∃ e, doc.check = .error e) ↔ ∃ d, Tree.Within d root ∧ d.isFault = true) ∧
    ((∀ d, Tree.Within d root → d.isFault = false) → doc.check = .ok doc) ∧
    ∀ e, doc.check = .error e →
      ∃ before fault after, root.subtrees = before ++ fault :: after ∧
        (∀ d ∈ before, d.isFault = false) ∧ fault.isFault = true ∧
        Tree.firstFault? [root] = some fault ∧
        e.position = doc.position fault.span.start ∧
        (∀ pre post, text.toList = pre ++ post → fault.span.start = (encode pre).length →
          e.position = Position.after pre) ∧
        e.message =
          if fault.head.missing then
            s!"Missing {Text.quoted fault.kind} ({e.position.line}:{e.position.column})"
          else s!"Unexpected syntax ({e.position.line}:{e.position.column})" := by
  intro doc
  have hroot := hmarked root (.refl root)
  cases hfaulty : root.head.faulty with
  | false =>
    have hok : doc.check = .ok doc := check_of_not_faulty hfaulty
    have hnone : ¬ ∃ d, Tree.Within d root ∧ d.isFault = true := by
      rw [← hroot, hfaulty]
      exact Bool.false_ne_true
    have hnoError : ∀ e, doc.check ≠ .error e := by
      intro e he
      rw [hok] at he
      cases he
    exact ⟨iff_of_false (fun ⟨e, he⟩ ↦ hnoError e he) hnone, fun _ ↦ hok,
      fun e he ↦ absurd he (hnoError e)⟩
  | true =>
    obtain ⟨before, fault, after, hsplit, hbefore, hisFault, hfirst⟩ :=
      hmarked.exists_firstFault? hfaulty
    have herror := check_of_firstFault? (show doc.root.head.faulty = true from hfaulty) hfirst
    refine ⟨iff_of_true ⟨_, herror⟩ (hroot.mp hfaulty), fun hnone ↦ ?_, fun e he ↦ ?_⟩
    · obtain ⟨d, hd, hfault⟩ := hroot.mp hfaulty
      rw [hnone d hd] at hfault
      cases hfault
    · obtain rfl := Except.error.inj (he.symm.trans herror)
      refine ⟨before, fault, after, hsplit, hbefore, hisFault, hfirst, rfl, ?_, ?_⟩
      · intro pre post htext hstart
        exact IsBoundary.positionIn_eq htext hstart
      · unfold ParseError.message
        cases fault.head.missing <;> rfl

/-- A call with one token too many and no closing parenthesis, after a line with a comment: the
token comes first. -/
theorem check_reports_first_fault_call :
    let stray : Tree := .node { kind := "ERROR", span := ⟨10, 11⟩, faulty := true } [
      .node { kind := "number", span := ⟨10, 11⟩ } []]
    let root : Tree := .node { kind := "program", span := ⟨0, 11⟩, faulty := true } [
      .node { kind := "comment", span := ⟨0, 5⟩ } [],
      .node { kind := "call_expression", span := ⟨6, 11⟩, faulty := true } [
        .node { kind := "identifier", span := ⟨6, 7⟩, field := some "function" } [],
        .node { kind := "arguments", span := ⟨7, 11⟩, faulty := true } [
          .node { kind := "(", span := ⟨7, 8⟩, named := false } [],
          .node { kind := "number", span := ⟨8, 9⟩ } [], stray,
          .node { kind := ")", span := ⟨11, 11⟩, named := false, missing := true, faulty := true }
            []]]]
    root.Marked ∧
      ∃ e, (ofText "a.ts" "// é\ng(1 2" root).check = .error e ∧ e.position = ⟨2, 4⟩ ∧
        e.message = "Unexpected syntax (2:4)" := by
  intro stray root
  have hmarked : root.Marked := by decide +kernel
  obtain ⟨hiff, -, hreport⟩ := check_reports_first_fault "a.ts" "// é\ng(1 2" root hmarked
  obtain ⟨e, he⟩ := hiff.mpr ⟨stray, .inr (.step (.tail _ (.head _)) (.step (.tail _ (.head _))
    (.child (.tail _ (.tail _ (.head _)))))), rfl⟩
  obtain ⟨before, fault, after, -, -, -, hfirst, hposition, -, hmessage⟩ := hreport e he
  obtain rfl : fault = stray := Option.some.inj (hfirst.symm.trans (by
    simp [Tree.firstFault?, root, stray, Tree.isFault, Tree.kind, Tree.head, Tree.children]))
  have hplace : e.position = ⟨2, 4⟩ := hposition.trans (by decide +kernel)
  rw [hplace] at hmessage
  exact ⟨hmarked, e, he, hplace, hmessage.trans rfl⟩

end Document

end HardcodedText
