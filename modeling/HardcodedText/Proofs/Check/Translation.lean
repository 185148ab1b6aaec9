import HardcodedText.Proofs.Check.Relocate
import HardcodedText.Proofs.Source.Position

/-!
# Findings move with the text

Lines that are put in front of a text move everything in it down by their number, and by the number
of their bytes.  A document of the longer text, with the tree that much further on, is a relocation
of the document of the shorter one (`Document.relocates_append`), so scanning it gives the same
findings, or the same parse error, that many lines further down (`Document.scan_append_shift`).
-/

namespace HardcodedText

/-! ## Places further down -/

/-- The place so many lines further down. -/
def Position.down (m : Nat) (p : Position) : Position := ⟨p.line + m, p.column⟩

/-- The site so many bytes further on and so many lines further down. -/
def Site.down (k m : Nat) (site : Site) : Site := ⟨site.position.down m, site.span.shift k⟩

/-- The finding so many lines further down. -/
def Finding.down (m : Nat) (f : Finding) : Finding := { f with line := f.line + m }

/-- The parse error so many lines further down. -/
def ParseError.down (m : Nat) (e : ParseError) : ParseError :=
  { e with position := e.position.down m }

theorem Scope.moves_down (scope : Scope) (k m : Nat) :
    scope.Moves (Site.down k m) (Span.shift k) (Finding.down m) where
  injective := Span.shift_injective k
  span _ := rfl
  finding n remark := by
    simp only [finding, Node.position, Node.site_mapSites]
    rfl

/-- The key so many lines further down. -/
def Finding.Key.down (m : Nat) (key : Key) : Key := { key with line := key.line + m }

theorem Finding.Key.down_injective (m : Nat) : Function.Injective (down m) := by
  rintro ⟨line, column, kind, value⟩ ⟨line', column', kind', value'⟩ h
  obtain ⟨hline, hcolumn, hkind, hvalue⟩ := Key.mk.inj h
  rw [Key.mk.injEq]
  exact ⟨Int.add_left_inj m |>.mp hline, hcolumn, hkind, hvalue⟩

theorem Finding.atOrBefore_down (m : Nat) (f g : Finding) :
    (f.down m).atOrBefore (g.down m) = f.atOrBefore g := by
  rw [Bool.eq_iff_iff, atOrBefore_iff, atOrBefore_iff]
  simp only [down]
  omega

/-! ## Lines in front of a text -/

namespace Document

open Utf8

theorem count_lineFeed_encode (cs : List Char) : (encode cs).count 0x0A = cs.count '\n' := by
  induction cs with
  | nil => rfl
  | cons c cs ih =>
    rw [encode_cons, List.count_append, ih, List.count_cons]
    by_cases hc : c = '\n'
    · subst hc
      rw [if_pos (by decide), Nat.add_comm]
      rfl
    · rw [List.count_eq_zero.mpr (lineFeed_notMem_encodeChar hc), if_neg (by simpa using hc),
        Nat.zero_add, Nat.add_zero]

/-- The last line is not affected by what ends in a line feed before it. -/
theorem lastLine_lineFeed_append (bs more : List UInt8) :
    lastLine (bs ++ 0x0A :: more) = lastLine more := by
  have hstop : (0x0A :: bs.reverse).takeWhile (fun b : UInt8 ↦ b != 0x0A) = [] :=
    List.takeWhile_cons_of_neg (by decide)
  rw [lastLine, lastLine, List.reverse_append, List.reverse_cons, List.append_assoc,
    List.singleton_append, List.takeWhile_append, hstop]
  split
  · next h =>
    rw [List.append_nil, (List.takeWhile_prefix _).eq_of_length h]
  · rfl

/-- A text whose lines are all ended. -/
def IsEnded (cs : List Char) : Prop := cs = [] ∨ ∃ ds, cs = ds ++ ['\n']

variable {cs : List Char}

theorem IsEnded.lastLine_append (h : IsEnded cs) (bs : List UInt8) :
    lastLine (encode cs ++ bs) = lastLine bs := by
  rcases h with rfl | ⟨ds, rfl⟩
  · rfl
  · have hfeed : encode ['\n'] = [0x0A] := by decide
    rw [encode_append, hfeed, List.append_assoc]
    exact lastLine_lineFeed_append (encode ds) bs

/-- Lines in front of a text move the places in it down. -/
theorem IsEnded.positionIn_append (h : IsEnded cs) (bs : List UInt8) (offset : Nat) :
    positionIn (encode cs ++ bs) (offset + (encode cs).length) =
      (positionIn bs offset).down (cs.count '\n') := by
  rw [positionIn, Nat.add_comm offset, List.take_length_add_append, h.lastLine_append,
    List.count_append, count_lineFeed_encode, Nat.add_comm (cs.count '\n'), Nat.add_right_comm]
  rfl

theorem slice_append_shift (path : String) (bs more : List UInt8) (root root' : Tree)
    (span : Span) :
    slice ⟨path, bs ++ more, root'⟩ (span.shift bs.length) = slice ⟨path, more, root⟩ span := by
  rw [slice, slice, Span.shift, Nat.add_comm span.start, List.drop_length_add_append,
    Nat.add_comm span.stop, Nat.add_sub_add_left]

/-- With lines in front of it, the document of a text is moved by their bytes and down by their
number. -/
theorem relocates_append (h : IsEnded cs) (path : String) (bs : List UInt8) (root : Tree) :
    Relocates (encode cs).length (Site.down (encode cs).length (cs.count '\n')) ⟨path, bs, root⟩
      ⟨path, encode cs ++ bs, root.shift (encode cs).length⟩ where
  path := rfl
  root := rfl
  slice span := slice_append_shift path (encode cs) bs root _ span
  site offset span := by
    rw [Site.down, position, position, h.positionIn_append]

namespace Relocates

variable {k m : Nat} {doc doc' : Document}

theorem position_down (h : Relocates k (Site.down k m) doc doc') (offset : Nat) :
    doc'.position (offset + k) = (doc.position offset).down m :=
  (congrArg Site.position (h.site offset ⟨0, 0⟩)).symm

theorem findings_down (h : Relocates k (Site.down k m) doc doc') (config : Configuration)
    (checks : List Check) :
    doc'.findings config checks = (doc.findings config checks).map (Finding.down m) := by
  have hraw := h.rawFindings_eq ((doc.scope config).moves_down k m) checks
  rw [findings, findings, hraw, Finding.firsts_map (Finding.Key.down_injective m) fun _ ↦ rfl,
    Finding.sort_map (Finding.atOrBefore_down m)]

/-- A document that is moved has its fault further down. -/
theorem check_down (h : Relocates k (Site.down k m) doc doc') :
    (∃ e, doc.check = .error e ∧ doc'.check = .error (e.down m)) ∨
      doc.check = .ok doc ∧ doc'.check = .ok doc' := by
  have hfault : (Tree.firstFault? [doc'.root]).getD doc'.root =
      ((Tree.firstFault? [doc.root]).getD doc.root).shift k := by
    rw [h.root, ← List.map_singleton, Tree.firstFault?_map_shift, Option.getD_map]
  have hfaulty : doc'.root.head.faulty = doc.root.head.faulty := by
    rw [h.root, Tree.head_shift]
  rw [check, check, hfault, hfaulty]
  split
  · refine .inl ⟨_, rfl, ?_⟩
    simp only [Tree.head_shift, Tree.kind_shift, Tree.span_shift, Span.shift, h.position_down]
    rfl
  · exact .inr ⟨rfl, rfl⟩

theorem scan_down (h : Relocates k (Site.down k m) doc doc') (config : Configuration)
    (checks : List Check) :
    doc'.scan config checks =
      ((doc.scan config checks).map (List.map (Finding.down m))).mapError (ParseError.down m) := by
  rw [scan, scan]
  rcases h.check_down with ⟨e, hcheck, hcheck'⟩ | ⟨hcheck, hcheck'⟩
  · rw [hcheck, hcheck']
    rfl
  · rw [hcheck, hcheck']
    exact congrArg Except.ok (h.findings_down config checks)

end Relocates

/-- **Findings move with the text.**  Let a text be put behind another one that is empty or ends in
a line feed, and the tree be moved by the bytes of that one.  Then scanning gives the same findings
in the same order, or the same parse error, but for their lines, which are larger by the number of
line feeds that were put before them.  The wording of the error names the line that it has. -/
theorem scan_append_shift (path before text : String) (root : Tree) (config : Configuration)
    (checks : List Check) (h : before = "" ∨ ∃ start, before = start ++ "\n") :
    let lines := before.toList.count '\n'
    let scanned := (ofText path text root).scan config checks
    (ofText path (before ++ text) (root.shift (encode before.toList).length)).scan config checks =
        (scanned.map (List.map (Finding.down lines))).mapError (ParseError.down lines) ∧
      ∀ e, scanned = .error e → ∃ what : String,
        e.message = s!"{what} ({e.position.line}:{e.position.column})" ∧
        (e.down lines).message =
          s!"{what} ({e.position.line + lines}:{e.position.column})" := by
  intro lines scanned
  have hended : IsEnded before.toList := by
    rcases h with rfl | ⟨start, rfl⟩
    · exact .inl rfl
    · exact .inr ⟨start.toList, String.toList_append⟩
  constructor
  · rw [ofText, String.toList_append, encode_append]
    exact (relocates_append hended path (encode text.toList) root).scan_down config checks
  · intro e _
    exact ⟨_, rfl, rfl⟩

/-- A comment of six bytes in front of a call moves the finding in it, and in front of a call that
is not closed it moves the fault. -/
theorem scan_append_shift_comment :
    let before := "// é\n"
    let callee : Tree := .node { kind := "identifier", span := ⟨0, 5⟩, field := some "function" } []
    let call : Tree := .node { kind := "program", span := ⟨0, 11⟩ } [
      .node { kind := "call_expression", span := ⟨0, 11⟩ } [callee,
        .node { kind := "arguments", span := ⟨5, 11⟩, field := some "arguments" } [
          .node { kind := "string", span := ⟨6, 10⟩ } []]]]
    let unclosed : Tree := .node { kind := "program", span := ⟨0, 6⟩, faulty := true } [
      .node { kind := "call_expression", span := ⟨0, 6⟩, faulty := true } [callee,
        .node { kind := ")", span := ⟨6, 6⟩, named := false, missing := true } []]]
    let scanned := fun text (root : Tree) ↦ (ofText "a.ts" text root).scan .toasts Check.all
    let moved := fun text (root : Tree) ↦
      scanned (before ++ text) (root.shift (encode before.toList).length)
    let down := fun result ↦
      (Except.map (List.map (Finding.down (before.toList.count '\n'))) result).mapError
        (ParseError.down (before.toList.count '\n'))
    let fault : ParseError := ⟨some ")", ⟨1, 6⟩⟩
    (before = "" ∨ ∃ start, before = start ++ "\n") ∧
      moved "toast('No')" call = down (scanned "toast('No')" call) ∧
      moved "toast(" unclosed = down (scanned "toast(" unclosed) ∧
      (scanned "toast('No')" call).toOption.map (List.map Finding.key) =
        some [⟨1, 6, .callArgument, "No"⟩] ∧
      (moved "toast('No')" call).toOption.map (List.map Finding.key) =
        some [⟨2, 6, .callArgument, "No"⟩] ∧
      scanned "toast(" unclosed = .error fault ∧ fault.message = "Missing ')' (1:6)" ∧
      moved "toast(" unclosed = .error (fault.down 1) ∧
      (fault.down 1).message = "Missing ')' (2:6)" := by
  have h : "// é\n" = "" ∨ ∃ start, "// é\n" = start ++ "\n" := .inr ⟨"// é", by decide⟩
  refine ⟨h, (scan_append_shift _ _ _ _ _ _ h).1, (scan_append_shift _ _ _ _ _ _ h).1, ?_⟩
  decide +kernel

end Document

end HardcodedText
