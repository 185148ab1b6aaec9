import HardcodedText.Check.Scope
import HardcodedText.Proofs.Node.Template
import HardcodedText.Proofs.Node.TextRun
import HardcodedText.Proofs.Rule.AllowPattern
import HardcodedText.Proofs.Source.StringLiteral
import HardcodedText.Proofs.Text.Blank

/-!
# Quotes and backticks

A text that means the same between quotes and between backticks (`StringLiteral.Portable`) may be
written either way.  Escapes are replaced in a string only, and blanks at the ends are taken away
in a string within markup only.  So the two ways are not always treated alike:
`Node.quoting_agrees_iff` says for which texts they are.

Nothing less than the same text will do, since some configuration tells any two texts apart that are
not both blank (`Configuration.forall_allows_eq_iff`), and an escape is always longer than what it
stands for.
-/

namespace HardcodedText

/-! ## Texts that need no particular quotes -/

namespace StringLiteral

/-- A character that neither ends a literal of any kind nor begins a substitution in it. -/
def isPlain (c : Char) : Bool :=
  !(['\'', '"', '`', '$', '\n', '\r', '\u2028', '\u2029'].contains c)

/-- The texts of plain characters and escapes that denote the same between quotes and between
backticks. -/
inductive Portable : List Char → Prop
  | nil : Portable []
  | char {c : Char} {cs : List Char} (hc : isPlain c = true) (hbackslash : c ≠ '\\')
      (h : Portable cs) : Portable (c :: cs)
  | number {body : List Char} {n : Nat} {cs : List Char} (hbody : Number body n)
      (hn : n ≤ 0x10FFFF) (h : Portable cs) : Portable ('\\' :: body ++ cs)
  /-- A letter; a zero is one as long as no other digit follows. -/
  | letter {l c : Char} {cs : List Char} (hl : (l, c) ∈ letters)
      (hzero : l = '0' → ∀ d ∈ cs.head?, d.isDigit = false) (h : Portable cs) :
      Portable ('\\' :: l :: cs)
  | other {c : Char} {cs : List Char} (hc : isPlain c = true) (hnumber : ¬ (c = 'u' ∨ c = 'x'))
      (hdigit : c.isDigit = false) (hletter : ∀ d, (c, d) ∉ letters) (h : Portable cs) :
      Portable ('\\' :: c :: cs)

theorem notMem_lineEnds_of_isPlain {c : Char} (h : isPlain c = true) : [c] ∉ lineEnds := by
  intro hline
  simp only [lineEnds, List.mem_cons, List.cons.injEq, List.not_mem_nil, or_false] at hline
  rcases hline with ⟨rfl, -⟩ | ⟨-, hnil⟩ | ⟨rfl, -⟩ | ⟨rfl, -⟩ | ⟨rfl, -⟩
  · exact absurd h (by decide)
  · cases hnil
  · exact absurd h (by decide)
  · exact absurd h (by decide)
  · exact absurd h (by decide)

theorem unescape_of_notMem {cs : List Char} (h : '\\' ∉ cs) : unescape cs = codePoints cs := by
  induction cs with
  | nil => exact unescape_nil
  | cons c cs ih =>
    rw [List.mem_cons, not_or] at h
    rw [unescape_char (Ne.symm h.1), ih h.2]
    rfl

theorem Denotes.length_le {cs : List Char} {u : List Nat} (h : Denotes cs u) :
    u.length ≤ cs.length := by
  induction h with
  | nil => exact Nat.le_refl _
  | char => simpa
  | number hbody _ _ ih =>
    simp only [List.cons_append, List.length_cons, List.length_append]
    omega
  | beyond _ _ _ ih =>
    simp only [List.cons_append, List.length_cons, List.length_append, codePoints, List.length_map]
    omega
  | lineEnd _ _ _ ih =>
    simp only [List.cons_append, List.length_cons, List.length_append]
    omega
  | letter _ _ ih => exact Nat.le_succ_of_le (Nat.succ_le_succ ih)
  | other _ _ _ _ ih => exact Nat.le_succ_of_le (Nat.succ_le_succ ih)
  | backslash => exact Nat.le_refl _

theorem length_unescape_le (cs : List Char) : (unescape cs).length ≤ cs.length :=
  (denotes_iff.mpr rfl).length_le

/-- An escape is longer than what it stands for. -/
theorem Portable.length_unescape_lt {cs : List Char} (h : Portable cs) (hmem : '\\' ∈ cs) :
    (unescape cs).length < cs.length := by
  induction h with
  | nil => cases hmem
  | char _ hbackslash _ ih =>
    rw [unescape_char hbackslash]
    exact Nat.succ_lt_succ (ih ((List.mem_cons.mp hmem).resolve_left (Ne.symm hbackslash)))
  | @number body n cs hbody hn =>
    have hrest := length_unescape_le cs
    have hpos : 0 < body.length := by cases hbody <;> exact Nat.succ_pos _
    rw [unescape_number hbody, if_pos hn]
    simp only [List.cons_append, List.nil_append, List.length_cons, List.length_append]
    omega
  | @letter l c cs hl =>
    rw [unescape_letter hl]
    exact Nat.lt_succ_of_le (Nat.succ_le_succ (length_unescape_le cs))
  | @other c cs hc hnumber _ hletter =>
    rw [unescape_other (fun _ _ _ hbody heq ↦ hnumber (hbody.first_eq heq))
      (notMem_lineEnds_of_isPlain hc) hletter]
    exact Nat.lt_succ_of_le (Nat.succ_le_succ (length_unescape_le cs))

end StringLiteral

namespace Utf16

theorem joinHalves_codePoints (cs : List Char) : joinHalves (StringLiteral.codePoints cs) = cs := by
  induction cs with
  | nil => exact joinHalves_nil
  | cons c cs ih =>
    show joinHalves (c.toNat :: StringLiteral.codePoints cs) = c :: cs
    rw [joinHalves_toNat, ih]

theorem length_joinHalves_le (u : List Nat) : (joinHalves u).length ≤ u.length := by
  fun_induction joinHalves u with
  | case1 high low rest _ ih => exact Nat.le_succ_of_le (Nat.succ_le_succ ih)
  | case2 high low rest _ ih => exact Nat.succ_le_succ ih
  | case3 n => exact Nat.le_refl _
  | case4 => exact Nat.le_refl _

end Utf16

namespace StringLiteral

theorem valueChars_quoted {q : Char} (hq : q = '\'' ∨ q = '"') (body : List Char) :
    valueChars (q :: (body ++ [q])) = Utf16.joinHalves (unescape body) := by
  rw [valueChars, unquote_quoted hq]

theorem valueChars_quoted_of_notMem {q : Char} (hq : q = '\'' ∨ q = '"') {body : List Char}
    (h : '\\' ∉ body) : valueChars (q :: (body ++ [q])) = body := by
  rw [valueChars_quoted hq, unescape_of_notMem h, Utf16.joinHalves_codePoints]

/-- A text as long as what is written has no escape in it. -/
theorem Portable.notMem_of_length_le {q : Char} (hq : q = '\'' ∨ q = '"') {body : List Char}
    (h : Portable body) (hle : body.length ≤ (valueChars (q :: (body ++ [q]))).length) :
    '\\' ∉ body := by
  intro hmem
  rw [valueChars_quoted hq] at hle
  have hjoin := Utf16.length_joinHalves_le (unescape body)
  have hescape := h.length_unescape_lt hmem
  omega

end StringLiteral

/-! ## What configurations make of them -/

namespace StringLiteral

theorem notMem_of_isBlank {cs : List Char} (h : ∀ c ∈ cs, Text.isBlank c = true) : '\\' ∉ cs :=
  fun hmem ↦ absurd (h '\\' hmem) (by decide)

namespace Portable

variable {q : Char} {body : List Char} (hbody : Portable body) (hq : q = '\'' ∨ q = '"')

include hbody hq

theorem value_eq_iff :
    String.ofList (valueChars (q :: (body ++ [q]))) = .ofList body ↔ '\\' ∉ body := by
  constructor
  · intro h
    have hchars := String.ofList_inj.mp h
    exact hbody.notMem_of_length_le hq (Nat.le_of_eq (congrArg List.length hchars.symm))
  · intro h
    rw [valueChars_quoted_of_notMem hq h]

theorem forall_allows_value_iff :
    (∀ config : Configuration, config.allows (.ofList (valueChars (q :: (body ++ [q])))) =
      config.allows (.ofList body)) ↔ '\\' ∉ body := by
  rw [Configuration.forall_allows_eq_iff, hbody.value_eq_iff hq, String.toList_ofList,
    String.toList_ofList]
  exact or_iff_left_of_imp fun h ↦ notMem_of_isBlank h.2

theorem forall_allows_strip_value_iff :
    (∀ config : Configuration,
      config.allows (Text.strip (.ofList (valueChars (q :: (body ++ [q]))))) =
        config.allows (.ofList body)) ↔
      '\\' ∉ body ∧ (Text.strip (.ofList body) = .ofList body ∨
        ∀ c ∈ body, Text.isBlank c = true) := by
  rw [Configuration.forall_allows_eq_iff, String.toList_ofList]
  constructor
  · rintro (hsame | ⟨-, hblank⟩)
    · -- Stripping does not make up for an escape: both only ever shorten the text.
      have hshorter := (Text.strip_isInfix (.ofList (valueChars (q :: (body ++ [q]))))).length_le
      rw [hsame, String.toList_ofList, String.toList_ofList] at hshorter
      have hnone := hbody.notMem_of_length_le hq hshorter
      rw [valueChars_quoted_of_notMem hq hnone] at hsame
      exact ⟨hnone, .inl hsame⟩
    · exact ⟨notMem_of_isBlank hblank, .inr hblank⟩
  · rintro ⟨hnone, hsame | hblank⟩
    · rw [valueChars_quoted_of_notMem hq hnone]
      exact .inl hsame
    · rw [valueChars_quoted_of_notMem hq hnone]
      refine .inr ⟨fun c hc ↦ hblank c ?_, hblank⟩
      rw [← String.toList_ofList (l := body)]
      exact (Text.strip_isInfix _).mem hc

end Portable

end StringLiteral

/-! ## Trees around a text -/

/-- A tree that covers a text with a mark on either side. -/
def Tree.Quotes (t : Tree) (doc : Document) (mark : Char) (body : List Char) : Prop :=
  ∃ pre post, doc.bytes = Utf8.encode (pre ++ (mark :: (body ++ [mark]) ++ post)) ∧
    t.span = .ofRun pre (mark :: (body ++ [mark]))

/-- A string around a text. -/
structure Tree.IsString (t : Tree) (doc : Document) (body : List Char) : Prop where
  kind : t.kind = "string"
  quotes : t.Quotes doc '\'' body ∨ t.Quotes doc '"' body

/-- A template around a text, in which nothing is inserted. -/
structure Tree.IsTemplate (t : Tree) (doc : Document) (body : List Char) : Prop where
  kind : t.kind = "template_string"
  quotes : t.Quotes doc '`' body
  fixed : ∀ c ∈ t.children, c.kind ≠ "template_substitution"

/-- An expression within markup that consists of a tree. -/
structure Tree.Wraps (t inner : Tree) : Prop where
  kind : t.kind = "jsx_expression"
  content : t.content.head? = some inner

namespace Node

variable {doc : Document} {t inner : Tree} {body : List Char}

theorem ofTree_string (h : t.kind = "string") :
    ofTree doc t = .string (doc.site t.span) (doc.stringValue t.span) := by
  obtain ⟨head, parts⟩ := t
  have hform : Form.ofKind head.kind = .string := by
    rw [show head.kind = "string" from h]
    decide
  rw [ofTree, hform]
  rfl

theorem ofTree_of_wraps (h : t.Wraps inner) :
    ofTree doc t = .container (doc.site t.span) (some (ofTree doc inner)) := by
  obtain ⟨head, parts⟩ := t
  have hform : Form.ofKind head.kind = .container := by
    rw [show head.kind = "jsx_expression" from h.kind]
    decide
  have hcontent : (parts.filter Tree.isContent).head? = some inner := h.content
  rw [ofTree, hform]
  dsimp only
  rw [ofContent_eq, List.head?_map, hcontent]
  rfl

theorem ofTree_of_isString (h : t.IsString doc body) :
    ∃ q, (q = '\'' ∨ q = '"') ∧ ofTree doc t =
      .string (doc.site t.span) (.ofList (StringLiteral.valueChars (q :: (body ++ [q])))) := by
  obtain ⟨q, hq, pre, post, hdoc, hspan⟩ :
      ∃ q, (q = '\'' ∨ q = '"') ∧ t.Quotes doc q body := by
    rcases h.quotes with hsingle | hdouble
    · exact ⟨_, .inl rfl, hsingle⟩
    · exact ⟨_, .inr rfl, hdouble⟩
  refine ⟨q, hq, ?_⟩
  rw [ofTree_string h.kind, Document.stringValue, Document.chars, hspan, slice_ofRun hdoc,
    Utf8.decodeLossy_encode]

theorem ofTree_of_isTemplate (h : t.IsTemplate doc body) :
    ofTree doc t = .template (doc.site t.span) [.ofList body] 0 := by
  obtain ⟨pre, post, hdoc, hspan⟩ := h.quotes
  have hnone : Document.substitutions t.children = [] := by
    have hfilter : t.children.filter (·.kind == "template_substitution") = [] :=
      List.filter_eq_nil_iff.mpr fun c hc ↦ by simpa using h.fixed c hc
    rw [Document.substitutions, hfilter, List.map_nil]
  -- The inside begins one byte later and ends one byte earlier, since each mark is one byte.
  have hinside : (⟨t.span.start + 1, t.span.stop - 1⟩ : Span) = .ofRun (pre ++ ['`']) body := by
    rw [hspan]
    simp [Span.ofRun, Utf8.encodeChar_of_lt (c := '`') (by decide)]
  have hdoc' : doc.bytes = Utf8.encode (pre ++ ['`'] ++ (body ++ '`' :: post)) := by
    rw [hdoc]
    simp
  rw [ofTree_template h.kind, Document.template, hnone, Document.fixedParts, hinside,
    Document.text, Document.chars, slice_ofRun hdoc', Utf8.decodeLossy_encode]
  rfl

/-! ## Where the two ways agree -/

open StringLiteral (Portable)

/-- A string and a template around the same text are treated alike where the text has no escapes.
Within markup it must not begin or end with blanks either, unless it is all blank. -/
theorem quoting_agrees_iff {doc doc' : Document} {string template braces braces' : Tree}
    {body : List Char} (hbody : Portable body) (hstring : string.IsString doc body)
    (htemplate : template.IsTemplate doc' body) (hbraces : braces.Wraps string)
    (hbraces' : braces'.Wraps template) :
    ((ofTree doc string).display = (ofTree doc' template).display ↔ '\\' ∉ body) ∧
      ((∀ config : Configuration,
        config.isHardcoded (ofTree doc string) = config.isHardcoded (ofTree doc' template)) ↔
          '\\' ∉ body) ∧
      ((∀ (config : Configuration) (policy : Policy),
        config.isRefused policy (ofTree doc braces) =
          config.isRefused policy (ofTree doc' braces')) ↔
        '\\' ∉ body ∧ (Text.strip (.ofList body) = .ofList body ∨
          ∀ c ∈ body, Text.isBlank c = true)) := by
  obtain ⟨q, hq, hvalue⟩ := ofTree_of_isString hstring
  rw [ofTree_of_wraps hbraces, ofTree_of_wraps hbraces', hvalue, ofTree_of_isTemplate htemplate]
  simp only [Configuration.isHardcoded, Configuration.isRefused,
    Configuration.isHardcodedTemplate, if_true, List.headD_cons, Bool.not_inj_iff]
  refine ⟨hbody.value_eq_iff hq, hbody.forall_allows_value_iff hq, ?_⟩
  rw [← hbody.forall_allows_strip_value_iff hq]
  constructor
  · intro h config
    have hrefused := h config { attributes := [] }
    rwa [Bool.not_false, Bool.true_and, Bool.true_and, Bool.not_inj_iff] at hrefused
  · intro h config policy
    rw [h config]

/-! ## Literals in braces -/

/-- A literal after a brace. -/
def literal (kind text : String) : Tree :=
  .node { kind, span := ⟨1, text.utf8ByteSize + 1⟩ } []

/-- A literal in braces. -/
def braced (kind text : String) : Tree :=
  .node { kind := "jsx_expression", span := ⟨0, text.utf8ByteSize + 2⟩ }
    [.node { kind := "\x7b", span := ⟨0, 1⟩, named := false } [], literal kind text]

/-- The document of a literal in braces. -/
def documentOf (kind text : String) : Document :=
  .ofText "a.tsx" ("\x7b" ++ text ++ "\x7d") (braced kind text)

/-- Words without escapes may be written either way. -/
theorem quoting_agrees_iff_words :
    let doc := documentOf "string" "\"Hé 1\""
    let doc' := documentOf "template_string" "`Hé 1`"
    Portable "Hé 1".toList ∧ (literal "string" "\"Hé 1\"").IsString doc "Hé 1".toList ∧
      (literal "template_string" "`Hé 1`").IsTemplate doc' "Hé 1".toList ∧
      ∀ (config : Configuration) (policy : Policy),
        config.isRefused policy (ofTree doc doc.root) =
          config.isRefused policy (ofTree doc' doc'.root) := by
  intro doc doc'
  have hbody : Portable "Hé 1".toList :=
    .char (by decide) (by decide) (.char (by decide) (by decide) (.char (by decide) (by decide)
      (.char (by decide) (by decide) .nil)))
  have hstring : (literal "string" "\"Hé 1\"").IsString doc "Hé 1".toList :=
    ⟨rfl, .inr ⟨['\x7b'], ['\x7d'], by decide, by decide⟩⟩
  have htemplate : (literal "template_string" "`Hé 1`").IsTemplate doc' "Hé 1".toList :=
    ⟨rfl, ⟨['\x7b'], ['\x7d'], by decide, by decide⟩, by decide⟩
  have hbraces : doc.root.Wraps (literal "string" "\"Hé 1\"") := ⟨rfl, rfl⟩
  have hbraces' : doc'.root.Wraps (literal "template_string" "`Hé 1`") := ⟨rfl, rfl⟩
  obtain ⟨-, -, hrefused⟩ := quoting_agrees_iff hbody hstring htemplate hbraces hbraces'
  exact ⟨hbody, hstring, htemplate, hrefused.mpr ⟨by decide, .inl (by decide)⟩⟩

/-- A number may be hardcoded, but between backticks it is not seen behind an escape. -/
theorem quoting_disagrees_on_escape :
    let doc := documentOf "string" "'\\x31'"
    let doc' := documentOf "template_string" "`\\x31`"
    let string := literal "string" "'\\x31'"
    let template := literal "template_string" "`\\x31`"
    let config := Configuration.standard
    Portable "\\x31".toList ∧
      string.IsString doc "\\x31".toList ∧ template.IsTemplate doc' "\\x31".toList ∧
      doc.root.Wraps string ∧ doc'.root.Wraps template ∧
      (ofTree doc string).display = "1" ∧ (ofTree doc' template).display = "\\x31" ∧
      config.isHardcoded (ofTree doc string) = false ∧
      config.isHardcoded (ofTree doc' template) = true ∧
      config.isRefused config.policies.fallback (ofTree doc doc.root) = false ∧
      config.isRefused config.policies.fallback (ofTree doc' doc'.root) = true := by
  intro doc doc' string template config
  have hnumber : StringLiteral.Number ['x', '3', '1'] 0x31 :=
    .two rfl (StringLiteral.hex_hexValue (List.all_eq_true.mp rfl))
  have hbody : Portable "\\x31".toList := .number hnumber (by decide) .nil
  have hstring : string.IsString doc "\\x31".toList :=
    ⟨rfl, .inl ⟨['\x7b'], ['\x7d'], by decide, by decide⟩⟩
  have htemplate : template.IsTemplate doc' "\\x31".toList :=
    ⟨rfl, ⟨['\x7b'], ['\x7d'], by decide, by decide⟩, by decide⟩
  exact ⟨hbody, hstring, htemplate, ⟨rfl, rfl⟩, ⟨rfl, rfl⟩, by decide +kernel⟩

-- Nor is it seen behind a blank.
example :
    let doc := documentOf "string" "' 1'"
    let doc' := documentOf "template_string" "` 1`"
    Configuration.standard.isRefused Policies.base (ofTree doc doc.root) = false ∧
      Configuration.standard.isRefused Policies.base (ofTree doc' doc'.root) = true := by
  decide +kernel

end Node

end HardcodedText
