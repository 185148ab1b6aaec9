import Mathlib.Algebra.Group.Nat.Defs
import Mathlib.Data.List.Induction
import HardcodedText.Proofs.Text.Utf16
import HardcodedText.Source.StringLiteral

/-!
# What string literals denote

`Denotes` says by rules, one for each form of escape, which code points the inside of a literal
denotes; `Written` says in which ways a text may be written between quotes.

* `value_mends`: the code points are what `Utf16.Mends` makes a text of, whatever halves there are
  among them.
* `value_written`: a text is read back from every way to write it.

Both rest on `denotes_iff`, after which the reader is not opened again.
-/

namespace HardcodedText.StringLiteral

/-! ## Numbers in escapes -/

/-- A character that is a hexadecimal digit of a value, in either case. -/
def IsDigit (c : Char) (d : Nat) : Prop :=
  d < 16 ∧ (c = Nat.digitChar d ∨ c = (Nat.digitChar d).toUpper)

/-- Digits that write a number, with any number of zeros in front. -/
inductive Hex : List Char → Nat → Prop
  | nil : Hex [] 0
  | snoc {ds : List Char} {n : Nat} {c : Char} {d : Nat} (h : Hex ds n) (hd : IsDigit c d) :
      Hex (ds ++ [c]) (16 * n + d)

/-- An escape by number, without its backslash, and the number. -/
inductive Number : List Char → Nat → Prop
  | braced {ds : List Char} {n : Nat} (hne : ds ≠ []) (h : Hex ds n) :
      Number ('u' :: '\x7b' :: (ds ++ ['\x7d'])) n
  | four {ds : List Char} {n : Nat} (hlength : ds.length = 4) (h : Hex ds n) : Number ('u' :: ds) n
  | two {ds : List Char} {n : Nat} (hlength : ds.length = 2) (h : Hex ds n) : Number ('x' :: ds) n

theorem toNat_lt_of_hexDigit? {c : Char} {d : Nat} (h : hexDigit? c = some d) : c.toNat < 128 := by
  have hle {bound : Char} (hc : c ≤ bound) : c.toNat ≤ bound.toNat :=
    UInt32.le_iff_toNat_le.mp (Char.le_def.mp hc)
  rw [hexDigit?] at h
  split at h
  · next hc => exact Nat.lt_of_le_of_lt (hle hc.2) (by decide)
  · split at h
    · next hc => exact Nat.lt_of_le_of_lt (hle hc.2) (by decide)
    · split at h
      · next hc => exact Nat.lt_of_le_of_lt (hle hc.2) (by decide)
      · cases h

theorem hexDigit?_eq_some_iff {c : Char} {d : Nat} : hexDigit? c = some d ↔ IsDigit c d := by
  constructor
  · intro h
    have hall : ∀ n < 128, ∀ d ∈ hexDigit? (.ofNat n), d < 16 ∧
        (Char.ofNat n = Nat.digitChar d ∨ Char.ofNat n = (Nat.digitChar d).toUpper) := by
      decide
    have hdigit := hall c.toNat (toNat_lt_of_hexDigit? h)
    rw [Char.ofNat_toNat] at hdigit
    exact hdigit d h
  · have hall : ∀ d < 16, hexDigit? (Nat.digitChar d) = some d ∧
        hexDigit? (Nat.digitChar d).toUpper = some d := by
      decide
    rintro ⟨hd, rfl | rfl⟩
    · exact (hall d hd).1
    · exact (hall d hd).2

theorem hexValue_concat (ds : List Char) (c : Char) :
    hexValue (ds ++ [c]) = hexValue ds * 16 + (hexDigit? c).getD 0 := by
  rw [hexValue, List.foldl_append]
  rfl

theorem Hex.hexValue_eq {ds : List Char} {n : Nat} (h : Hex ds n) : hexValue ds = n := by
  induction h with
  | nil => rfl
  | snoc _ hd ih => rw [hexValue_concat, ih, hexDigit?_eq_some_iff.mpr hd, Option.getD_some,
      Nat.mul_comm]

theorem Hex.isSome {ds : List Char} {n : Nat} (h : Hex ds n) :
    ∀ c ∈ ds, (hexDigit? c).isSome = true := by
  induction h with
  | nil => exact fun _ hc ↦ nomatch hc
  | snoc _ hd ih =>
    rw [List.forall_mem_append, List.forall_mem_singleton, hexDigit?_eq_some_iff.mpr hd]
    exact ⟨ih, rfl⟩

theorem Hex.lt {ds : List Char} {n : Nat} (h : Hex ds n) : n < 16 ^ ds.length := by
  induction h with
  | nil => decide
  | @snoc ds n c d _ hd ih =>
    have hdigit := hd.1
    rw [List.length_append, List.length_singleton, Nat.pow_succ]
    omega

/-- Any hexadecimal digits write a number. -/
theorem hex_hexValue {ds : List Char} (h : ∀ c ∈ ds, (hexDigit? c).isSome = true) :
    Hex ds (hexValue ds) := by
  induction ds using List.reverseRecOn with
  | nil => exact .nil
  | append_singleton ds c ih =>
    obtain ⟨hds, hc⟩ := List.forall_mem_append.mp h
    obtain ⟨d, hd⟩ := Option.isSome_iff_exists.mp (hc c (List.mem_singleton_self c))
    rw [hexValue_concat, hd, Option.getD_some, Nat.mul_comm]
    exact .snoc (ih hds) (hexDigit?_eq_some_iff.mp hd)

theorem hexDigits?_append {ds : List Char} {n : Nat} (h : Hex ds n) (cs : List Char) :
    hexDigits? ds.length (ds ++ cs) = some ds := by
  rw [hexDigits?, List.take_left, if_pos ⟨rfl, List.all_eq_true.mpr h.isSome⟩]

theorem exists_of_hexDigits? {count : Nat} {cs ds : List Char} (h : hexDigits? count cs = some ds) :
    ds.length = count ∧ Hex ds (hexValue ds) ∧ ∃ rest, cs = ds ++ rest := by
  rw [hexDigits?] at h
  split at h
  · next hds =>
    cases h
    refine ⟨hds.1, hex_hexValue (List.all_eq_true.mp hds.2), cs.drop count, ?_⟩
    exact (List.take_append_drop count cs).symm
  · cases h

theorem bracedDigits?_append {ds : List Char} {n : Nat} (hne : ds ≠ []) (h : Hex ds n)
    (cs : List Char) : bracedDigits? (ds ++ '\x7d' :: cs) = some ds := by
  have htake : (ds ++ '\x7d' :: cs).takeWhile (hexDigit? · |>.isSome) = ds := by
    rw [List.takeWhile_append_of_pos h.isSome]
    exact List.append_nil ds
  rw [bracedDigits?, htake, if_pos]
  refine ⟨?_, ?_⟩
  · rw [Bool.not_eq_true', List.isEmpty_eq_false_iff]
    exact hne
  · rw [List.getElem?_append_right (Nat.le_refl _), Nat.sub_self]
    rfl

theorem exists_of_bracedDigits? {cs ds : List Char} (h : bracedDigits? cs = some ds) :
    ds ≠ [] ∧ Hex ds (hexValue ds) ∧ ∃ rest, cs = ds ++ '\x7d' :: rest := by
  rw [bracedDigits?] at h
  split at h
  · next hds =>
    cases h
    obtain ⟨hne, hclose⟩ := hds
    rw [Bool.not_eq_true', List.isEmpty_eq_false_iff] at hne
    refine ⟨hne, hex_hexValue (List.all_eq_true.mp List.all_takeWhile), ?_⟩
    have hcut := List.takeWhile_append_dropWhile (p := (hexDigit? · |>.isSome)) (l := cs)
    have hafter : (cs.dropWhile (hexDigit? · |>.isSome)).head? = some '\x7d' := by
      nth_rewrite 1 [← hcut] at hclose
      rwa [List.getElem?_append_right (Nat.le_refl _), Nat.sub_self, ← List.head?_eq_getElem?]
        at hclose
    obtain ⟨rest, hrest⟩ := List.head?_eq_some_iff.mp hafter
    exact ⟨rest, by rw [← hrest, hcut]⟩
  · cases h

/-! ## Escapes -/

/-- The ends of a line. -/
def lineEnds : List (List Char) := [['\n'], ['\r', '\n'], ['\r'], ['\u2028'], ['\u2029']]

/-- The letters that stand for a control character after a backslash. -/
def letters : List (Char × Char) :=
  [('n', '\n'), ('t', '\t'), ('r', '\r'), ('b', '\x08'), ('f', '\x0c'), ('v', '\x0b'),
    ('0', '\x00')]

/-- The code points that the inside of a literal denotes. -/
inductive Denotes : List Char → List Nat → Prop
  | nil : Denotes [] []
  | char {c : Char} {cs : List Char} {u : List Nat} (hc : c ≠ '\\') (h : Denotes cs u) :
      Denotes (c :: cs) (c.toNat :: u)
  /-- A number that is a code point. -/
  | number {body : List Char} {n : Nat} {cs : List Char} {u : List Nat} (hbody : Number body n)
      (hn : n ≤ 0x10FFFF) (h : Denotes cs u) : Denotes ('\\' :: body ++ cs) (n :: u)
  /-- A number beyond the last code point: only the backslash is left out. -/
  | beyond {body : List Char} {n : Nat} {cs : List Char} {u : List Nat} (hbody : Number body n)
      (hn : 0x10FFFF < n) (h : Denotes cs u) : Denotes ('\\' :: body ++ cs) (codePoints body ++ u)
  /-- The end of a line, as much of it as there is. -/
  | lineEnd {e cs : List Char} {u : List Nat} (he : e ∈ lineEnds)
      (hreturn : e = ['\r'] → cs.head? ≠ some '\n') (h : Denotes cs u) : Denotes ('\\' :: e ++ cs) u
  | letter {l c : Char} {cs : List Char} {u : List Nat} (hl : (l, c) ∈ letters)
      (h : Denotes cs u) : Denotes ('\\' :: l :: cs) (c.toNat :: u)
  /-- Any other character after a backslash stands for itself. -/
  | other {c : Char} {cs : List Char} {u : List Nat}
      (hnumber : ∀ body n rest, Number body n → c :: cs ≠ body ++ rest) (hline : [c] ∉ lineEnds)
      (hletter : ∀ d, (c, d) ∉ letters) (h : Denotes cs u) :
      Denotes ('\\' :: c :: cs) (c.toNat :: u)
  /-- A backslash at the very end stands for itself. -/
  | backslash : Denotes ['\\'] ['\\'.toNat]

theorem unescape_nil : unescape [] = [] := by
  rw [unescape]

theorem unescape_backslash : unescape ['\\'] = ['\\'.toNat] := by
  rw [unescape, unescape_nil]
  exact fun c cs _ h ↦ List.cons_ne_nil c cs h.symm

theorem unescape_char {c : Char} (hc : c ≠ '\\') (cs : List Char) :
    unescape (c :: cs) = c.toNat :: unescape cs := by
  rw [unescape]
  exact fun _ _ h ↦ absurd h hc

theorem unescape_escape {c : Char} {cs : List Char} (body : List Char) (u : List Nat)
    (h : escape c (body ++ cs) = (u, body.length)) :
    unescape ('\\' :: c :: body ++ cs) = u ++ unescape cs := by
  rw [List.cons_append, List.cons_append, unescape, h]
  dsimp only
  rw [List.drop_left]

theorem unescape_number {body : List Char} {n : Nat} (h : Number body n) (cs : List Char) :
    unescape ('\\' :: body ++ cs) =
      (if n ≤ 0x10FFFF then [n] else codePoints body) ++ unescape cs := by
  cases h with
  | @braced ds n hne h =>
    have hdigits := bracedDigits?_append hne h cs
    refine unescape_escape _ _ ?_
    rw [escape, if_pos rfl, List.cons_append, List.head?_cons, if_pos rfl, List.tail_cons,
      List.append_assoc, List.singleton_append, hdigits]
    dsimp only
    rw [h.hexValue_eq]
    simp
  | @four ds n hlength h =>
    have hn := h.lt
    rw [hlength] at hn
    have hdigits := hexDigits?_append h cs
    have hbrace : (ds ++ cs).head? ≠ some '\x7b' := by
      cases ds with
      | nil => cases hlength
      | cons d ds =>
        intro hd
        rw [List.cons_append, List.head?_cons, Option.some_inj] at hd
        have hsome := h.isSome d List.mem_cons_self
        rw [hd] at hsome
        cases hsome
    refine unescape_escape _ _ ?_
    rw [escape, if_pos rfl, if_neg hbrace]
    dsimp only
    rw [← hlength, hdigits]
    dsimp only
    rw [h.hexValue_eq, if_pos (by omega)]
  | @two ds n hlength h =>
    have hn := h.lt
    rw [hlength] at hn
    have hdigits := hexDigits?_append h cs
    refine unescape_escape _ _ ?_
    rw [escape, if_neg (by decide), if_pos rfl, ← hlength, hdigits]
    dsimp only
    rw [h.hexValue_eq, if_pos (by omega)]

theorem unescape_lineEnd {e cs : List Char} (he : e ∈ lineEnds)
    (hreturn : e = ['\r'] → cs.head? ≠ some '\n') : unescape ('\\' :: e ++ cs) = unescape cs := by
  simp only [lineEnds, List.mem_cons, List.not_mem_nil, or_false] at he
  rcases he with rfl | rfl | rfl | rfl | rfl
  · exact unescape_escape [] [] rfl
  · exact unescape_escape ['\n'] [] rfl
  · refine unescape_escape [] [] ?_
    rw [escape, if_neg (by decide), if_neg (by decide), if_neg fun h ↦ hreturn rfl h.2]
    rfl
  · exact unescape_escape [] [] rfl
  · exact unescape_escape [] [] rfl

theorem unescape_letter {l c : Char} (hl : (l, c) ∈ letters) (cs : List Char) :
    unescape ('\\' :: l :: cs) = c.toNat :: unescape cs := by
  refine unescape_escape [] [c.toNat] ?_
  simp only [letters, List.mem_cons, Prod.mk.injEq, List.not_mem_nil, or_false] at hl
  rcases hl with ⟨rfl, rfl⟩ | ⟨rfl, rfl⟩ | ⟨rfl, rfl⟩ | ⟨rfl, rfl⟩ | ⟨rfl, rfl⟩ | ⟨rfl, rfl⟩ |
    ⟨rfl, rfl⟩ <;> rfl

theorem simple_of_notMem {c : Char} (hline : [c] ∉ lineEnds) (hletter : ∀ d, (c, d) ∉ letters) :
    simple c = [c.toNat] := by
  have hend (l : Char) (hl : [l] ∈ lineEnds) : c ≠ l := fun heq ↦ hline (heq ▸ hl)
  have hne (l d : Char) (hl : (l, d) ∈ letters) : c ≠ l := fun heq ↦ hletter d (heq ▸ hl)
  rw [simple]
  exacts [hend '\n' (by decide), hend '\r' (by decide), hend '\u2028' (by decide),
    hend '\u2029' (by decide), hne 'n' '\n' (by decide), hne 't' '\t' (by decide),
    hne 'r' '\r' (by decide), hne 'b' '\x08' (by decide), hne 'f' '\x0c' (by decide),
    hne 'v' '\x0b' (by decide), hne '0' '\x00' (by decide)]

theorem unescape_other {c : Char} {cs : List Char}
    (hnumber : ∀ body n rest, Number body n → c :: cs ≠ body ++ rest) (hline : [c] ∉ lineEnds)
    (hletter : ∀ d, (c, d) ∉ letters) : unescape ('\\' :: c :: cs) = c.toNat :: unescape cs := by
  refine unescape_escape [] [c.toNat] ?_
  rw [← simple_of_notMem hline hletter, List.nil_append, escape]
  -- Wherever the reader finds digits, they are those of a number.
  split
  · next hc =>
    subst hc
    split
    · next ds hds =>
      split at hds
      · next hopen =>
        obtain ⟨hne, hhex, rest, hrest⟩ := exists_of_bracedDigits? hds
        obtain ⟨after, rfl⟩ := List.head?_eq_some_iff.mp hopen
        rw [List.tail_cons] at hrest
        refine absurd ?_ (hnumber _ _ rest (.braced hne hhex))
        simp [hrest]
      · cases hds
    · split
      · next ds hds =>
        obtain ⟨hlength, hhex, rest, rfl⟩ := exists_of_hexDigits? hds
        exact absurd rfl (hnumber _ _ rest (.four hlength hhex))
      · rfl
  · split
    · next hc =>
      subst hc
      split
      · next ds hds =>
        obtain ⟨hlength, hhex, rest, rfl⟩ := exists_of_hexDigits? hds
        exact absurd rfl (hnumber _ _ rest (.two hlength hhex))
      · rfl
    · rw [if_neg]
      · rfl
      · rintro ⟨rfl, -⟩
        exact hline (by decide)

theorem Denotes.unescape_eq {cs : List Char} {u : List Nat} (h : Denotes cs u) :
    unescape cs = u := by
  induction h with
  | nil => exact unescape_nil
  | char hc _ ih => rw [unescape_char hc, ih]
  | number hbody hn _ ih => rw [unescape_number hbody, if_pos hn, ih, List.singleton_append]
  | beyond hbody hn _ ih => rw [unescape_number hbody, if_neg (Nat.not_le.mpr hn), ih]
  | lineEnd he hreturn _ ih => rw [unescape_lineEnd he hreturn, ih]
  | letter hl _ ih => rw [unescape_letter hl, ih]
  | other hnumber hline hletter _ ih => rw [unescape_other hnumber hline hletter, ih]
  | backslash => exact unescape_backslash

/-- Every text between quotes denotes something. -/
theorem exists_denotes (cs : List Char) : ∃ u, Denotes cs u := by
  match cs with
  | [] => exact ⟨[], .nil⟩
  | c :: cs =>
    by_cases hbackslash : c ≠ '\\'
    · obtain ⟨u, hu⟩ := exists_denotes cs
      exact ⟨_, .char hbackslash hu⟩
    obtain rfl := not_ne_iff.mp hbackslash
    match cs with
    | [] => exact ⟨_, .backslash⟩
    | c :: cs =>
      by_cases hnumber : ∃ body n rest, Number body n ∧ c :: cs = body ++ rest
      · obtain ⟨body, n, rest, hbody, hrest⟩ := hnumber
        obtain ⟨u, hu⟩ := exists_denotes rest
        rw [hrest]
        by_cases hn : n ≤ 0x10FFFF
        · exact ⟨_, .number hbody hn hu⟩
        · exact ⟨_, .beyond hbody (Nat.not_le.mp hn) hu⟩
      -- Both characters of a line end are taken, though the first alone is one too.
      by_cases hreturn : c = '\r' ∧ cs.head? = some '\n'
      · obtain ⟨rfl, hhead⟩ := hreturn
        obtain ⟨rest, hrest⟩ := List.head?_eq_some_iff.mp hhead
        obtain ⟨u, hu⟩ := exists_denotes rest
        rw [hrest]
        exact ⟨u, .lineEnd (e := ['\r', '\n']) (by decide) (fun h ↦ nomatch h) hu⟩
      obtain ⟨u, hu⟩ := exists_denotes cs
      by_cases hline : [c] ∈ lineEnds
      · exact ⟨u, .lineEnd hline (fun hc hhead ↦ hreturn ⟨List.head_eq_of_cons_eq hc, hhead⟩) hu⟩
      by_cases hletter : ∃ d, (c, d) ∈ letters
      · obtain ⟨d, hd⟩ := hletter
        exact ⟨_, .letter hd hu⟩
      · refine ⟨_, .other (fun body n rest hbody h ↦ ?_) hline (not_exists.mp hletter) hu⟩
        exact hnumber ⟨body, n, rest, hbody, h⟩
termination_by cs.length
decreasing_by
  · exact Nat.lt_succ_self _
  · have hlength := congrArg List.length hrest
    rw [List.length_append] at hlength
    rw [List.length_cons]
    omega
  · rw [hrest]
    simp only [List.length_cons]
    omega
  · simp only [List.length_cons]
    omega

theorem denotes_iff {cs : List Char} {u : List Nat} : Denotes cs u ↔ unescape cs = u := by
  constructor
  · exact Denotes.unescape_eq
  · rintro rfl
    obtain ⟨u, hu⟩ := exists_denotes cs
    rwa [hu.unescape_eq]

theorem Denotes.lt {cs : List Char} {u : List Nat} (h : Denotes cs u) : ∀ n ∈ u, n < 0x110000 := by
  have hchar (c : Char) : c.toNat < 0x110000 := by
    have := Utf8.toNat_valid c
    omega
  induction h with
  | nil => exact fun _ hn ↦ nomatch hn
  | @char c _ _ _ _ ih => exact List.forall_mem_cons.mpr ⟨hchar c, ih⟩
  | number _ hn _ ih => exact List.forall_mem_cons.mpr ⟨Nat.lt_succ_of_le hn, ih⟩
  | @beyond body _ _ _ _ _ _ ih =>
    refine List.forall_mem_append.mpr ⟨?_, ih⟩
    exact List.forall_mem_map.mpr fun c _ ↦ hchar c
  | lineEnd _ _ _ ih => exact ih
  | @letter _ c _ _ _ _ ih => exact List.forall_mem_cons.mpr ⟨hchar c, ih⟩
  | @other c _ _ _ _ _ _ ih => exact List.forall_mem_cons.mpr ⟨hchar c, ih⟩
  | backslash => exact List.forall_mem_singleton.mpr (hchar '\\')

/-- The code points that a literal denotes are all kept, in place, but for halves: two that belong
together become their character, and every other one the replacement character. -/
theorem value_mends (raw : String) :
    ∃ u, (∀ u', Denotes (unquote raw.toList) u' ↔ u' = u) ∧
      (∀ v : String, Utf16.Mends u v.toList ↔ v = value raw) ∧
      (∀ c ∈ (value raw).toList, Utf16.isHalf c.toNat = false) ∧
      ((∀ n ∈ u, Utf16.isHalf n = false) → codePoints (value raw).toList = u) := by
  have hdenotes : Denotes (unquote raw.toList) (unescape (unquote raw.toList)) :=
    denotes_iff.mpr rfl
  have hvalue : (value raw).toList = Utf16.joinHalves (unescape (unquote raw.toList)) :=
    String.toList_ofList
  refine ⟨unescape (unquote raw.toList), fun u' ↦ ?_, fun v ↦ ?_, fun c _ ↦ ?_, fun hhalf ↦ ?_⟩
  · rw [denotes_iff, eq_comm]
  · rw [Utf16.mends_iff hdenotes.lt, ← hvalue, String.toList_inj, eq_comm]
  · exact Utf16.isHalf_toNat c
  · rw [hvalue]
    exact Utf16.map_toNat_joinHalves hdenotes.lt hhalf

/-! ## Ways to write a text -/

/-- Ends of lines that are continued, one after another. -/
def continued (es : List (List Char)) : List Char :=
  es.flatMap ('\\' :: ·)

/-- The ways to write a character between quotes `q`. -/
inductive Spelled (q : Char) : Char → List Char → Prop
  /-- As it is. -/
  | plain {c : Char} (hquote : c ≠ q) (hbackslash : c ≠ '\\') (hfeed : c ≠ '\n')
      (hreturn : c ≠ '\r') : Spelled q c [c]
  /-- By its number. -/
  | number {c : Char} {body : List Char} (h : Number body c.toNat) : Spelled q c ('\\' :: body)
  /-- By the numbers of its halves, also with a line that is continued between them. -/
  | halves {c : Char} {first second : List Char} {es : List (List Char)} (hc : 0x10000 ≤ c.toNat)
      (hfirst : Number first (Utf16.high c)) (hes : ∀ e ∈ es, e ∈ lineEnds)
      (hsecond : Number second (Utf16.low c)) :
      Spelled q c ('\\' :: first ++ continued es ++ '\\' :: second)
  /-- By its letter. -/
  | letter {l c : Char} (h : (l, c) ∈ letters) : Spelled q c ['\\', l]
  /-- As itself, after a backslash. -/
  | escaped {c : Char} (h : c = '\'' ∨ c = '"' ∨ c = '\\') : Spelled q c ['\\', c]

/-- The ways to write a text between quotes `q`. -/
inductive Written (q : Char) : List Char → List Char → Prop
  | nil : Written q [] []
  | cons {c : Char} {cs v body : List Char} (hc : Spelled q c cs) (h : Written q v body) :
      Written q (c :: v) (cs ++ body)
  /-- A line may be continued anywhere between characters. -/
  | continued {e v body : List Char} (he : e ∈ lineEnds) (h : Written q v body) :
      Written q v ('\\' :: e ++ body)

theorem Number.first_eq {body : List Char} {n : Nat} (h : Number body n) {c : Char}
    {cs rest : List Char} (heq : c :: cs = body ++ rest) : c = 'u' ∨ c = 'x' := by
  cases h with
  | braced => exact .inl (List.head_eq_of_cons_eq heq)
  | four => exact .inl (List.head_eq_of_cons_eq heq)
  | two => exact .inr (List.head_eq_of_cons_eq heq)

theorem Spelled.head?_ne {q c : Char} {cs : List Char} (h : Spelled q c cs) (body : List Char) :
    (cs ++ body).head? ≠ some '\n' := by
  cases h with
  | plain _ _ hfeed _ => exact fun heq ↦ hfeed (Option.some_inj.mp heq)
  | number => exact (by decide : some '\\' ≠ some '\n')
  | halves => exact (by decide : some '\\' ≠ some '\n')
  | letter => exact (by decide : some '\\' ≠ some '\n')
  | escaped => exact (by decide : some '\\' ≠ some '\n')

theorem Written.head?_ne {q : Char} {v body : List Char} (h : Written q v body) :
    body.head? ≠ some '\n' := by
  cases h with
  | nil => exact fun heq ↦ nomatch heq
  | cons hc _ => exact hc.head?_ne _
  | continued => exact (by decide : some '\\' ≠ some '\n')

theorem Denotes.continued {es : List (List Char)} (hes : ∀ e ∈ es, e ∈ lineEnds) {cs : List Char}
    {u : List Nat} (hcs : cs.head? ≠ some '\n') (h : Denotes cs u) :
    Denotes (continued es ++ cs) u := by
  induction es with
  | nil => exact h
  | cons e es ih =>
    obtain ⟨he, hes⟩ := List.forall_mem_cons.mp hes
    have hhead : (StringLiteral.continued es ++ cs).head? ≠ some '\n' := by
      cases es with
      | nil => exact hcs
      | cons => exact (by decide : some '\\' ≠ some '\n')
    have hline := Denotes.lineEnd he (fun _ ↦ hhead) (ih hes)
    rwa [← List.append_assoc] at hline

theorem Denotes.escaped {c : Char} (hc : c = '\'' ∨ c = '"' ∨ c = '\\') {cs : List Char}
    {u : List Nat} (h : Denotes cs u) : Denotes ('\\' :: c :: cs) (c.toNat :: u) := by
  have hspecial : ¬ (c = 'u' ∨ c = 'x') ∧ [c] ∉ lineEnds ∧ c ∉ letters.map Prod.fst := by
    rcases hc with rfl | rfl | rfl <;> decide
  obtain ⟨hnumber, hline, hletter⟩ := hspecial
  refine .other (fun body n rest hbody heq ↦ hnumber (hbody.first_eq heq)) hline (fun d hd ↦ ?_) h
  exact hletter (List.mem_map_of_mem hd)

/-- What is written for a text denotes code points that stand for it. -/
theorem Written.exists_denotes {q : Char} {v body : List Char} (h : Written q v body) :
    ∃ u, Denotes body u ∧ Utf16.Mends u v := by
  induction h with
  | nil => exact ⟨[], .nil, .nil⟩
  | @cons c cs v body hc _ ih =>
    obtain ⟨u, hu, hv⟩ := ih
    cases hc with
    | plain _ hbackslash => exact ⟨_, .char hbackslash hu, .char hv⟩
    | number h =>
      have hn := Utf8.toNat_valid c
      exact ⟨_, .number h (by omega) hu, .char hv⟩
    | @halves _ first second es hc hfirst hes hsecond =>
      have hhigh := Utf16.isHigh_iff.mp (Utf16.isHigh_high c)
      have hlow := Utf16.isLow_iff.mp (Utf16.isLow_low c)
      have hrest : Denotes ('\\' :: second ++ body) (Utf16.low c :: u) :=
        .number hsecond (by omega) hu
      have hhead : ('\\' :: second ++ body).head? ≠ some '\n' :=
        (by decide : some '\\' ≠ some '\n')
      have hbetween := Denotes.continued hes hhead hrest
      refine ⟨_, ?_, .pair hc hv⟩
      have hall := Denotes.number hfirst (by omega) hbetween
      simpa using hall
    | letter h => exact ⟨_, .letter h hu, .char hv⟩
    | escaped h => exact ⟨_, .escaped h hu, .char hv⟩
  | continued he h ih =>
    obtain ⟨u, hu, hv⟩ := ih
    exact ⟨u, .lineEnd he (fun _ ↦ h.head?_ne) hu, hv⟩

theorem unquote_quoted {q : Char} (hq : q = '\'' ∨ q = '"') (body : List Char) :
    unquote (q :: (body ++ [q])) = body := by
  rw [unquote, if_pos, List.dropLast_concat]
  refine ⟨hq, ?_, List.getLast?_concat⟩
  rw [Bool.not_eq_true', List.isEmpty_eq_false_iff]
  exact List.append_ne_nil_of_right_ne_nil _ (List.cons_ne_nil q [])

/-- A text is read back from every way to write it. -/
theorem value_written {q : Char} (hq : q = '\'' ∨ q = '"') {v : String} {body : List Char}
    (h : Written q v.toList body) : value (.ofList (q :: (body ++ [q]))) = v := by
  obtain ⟨u, hu, hv⟩ := h.exists_denotes
  rw [value, valueChars, String.toList_ofList, unquote_quoted hq, hu.unescape_eq, hv.joinHalves_eq,
    String.ofList_toList]

/-- The halves of a character on two lines, after a mark that could be taken for that of a byte
order. -/
theorem value_written_halves :
    Written '\'' "\uFEFF😀'".toList "\uFEFF\\uD83D\\\r\n\\uDE00\\'".toList ∧
      value "'\uFEFF\\uD83D\\\r\n\\uDE00\\''" = "\uFEFF😀'" := by
  have hfirst : Number ['u', 'D', '8', '3', 'D'] (Utf16.high '😀') :=
    .four rfl (hex_hexValue (List.all_eq_true.mp rfl))
  have hsecond : Number ['u', 'D', 'E', '0', '0'] (Utf16.low '😀') :=
    .four rfl (hex_hexValue (List.all_eq_true.mp rfl))
  have hmark : Spelled '\'' '\uFEFF' ['\uFEFF'] :=
    .plain (by decide) (by decide) (by decide) (by decide)
  have hends : ∀ e ∈ [['\r', '\n']], e ∈ lineEnds := by decide
  have hsmile : Spelled '\'' '😀' _ := .halves (by decide) hfirst hends hsecond
  have h : Written '\'' "\uFEFF😀'".toList "\uFEFF\\uD83D\\\r\n\\uDE00\\'".toList :=
    .cons hmark (.cons hsmile (.cons (.escaped (.inl rfl)) .nil))
  have hquoted : String.ofList ('\'' :: ("\uFEFF\\uD83D\\\r\n\\uDE00\\'".toList ++ ['\''])) =
      "'\uFEFF\\uD83D\\\r\n\\uDE00\\''" := by decide
  have hvalue := value_written (.inl rfl) h
  rw [hquoted] at hvalue
  exact ⟨h, hvalue⟩

end HardcodedText.StringLiteral
