import Mathlib.Data.List.TakeWhile
import HardcodedText.Workspace.Path

/-!
# Paths and the texts that write them

Cutting a text at its slashes and putting names together with slashes undo each other
(`intercalate_components`, `components_intercalate`), and one text after another writes one path
after another (`ofText_extend`).  The text of a path that was read writes the same path again
(`ofText_text`), so such paths can be told apart by their texts.
-/

namespace HardcodedText.Path

/-! ## Cutting at slashes -/

theorem components_ne_nil (text : String) : components text ≠ [] :=
  fun h ↦ List.splitOn_ne_nil _ _ (List.map_eq_nil_iff.mp h)

theorem toList_append_slash (a b : String) :
    (a ++ "/" ++ b).toList = a.toList ++ '/' :: b.toList := by
  rw [String.toList_append, String.toList_append, List.append_assoc]
  rfl

theorem components_append_slash (a b : String) :
    components (a ++ "/" ++ b) = components a ++ components b := by
  rw [components, toList_append_slash, List.splitOn_append_cons_self, List.map_append]
  rfl

theorem components_of_notMem {text : String} (h : '/' ∉ text.toList) :
    components text = [text] := by
  rw [components, List.splitOn_eq_singleton h, List.map_singleton, String.ofList_toList]

theorem intercalate_components (text : String) : "/".intercalate (components text) = text := by
  rw [← String.toList_inj, String.toList_intercalate, components, List.map_map]
  have hid : String.toList ∘ String.ofList = id := funext fun _ ↦ String.toList_ofList
  rw [hid, List.map_id]
  exact List.intercalate_splitOn '/'

theorem components_intercalate {names : List String} (h : ∀ name ∈ names, '/' ∉ name.toList)
    (hne : names ≠ []) : components ("/".intercalate names) = names := by
  have hparts : ∀ cs ∈ names.map String.toList, '/' ∉ cs := List.forall_mem_map.mpr h
  have hsplit := List.splitOn_intercalate '/' hparts (mt List.map_eq_nil_iff.mp hne)
  have hid : String.ofList ∘ String.toList = id := funext fun _ ↦ String.ofList_toList
  rw [components, String.toList_intercalate]
  change (List.splitOn '/' (['/'].intercalate _)).map _ = names
  rw [hsplit, List.map_map, hid, List.map_id]

theorem notMem_of_mem_splitOn {chars part : List Char} (h : part ∈ chars.splitOn '/') :
    '/' ∉ part := by
  by_cases hslash : '/' ∈ chars
  · obtain ⟨before, after, rfl, hbefore⟩ := List.eq_append_cons_of_mem hslash
    rw [List.splitOn_append_cons_self_of_not_mem hbefore] at h
    rcases List.mem_cons.mp h with rfl | h
    · exact hbefore
    · exact notMem_of_mem_splitOn h
  · rw [List.splitOn_eq_singleton hslash] at h
    rwa [List.mem_singleton.mp h]
termination_by chars.length
decreasing_by
  subst_vars
  simp only [List.length_append, List.length_cons]
  omega

theorem notMem_of_mem_components {text part : String} (h : part ∈ components text) :
    '/' ∉ part.toList := by
  obtain ⟨cs, hcs, rfl⟩ := List.mem_map.mp h
  rw [String.toList_ofList]
  exact notMem_of_mem_splitOn hcs

theorem mem_iff_exists_mem_splitOn {c : Char} (hc : c ≠ '/') (chars : List Char) :
    c ∈ chars ↔ ∃ part ∈ chars.splitOn '/', c ∈ part := by
  by_cases hslash : '/' ∈ chars
  · obtain ⟨before, after, rfl, hbefore⟩ := List.eq_append_cons_of_mem hslash
    rw [List.splitOn_append_cons_self_of_not_mem hbefore, List.mem_append, List.mem_cons,
      or_iff_right hc, mem_iff_exists_mem_splitOn hc after]
    constructor
    · rintro (h | ⟨part, hpart, h⟩)
      · exact ⟨before, List.mem_cons_self, h⟩
      · exact ⟨part, List.mem_cons_of_mem _ hpart, h⟩
    · rintro ⟨part, hpart, h⟩
      rcases List.mem_cons.mp hpart with rfl | hpart
      · exact .inl h
      · exact .inr ⟨part, hpart, h⟩
  · rw [List.splitOn_eq_singleton hslash]
    constructor
    · exact fun h ↦ ⟨chars, List.mem_singleton_self chars, h⟩
    · rintro ⟨part, hpart, h⟩
      rwa [List.mem_singleton.mp hpart] at h
termination_by chars.length
decreasing_by
  subst_vars
  simp only [List.length_append, List.length_cons]
  omega

/-- The characters of a text, its slashes apart, are those of its parts. -/
theorem mem_toList_iff_exists_mem_components {c : Char} (hc : c ≠ '/') {text : String} :
    c ∈ text.toList ↔ ∃ part ∈ components text, c ∈ part.toList := by
  rw [mem_iff_exists_mem_splitOn hc, components]
  constructor
  · rintro ⟨part, hpart, h⟩
    exact ⟨.ofList part, List.mem_map_of_mem hpart, by rwa [String.toList_ofList]⟩
  · rintro ⟨_, hpart, h⟩
    obtain ⟨part, hmem, rfl⟩ := List.mem_map.mp hpart
    rw [String.toList_ofList] at h
    exact ⟨part, hmem, h⟩

/-- A part before the last one stands at the start or after a slash, and before a slash. -/
theorem mem_dropLast_components_iff {name text : String} (h : '/' ∉ name.toList) :
    name ∈ (components text).dropLast ↔
      (∃ after, text = name ++ "/" ++ after) ∨
        ∃ before after, text = before ++ "/" ++ (name ++ "/" ++ after) := by
  constructor
  · intro hmem
    obtain ⟨front, back, hfront⟩ := List.append_of_mem hmem
    have hne := components_ne_nil text
    have hlast : (back ++ [(components text).getLast hne]) ≠ [] :=
      List.append_ne_nil_of_right_ne_nil _ (List.cons_ne_nil _ _)
    have hparts : components text = front ++ name :: (back ++ [(components text).getLast hne]) := by
      rw [← List.cons_append, ← List.append_assoc, ← hfront, List.dropLast_concat_getLast]
    have htext := intercalate_components text
    rw [hparts] at htext
    cases front with
    | nil =>
      rw [List.nil_append, String.intercalate_cons_of_ne_nil hlast] at htext
      exact .inl ⟨_, htext.symm⟩
    | cons first front =>
      rw [String.intercalate_append_of_ne_nil (List.cons_ne_nil _ _) (List.cons_ne_nil _ _),
        String.intercalate_cons_of_ne_nil hlast] at htext
      exact .inr ⟨_, _, htext.symm⟩
  · have hstart (after : String) : name ∈ (components (name ++ "/" ++ after)).dropLast := by
      rw [components_append_slash, components_of_notMem h,
        List.dropLast_append_of_ne_nil (components_ne_nil after)]
      exact List.mem_append_left _ (List.mem_singleton_self name)
    rintro (⟨after, rfl⟩ | ⟨before, after, rfl⟩)
    · exact hstart after
    · rw [components_append_slash, List.dropLast_append_of_ne_nil (components_ne_nil _)]
      exact List.mem_append_right _ (hstart after)

/-- A number of slashes. -/
def slashes (n : Nat) : String :=
  .ofList (.replicate n '/')

theorem eq_of_mem_slashes {n : Nat} {c : Char} (h : c ∈ (slashes n).toList) : c = '/' := by
  rw [slashes, String.toList_ofList] at h
  exact (List.mem_replicate.mp h).2

theorem append_slashes_zero (text : String) : text ++ slashes 0 = text :=
  String.append_empty

theorem append_slashes_succ (text : String) (n : Nat) :
    text ++ slashes (n + 1) = text ++ slashes n ++ "/" := by
  rw [slashes, List.replicate_succ', String.ofList_append, ← String.append_assoc]
  rfl

theorem components_append_slashes (text : String) (n : Nat) :
    components (text ++ slashes n) = components text ++ List.replicate n "" := by
  induction n with
  | zero => rw [append_slashes_zero, List.replicate_zero, List.append_nil]
  | succ n ih =>
    have hlast := components_append_slash (text ++ slashes n) ""
    rw [String.append_empty, ih] at hlast
    rw [append_slashes_succ, hlast, List.replicate_succ', List.append_assoc]
    rfl

theorem hasNul_append (a b : String) : hasNul (a ++ b) = (hasNul a || hasNul b) := by
  rw [hasNul, hasNul, hasNul, String.toList_append, List.contains_append]

/-! ## Names -/

theorem isName_of_mem_names {text name : String} (h : name ∈ (ofText text).names) :
    IsName name := by
  obtain ⟨hmem, hstep⟩ := List.mem_filter.mp h
  exact ⟨hstep, notMem_of_mem_components hmem⟩

theorem IsName.ne_empty {name : String} (h : IsName name) : name ≠ "" := by
  rintro rfl
  exact Bool.false_ne_true h.isStep

theorem names_append_slash (a b : String) :
    (ofText (a ++ "/" ++ b)).names = (ofText a).names ++ (ofText b).names := by
  rw [ofText]
  dsimp only
  rw [components_append_slash, List.filter_append]
  rfl

theorem names_intercalate {names : List String} (h : ∀ name ∈ names, IsName name) :
    (ofText ("/".intercalate names)).names = names := by
  cases names with
  | nil => rfl
  | cons name names =>
    rw [ofText]
    dsimp only
    rw [components_intercalate (fun name hname ↦ (h name hname).noSlash) (List.cons_ne_nil _ _)]
    exact List.filter_eq_self.mpr fun name hname ↦ (h name hname).isStep

theorem IsName.names {name : String} (h : IsName name) : (ofText name).names = [name] := by
  have := names_intercalate (List.forall_mem_singleton.mpr h)
  rwa [String.intercalate_singleton] at this

/-! ## Texts that do not start at the root -/

/-- A text writes a path that starts at the current directory. -/
def Relative (text : String) : Prop :=
  text.toList.head? ≠ some '/'

instance (text : String) : Decidable (Relative text) :=
  inferInstanceAs (Decidable (_ ≠ _))

theorem relative_of_notMem {text : String} (h : '/' ∉ text.toList) : Relative text :=
  fun heq ↦ h (List.mem_of_head? heq)

theorem anchorOf_eq_empty_iff {text : String} : anchorOf text = "" ↔ Relative text := by
  rw [anchorOf, Relative]
  cases text.toList with
  | nil =>
    constructor
    · rintro _ ⟨⟩
    · exact fun _ ↦ rfl
  | cons c cs =>
    rw [List.takeWhile_cons, List.head?_cons]
    by_cases hc : c = '/'
    · subst hc
      rw [if_pos (beq_iff_eq.mpr rfl)]
      constructor
      · intro h
        split at h
        · next heq => cases heq
        · exact absurd h (by decide)
        · exact absurd h (by decide)
      · exact fun h ↦ absurd rfl h
    · rw [if_neg (mt beq_iff_eq.mp hc)]
      constructor
      · exact fun _ h ↦ hc (Option.some_inj.mp h)
      · exact fun _ ↦ rfl

theorem Relative.ofText_eq {text : String} (h : Relative text) :
    ofText text = ⟨"", (ofText text).names⟩ := by
  rw [← anchorOf_eq_empty_iff.mpr h]
  rfl

theorem head?_toList_append {a : String} (ha : a ≠ "") (b : String) :
    (a ++ b).toList.head? = a.toList.head? := by
  rw [String.toList_append]
  cases hchars : a.toList with
  | nil => exact absurd (String.toList_eq_nil_iff.mp hchars) ha
  | cons c cs => rfl

theorem Relative.append {a b : String} (h : Relative a) (ha : a ≠ "") : Relative (a ++ b) := by
  rwa [Relative, head?_toList_append ha]

theorem exists_eq_slash_append {text : String} (h : ¬ Relative text) :
    ∃ rest, text = "" ++ "/" ++ rest := by
  obtain ⟨rest, hrest⟩ := List.head?_eq_some_iff.mp (not_not.mp h)
  refine ⟨.ofList rest, ?_⟩
  rw [← String.toList_inj, toList_append_slash, hrest, @String.toList_ofList rest]
  rfl

theorem IsName.relative {name : String} (h : IsName name) : Relative name :=
  relative_of_notMem h.noSlash

theorem Relative.of_isPrefix {a b : String} (h : Relative b) (hbefore : a.toList <+: b.toList) :
    Relative a := by
  obtain ⟨rest, hrest⟩ := hbefore
  intro heq
  refine h ?_
  rw [← hrest, List.head?_append, heq]
  rfl

theorem relative_intercalate {names : List String} (h : ∀ name ∈ names, IsName name) :
    Relative ("/".intercalate names) := by
  cases names with
  | nil => exact fun h ↦ nomatch h
  | cons name names =>
    have hname := h name List.mem_cons_self
    by_cases hne : names = []
    · subst hne
      rw [String.intercalate_singleton]
      exact hname.relative
    · rw [String.intercalate_cons_of_ne_nil hne, String.append_assoc]
      exact hname.relative.append hname.ne_empty

theorem getLast?_intercalate_ne {names : List String} (h : ∀ name ∈ names, IsName name) :
    ("/".intercalate names).toList.getLast? ≠ some '/' := by
  rcases List.eq_nil_or_concat names with rfl | ⟨front, last, hnames⟩
  · exact fun h ↦ nomatch h
  · rw [List.concat_eq_append] at hnames
    subst hnames
    have hlast := h last (List.mem_append_right _ List.mem_cons_self)
    have hslash : last.toList.getLast? ≠ some '/' := fun heq ↦
      hlast.noSlash (List.mem_of_getLast? heq)
    by_cases hfront : front = []
    · subst hfront
      rwa [List.nil_append, String.intercalate_singleton]
    · rw [String.intercalate_append_of_ne_nil hfront (List.cons_ne_nil _ _),
        String.intercalate_singleton, String.toList_append, List.getLast?_append]
      cases hchars : last.toList.getLast? with
      | none =>
        exact absurd (String.toList_eq_nil_iff.mp (List.getLast?_eq_none_iff.mp hchars))
          hlast.ne_empty
      | some c => rwa [hchars] at hslash

/-- One text after another writes one path after another. -/
theorem names_extend (a : String) {b : String} (hb : Relative b) :
    (ofText (extend a b)).names = (ofText a).names ++ (ofText b).names := by
  rw [extend, if_neg hb]
  split
  · next hcase =>
    rcases hcase with rfl | hlast
    · rw [String.empty_append]
      rfl
    · obtain ⟨front, hfront⟩ := List.getLast?_eq_some_iff.mp hlast
      obtain rfl : a = .ofList front ++ "/" ++ "" := by
        rw [← String.toList_inj, hfront]
        simp
      have hnames := names_append_slash (.ofList front) ""
      rw [hnames, String.append_empty, names_append_slash]
      exact congrArg (· ++ _) (List.append_nil _).symm
  · exact names_append_slash a b

theorem Relative.extend {a b : String} (ha : Relative a) (hb : Relative b) :
    Relative (extend a b) := by
  rw [Path.extend, if_neg hb]
  by_cases hempty : a = ""
  · subst hempty
    rw [if_pos (.inl rfl), String.empty_append]
    exact hb
  · split
    · exact ha.append hempty
    · rw [String.append_assoc]
      exact ha.append hempty

theorem not_relative_extend {a : String} (ha : ¬ Relative a) (b : String) :
    ¬ Relative (extend a b) := by
  have hne : a ≠ "" := by
    rintro rfl
    exact ha fun h ↦ nomatch h
  rw [extend]
  split
  · next hb => exact not_not_intro hb
  · split
    · rwa [Relative, head?_toList_append hne]
    · rwa [String.append_assoc, Relative, head?_toList_append hne]

/-- A path from the current directory on. -/
structure Local (p : Path) : Prop where
  anchor : p.anchor = ""
  names : ∀ name ∈ p.names, IsName name

theorem Relative.local {text : String} (h : Relative text) : (ofText text).Local :=
  ⟨anchorOf_eq_empty_iff.mpr h, fun _ ↦ isName_of_mem_names⟩

theorem Local.names_text {p : Path} (h : Local p) : (ofText p.text).names = p.names := by
  rw [text]
  split
  · next hempty =>
    rw [hempty.2]
    rfl
  · rw [h.anchor, String.empty_append]
    exact names_intercalate h.names

/-! ## Where a path starts -/

theorem anchorOf_append_of_relative (a : String) {b : String} (h : Relative b) :
    anchorOf (a ++ b) = anchorOf a := by
  have hnone : b.toList.takeWhile (· == '/') = [] := by
    cases hchars : b.toList with
    | nil => rfl
    | cons c cs =>
      rw [Relative, hchars, List.head?_cons] at h
      rw [List.takeWhile_cons, if_neg]
      exact fun hc ↦ h (congrArg some (beq_iff_eq.mp hc))
  have htake : (a ++ b).toList.takeWhile (· == '/') = a.toList.takeWhile (· == '/') := by
    rw [String.toList_append, List.takeWhile_append, hnone]
    split
    · next hlength => rw [(List.takeWhile_sublist _).eq_of_length hlength, List.append_nil]
    · rfl
  rw [anchorOf, anchorOf, htake]

/-- What comes after a character other than a slash has no part in where a path starts. -/
theorem anchorOf_append_of_mem {a : String} {c : Char} (hc : c ∈ a.toList) (hslash : c ≠ '/')
    (b : String) : anchorOf (a ++ b) = anchorOf a := by
  rw [anchorOf, anchorOf, String.toList_append, List.takeWhile_append, if_neg]
  intro hlength
  have hall := List.all_takeWhile (p := (· == '/')) (l := a.toList)
  rw [(List.takeWhile_sublist _).eq_of_length hlength] at hall
  exact hslash (beq_iff_eq.mp (List.all_eq_true.mp hall c hc))

theorem exists_mem_of_getLast?_ne {text : String} (hne : text ≠ "")
    (hlast : text.toList.getLast? ≠ some '/') : ∃ c ∈ text.toList, c ≠ '/' := by
  cases hchars : text.toList.getLast? with
  | none => exact absurd (String.toList_eq_nil_iff.mp (List.getLast?_eq_none_iff.mp hchars)) hne
  | some c =>
    refine ⟨c, List.mem_of_getLast? hchars, ?_⟩
    rintro rfl
    exact hlast hchars

/-- One text after another writes one path after another. -/
theorem ofText_extend (a b : String) : ofText (extend a b) = (ofText a).append (ofText b) := by
  by_cases hb : Relative b
  · have hanchor : anchorOf (extend a b) = anchorOf a := by
      rw [extend, if_neg hb]
      split
      · exact anchorOf_append_of_relative a hb
      · next hcase =>
        obtain ⟨hne, hlast⟩ := not_or.mp hcase
        obtain ⟨c, hc, hslash⟩ := exists_mem_of_getLast?_ne hne hlast
        rw [String.append_assoc]
        exact anchorOf_append_of_mem hc hslash _
    have hnames := names_extend a hb
    rw [append, hb.ofText_eq, if_pos rfl, ← hnames]
    exact congrArg (Path.mk · _) hanchor
  · have hanchor : (ofText b).anchor ≠ "" := mt anchorOf_eq_empty_iff.mp hb
    rw [extend, if_pos (not_not.mp hb), append, if_neg hanchor]

/-- Slashes at the end of a text do not change the path that it writes. -/
theorem ofText_append_slashes {text : String} (hne : text ≠ "")
    (hlast : text.toList.getLast? ≠ some '/') (n : Nat) :
    ofText (text ++ slashes n) = ofText text := by
  obtain ⟨c, hc, hslash⟩ := exists_mem_of_getLast?_ne hne hlast
  have hnames : (components (text ++ slashes n)).filter isStep =
      (components text).filter isStep := by
    rw [components_append_slashes, List.filter_append, List.filter_replicate, if_neg (by decide),
      List.append_nil]
  rw [ofText, ofText, anchorOf_append_of_mem hc hslash, hnames]

/-! ## Reading the text of a path -/

theorem anchorOf_cases (text : String) :
    anchorOf text = "" ∨ anchorOf text = "/" ∨ anchorOf text = "//" := by
  rw [anchorOf]
  split
  · exact .inl rfl
  · exact .inr (.inr rfl)
  · exact .inr (.inl rfl)

/-- The text of an anchor and names writes them. -/
theorem ofText_anchor_append {anchor : String} (h : anchor = "" ∨ anchor = "/" ∨ anchor = "//")
    {names : List String} (hnames : ∀ name ∈ names, IsName name) :
    ofText (anchor ++ "/".intercalate names) = ⟨anchor, names⟩ := by
  have hrelative := relative_intercalate hnames
  have hread := names_intercalate hnames
  rcases h with rfl | rfl | rfl
  · rw [String.empty_append, hrelative.ofText_eq, hread]
  · have hafter := names_append_slash "" ("/".intercalate names)
    rw [String.empty_append, hread] at hafter
    exact congr (congrArg Path.mk (anchorOf_append_of_relative "/" hrelative)) hafter
  · have hafter := names_append_slash "/" ("/".intercalate names)
    rw [hread] at hafter
    exact congr (congrArg Path.mk (anchorOf_append_of_relative "//" hrelative)) hafter

/-- A path that a text can write. -/
structure WellFormed (p : Path) : Prop where
  anchor : p.anchor = "" ∨ p.anchor = "/" ∨ p.anchor = "//"
  names : ∀ name ∈ p.names, IsName name

theorem wellFormed_ofText (text : String) : (ofText text).WellFormed :=
  ⟨anchorOf_cases text, fun _ ↦ isName_of_mem_names⟩

/-- The text of a path that a text can write does write it. -/
theorem WellFormed.ofText_text {p : Path} (h : p.WellFormed) : ofText p.text = p := by
  obtain ⟨anchor, names⟩ := p
  rw [Path.text]
  split
  · next hempty =>
    obtain ⟨rfl, rfl⟩ := hempty
    rfl
  · exact ofText_anchor_append h.anchor h.names

theorem WellFormed.append {p q : Path} (hp : p.WellFormed) (hq : q.WellFormed) :
    (p.append q).WellFormed := by
  rw [Path.append]
  split
  · exact ⟨hp.anchor, List.forall_mem_append.mpr ⟨hp.names, hq.names⟩⟩
  · exact hq

theorem WellFormed.components_text {p : Path} (h : p.WellFormed) (hne : p.names ≠ []) :
    ∃ slashes, components p.text = slashes ++ p.names := by
  have hnames := components_intercalate (fun name hname ↦ (h.names name hname).noSlash) hne
  have hslash (before : String) := components_append_slash before ("/".intercalate p.names)
  rw [text, if_neg fun hempty ↦ hne hempty.2]
  rcases h.anchor with hanchor | hanchor | hanchor
  · exact ⟨[], by rw [hanchor, String.empty_append, hnames, List.nil_append]⟩
  · refine ⟨components "", ?_⟩
    rw [hanchor, ← hnames, ← hslash, hnames]
    rfl
  · refine ⟨components "/", ?_⟩
    rw [hanchor, ← hnames, ← hslash, hnames]
    rfl

/-- Reading the text of a path that was read gives the path again. -/
theorem ofText_text (text : String) : ofText (ofText text).text = ofText text :=
  (wellFormed_ofText text).ofText_text

theorem ofText_inj_of_text {a b : String} (h : (ofText a).text = (ofText b).text) :
    ofText a = ofText b := by
  rw [← ofText_text a, h, ofText_text]

/-- After the same names, different names make different texts. -/
theorem intercalate_append_inj {names ps qs : List String} (hps : ∀ name ∈ ps, IsName name)
    (hqs : ∀ name ∈ qs, IsName name)
    (h : "/".intercalate (names ++ ps) = "/".intercalate (names ++ qs)) : ps = qs := by
  induction names with
  | nil =>
    rw [List.nil_append, List.nil_append] at h
    rw [← names_intercalate hps, h, names_intercalate hqs]
  | cons name names ih =>
    have hlonger (more : String) : name ++ "/" ++ more ≠ name := by
      rw [String.append_assoc, ne_eq, String.append_eq_left_iff, String.append_eq_empty_iff]
      exact fun h ↦ absurd h.1 (by decide)
    rw [List.cons_append, List.cons_append] at h
    by_cases hp : names ++ ps = []
    · by_cases hq : names ++ qs = []
      · exact List.append_cancel_left (hp.trans hq.symm)
      · rw [hp, String.intercalate_singleton, String.intercalate_cons_of_ne_nil hq] at h
        exact absurd h.symm (hlonger _)
    · by_cases hq : names ++ qs = []
      · rw [hq, String.intercalate_singleton, String.intercalate_cons_of_ne_nil hp] at h
        exact absurd h (hlonger _)
      · rw [String.intercalate_cons_of_ne_nil hp, String.intercalate_cons_of_ne_nil hq] at h
        exact ih ((String.append_right_inj _).mp h)

/-- Two paths that lead on from one path have different texts. -/
theorem Local.eq_of_text_append {root p q : Path} (hp : p.Local) (hq : q.Local)
    (h : (root.append p).text = (root.append q).text) : p = q := by
  have happend {r : Path} (hr : r.Local) :
      root.append r = ⟨root.anchor, root.names ++ r.names⟩ := by
    rw [append, if_pos hr.anchor]
  have hnames : p.names = q.names := by
    rw [happend hp, happend hq] at h
    by_cases hroot : root.anchor = "" ∧ root.names = []
    · rw [hroot.1, hroot.2, List.nil_append, List.nil_append, ← hp.anchor] at h
      rw [← hp.names_text, h, hp.anchor, ← hq.anchor, hq.names_text]
    · have htext (names : List String) : (⟨root.anchor, root.names ++ names⟩ : Path).text =
          root.anchor ++ "/".intercalate (root.names ++ names) :=
        if_neg fun hempty ↦ hroot ⟨hempty.1, (List.append_eq_nil_iff.mp hempty.2).1⟩
      rw [htext, htext] at h
      exact intercalate_append_inj hp.names hq.names ((String.append_right_inj _).mp h)
  obtain ⟨anchor, names⟩ := p
  obtain ⟨anchor', names'⟩ := q
  obtain rfl : anchor = anchor' := hp.anchor.trans hq.anchor.symm
  exact congrArg _ hnames

/-- After a path from the current directory on, two paths that were read have different texts. -/
theorem Local.ofText_eq_of_text_append {root : Path} (hroot : root.Local) {a b : String}
    (h : (root.append (ofText a)).text = (root.append (ofText b)).text) : ofText a = ofText b := by
  have hwell (text : String) : (root.append (ofText text)).WellFormed :=
    WellFormed.append ⟨.inl hroot.anchor, hroot.names⟩ (wellFormed_ofText text)
  have happend : root.append (ofText a) = root.append (ofText b) := by
    rw [← (hwell a).ofText_text, h, (hwell b).ofText_text]
  by_cases ha : (ofText a).anchor = "" <;> by_cases hb : (ofText b).anchor = ""
  · exact Local.eq_of_text_append ⟨ha, fun _ ↦ isName_of_mem_names⟩
      ⟨hb, fun _ ↦ isName_of_mem_names⟩ h
  · rw [append, append, if_pos ha, if_neg hb] at happend
    exact absurd ((congrArg Path.anchor happend).symm.trans hroot.anchor) hb
  · rw [append, append, if_neg ha, if_pos hb] at happend
    exact absurd ((congrArg Path.anchor happend).trans hroot.anchor) ha
  · rwa [append, append, if_neg ha, if_neg hb] at happend

end HardcodedText.Path
