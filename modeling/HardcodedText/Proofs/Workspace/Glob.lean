import HardcodedText.Proofs.Pattern.Wildcard
import HardcodedText.Proofs.Workspace.Basic
import HardcodedText.Workspace.Glob

/-!
# What patterns of paths find

The names on the way to a file that a pattern finds fall into blocks, one for each part of the
pattern: any number of names for `**`, and one name that the part accepts for every other part
(`Glob.Matches`).  The last block is never empty, since `**` at the end stands for what lies in a
directory, and that is where a pattern that finds the directory itself would end
(`Glob.finds_of_mem_expand`).
-/

namespace HardcodedText.Glob

open HardcodedText.Path (IsName Relative)

/-! ## Parts and blocks of names -/

/-- The names that a part of a pattern can stand for. -/
inductive Fits : String → List String → Prop
  | stars (names : List String) : Fits "**" names
  | name {part name : String} (h : Wildcard.accepts part name = true) : Fits part [name]

/-- The names that parts of a pattern can stand for one after another. -/
inductive Matches : List String → List String → Prop
  | nil : Matches [] []
  | cons {part : String} {parts block names : List String} (hfits : Fits part block)
      (hrest : Matches parts names) : Matches (part :: parts) (block ++ names)

theorem Fits.matches_singleton {part : String} {block : List String} (h : Fits part block) :
    Matches [part] block := by
  have := Matches.cons h .nil
  rwa [List.append_nil] at this

theorem matches_append_iff {parts parts' names : List String} :
    Matches (parts ++ parts') names ↔
      ∃ first rest, names = first ++ rest ∧ Matches parts first ∧ Matches parts' rest := by
  induction parts generalizing names with
  | nil =>
    constructor
    · exact fun h ↦ ⟨[], names, rfl, .nil, h⟩
    · rintro ⟨first, rest, rfl, hfirst, hrest⟩
      cases hfirst
      exact hrest
  | cons part parts ih =>
    constructor
    · intro h
      cases h with
      | cons hfits hrest =>
        obtain ⟨first, rest, rfl, hfirst, hrest⟩ := ih.mp hrest
        exact ⟨_, rest, (List.append_assoc ..).symm, .cons hfits hfirst, hrest⟩
    · rintro ⟨first, rest, rfl, hfirst, hrest⟩
      cases hfirst with
      | cons hfits hfirst =>
        rw [List.append_assoc]
        exact .cons hfits (ih.mpr ⟨_, rest, rfl, hfirst, hrest⟩)

theorem Matches.append {parts parts' names names' : List String} (h : Matches parts names)
    (h' : Matches parts' names') : Matches (parts ++ parts') (names ++ names') :=
  matches_append_iff.mpr ⟨names, names', rfl, h, h'⟩

/-- A part without wildcards accepts itself. -/
theorem fits_self {part : String} (h : hasWildcard part = false) : Fits part [part] := by
  refine .name ?_
  have hliteral : ∀ c ∈ part.toList, Wildcard.isSpecial c = false := by
    intro c hc
    exact Bool.eq_false_iff.mpr (List.any_eq_false.mp h c hc)
  rw [Wildcard.accepts, Wildcard.tokens_of_literal hliteral]
  exact Wildcard.run_map_char part.toList

theorem matches_self {parts : List String} (h : ∀ part ∈ parts, hasWildcard part = false) :
    Matches parts parts := by
  induction parts with
  | nil => exact .nil
  | cons part parts ih =>
    obtain ⟨hpart, hparts⟩ := List.forall_mem_cons.mp h
    exact .cons (fits_self hpart) (ih hparts)

/-- A path is one that a pattern with the given parts can find as a file. -/
def Finds (parts : List String) (p : Path) : Prop :=
  ∃ front last names block, parts = front ++ [last] ∧ Matches front names ∧ Fits last block ∧
    block ≠ [] ∧ p = ⟨"", names ++ block⟩

/-! ## One part -/

variable {ws : Workspace}

theorem isName_of_mem_namesIn {place : List String} {directoriesOnly : Bool}
    {name : String} (h : name ∈ namesIn ws place directoriesOnly) : IsName name := by
  obtain ⟨⟨p, entry⟩, he, h⟩ := List.mem_filterMap.mp h
  have hlast : p.getLast? = some name := by
    dsimp only at h
    split at h
    · cases h
    · split at h
      · exact h
      · cases h
  exact ws.named _ he name (List.mem_of_getLast? hlast)

theorem exists_of_mem_pathsBelow {place : List String} {directoriesOnly : Bool} {text : String}
    (h : text ∈ pathsBelow ws place directoriesOnly) :
    ∃ names, names ≠ [] ∧ (∀ name ∈ names, IsName name) ∧ text = "/".intercalate names := by
  obtain ⟨⟨p, entry⟩, he, h⟩ := List.mem_filterMap.mp h
  refine ⟨p.drop place.length, ?_,
    fun name hname ↦ ws.named _ he name (List.mem_of_mem_drop hname), ?_⟩
  all_goals
    dsimp only at h
    split at h
    · cases h
    · split at h
      · next hbelow =>
        cases h
        first | rfl | exact hbelow.2.1
      · cases h

theorem relative_of_mem_pick {here part text : String} {directoriesOnly : Bool}
    (hpart : '/' ∉ part.toList) (h : text ∈ pick ws here part directoriesOnly) : Relative text := by
  rw [pick] at h
  split at h
  · split at h
    · rcases List.mem_cons.mp h with rfl | h
      · exact fun h ↦ nomatch h
      · obtain ⟨names, -, hnames, rfl⟩ := exists_of_mem_pathsBelow h
        exact Path.relative_intercalate hnames
    · cases h
  · split at h
    · split at h
      · exact (isName_of_mem_namesIn (List.mem_filter.mp h).1).relative
      · cases h
    · split at h
      · split at h
        · rw [List.mem_singleton.mp h]
          exact fun h ↦ nomatch h
        · cases h
      · split at h
        · rw [List.mem_singleton.mp h]
          exact Path.relative_of_notMem hpart
        · cases h

/-- What a part picks are names that it can stand for. -/
theorem fits_of_mem_pick {here part text : String} {directoriesOnly : Bool} (hpart : IsName part)
    (h : text ∈ pick ws here part directoriesOnly) : Fits part (Path.ofText text).names := by
  rw [pick] at h
  split at h
  · next hstars =>
    subst hstars
    exact .stars _
  · split at h
    · split at h
      · obtain ⟨hmem, haccepts⟩ := List.mem_filter.mp h
        rw [(isName_of_mem_namesIn hmem).names]
        exact .name (Bool.and_eq_true_iff.mp haccepts).2
      · cases h
    · next hwild =>
      rw [if_neg hpart.ne_empty] at h
      split at h
      · obtain rfl := List.mem_singleton.mp h
        rw [hpart.names]
        exact fits_self (Bool.eq_false_iff.mpr hwild)
      · cases h

/-- A part that picks a directory itself, and nothing in it, has looked for the directory. -/
theorem directory?_of_mem_pick {here part text : String} {directoriesOnly : Bool}
    (h : text ∈ pick ws here part directoriesOnly) (hpart : part = "" ∨ IsName part)
    (htext : (Path.ofText text).names = []) : (ws.directory? here).isSome = true := by
  rw [pick] at h
  split at h
  · split at h
    · next hdir =>
      rw [hdir]
      rfl
    · cases h
  · split at h
    · split at h
      · next hdir =>
        rw [hdir]
        rfl
      · cases h
    · split at h
      · split at h
        · assumption
        · cases h
      · next hne =>
        split at h
        · obtain rfl := List.mem_singleton.mp h
          rw [(hpart.resolve_left hne).names] at htext
          cases htext
        · cases h

/-! ## All parts -/

/-- A text leads to a path that the parts of a pattern can stand for. -/
structure Reached (parts : List String) (text : String) : Prop where
  relative : Relative text
  names : Matches parts (Path.ofText text).names

theorem Reached.extend {parts : List String} {dir : String} (h : Reached parts dir)
    {part text : String} (htext : Relative text) (hfits : Fits part (Path.ofText text).names) :
    Reached (parts ++ [part]) (Path.extend dir text) := by
  refine ⟨h.relative.extend htext, ?_⟩
  rw [Path.names_extend dir htext]
  exact h.names.append hfits.matches_singleton

/-- Every text that is found for the parts of a pattern is picked by the last part in a directory
that is found for the others. -/
theorem exists_of_mem_find {root text last : String}
    {found before parts : List String} (hparts : ∀ part ∈ parts, IsName part)
    (hfound : ∀ dir ∈ found, Reached before dir) (h : text ∈ find ws root found (parts ++ [last])) :
    ∃ dir x, Reached (before ++ parts) dir ∧ x ∈ pick ws (under root dir) last false ∧
      text = Path.extend dir x := by
  induction parts generalizing found before with
  | nil =>
    obtain ⟨dir, hdir, h⟩ := List.mem_flatMap.mp h
    obtain ⟨x, hx, rfl⟩ := List.mem_map.mp h
    rw [List.append_nil]
    exact ⟨dir, x, hfound dir hdir, hx, rfl⟩
  | cons part parts ih =>
    obtain ⟨hpart, hparts⟩ := List.forall_mem_cons.mp hparts
    rw [List.append_cons before part parts]
    refine ih hparts ?_ h
    intro next hnext
    obtain ⟨dir, hdir, hnext⟩ := List.mem_flatMap.mp hnext
    obtain ⟨x, hx, rfl⟩ := List.mem_map.mp hnext
    exact (hfound dir hdir).extend (relative_of_mem_pick hpart.noSlash hx)
      (fits_of_mem_pick hpart hx)

theorem ofText_under {root : Path} (hroot : root.WellFormed) (dir : String) :
    Path.ofText (under root.text dir) = root.append (.ofText dir) := by
  rw [under]
  split
  · next hempty =>
    subst hempty
    rw [hroot.ofText_text]
    exact congrArg (Path.mk _) (List.append_nil _).symm
  · rw [Path.ofText_extend, hroot.ofText_text]

/-- The path of the directory in which a part has picked nothing does not lead to a file. -/
theorem isFile_extend_eq_false {root : Path} (hroot : root.WellFormed) {dir part text : String}
    {directoriesOnly : Bool} (htext : Relative text) (hnames : (Path.ofText text).names = [])
    (h : text ∈ pick ws (under root.text dir) part directoriesOnly)
    (hpart : part = "" ∨ IsName part) :
    ws.isFile (root.append (.ofText (Path.extend dir text))) = false := by
  have hpath : Path.ofText (Path.extend dir text) = .ofText dir := by
    rw [Path.ofText_extend, htext.ofText_eq, hnames, Path.append, if_pos rfl, List.append_nil]
  rw [hpath, ← ofText_under hroot]
  exact Workspace.isFile_eq_false_of_directory? (directory?_of_mem_pick h hpart hnames)

/-- The files found for the parts of a pattern are those that it can find.  None is found if the
last part is empty. -/
theorem finds_of_mem_find {root : Path} (hroot : root.WellFormed) {text last : String}
    {found before parts : List String} (hparts : ∀ part ∈ parts, IsName part)
    (hlast : last = "" ∨ IsName last) (hfound : ∀ dir ∈ found, Reached before dir)
    (h : text ∈ find ws root.text found (parts ++ [last]))
    (hfile : ws.isFile (root.append (.ofText text)) = true) :
    IsName last ∧ Finds (before ++ parts ++ [last]) (.ofText text) := by
  obtain ⟨dir, x, hdir, hx, rfl⟩ := exists_of_mem_find hparts hfound h
  have hsomething : Relative x → (Path.ofText x).names ≠ [] := by
    intro hrelative hnames
    rw [isFile_extend_eq_false hroot hrelative hnames hx hlast] at hfile
    cases hfile
  rcases hlast with rfl | hlast
  · have hempty : x = "" := by
      rw [pick, if_neg (by decide), if_neg (by decide), if_pos rfl] at hx
      split at hx
      · exact List.mem_singleton.mp hx
      · cases hx
    subst hempty
    exact absurd rfl (hsomething fun h ↦ nomatch h)
  · have hrelative := relative_of_mem_pick hlast.noSlash hx
    have hfits := fits_of_mem_pick hlast hx
    refine ⟨hlast, before ++ parts, last, (Path.ofText dir).names, (Path.ofText x).names, rfl,
      hdir.names, hfits, hsomething hrelative, ?_⟩
    rw [← Path.names_extend dir hrelative]
    exact (hdir.relative.extend hrelative).ofText_eq

/-! ## Whole patterns -/

theorem hasWildcard_iff {text : String} :
    hasWildcard text = true ↔ ∃ part ∈ Path.components text, hasWildcard part = true := by
  constructor
  · intro h
    obtain ⟨c, hc, hspecial⟩ := List.any_eq_true.mp h
    have hslash : c ≠ '/' := by
      rintro rfl
      cases hspecial
    obtain ⟨part, hpart, hc⟩ := (Path.mem_toList_iff_exists_mem_components hslash).mp hc
    exact ⟨part, hpart, List.any_eq_true.mpr ⟨c, hc, hspecial⟩⟩
  · rintro ⟨part, hpart, h⟩
    obtain ⟨c, hc, hspecial⟩ := List.any_eq_true.mp h
    have hslash : c ≠ '/' := by
      rintro rfl
      cases hspecial
    have hmem := (Path.mem_toList_iff_exists_mem_components hslash).mpr ⟨part, hpart, hc⟩
    exact List.any_eq_true.mpr ⟨c, hmem, hspecial⟩

theorem reverse_dropWhile_reverse {cs : List Char} (h : cs.getLast? ≠ some '/') :
    (cs.reverse.dropWhile (· == '/')).reverse = cs := by
  rw [← List.head?_reverse] at h
  rw [List.dropWhile_beq_eq_self_of_head?_ne h, List.reverse_reverse]

theorem leadingPath_eq {pattern : String}
    (h : ∀ part ∈ (Path.components pattern).takeWhile (!hasWildcard ·), IsName part) :
    leadingPath pattern =
      "/".intercalate ((Path.components pattern).takeWhile (!hasWildcard ·)) := by
  rw [leadingPath]
  generalize (Path.components pattern).takeWhile (!hasWildcard ·) = leading at h
  rw [reverse_dropWhile_reverse (Path.getLast?_intercalate_ne h), String.ofList_toList, if_neg]
  rintro ⟨hempty, hsome⟩
  have htext : "/".intercalate leading = "" :=
    String.toList_eq_nil_iff.mp (List.isEmpty_iff.mp hempty)
  have hnames := Path.names_intercalate h
  rw [htext] at hnames
  rw [← hnames] at hsome
  cases hsome

section

variable {parts : List String} (hwild : ∃ part ∈ parts, hasWildcard part = true)

include hwild

theorem dropWhile_ne_nil : parts.dropWhile (!hasWildcard ·) ≠ [] := by
  intro hnil
  obtain ⟨part, hpart, hspecial⟩ := hwild
  rw [← List.takeWhile_append_dropWhile (p := (!hasWildcard ·)) (l := parts), hnil,
    List.append_nil] at hpart
  have hplain := List.all_eq_true.mp List.all_takeWhile part hpart
  rw [hspecial] at hplain
  cases hplain

theorem takeWhile_append (more : List String) :
    (parts ++ more).takeWhile (!hasWildcard ·) = parts.takeWhile (!hasWildcard ·) := by
  rw [List.takeWhile_append, if_neg]
  intro hlength
  have hcut := List.takeWhile_append_dropWhile (p := (!hasWildcard ·)) (l := parts)
  rw [(List.takeWhile_sublist _).eq_of_length hlength] at hcut
  exact dropWhile_ne_nil hwild (List.append_right_eq_self.mp hcut)

/-- The parts that come from slashes at the end of a pattern are looked for once. -/
theorem wildParts_append_replicate (hparts : ∀ part ∈ parts, part ≠ "") (n : Nat) :
    wildParts (parts ++ List.replicate n "") =
      parts.dropWhile (!hasWildcard ·) ++ (List.replicate n "").getLast?.toList := by
  have hne := dropWhile_ne_nil hwild
  have hsome : ∀ part ∈ parts.dropWhile (!hasWildcard ·), (part != "") = true := fun part hpart ↦
    bne_iff_ne.mpr (hparts part ((List.dropWhile_sublist _).subset hpart))
  rw [wildParts, List.dropWhile_append, if_neg (mt List.isEmpty_iff.mp hne)]
  generalize parts.dropWhile (!hasWildcard ·) = rest at hne hsome
  cases n with
  | zero =>
    rw [List.replicate_zero, List.append_nil, List.filter_eq_self.mpr, List.getLast?_nil]
    · rw [List.getLast?_eq_some_getLast hne]
      exact (List.dropLast_concat_getLast hne).trans (List.append_nil rest).symm
    · exact fun part hpart ↦ hsome part (List.dropLast_subset _ hpart)
  | succ n =>
    rw [List.replicate_succ', ← List.append_assoc, List.dropLast_concat, List.getLast?_concat,
      List.getLast?_concat, List.filter_append, List.filter_eq_self.mpr hsome,
      List.filter_replicate_of_neg (by decide), List.append_nil]

end

/-! ## Where a pattern starts -/

/-- The path before the first wildcard is the start of the pattern. -/
theorem leadingPath_isPrefix {pattern : String} (h : hasWildcard pattern = true) :
    (leadingPath pattern).toList <+: pattern.toList := by
  have hrest := dropWhile_ne_nil (hasWildcard_iff.mp h)
  have hcut := List.takeWhile_append_dropWhile (p := (!hasWildcard ·))
    (l := Path.components pattern)
  rw [leadingPath]
  generalize (Path.components pattern).takeWhile (!hasWildcard ·) = leading at hcut ⊢
  generalize (Path.components pattern).dropWhile (!hasWildcard ·) = rest at hcut hrest
  by_cases hleading : leading = []
  · subst hleading
    exact List.nil_prefix
  · have hpattern : ("/".intercalate leading ++ "/").toList <+: pattern.toList := by
      have htext := Path.intercalate_components pattern
      rw [← hcut, String.intercalate_append_of_ne_nil hleading hrest] at htext
      have hchars := congrArg String.toList htext
      rw [String.toList_append] at hchars
      exact ⟨_, hchars⟩
    have htrimmed : (("/".intercalate leading).toList.reverse.dropWhile (· == '/')).reverse <+:
        ("/".intercalate leading).toList := by
      rw [← List.reverse_suffix, List.reverse_reverse]
      exact List.dropWhile_suffix _
    split
    · exact hpattern
    · rw [String.toList_append] at hpattern
      rw [String.toList_ofList]
      exact htrimmed.trans ((List.prefix_append _ _).trans hpattern)

theorem leadingPath_ne_empty {pattern : String} (h : ¬ Relative pattern) :
    leadingPath pattern ≠ "" := by
  obtain ⟨rest, rfl⟩ := Path.exists_eq_slash_append h
  have hfirst : ((Path.components ("" ++ "/" ++ rest)).takeWhile (!hasWildcard ·)).isEmpty =
      false := by
    rw [Path.components_append_slash]
    rfl
  rw [leadingPath, hfirst]
  split
  · exact fun h ↦ absurd (String.append_eq_empty_iff.mp h).2 (by decide)
  · next hsome =>
    intro htext
    have hchars := congrArg String.toList htext
    rw [String.toList_ofList] at hchars
    exact hsome ⟨List.isEmpty_iff.mpr hchars, rfl⟩

theorem relative_leadingPath_iff {pattern : String} (h : hasWildcard pattern = true) :
    Relative (leadingPath pattern) ↔ Relative pattern := by
  have hbefore := leadingPath_isPrefix h
  refine ⟨fun hleading ↦ ?_, fun hpattern ↦ hpattern.of_isPrefix hbefore⟩
  by_contra hpattern
  obtain ⟨rest, hrest⟩ := hbefore
  have hhead := Path.head?_toList_append (leadingPath_ne_empty hpattern) (.ofList rest)
  rw [String.toList_append, String.toList_ofList, hrest] at hhead
  rw [Relative, ← hhead] at hleading
  exact hpattern hleading

theorem relative_of_mem_find {root text : String} {parts found : List String}
    (hparts : ∀ part ∈ parts, '/' ∉ part.toList) (hfound : ∀ dir ∈ found, Relative dir)
    (h : text ∈ find ws root found parts) : Relative text := by
  induction parts generalizing found with
  | nil => exact hfound text h
  | cons part parts ih =>
    obtain ⟨hpart, hparts⟩ := List.forall_mem_cons.mp hparts
    refine ih hparts ?_ h
    intro next hnext
    obtain ⟨dir, hdir, hnext⟩ := List.mem_flatMap.mp hnext
    obtain ⟨x, hx, rfl⟩ := List.mem_map.mp hnext
    exact (hfound dir hdir).extend (relative_of_mem_pick hpart hx)

theorem mem_components_of_mem_wildParts {pattern part : String}
    (h : part ∈ wildParts (Path.components pattern)) : part ∈ Path.components pattern := by
  have hrest : part ∈ (Path.components pattern).dropWhile (!hasWildcard ·) := by
    rcases List.mem_append.mp h with h | h
    · exact List.dropLast_subset _ (List.mem_filter.mp h).1
    · exact List.mem_of_getLast? (Option.mem_toList.mp h)
  exact (List.dropWhile_suffix _).subset hrest

/-- What a pattern finds that leads on from the root does so, too. -/
theorem relative_of_mem_expand {root pattern text : String} {found : List String}
    (hpattern : Relative pattern) (hfound : expand ws root pattern = .ok found) (h : text ∈ found) :
    Relative text := by
  rw [expand] at hfound
  split at hfound
  · next hwild =>
    split at hfound
    · cases hfound
    · cases hfound
      refine relative_of_mem_find (fun part hpart ↦ ?_) ?_ h
      · exact Path.notMem_of_mem_components (mem_components_of_mem_wildParts hpart)
      · exact List.forall_mem_singleton.mpr ((relative_leadingPath_iff hwild).mpr hpattern)
  · split at hfound
    · cases hfound
      rwa [List.mem_singleton.mp h]
    · cases hfound
      cases h

theorem not_relative_of_mem_find {root text : String} {parts found : List String}
    (hfound : ∀ dir ∈ found, ¬ Relative dir) (h : text ∈ find ws root found parts) :
    ¬ Relative text := by
  induction parts generalizing found with
  | nil => exact hfound text h
  | cons part parts ih =>
    refine ih ?_ h
    intro next hnext
    obtain ⟨dir, hdir, hnext⟩ := List.mem_flatMap.mp hnext
    obtain ⟨x, -, rfl⟩ := List.mem_map.mp hnext
    exact Path.not_relative_extend (hfound dir hdir) x

/-- What a pattern finds that starts at the root of all directories does so, too. -/
theorem not_relative_of_mem_expand {root pattern text : String} {found : List String}
    (hpattern : ¬ Relative pattern) (hfound : expand ws root pattern = .ok found)
    (h : text ∈ found) : ¬ Relative text := by
  rw [expand] at hfound
  split at hfound
  · next hwild =>
    split at hfound
    · cases hfound
    · cases hfound
      refine not_relative_of_mem_find ?_ h
      exact List.forall_mem_singleton.mpr (mt (relative_leadingPath_iff hwild).mp hpattern)
  · split at hfound
    · cases hfound
      rwa [List.mem_singleton.mp h]
    · cases hfound
      cases h

/-! ## Patterns written as paths -/

theorem hasWildcard_append_slashes_iff {pattern : String} {n : Nat} :
    hasWildcard (pattern ++ Path.slashes n) = true ↔
      ∃ part ∈ Path.components pattern, hasWildcard part = true := by
  rw [hasWildcard_iff, Path.components_append_slashes]
  constructor
  · rintro ⟨part, hpart, hspecial⟩
    rcases List.mem_append.mp hpart with hpart | hpart
    · exact ⟨part, hpart, hspecial⟩
    · rw [(List.mem_replicate.mp hpart).2] at hspecial
      cases hspecial
  · rintro ⟨part, hpart, hspecial⟩
    exact ⟨part, List.mem_append_left _ hpart, hspecial⟩

/-- A pattern without wildcards finds the file at its path. -/
theorem finds_self {pattern : String}
    (hplain : ∀ part ∈ Path.components pattern, hasWildcard part = false) :
    Finds (Path.components pattern) ⟨"", Path.components pattern⟩ := by
  have hne := Path.components_ne_nil pattern
  rw [← List.dropLast_concat_getLast hne] at hplain ⊢
  obtain ⟨hfront, hlast⟩ := List.forall_mem_append.mp hplain
  exact ⟨_, _, _, _, rfl, matches_self hfront, fits_self (hlast _ List.mem_cons_self),
    List.cons_ne_nil _ _, rfl⟩

section

variable {pattern : String} (hsteps : ∀ part ∈ Path.components pattern, Path.isStep part = true)

include hsteps

theorem isName_of_mem_components {part : String} (h : part ∈ Path.components pattern) :
    IsName part :=
  ⟨hsteps part h, Path.notMem_of_mem_components h⟩

theorem isName_of_mem_leading {part : String}
    (h : part ∈ (Path.components pattern).takeWhile (!hasWildcard ·)) : IsName part :=
  isName_of_mem_components hsteps ((List.takeWhile_subset _) h)

theorem ofText_pattern_append_slashes (n : Nat) :
    Path.ofText (pattern ++ Path.slashes n) = ⟨"", Path.components pattern⟩ := by
  have hnames : ∀ part ∈ Path.components pattern, IsName part := fun _ ↦
    isName_of_mem_components hsteps
  have hrelative := Path.relative_intercalate hnames
  have hlast := Path.getLast?_intercalate_ne hnames
  rw [Path.intercalate_components] at hrelative hlast
  have hne : pattern ≠ "" := by
    rintro rfl
    exact (hnames "" List.mem_cons_self).ne_empty rfl
  rw [Path.ofText_append_slashes hne hlast, hrelative.ofText_eq]
  exact congrArg _ (List.filter_eq_self.mpr hsteps)

/-- What comes before the first wildcard is a path as it stands. -/
theorem leadingPath_append_slashes (n : Nat)
    (hwild : ∃ part ∈ Path.components pattern, hasWildcard part = true) :
    leadingPath (pattern ++ Path.slashes n) =
      "/".intercalate ((Path.components pattern).takeWhile (!hasWildcard ·)) := by
  have htake : (Path.components (pattern ++ Path.slashes n)).takeWhile
      (!hasWildcard ·) = (Path.components pattern).takeWhile (!hasWildcard ·) := by
    rw [Path.components_append_slashes, takeWhile_append hwild]
  rw [leadingPath_eq, htake]
  rw [htake]
  exact fun _ ↦ isName_of_mem_leading hsteps

theorem reached_leading :
    Reached ((Path.components pattern).takeWhile (!hasWildcard ·))
      ("/".intercalate ((Path.components pattern).takeWhile (!hasWildcard ·))) := by
  refine ⟨Path.relative_intercalate fun _ ↦ isName_of_mem_leading hsteps, ?_⟩
  rw [Path.names_intercalate fun _ ↦ isName_of_mem_leading hsteps]
  refine matches_self fun part hpart ↦ ?_
  have hplain := List.all_eq_true.mp List.all_takeWhile part hpart
  rwa [Bool.not_eq_true'] at hplain

/-- A pattern with wildcards, and with slashes at its end, finds no files but those that its parts
can find. -/
theorem finds_of_mem_find_wildParts {ws : Workspace} {root : Path} (hroot : root.WellFormed)
    (hwild : ∃ part ∈ Path.components pattern, hasWildcard part = true)
    {n : Nat} {text : String}
    (h : text ∈ find ws root.text [leadingPath (pattern ++ Path.slashes n)]
      (wildParts (Path.components (pattern ++ Path.slashes n))))
    (hfile : ws.isFile (root.append (.ofText text)) = true) :
    Finds (Path.components pattern) (.ofText text) := by
  have hnames : ∀ part ∈ Path.components pattern, IsName part := fun _ ↦
    isName_of_mem_components hsteps
  have hrest := dropWhile_ne_nil hwild
  have hreached := List.forall_mem_singleton.mpr (reached_leading hsteps)
  have hcut := List.takeWhile_append_dropWhile (p := (!hasWildcard ·))
    (l := Path.components pattern)
  rw [leadingPath_append_slashes hsteps n hwild, Path.components_append_slashes,
    wildParts_append_replicate hwild fun part hpart ↦ (hnames part hpart).ne_empty] at h
  generalize (Path.components pattern).takeWhile (!hasWildcard ·) = leading at h hcut hreached
  generalize (Path.components pattern).dropWhile (!hasWildcard ·) = rest at h hcut hrest
  rw [← hcut] at hnames ⊢
  obtain ⟨-, hnames⟩ := List.forall_mem_append.mp hnames
  cases n with
  | zero =>
    rw [List.replicate_zero, List.getLast?_nil, Option.toList_none, List.append_nil] at h
    rw [← List.dropLast_concat_getLast hrest] at h hnames ⊢
    obtain ⟨hfront, hlast⟩ := List.forall_mem_append.mp hnames
    have hlast := List.forall_mem_singleton.mp hlast
    rw [← List.append_assoc]
    exact (finds_of_mem_find hroot hfront (.inr hlast) hreached h hfile).2
  | succ n =>
    rw [List.replicate_succ', List.getLast?_concat] at h
    have hlast := (finds_of_mem_find hroot hnames (.inl rfl) hreached h hfile).1
    exact absurd rfl hlast.ne_empty

/-- The files that are found for a pattern are among those that its parts can find, with or without
slashes at its end. -/
theorem finds_of_mem_expand {ws : Workspace} {root : Path} (hroot : root.WellFormed) {n : Nat}
    {found : List String} (hfound : expand ws root.text (pattern ++ Path.slashes n) = .ok found)
    {text : String} (h : text ∈ found) (hfile : ws.isFile (root.append (.ofText text)) = true) :
    Finds (Path.components pattern) (.ofText text) := by
  rw [expand] at hfound
  split at hfound
  · next hspecial =>
    split at hfound
    · cases hfound
    · cases hfound
      have hwild := hasWildcard_append_slashes_iff.mp hspecial
      exact finds_of_mem_find_wildParts hsteps hroot hwild h hfile
  · next hspecial =>
    split at hfound
    · cases hfound
      obtain rfl := List.mem_singleton.mp h
      rw [ofText_pattern_append_slashes hsteps]
      refine finds_self fun part hpart ↦ Bool.eq_false_iff.mpr fun hwild ↦ ?_
      exact hspecial (hasWildcard_append_slashes_iff.mpr ⟨part, hpart, hwild⟩)
    · cases hfound
      cases h

/-- A pattern can be looked up if it has no character that no path may have. -/
theorem exists_expand_eq_ok (ws : Workspace) (root : String) (n : Nat)
    (hnul : Path.hasNul pattern = false) :
    ∃ found, expand ws root (pattern ++ Path.slashes n) = .ok found := by
  rw [expand]
  split
  · next hspecial =>
    rw [leadingPath_append_slashes hsteps n (hasWildcard_append_slashes_iff.mp hspecial), if_neg]
    · exact ⟨_, rfl⟩
    · intro hleading
      have hchar := List.contains_iff_mem.mp hleading
      by_cases hnil : (Path.components pattern).takeWhile (!hasWildcard ·) = []
      · rw [hnil] at hchar
        cases hchar
      · obtain ⟨part, hpart, hchar⟩ :=
          (Path.mem_toList_iff_exists_mem_components (by decide)).mp hchar
        rw [Path.components_intercalate
          (fun part hpart ↦ (isName_of_mem_leading hsteps hpart).noSlash) hnil] at hpart
        have hmem := (Path.mem_toList_iff_exists_mem_components (by decide)).mpr
          ⟨part, (List.takeWhile_subset _) hpart, hchar⟩
        rw [Path.hasNul, List.contains_iff_mem.mpr hmem] at hnul
        cases hnul
  · split
    · exact ⟨_, rfl⟩
    · exact ⟨_, rfl⟩

end

end HardcodedText.Glob
