import HardcodedText.Discovery
import HardcodedText.Proofs.Pattern.Braces
import HardcodedText.Proofs.Workspace.Glob

/-!
# Arguments and their negations

Include patterns are looked up part by part, exclude patterns are compared with a whole path.  The
two agree on patterns that are written as a path is (`Discovery.Tidy`): every file that such a
pattern finds is one that it excludes (`Discovery.isExcludedBy_of_finds`), so that an argument and
its negation find nothing together (`Discovery.discover_argument_and_negation`).
-/

namespace HardcodedText.Discovery

open Glob (Fits Matches Finds)

/-! ## Patterns written as paths -/

/-- The tokens of the parts of a pattern, with slashes between them. -/
def joined (parts : List String) : List Wildcard.Token :=
  [.char '/'].intercalate (parts.map fun part ↦ Wildcard.tokens part.toList)

/-- A pattern without braces that is written as a path is. -/
structure Tidy (pattern : String) : Prop where
  /-- Every part leads somewhere. -/
  steps : ∀ part ∈ Path.components pattern, Path.isStep part = true
  /-- Any number of directories may be left open only at the start and at the end. -/
  stars : "**" ∉ (Path.components pattern).tail.dropLast
  /-- No set reaches over a slash. -/
  sets : Wildcard.tokens pattern.toList = joined (Path.components pattern)
  /-- There is no character that no path may have. -/
  noNul : Path.hasNul pattern = false

instance (pattern : String) : Decidable (Tidy pattern) :=
  decidable_of_iff
    ((∀ part ∈ Path.components pattern, Path.isStep part = true) ∧
      "**" ∉ (Path.components pattern).tail.dropLast ∧
      Wildcard.tokens pattern.toList = joined (Path.components pattern) ∧
      Path.hasNul pattern = false)
    ⟨fun ⟨steps, stars, sets, noNul⟩ ↦ ⟨steps, stars, sets, noNul⟩,
      fun h ↦ ⟨h.steps, h.stars, h.sets, h.noNul⟩⟩

theorem joined_cons (part : String) {parts : List String} (h : parts ≠ []) :
    joined (part :: parts) = Wildcard.tokens part.toList ++ [.char '/'] ++ joined parts :=
  List.intercalate_cons_of_ne_nil (mt List.map_eq_nil_iff.mp h)

theorem joined_concat {parts : List String} (h : parts ≠ []) (part : String) :
    joined (parts ++ [part]) = joined parts ++ [.char '/'] ++ Wildcard.tokens part.toList := by
  induction parts with
  | nil => exact absurd rfl h
  | cons first parts ih =>
    by_cases hparts : parts = []
    · subst hparts
      rw [List.singleton_append, joined_cons first (List.cons_ne_nil _ _), joined, joined,
        List.map_singleton, List.map_singleton, List.intercalate_singleton,
        List.intercalate_singleton]
    · rw [List.cons_append, joined_cons first (List.append_ne_nil_of_left_ne_nil hparts _),
        ih hparts, joined_cons first hparts]
      simp only [List.append_assoc]

theorem tokens_stars : Wildcard.tokens "**".toList = [.anyRun] := by
  decide +kernel

theorem tokens_stars_slash (cs : List Char) :
    Wildcard.tokens ('*' :: '*' :: '/' :: cs) = .anyRun :: .char '/' :: Wildcard.tokens cs := by
  have hliteral : ∀ c ∈ ['/'], Wildcard.isSpecial c = false :=
    List.forall_mem_singleton.mpr rfl
  have hslash : Wildcard.tokens ('/' :: cs) = .char '/' :: Wildcard.tokens cs :=
    Wildcard.tokens_append_of_literal hliteral cs
  rw [Wildcard.tokens, if_pos rfl, Wildcard.tokens, if_pos rfl, hslash]

/-! ## Excluding what is found -/

theorem run_of_fits {part : String} {block : List String} (h : Fits part block)
    (hne : block ≠ []) :
    Wildcard.run (Wildcard.tokens part.toList) ("/".intercalate block).toList = true := by
  cases h with
  | stars =>
    rw [tokens_stars]
    exact Wildcard.run_anyRun _
  | name h =>
    rw [String.intercalate_singleton]
    exact h

/-- One more part that stands for at least one name. -/
theorem run_joined_cons {part : String} {parts block names : List String} (hfits : Fits part block)
    (hblock : block ≠ []) (hparts : parts ≠ []) (hnames : names ≠ [])
    (h : Wildcard.run (joined parts) ("/".intercalate names).toList = true) :
    Wildcard.run (joined (part :: parts)) ("/".intercalate (block ++ names)).toList = true := by
  have hslash : Wildcard.run [.char '/'] "/".toList = true := Wildcard.run_map_char ['/']
  rw [joined_cons part hparts, String.intercalate_append_of_ne_nil hblock hnames,
    String.toList_append, String.toList_append]
  exact Wildcard.run_append (Wildcard.run_append (run_of_fits hfits hblock) hslash) h

theorem run_joined {front names block : List String} {last : String} (hstars : "**" ∉ front)
    (h : Matches front names) (hlast : Fits last block) (hblock : block ≠ []) :
    Wildcard.run (joined (front ++ [last])) ("/".intercalate (names ++ block)).toList = true := by
  induction h with
  | nil =>
    change Wildcard.run (joined [last]) ("/".intercalate block).toList = true
    rw [joined, List.map_singleton, List.intercalate_singleton]
    exact run_of_fits hlast hblock
  | @cons part parts first names hfits hrest ih =>
    obtain ⟨hpart, hparts⟩ := not_or.mp (mt List.mem_cons.mpr hstars)
    have hfirst : first ≠ [] := by
      cases hfits with
      | stars => exact absurd rfl hpart
      | name => exact List.cons_ne_nil _ _
    rw [List.append_assoc, List.cons_append]
    exact run_joined_cons hfits hfirst (List.append_ne_nil_of_right_ne_nil _ (List.cons_ne_nil _ _))
      (List.append_ne_nil_of_right_ne_nil _ hblock) (ih hparts)

theorem isExcludedBy_of_run {pattern text : String} {parts : List String}
    (hsets : Wildcard.tokens pattern.toList = joined parts)
    (h : Wildcard.run (joined parts) text.toList = true) : isExcludedBy text pattern = true := by
  rw [isExcludedBy, Wildcard.accepts, hsets, h, Bool.true_or]

/-- The two stars at the start of a pattern may be left out. -/
theorem isExcludedBy_of_run_tail {pattern text : String} {parts : List String}
    (hparts : Path.components pattern = "**" :: parts) (hne : parts ≠ [])
    (hsets : Wildcard.tokens pattern.toList = joined (Path.components pattern))
    (h : Wildcard.run (joined parts) text.toList = true) : isExcludedBy text pattern = true := by
  have hpattern : pattern.toList = '*' :: '*' :: '/' :: ("/".intercalate parts).toList := by
    rw [← Path.intercalate_components pattern, hparts, String.intercalate_cons_of_ne_nil hne,
      String.toList_append, String.toList_append]
    rfl
  have htail : Wildcard.tokens ("/".intercalate parts).toList = joined parts := by
    rw [hparts, hpattern, tokens_stars_slash, joined_cons _ hne, tokens_stars] at hsets
    exact List.tail_eq_of_cons_eq (List.tail_eq_of_cons_eq hsets)
  have haccepts : Wildcard.accepts (.ofList ("/".intercalate parts).toList) text = true := by
    rw [String.ofList_toList, Wildcard.accepts, htail, h]
  rw [isExcludedBy, Bool.or_eq_true, hpattern]
  exact .inr haccepts

/-- A file that a tidy pattern can find is excluded by it. -/
theorem isExcludedBy_of_finds {pattern : String} (htidy : Tidy pattern) {p : Path}
    (h : Finds (Path.components pattern) p) : isExcludedBy p.text pattern = true := by
  obtain ⟨front, last, names, block, hparts, hfront, hlast, hblock, rfl⟩ := h
  have hne : ∀ names, names ++ block ≠ [] := fun _ ↦ List.append_ne_nil_of_right_ne_nil _ hblock
  have htext : (⟨"", names ++ block⟩ : Path).text = "/".intercalate (names ++ block) := by
    rw [Path.text, if_neg fun h ↦ hne names h.2, String.empty_append]
  rw [htext]
  cases hfront with
  | nil =>
    have hrun := run_joined List.not_mem_nil .nil hlast hblock
    exact isExcludedBy_of_run (htidy.sets.trans (congrArg joined hparts)) hrun
  | @cons part parts first names hfits hrest =>
    have hstars : "**" ∉ parts := by
      have := htidy.stars
      rwa [hparts, List.cons_append, List.tail_cons, List.dropLast_concat] at this
    have hrun := run_joined hstars hrest hlast hblock
    have hsome : parts ++ [last] ≠ [] := List.append_ne_nil_of_right_ne_nil _ (List.cons_ne_nil _ _)
    rw [List.append_assoc]
    by_cases hfirst : first = []
    · subst hfirst
      cases hfits
      exact isExcludedBy_of_run_tail hparts hsome htidy.sets hrun
    · have hall := run_joined_cons hfits hfirst hsome (hne names) hrun
      exact isExcludedBy_of_run (htidy.sets.trans (congrArg joined hparts)) hall

/-! ## Runs that find nothing -/

section

variable {ws : Workspace} {root : Path} {globs : List String}

/-- A text leads to no file, or to one that is excluded. -/
def Fruitless (ws : Workspace) (root : Path) (globs : List String) (text : String) : Prop :=
  ws.isFile (root.append (.ofText text)) = true →
    isExcludedByAny (Path.ofText text).text globs = true

theorem Progress.files_visit (p : Progress) {text : String} (h : Fruitless ws root globs text) :
    (p.visit ws root globs text).files = p.files := by
  rw [visit]
  split
  · rfl
  · split
    · rfl
    · next hfile =>
      rw [Bool.not_eq_true', Bool.not_eq_false] at hfile
      rw [if_pos (h hfile)]

theorem Progress.files_foldl_visit {found : List String}
    (h : ∀ text ∈ found, Fruitless ws root globs text) (p : Progress) :
    (found.foldl (visit ws root globs) p).files = p.files := by
  induction found generalizing p with
  | nil => rfl
  | cons text found ih =>
    obtain ⟨htext, hfound⟩ := List.forall_mem_cons.mp h
    rw [List.foldl_cons, ih hfound, p.files_visit htext]

theorem exists_sweep_eq {patterns : List String}
    (h : ∀ pattern ∈ patterns, ∃ found, Glob.expand ws root.text pattern = .ok found ∧
      ∀ text ∈ found, Fruitless ws root globs text) (p : Progress) :
    ∃ q, sweep ws root globs p (patterns.map .ok) = (q, none) ∧ q.files = p.files := by
  induction patterns generalizing p with
  | nil => exact ⟨p, rfl, rfl⟩
  | cons pattern patterns ih =>
    obtain ⟨⟨found, hfound, hfruitless⟩, hpatterns⟩ := List.forall_mem_cons.mp h
    rw [List.map_cons, sweep, hfound]
    dsimp only
    obtain ⟨q, hq, hfiles⟩ := ih hpatterns _
    refine ⟨q, hq, hfiles.trans (Progress.files_foldl_visit ?_ p)⟩
    exact fun text htext ↦ hfruitless text (List.mem_mergeSort.mp htext)

end

theorem excluded?_eq_none {pattern : String} (h : pattern.toList.head? ≠ some '!') :
    excluded? pattern = none := by
  rw [excluded?]
  split
  · next hchars =>
    rw [hchars] at h
    exact absurd rfl h
  · rfl

theorem excluded?_negation (pattern : String) : excluded? ("!" ++ pattern) = some pattern := by
  have hchars : ("!" ++ pattern).toList = '!' :: pattern.toList := String.toList_append
  rw [excluded?, hchars]
  exact congrArg some String.ofList_toList

theorem excludeAlternatives_append {patterns globs : List String}
    (h : excludeAlternatives patterns = .ok globs) (more : List String) :
    excludeAlternatives (patterns ++ more) = (excludeAlternatives more).map (globs ++ ·) := by
  rw [excludeAlternatives] at h
  obtain ⟨parts, hparts, rfl⟩ := Except.map_eq_ok_iff.mp h
  rw [excludeAlternatives, excludeAlternatives, List.mapM_append, hparts]
  cases more.mapM fun p ↦ (Braces.expand p).mapError DiscoveryError.braces with
  | error e => rfl
  | ok parts' => exact congrArg Except.ok List.flatten_append

theorem excludeAlternatives_concat {patterns globs : List String} {pattern : String}
    {alternatives : List String} (h : excludeAlternatives patterns = .ok globs)
    (hpattern : Braces.expand pattern = .ok alternatives) :
    excludeAlternatives (patterns ++ [pattern]) = .ok (globs ++ alternatives) := by
  have hlast : excludeAlternatives [pattern] = .ok [alternatives].flatten := by
    rw [excludeAlternatives, List.mapM_cons, List.mapM_nil, hpattern]
    rfl
  rw [excludeAlternatives_append h, hlast, List.flatten_singleton]
  rfl

theorem exists_excludeAlternatives_standard (withStandard : Bool) :
    ∃ globs, excludeAlternatives (if withStandard then standardExcludes else []) = .ok globs := by
  have hstandard : (excludeAlternatives standardExcludes).toOption.isSome = true := by
    decide +kernel
  cases withStandard with
  | false => exact ⟨[], rfl⟩
  | true =>
    obtain ⟨globs, hglobs⟩ := Option.isSome_iff_exists.mp hstandard
    exact ⟨globs, Except.eq_ok_of_toOption hglobs⟩

section

variable {included excluded : String} (hincluded : included.toList.head? ≠ some '!')

include hincluded

theorem includes_with_negation (hne : included ≠ "") :
    includes [included, "!" ++ excluded] = [included] := by
  rw [includes, List.filter_cons_of_pos, List.filter_cons_of_neg, List.filter_nil]
  · rw [excluded?_negation]
    exact fun h ↦ Bool.false_ne_true (Bool.and_eq_true_iff.mp h).2
  · rw [excluded?_eq_none hincluded]
    exact Bool.and_eq_true_iff.mpr ⟨bne_iff_ne.mpr hne, rfl⟩

theorem excludes_with_negation (hne : excluded ≠ "") :
    excludes [included, "!" ++ excluded] = [excluded] := by
  rw [excludes, List.filterMap_cons_none (excluded?_eq_none hincluded),
    List.filterMap_cons_some (excluded?_negation excluded), List.filterMap_nil,
    List.filter_cons_of_pos, List.filter_nil]
  exact bne_iff_ne.mpr hne

/-- One include pattern and one exclude pattern find nothing if every file that an alternative of
the one finds is excluded by an alternative of the other. -/
theorem discover_eq_ok_nil {ws : Workspace} {root : Path} (hroot : ws.isDirectory root = true)
    (hne : included ≠ "") (hne' : excluded ≠ "") {alternatives globs : List String}
    (halternatives : Braces.expand included = .ok alternatives)
    (hglobs : Braces.expand excluded = .ok globs)
    (h : ∀ pattern ∈ alternatives, ∃ found, Glob.expand ws root.text pattern = .ok found ∧
      ∀ text ∈ found, Fruitless ws root globs text) (withStandard : Bool) :
    (ws.discover [included, "!" ++ excluded] root withStandard).1 = .ok [] := by
  have hincludes : Discovery.alternatives [included] = alternatives.map .ok := by
    rw [Discovery.alternatives, List.flatMap_singleton, halternatives]
  obtain ⟨standard, hstandard⟩ := exists_excludeAlternatives_standard withStandard
  have hexcludes := excludeAlternatives_concat hstandard hglobs
  have hfruitless : ∀ pattern ∈ alternatives, ∃ found,
      Glob.expand ws root.text pattern = .ok found ∧
        ∀ text ∈ found, Fruitless ws root (standard ++ globs) text := by
    intro pattern hpattern
    obtain ⟨found, hfound, htexts⟩ := h pattern hpattern
    refine ⟨found, hfound, fun text htext hfile ↦ ?_⟩
    rw [isExcludedByAny, List.any_append, Bool.or_eq_true]
    exact .inr (htexts text htext hfile)
  obtain ⟨q, hq, hfiles⟩ := exists_sweep_eq hfruitless {}
  have hsome : ¬ [included].isEmpty = true := Bool.false_ne_true
  rw [Workspace.discover]
  dsimp only
  rw [includes_with_negation hincluded hne, excludes_with_negation hincluded hne', hincludes, hroot,
    hexcludes]
  dsimp only
  rw [hq, if_neg hsome, if_neg (by decide)]
  exact congrArg (fun files : List String ↦ Except.ok files.reverse) hfiles

end

/-! ## Arguments -/

theorem exists_eq_dropSlashes_append (text : String) :
    ∃ n, text = dropSlashes text.toList ++ Path.slashes n := by
  have hslashes : text.toList.reverse.takeWhile (· == '/') = List.replicate _ '/' :=
    List.eq_replicate_of_mem fun c hc ↦
      beq_iff_eq.mp (List.all_eq_true.mp List.all_takeWhile c hc)
  refine ⟨(text.toList.reverse.takeWhile (· == '/')).length, String.toList_inj.mp ?_⟩
  rw [dropSlashes, Path.slashes, String.toList_append, String.toList_ofList, String.toList_ofList,
    ← List.reverse_replicate, ← hslashes, ← List.reverse_append, List.takeWhile_append_dropWhile,
    List.reverse_reverse]

theorem getLast?_dropSlashes_ne (cs : List Char) :
    (dropSlashes cs).toList.getLast? ≠ some '/' := by
  intro h
  rw [dropSlashes, String.toList_ofList, List.getLast?_reverse] at h
  have hno := List.head?_dropWhile_not (· == '/') cs.reverse
  rw [h] at hno
  cases hno

theorem standsAlone_append_slashes (ws : Workspace) (root : Path) {text : String} (hne : text ≠ "")
    (hlast : text.toList.getLast? ≠ some '/') (n : Nat) :
    standsAlone ws root (text ++ Path.slashes n) = standsAlone ws root text := by
  have hpattern : isPattern (text ++ Path.slashes n) = isPattern text := by
    have hslashes : isPattern (Path.slashes n) = false := by
      refine List.any_eq_false.mpr fun c hc ↦ ?_
      rw [Path.eq_of_mem_slashes hc]
      decide
    rw [isPattern, String.toList_append, List.any_append, ← isPattern, ← isPattern, hslashes,
      Bool.or_false]
  rw [standsAlone, standsAlone, hpattern, Path.ofText_append_slashes hne hlast]

theorem patternOf_of_head? (ws : Workspace) (root : Path) {arg : String}
    (h : arg.toList.head? ≠ some '!') :
    patternOf ws root arg =
      if standsAlone ws root arg then arg
      else dropSlashes arg.toList ++ "/" ++ sourceGlob := by
  rw [patternOf]
  split
  · next hchars =>
    rw [hchars] at h
    exact absurd rfl h
  · rfl

theorem patternOf_negation (ws : Workspace) (root : Path) {arg : String}
    (h : dropSlashes arg.toList ≠ "") :
    patternOf ws root ("!" ++ arg) =
      "!" ++ if standsAlone ws root (dropSlashes arg.toList) then dropSlashes arg.toList
        else dropSlashes arg.toList ++ "/**" := by
  have hchars : ("!" ++ arg).toList = '!' :: arg.toList := String.toList_append
  rw [patternOf, hchars]
  change (if dropSlashes arg.toList = "" ∨ standsAlone ws root (dropSlashes arg.toList) = true
    then "!" ++ dropSlashes arg.toList else "!" ++ dropSlashes arg.toList ++ "/**") = _
  by_cases halone : standsAlone ws root (dropSlashes arg.toList) = true
  · rw [if_pos (.inr halone), if_pos halone]
  · rw [if_neg (not_or.mpr ⟨h, halone⟩), if_neg halone, String.append_assoc]

theorem patternsOf_with_negation (ws : Workspace) (root : Path) {arg : String} (h : arg ≠ "") :
    patternsOf ws root [arg, "!" ++ arg] =
      [patternOf ws root arg, patternOf ws root ("!" ++ arg)] := by
  have hall : [arg, "!" ++ arg].filter (· != "") = [arg, "!" ++ arg] := by
    refine List.filter_eq_self.mpr (List.forall_mem_cons.mpr ⟨bne_iff_ne.mpr h, ?_⟩)
    refine List.forall_mem_singleton.mpr (bne_iff_ne.mpr fun hempty ↦ ?_)
    exact absurd (String.append_eq_empty_iff.mp hempty).1 (by decide)
  rw [patternsOf, hall]
  rfl

/-- What a bare directory stands for. -/
theorem expand_sourceGlob : Braces.expand sourceGlob =
    .ok ["**/*.js", "**/*.jsx", "**/*.ts", "**/*.tsx"] :=
  Except.eq_ok_of_toOption (by decide +kernel)

theorem components_of_mem_sourceGlob {pattern : String}
    (h : pattern ∈ ["**/*.js", "**/*.jsx", "**/*.ts", "**/*.tsx"]) :
    ∃ last, Path.components pattern = ["**"] ++ [last] ∧ Path.isStep last = true ∧
      Path.hasNul pattern = false := by
  have hall : ∀ pattern ∈ ["**/*.js", "**/*.jsx", "**/*.ts", "**/*.tsx"],
      Path.components pattern = ["**"] ++ [(Path.components pattern).getLastD ""] ∧
        Path.isStep ((Path.components pattern).getLastD "") = true ∧
        Path.hasNul pattern = false := by
    decide +kernel
  exact ⟨_, hall pattern h⟩

theorem finds_stars_of_finds {parts : List String} {last : String} {p : Path}
    (h : Finds (parts ++ ["**"] ++ [last]) p) : Finds (parts ++ ["**"]) p := by
  obtain ⟨front, last', names, block, hparts, hfront, hlast, hblock, rfl⟩ := h
  obtain ⟨rfl, -⟩ := List.append_inj' hparts rfl
  obtain ⟨first, rest, rfl, hfirst, -⟩ := Glob.matches_append_iff.mp hfront
  refine ⟨parts, "**", first, rest ++ block, rfl, hfirst, .stars _, ?_, ?_⟩
  · exact List.append_ne_nil_of_right_ne_nil _ hblock
  · rw [List.append_assoc]

theorem notMem_of_isPattern_eq_false {text : String} (h : isPattern text = false) {c : Char}
    (hc : (c == '*' || c == '?' || c == '[' || c == '\x7b') = true) : c ∉ text.toList :=
  fun hmem ↦ List.any_eq_false.mp h c hmem hc

theorem components_below (path : String) :
    Path.components (path ++ "/**") = Path.components path ++ ["**"] := by
  have hstars : Path.components "**" = ["**"] := Path.components_of_notMem (by decide)
  rw [show "/**" = "/" ++ "**" by decide, ← String.append_assoc, Path.components_append_slash,
    hstars]

/-- Everything below a tidy path. -/
theorem Tidy.below {path : String} (h : Tidy path) (hpath : isPattern path = false) :
    Tidy (path ++ "/**") := by
  have hne := Path.components_ne_nil path
  refine ⟨?_, ?_, ?_, ?_⟩
  · rw [components_below]
    exact List.forall_mem_append.mpr ⟨h.steps, List.forall_mem_singleton.mpr (by decide)⟩
  · rw [components_below, List.tail_append_of_ne_nil hne, List.dropLast_concat]
    intro hmem
    have hstar := (Path.mem_toList_iff_exists_mem_components (by decide)).mpr
      ⟨"**", List.mem_of_mem_tail hmem, List.mem_cons_self⟩
    exact notMem_of_isPattern_eq_false hpath (by decide) hstar
  · have hliteral : ∀ c ∈ path.toList, Wildcard.isSpecial c = false := by
      intro c hc
      rw [Wildcard.isSpecial, Bool.eq_false_iff]
      intro hspecial
      exact notMem_of_isPattern_eq_false hpath (by rw [hspecial, Bool.true_or]) hc
    have hbelow : Wildcard.tokens "/**".toList = [.char '/'] ++ Wildcard.tokens "**".toList := by
      decide +kernel
    rw [components_below, joined_concat hne, ← h.sets, String.toList_append,
      Wildcard.tokens_append_of_literal hliteral, Wildcard.tokens_of_literal hliteral, hbelow,
      List.append_assoc]
  · rw [Path.hasNul_append, h.noNul]
    decide

/-! ## Arguments that cancel -/

section

variable {ws : Workspace} {root : Path} (hroot : root.WellFormed)

include hroot

theorem exists_expand_fruitless {pattern : String} {globs : List String}
    (hsteps : ∀ part ∈ Path.components pattern, Path.isStep part = true)
    (hnul : Path.hasNul pattern = false) (n : Nat)
    (h : ∀ p, Finds (Path.components pattern) p → isExcludedByAny p.text globs = true) :
    ∃ found, Glob.expand ws root.text (pattern ++ Path.slashes n) = .ok found ∧
      ∀ text ∈ found, Fruitless ws root globs text := by
  obtain ⟨found, hfound⟩ := Glob.exists_expand_eq_ok hsteps ws root.text n hnul
  refine ⟨found, hfound, fun text htext hfile ↦ ?_⟩
  exact h _ (Glob.finds_of_mem_expand hsteps hroot hfound htext hfile)

/-- Slashes after a pattern do not keep it from being excluded. -/
theorem discover_pattern_and_negation (hdir : ws.isDirectory root = true) {text : String}
    (htext : text.toList.head? ≠ some '!') (hne : text ≠ "") {alternatives : List String}
    (halternatives : Braces.expand text = .ok alternatives)
    (htidy : ∀ pattern ∈ alternatives, Tidy pattern) (n : Nat) (withStandard : Bool) :
    (ws.discover [text ++ Path.slashes n, "!" ++ text] root withStandard).1 = .ok [] := by
  have hslashes : ∀ c ≠ '/', c ∉ (Path.slashes n).toList := fun c hc h ↦
    hc (Path.eq_of_mem_slashes h)
  have hincludes := Braces.expand_append_right halternatives (hslashes '\x7b' (by decide))
    (hslashes '\x7d' (by decide))
  refine discover_eq_ok_nil ?_ hdir ?_ hne hincludes halternatives ?_ withStandard
  · rwa [Path.head?_toList_append hne]
  · exact fun h ↦ hne (String.append_eq_empty_iff.mp h).1
  · intro _ hpattern
    obtain ⟨pattern, hmem, rfl⟩ := List.mem_map.mp hpattern
    have hpatternTidy := htidy pattern hmem
    refine exists_expand_fruitless hroot hpatternTidy.steps hpatternTidy.noNul n ?_
    intro p hfinds
    exact List.any_eq_true.mpr ⟨pattern, hmem, isExcludedBy_of_finds hpatternTidy hfinds⟩

theorem exists_expand_sources_fruitless {text : String} (hplain : isPattern text = false)
    (htidy : Tidy text) {pattern : String}
    (hpattern : pattern ∈ ["**/*.js", "**/*.jsx", "**/*.ts", "**/*.tsx"]) :
    ∃ found, Glob.expand ws root.text (text ++ "/" ++ pattern) = .ok found ∧
      ∀ file ∈ found, Fruitless ws root [text ++ "/**"] file := by
  obtain ⟨last, hcomponents, hstep, hnul⟩ := components_of_mem_sourceGlob hpattern
  have hparts : Path.components (text ++ "/" ++ pattern) =
      Path.components text ++ ["**"] ++ [last] := by
    rw [Path.components_append_slash, hcomponents, List.append_assoc]
  have hsteps : ∀ part ∈ Path.components (text ++ "/" ++ pattern), Path.isStep part = true := by
    rw [hparts]
    refine List.forall_mem_append.mpr ⟨List.forall_mem_append.mpr ⟨htidy.steps, ?_⟩, ?_⟩
    · exact List.forall_mem_singleton.mpr (by decide)
    · exact fun part hpart ↦ List.mem_singleton.mp hpart ▸ hstep
  have hnoNul : Path.hasNul (text ++ "/" ++ pattern) = false := by
    rw [Path.hasNul_append, Path.hasNul_append, htidy.noNul, hnul]
    decide
  rw [← Path.append_slashes_zero (text ++ "/" ++ pattern)]
  refine exists_expand_fruitless hroot hsteps hnoNul 0 fun p hfinds ↦ ?_
  rw [hparts] at hfinds
  have hbelow := finds_stars_of_finds hfinds
  rw [← components_below] at hbelow
  exact List.any_eq_true.mpr ⟨text ++ "/**", List.mem_singleton_self _,
    isExcludedBy_of_finds (htidy.below hplain) hbelow⟩

/-- The source files in a directory are excluded with everything else below it. -/
theorem discover_directory_and_negation (hdir : ws.isDirectory root = true) {text : String}
    (htext : text.toList.head? ≠ some '!') (hne : text ≠ "") (hplain : isPattern text = false)
    (hexpand : Braces.expand text = .ok [text]) (htidy : Tidy text) (withStandard : Bool) :
    (ws.discover [text ++ "/" ++ sourceGlob, "!" ++ (text ++ "/**")] root withStandard).1 =
      .ok [] := by
  have hopen : '\x7b' ∉ text.toList := notMem_of_isPattern_eq_false hplain (by decide)
  obtain ⟨-, hclose⟩ := Braces.of_expand_eq_ok hexpand hopen
  have hslash : ∀ c ∈ (text ++ "/").toList, c ∈ text.toList ∨ c = '/' := by
    intro c hc
    rw [String.toList_append] at hc
    exact (List.mem_append.mp hc).imp_right List.mem_singleton.mp
  have hincludes := Braces.expand_append_left expand_sourceGlob
    (fun h ↦ (hslash _ h).elim hopen (by decide)) (fun h ↦ (hslash _ h).elim hclose (by decide))
  have hexcludes : Braces.expand (text ++ "/**") = .ok [text ++ "/**"] :=
    Braces.expand_append_right hexpand (by decide) (by decide)
  refine discover_eq_ok_nil ?_ hdir ?_ ?_ hincludes hexcludes ?_ withStandard
  · rwa [String.append_assoc, Path.head?_toList_append hne]
  · rw [String.append_assoc]
    exact fun h ↦ hne (String.append_eq_empty_iff.mp h).1
  · exact fun h ↦ hne (String.append_eq_empty_iff.mp h).1
  · intro _ hpattern
    obtain ⟨pattern, hmem, rfl⟩ := List.mem_map.mp hpattern
    exact exists_expand_sources_fruitless hroot hplain htidy hmem

end

/-- Every file that an argument finds is excluded by its negation, with or without the standard
excludes: the argument may be a pattern, a file or a directory. -/
theorem discover_argument_and_negation {ws : Workspace} {root : String}
    (hroot : ws.isDirectory (.ofText root) = true) {arg : String}
    (harg : arg.toList.head? ≠ some '!') {alternatives : List String}
    (halternatives : Braces.expand (dropSlashes arg.toList) = .ok alternatives)
    (htidy : ∀ pattern ∈ alternatives, Tidy pattern) (withStandard : Bool) :
    (ws.discover (patternsOf ws (.ofText root) [arg, "!" ++ arg]) (.ofText root) withStandard).1 =
      .ok [] := by
  have hwell := Path.wellFormed_ofText root
  obtain ⟨n, hn⟩ := exists_eq_dropSlashes_append arg
  have hlast := getLast?_dropSlashes_ne arg.toList
  have hne : dropSlashes arg.toList ≠ "" := by
    intro hempty
    rw [hempty] at halternatives
    obtain ⟨rfl, -⟩ := Braces.of_expand_eq_ok halternatives List.not_mem_nil
    have hstep := (htidy "" List.mem_cons_self).steps "" (by decide)
    cases hstep
  have hargne : arg ≠ "" := by
    rintro rfl
    exact hne rfl
  have hhead : (dropSlashes arg.toList).toList.head? ≠ some '!' := by
    rw [hn, Path.head?_toList_append hne] at harg
    exact harg
  have halone := standsAlone_append_slashes ws (.ofText root) hne hlast n
  rw [← hn] at halone
  rw [patternsOf_with_negation _ _ hargne, patternOf_of_head? _ _ harg, patternOf_negation _ _ hne,
    halone]
  generalize dropSlashes arg.toList = text at *
  split
  · rw [hn]
    exact discover_pattern_and_negation hwell hroot hhead hne halternatives htidy n
      withStandard
  · next hdirectory =>
    rw [standsAlone, Bool.or_eq_true, not_or, Bool.not_eq_true] at hdirectory
    have hopen : '\x7b' ∉ text.toList :=
      notMem_of_isPattern_eq_false hdirectory.1 (by decide)
    obtain ⟨rfl, -⟩ := Braces.of_expand_eq_ok halternatives hopen
    exact discover_directory_and_negation hwell hroot hhead hne hdirectory.1
      halternatives (List.forall_mem_singleton.mp htidy) withStandard

/-- Sources at any depth, those at the root included. -/
theorem discover_argument_and_negation_sources :
    let ws := ((Workspace.empty ["w"]).insert (.ofText "a.ts") (.file [] .blank)).insert
      (.ofText "src/b.tsx") (.file [] .blank)
    (ws.discover (patternsOf ws (.ofText ".") ["**/*.\x7bts,tsx\x7d"]) (.ofText ".")).1.toOption =
        some ["a.ts", "src/b.tsx"] ∧
      (ws.discover (patternsOf ws (.ofText ".") ["**/*.\x7bts,tsx\x7d", "!**/*.\x7bts,tsx\x7d"])
        (.ofText ".")).1 = .ok [] := by
  intro ws
  have htidy : ∀ pattern ∈ ["**/*.ts", "**/*.tsx"], Tidy pattern := by
    decide +kernel
  have halternatives : Braces.expand (dropSlashes "**/*.\x7bts,tsx\x7d".toList) =
      .ok ["**/*.ts", "**/*.tsx"] := Except.eq_ok_of_toOption (by decide +kernel)
  refine ⟨by decide +kernel, ?_⟩
  exact discover_argument_and_negation (by decide +kernel) (by decide) halternatives htidy true

/-- Stars between other parts stand for no directory only where files are looked for. -/
theorem discover_inner_stars_and_negation :
    let ws := (Workspace.empty ["w"]).insert (.ofText "src/a.ts") (.file [] .blank)
    (ws.discover (patternsOf ws (.ofText ".") ["src/**/*.ts", "!src/**/*.ts"])
      (.ofText ".")).1.toOption = some ["src/a.ts"] := by
  decide +kernel

end HardcodedText.Discovery
