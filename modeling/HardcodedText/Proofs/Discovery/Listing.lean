import Mathlib.Data.List.Basic
import Mathlib.Data.List.Induction
import Mathlib.Data.List.Nodup
import HardcodedText.Discovery
import HardcodedText.Proofs.Except
import HardcodedText.Proofs.Workspace.Glob

/-!
# Which files are listed, and in which order

A path can be found in several ways: by several include patterns, several alternatives of one, and
under several texts (`Way`, `Yields`).  `Discovery.listing_of_discover` says what comes of that, for
include patterns that lead on from the root that is searched: the files found in at least one way
and not excluded are listed, each once, in the order of the first way in which each was found.  A
pattern that starts at the root of all directories finds files under paths of their own, and what it
finds is listed beside what others find (`Discovery.listed_twice`).

The search keeps one list of what it has looked at and adds to it before it asks for files and
excludes.  `Visited` says what that amounts to: at every time, what was found so far are the first
occurrences among all matches so far, without those that are not wanted.
-/

namespace HardcodedText.Discovery

/-! ## First occurrences -/

section

variable {α β : Type} [BEq β] [LawfulBEq β]

theorem eraseDups_concat_of_mem {bs : List β} {b : β} (h : b ∈ bs) :
    (bs ++ [b]).eraseDups = bs.eraseDups := by
  have hnone : [b].removeAll bs = [] := by simp [List.removeAll, h]
  rw [List.eraseDups_append, hnone, List.eraseDups_nil, List.append_nil]

theorem eraseDups_concat_of_notMem {bs : List β} {b : β} (h : b ∉ bs) :
    (bs ++ [b]).eraseDups = bs.eraseDups ++ [b] := by
  have hself : [b].removeAll bs = [b] := by simp [List.removeAll, h]
  rw [List.eraseDups_append, hself]
  rfl

theorem nodup_eraseDups (bs : List β) : bs.eraseDups.Nodup := by
  induction bs using List.reverseRecOn with
  | nil => exact List.nodup_nil
  | append_singleton bs b ih =>
    by_cases h : b ∈ bs
    · rwa [eraseDups_concat_of_mem h]
    · rw [eraseDups_concat_of_notMem h]
      refine List.nodup_append.mpr ⟨ih, List.pairwise_singleton _ b, ?_⟩
      rintro x hx y hy rfl
      rw [List.mem_singleton.mp hy] at hx
      exact h (List.mem_eraseDups.mp hx)

/-- First occurrences stand in the order of what they first come from. -/
theorem pairwise_eraseDups_map {R : α → α → Prop} (htrans : ∀ {a b c}, R a b → R b c → R a c)
    (f : α → β) {as : List α} (h : as.Pairwise fun a b ↦ a = b ∨ R a b) :
    (as.map f).eraseDups.Pairwise fun x y ↦ ∀ b ∈ as, f b = y → ∃ a ∈ as, f a = x ∧ R a b := by
  induction as using List.reverseRecOn with
  | nil => exact .nil
  | append_singleton as last ih =>
    obtain ⟨hfront, -, hlast⟩ := List.pairwise_append.mp h
    have hlast (a : α) (ha : a ∈ as) : a = last ∨ R a last :=
      hlast a ha last (List.mem_singleton_self last)
    -- What comes from the front alone has an occurrence there, and the last element comes later.
    have hold : (as.map f).eraseDups.Pairwise fun x y ↦
        ∀ b ∈ as ++ [last], f b = y → ∃ a ∈ as ++ [last], f a = x ∧ R a b := by
      refine (ih hfront).imp_of_mem fun {x y} _ hy hxy b hb hby ↦ ?_
      rcases List.mem_append.mp hb with hb | hb
      · obtain ⟨a, ha, hax, hab⟩ := hxy b hb hby
        exact ⟨a, List.mem_append_left _ ha, hax, hab⟩
      · obtain rfl := List.mem_singleton.mp hb
        obtain ⟨c, hc, hcy⟩ := List.mem_map.mp (List.mem_eraseDups.mp hy)
        obtain ⟨a, ha, hax, hac⟩ := hxy c hc hcy
        refine ⟨a, List.mem_append_left _ ha, hax, ?_⟩
        rcases hlast c hc with rfl | hcb
        · exact hac
        · exact htrans hac hcb
    rw [List.map_append, List.map_singleton]
    by_cases hseen : f last ∈ as.map f
    · rwa [eraseDups_concat_of_mem hseen]
    · rw [eraseDups_concat_of_notMem hseen]
      refine List.pairwise_append.mpr ⟨hold, List.pairwise_singleton _ _, ?_⟩
      intro x hx y hy b hb hby
      obtain rfl := List.mem_singleton.mp hy
      obtain ⟨a, ha, rfl⟩ := List.mem_map.mp (List.mem_eraseDups.mp hx)
      obtain rfl : b = last := by
        rcases List.mem_append.mp hb with hb | hb
        · exact absurd (List.mem_map.mpr ⟨b, hb, hby⟩) hseen
        · exact List.mem_singleton.mp hb
      refine ⟨a, List.mem_append_left _ ha, rfl, ?_⟩
      rcases hlast a ha with rfl | hab
      · exact absurd (List.mem_map_of_mem ha) hseen
      · exact hab

end

/-! ## Ways to find a path -/

/-- A way to find a path. -/
structure Way where
  /-- The place of the include pattern among all of them. -/
  pattern : Nat
  /-- The place of the alternative among those of the pattern. -/
  alternative : Nat
  /-- The match. -/
  text : String

/-- Which of two ways is gone first: patterns and their alternatives are taken in order, and the
matches of an alternative in the order of their texts. -/
def Way.Before (v w : Way) : Prop :=
  v.pattern < w.pattern ∨ v.pattern = w.pattern ∧
    (v.alternative < w.alternative ∨ v.alternative = w.alternative ∧ v.text < w.text)

/-- A way leads to a path. -/
def Yields (ws : Workspace) (root : Path) (patterns : List String) (w : Way) (r : Path) : Prop :=
  ∃ pattern alternatives alternative found,
    (includes patterns)[w.pattern]? = some pattern ∧
      Braces.expand pattern = .ok alternatives ∧ alternatives[w.alternative]? = some alternative ∧
      Glob.expand ws root.text alternative = .ok found ∧ w.text ∈ found ∧ Path.ofText w.text = r

/-- A path is excluded by an alternative of an exclude pattern. -/
def Excluded (withStandard : Bool) (patterns : List String) (r : Path) : Prop :=
  ∃ pattern ∈ (if withStandard then standardExcludes else []) ++ excludes patterns,
    ∃ alternatives, Braces.expand pattern = .ok alternatives ∧
      ∃ glob ∈ alternatives, isExcludedBy r.text glob = true

theorem Way.Before.trans {u v w : Way} (huv : u.Before v) (hvw : v.Before w) : u.Before w := by
  rcases huv with huv | ⟨hpattern, huv⟩
  · rcases hvw with hvw | ⟨hvw, -⟩
    · exact .inl (Nat.lt_trans huv hvw)
    · exact .inl (hvw ▸ huv)
  · rcases hvw with hvw | ⟨hpattern', hvw⟩
    · exact .inl (hpattern ▸ hvw)
    · refine .inr ⟨hpattern.trans hpattern', ?_⟩
      rcases huv with huv | ⟨halternative, huv⟩
      · rcases hvw with hvw | ⟨hvw, -⟩
        · exact .inl (Nat.lt_trans huv hvw)
        · exact .inl (hvw ▸ huv)
      · rcases hvw with hvw | ⟨halternative', hvw⟩
        · exact .inl (halternative ▸ hvw)
        · exact .inr ⟨halternative.trans halternative', String.lt_trans huv hvw⟩

/-- The alternatives of a pattern, if its braces match. -/
def alternativesOf (pattern : String) : List String :=
  match Braces.expand pattern with
  | .ok alternatives => alternatives
  | .error _ => []

/-- The include patterns lead on from the root that is searched, whichever alternative is taken. -/
def RelativeIncludes (patterns : List String) : Prop :=
  ∀ pattern ∈ includes patterns, ∀ alternative ∈ alternativesOf pattern, Path.Relative alternative

instance (patterns : List String) : Decidable (RelativeIncludes patterns) :=
  inferInstanceAs (Decidable (∀ pattern ∈ _, ∀ alternative ∈ _, _))

/-- The include patterns start at the root of all directories, whichever alternative is taken. -/
def AbsoluteIncludes (patterns : List String) : Prop :=
  ∀ pattern ∈ includes patterns, ∀ alternative ∈ alternativesOf pattern, ¬ Path.Relative alternative

/-- The matches of an alternative, if it can be looked up, in the order in which they are taken. -/
def matchesOf (ws : Workspace) (root : Path) (alternative : String) : List String :=
  match Glob.expand ws root.text alternative with
  | .ok found => found.mergeSort fun a b ↦ decide (a ≤ b)
  | .error _ => []

/-- The ways to find a path by one include pattern, in the order in which they are gone. -/
def waysOf (ws : Workspace) (root : Path) (i : Nat) (pattern : String) : List Way :=
  (alternativesOf pattern).zipIdx.flatMap fun (alternative, j) ↦
    (matchesOf ws root alternative).map (Way.mk i j)

/-- All ways to find a path, in the order in which they are gone. -/
def ways (ws : Workspace) (root : Path) (patterns : List String) : List Way :=
  (includes patterns).zipIdx.flatMap fun (pattern, i) ↦ waysOf ws root i pattern

section

variable {ws : Workspace} {root : Path} {patterns : List String}

theorem getElem?_alternativesOf_iff {pattern : String} {j : Nat} {alternative : String} :
    (alternativesOf pattern)[j]? = some alternative ↔
      ∃ alternatives, Braces.expand pattern = .ok alternatives ∧
        alternatives[j]? = some alternative := by
  rw [alternativesOf]
  cases Braces.expand pattern with
  | ok alternatives => simp
  | error e => simp

theorem mem_matchesOf_iff {alternative text : String} :
    text ∈ matchesOf ws root alternative ↔
      ∃ found, Glob.expand ws root.text alternative = .ok found ∧ text ∈ found := by
  rw [matchesOf]
  cases Glob.expand ws root.text alternative with
  | ok found => simp
  | error e => simp

theorem mem_waysOf_iff {i : Nat} {pattern : String} {w : Way} :
    w ∈ waysOf ws root i pattern ↔
      w.pattern = i ∧ ∃ alternative, (alternativesOf pattern)[w.alternative]? = some alternative ∧
        w.text ∈ matchesOf ws root alternative := by
  rw [waysOf, List.mem_flatMap]
  constructor
  · rintro ⟨⟨alternative, j⟩, hj, hw⟩
    obtain ⟨text, htext, rfl⟩ := List.mem_map.mp hw
    exact ⟨rfl, alternative, List.mem_zipIdx_iff_getElem?.mp hj, htext⟩
  · rintro ⟨rfl, alternative, hj, htext⟩
    refine ⟨(alternative, w.alternative), List.mem_zipIdx_iff_getElem?.mpr hj, ?_⟩
    exact List.mem_map.mpr ⟨w.text, htext, rfl⟩

theorem yields_iff {w : Way} {r : Path} :
    Yields ws root patterns w r ↔ w ∈ ways ws root patterns ∧ Path.ofText w.text = r := by
  rw [ways, List.mem_flatMap]
  constructor
  · rintro ⟨pattern, alternatives, alternative, found, hi, hexpand, hj, hfound, htext, hr⟩
    refine ⟨⟨(pattern, w.pattern), List.mem_zipIdx_iff_getElem?.mpr hi, ?_⟩, hr⟩
    refine mem_waysOf_iff.mpr ⟨rfl, alternative, ?_, mem_matchesOf_iff.mpr ⟨found, hfound, htext⟩⟩
    exact getElem?_alternativesOf_iff.mpr ⟨alternatives, hexpand, hj⟩
  · rintro ⟨⟨⟨pattern, i⟩, hi, hw⟩, hr⟩
    obtain ⟨rfl, alternative, halternative, hmatch⟩ := mem_waysOf_iff.mp hw
    obtain ⟨alternatives, hexpand, hj⟩ := getElem?_alternativesOf_iff.mp halternative
    obtain ⟨found, hfound, htext⟩ := mem_matchesOf_iff.mp hmatch
    exact ⟨pattern, alternatives, alternative, found, List.mem_zipIdx_iff_getElem?.mp hi, hexpand,
      hj, hfound, htext, hr⟩

/-- The matches of an alternative rise. -/
theorem pairwise_matchesOf (alternative : String) :
    (matchesOf ws root alternative).Pairwise fun a b ↦ a = b ∨ a < b := by
  rw [matchesOf]
  split
  · next found _ =>
    refine (List.pairwise_mergeSort (fun a b c hab hbc ↦ ?_) (fun a b ↦ ?_) found).imp ?_
    · rw [decide_eq_true_iff] at *
      exact String.le_trans hab hbc
    · rw [Bool.or_eq_true, decide_eq_true_iff, decide_eq_true_iff]
      exact String.le_total a b
    · intro a b hab
      rw [decide_eq_true_iff] at hab
      by_cases hlt : a < b
      · exact .inr hlt
      · exact .inl (String.le_antisymm hab (String.not_lt.mp hlt))
  · exact .nil

theorem pairwise_zipIdx {α : Type} (as : List α) : as.zipIdx.Pairwise fun x y ↦ x.2 < y.2 := by
  have h := List.pairwise_lt_range' (s := 0) (n := as.length) 1
  rwa [← List.zipIdx_map_snd 0 as, List.pairwise_map] at h

theorem pairwise_waysOf (i : Nat) (pattern : String) :
    (waysOf ws root i pattern).Pairwise fun v w ↦ v = w ∨ v.Before w := by
  rw [waysOf, List.pairwise_flatMap]
  refine ⟨fun x _ ↦ ?_, (pairwise_zipIdx _).imp fun hxy v hv w hw ↦ ?_⟩
  · refine List.pairwise_map.mpr ((pairwise_matchesOf x.1).imp ?_)
    rintro a b (rfl | hab)
    · exact .inl rfl
    · exact .inr (.inr ⟨rfl, .inr ⟨rfl, hab⟩⟩)
  · obtain ⟨a, -, rfl⟩ := List.mem_map.mp hv
    obtain ⟨b, -, rfl⟩ := List.mem_map.mp hw
    exact .inr (.inr ⟨rfl, .inl hxy⟩)

/-- The ways come in the order in which they are gone. -/
theorem pairwise_ways : (ways ws root patterns).Pairwise fun v w ↦ v = w ∨ v.Before w := by
  rw [ways, List.pairwise_flatMap]
  refine ⟨fun x _ ↦ pairwise_waysOf x.2 x.1, (pairwise_zipIdx _).imp fun hxy v hv w hw ↦ ?_⟩
  obtain ⟨hv, -⟩ := mem_waysOf_iff.mp hv
  obtain ⟨hw, -⟩ := mem_waysOf_iff.mp hw
  rw [← hv, ← hw] at hxy
  exact .inr (.inl hxy)

theorem flatMap_zipIdx {α β : Type} (as : List α) (f : α → List β) :
    (as.zipIdx.flatMap fun x ↦ f x.1) = as.flatMap f := by
  have h := List.flatMap_map (l := as.zipIdx) Prod.fst f
  rw [List.zipIdx_map_fst] at h
  exact h.symm

theorem map_text_waysOf (i : Nat) (pattern : String) :
    (waysOf ws root i pattern).map Way.text =
      (alternativesOf pattern).flatMap (matchesOf ws root) := by
  rw [waysOf, List.map_flatMap, ← flatMap_zipIdx (alternativesOf pattern)]
  refine List.flatMap_congr fun x _ ↦ ?_
  rw [List.map_map]
  exact List.map_id _

theorem map_text_ways :
    (ways ws root patterns).map Way.text =
      ((includes patterns).flatMap alternativesOf).flatMap (matchesOf ws root) := by
  rw [ways, List.map_flatMap, List.flatMap_assoc, ← flatMap_zipIdx (includes patterns)]
  exact List.flatMap_congr fun x _ ↦ map_text_waysOf x.2 x.1

end

/-! ## The search -/

section

variable {ws : Workspace} {root : Path} {globs : List String}

/-- Whether a path that was found leads to a file that is not excluded. -/
def isWanted (ws : Workspace) (root : Path) (globs : List String) (r : Path) : Bool :=
  ws.isFile (root.append r) && !isExcludedByAny r.text globs

theorem Progress.visit_of_mem {p : Progress} {text : String}
    (h : (Path.ofText text).text ∈ p.seen) : p.visit ws root globs text = p := by
  rw [visit, if_pos (List.contains_iff_mem.mpr h)]

theorem Progress.visit_of_notMem (ws : Workspace) (root : Path) (globs : List String)
    {p : Progress} {text : String} (h : (Path.ofText text).text ∉ p.seen) :
    (p.visit ws root globs text).seen = (Path.ofText text).text :: p.seen ∧
      (p.visit ws root globs text).files =
        if isWanted ws root globs (.ofText text) then
          (root.append (.ofText text)).text :: p.files
        else p.files := by
  rw [visit, isWanted, if_neg (mt List.contains_iff_mem.mp h)]
  cases ws.isFile (root.append (.ofText text)) with
  | false => exact ⟨rfl, rfl⟩
  | true =>
    cases isExcludedByAny (Path.ofText text).text globs with
    | false => exact ⟨rfl, rfl⟩
    | true => exact ⟨rfl, rfl⟩

/-- What has been found once some matches have been looked at. -/
structure Visited (ws : Workspace) (root : Path) (globs texts : List String) (p : Progress) :
    Prop where
  /-- The paths of the matches have been seen. -/
  seen : ∀ text, (Path.ofText text).text ∈ p.seen ↔ Path.ofText text ∈ texts.map Path.ofText
  /-- The files are the first occurrences of paths that are wanted. -/
  files : p.files.reverse =
    ((texts.map Path.ofText).eraseDups.filter (isWanted ws root globs)).map fun r ↦
      (root.append r).text

theorem Visited.start : Visited ws root globs [] {} :=
  ⟨fun _ ↦ iff_of_false List.not_mem_nil List.not_mem_nil, rfl⟩

theorem Visited.visit {texts : List String} {p : Progress} (h : Visited ws root globs texts p)
    (text : String) : Visited ws root globs (texts ++ [text]) (p.visit ws root globs text) := by
  -- Paths are noted by their texts, which tell paths that were read apart.
  by_cases hseen : (Path.ofText text).text ∈ p.seen
  · have hmem := (h.seen text).mp hseen
    rw [Progress.visit_of_mem hseen]
    constructor
    · intro other
      rw [h.seen, List.map_append, List.mem_append, List.map_singleton, List.mem_singleton]
      constructor
      · exact .inl
      · rintro (hother | hother)
        · exact hother
        · rwa [hother]
    · rw [h.files, List.map_append, List.map_singleton, eraseDups_concat_of_mem hmem]
  · have hmem := mt (h.seen text).mpr hseen
    obtain ⟨hseen', hfiles'⟩ := Progress.visit_of_notMem ws root globs hseen
    constructor
    · intro other
      rw [hseen', List.mem_cons, h.seen, List.map_append, List.mem_append, List.map_singleton,
        List.mem_singleton, or_comm]
      refine or_congr_right ⟨Path.ofText_inj_of_text, fun heq ↦ by rw [heq]⟩
    · rw [hfiles', List.map_append, List.map_singleton, eraseDups_concat_of_notMem hmem,
        List.filter_append, List.map_append, ← h.files]
      split
      · next hwanted => rw [List.filter_cons_of_pos hwanted, List.reverse_cons]; rfl
      · next hwanted => rw [List.filter_cons_of_neg hwanted]; exact (List.append_nil _).symm

theorem Visited.foldl {texts : List String} {p : Progress} (h : Visited ws root globs texts p)
    (more : List String) :
    Visited ws root globs (texts ++ more) (more.foldl (Progress.visit ws root globs) p) := by
  induction more generalizing texts p with
  | nil => rwa [List.append_nil]
  | cons text more ih =>
    have hnext := ih (h.visit text)
    rwa [List.append_assoc] at hnext

theorem sweep_eq_foldl {searched : List (Except DiscoveryError String)} {p q : Progress}
    (h : sweep ws root globs p searched = (q, none)) :
    q = ((searched.filterMap Except.toOption).flatMap (matchesOf ws root)).foldl
      (Progress.visit ws root globs) p := by
  induction searched generalizing p with
  | nil =>
    cases h
    rfl
  | cons a searched ih =>
    cases a with
    | error e => cases h
    | ok alternative =>
      rw [sweep] at h
      split at h
      · cases h
      · next found hfound =>
        change q = ((alternative :: searched.filterMap Except.toOption).flatMap
          (matchesOf ws root)).foldl (Progress.visit ws root globs) p
        rw [List.flatMap_cons, List.foldl_append, matchesOf, hfound]
        exact ih h

theorem filterMap_alternatives (patterns : List String) :
    (alternatives patterns).filterMap Except.toOption = patterns.flatMap alternativesOf := by
  rw [alternatives, List.filterMap_flatMap]
  refine congrArg (List.flatMap · _) (funext fun pattern ↦ ?_)
  rw [alternativesOf]
  cases Braces.expand pattern with
  | error e => rfl
  | ok alternatives =>
    dsimp only
    rw [List.filterMap_map]
    exact List.filterMap_some

end

/-! ## The listing -/

section

variable {ws : Workspace} {root : String} {patterns : List String} {withStandard : Bool}

theorem mem_excludeAlternatives_iff {patterns globs : List String}
    (h : excludeAlternatives patterns = .ok globs) {glob : String} :
    glob ∈ globs ↔ ∃ pattern ∈ patterns, ∃ alternatives,
      Braces.expand pattern = .ok alternatives ∧ glob ∈ alternatives := by
  rw [excludeAlternatives] at h
  obtain ⟨lists, hlists, rfl⟩ := Except.map_eq_ok_iff.mp h
  rw [List.mem_flatten]
  constructor
  · rintro ⟨alternatives, hmem, hglob⟩
    obtain ⟨pattern, hpattern, hok⟩ := (Except.mem_iff_of_mapM_eq_ok hlists).mp hmem
    exact ⟨pattern, hpattern, alternatives, Except.mapError_eq_ok_iff.mp hok, hglob⟩
  · rintro ⟨pattern, hpattern, alternatives, hok, hglob⟩
    refine ⟨alternatives, (Except.mem_iff_of_mapM_eq_ok hlists).mpr ?_, hglob⟩
    exact ⟨pattern, hpattern, Except.mapError_eq_ok_iff.mpr hok⟩

theorem isExcludedByAny_iff {globs : List String}
    (h : excludeAlternatives ((if withStandard then standardExcludes else []) ++
      excludes patterns) = .ok globs) {r : Path} :
    isExcludedByAny r.text globs = true ↔ Excluded withStandard patterns r := by
  rw [isExcludedByAny, List.any_eq_true]
  constructor
  · rintro ⟨glob, hglob, hexcluded⟩
    obtain ⟨pattern, hpattern, alternatives, hok, hmem⟩ := (mem_excludeAlternatives_iff h).mp hglob
    exact ⟨pattern, hpattern, alternatives, hok, glob, hmem, hexcluded⟩
  · rintro ⟨pattern, hpattern, alternatives, hok, glob, hmem, hexcluded⟩
    refine ⟨glob, ?_, hexcluded⟩
    exact (mem_excludeAlternatives_iff h).mpr ⟨pattern, hpattern, alternatives, hok, hmem⟩

/-- What a discovery that succeeds has done. -/
theorem of_discover_eq_ok {root : Path} {files : List String}
    (h : (ws.discover patterns root withStandard).1 = .ok files) :
    ws.isDirectory root = true ∧ ∃ globs p,
      excludeAlternatives ((if withStandard then standardExcludes else []) ++ excludes patterns) =
          .ok globs ∧
        sweep ws root globs {} (alternatives (includes patterns)) = (p, none) ∧
        files = p.files.reverse := by
  rw [Workspace.discover] at h
  dsimp only at h
  split at h
  · cases h
  · split at h
    · cases h
    · next hroot =>
      rw [Bool.not_eq_true', Bool.not_eq_false] at hroot
      refine ⟨hroot, ?_⟩
      split at h
      · cases h
      · next globs hglobs =>
        split at h
        · cases h
        · next p hp =>
          cases h
          exact ⟨globs, p, hglobs, hp, rfl⟩

/-- The paths that are found and wanted, in the order in which they are first found. -/
def listed (ws : Workspace) (root : Path) (patterns globs : List String) : List Path :=
  ((ways ws root patterns).map fun w ↦ Path.ofText w.text).eraseDups.filter
    (isWanted ws root globs)

theorem mem_listed_iff {root : Path} {globs : List String} {r : Path} :
    r ∈ listed ws root patterns globs ↔
      (∃ w, Yields ws root patterns w r) ∧ isWanted ws root globs r = true := by
  rw [listed, List.mem_filter, List.mem_eraseDups, List.mem_map]
  exact and_congr_left fun _ ↦ exists_congr fun _ ↦ yields_iff.symm

theorem Yields.exists_alternative {root : Path} {w : Way} {r : Path}
    (h : Yields ws root patterns w r) :
    ∃ pattern ∈ includes patterns, ∃ alternative ∈ alternativesOf pattern, ∃ found,
      Glob.expand ws root.text alternative = .ok found ∧ w.text ∈ found ∧
        Path.ofText w.text = r := by
  obtain ⟨pattern, alternatives, alternative, found, hi, hexpand, hj, hfound, htext, hr⟩ := h
  have halternative := getElem?_alternativesOf_iff.mpr ⟨alternatives, hexpand, hj⟩
  exact ⟨pattern, List.mem_of_getElem? hi, alternative, List.mem_of_getElem? halternative, found,
    hfound, htext, hr⟩

theorem RelativeIncludes.local_of_yields (h : RelativeIncludes patterns) {root : Path} {w : Way}
    {r : Path} (hw : Yields ws root patterns w r) : r.Local := by
  obtain ⟨pattern, hpattern, alternative, halternative, found, hfound, htext, rfl⟩ :=
    hw.exists_alternative
  exact (Glob.relative_of_mem_expand (h pattern hpattern alternative halternative) hfound
    htext).local

theorem AbsoluteIncludes.append_of_yields (h : AbsoluteIncludes patterns) {root : Path} {w : Way}
    {r : Path} (hw : Yields ws root patterns w r) : root.append r = r := by
  obtain ⟨pattern, hpattern, alternative, halternative, found, hfound, htext, rfl⟩ :=
    hw.exists_alternative
  have hstart := Glob.not_relative_of_mem_expand (h pattern hpattern alternative halternative)
    hfound htext
  exact if_neg (mt Path.anchorOf_eq_empty_iff.mp hstart)

theorem RelativeIncludes.local_of_mem_listed (h : RelativeIncludes patterns) {root : Path}
    {globs : List String} {r : Path} (hr : r ∈ listed ws root patterns globs) : r.Local := by
  obtain ⟨⟨w, hw⟩, -⟩ := mem_listed_iff.mp hr
  exact h.local_of_yields hw

theorem nodup_listed {root : Path} {globs : List String} :
    (listed ws root patterns globs).Nodup :=
  (nodup_eraseDups _).sublist List.filter_sublist

/-- What can be found before something else stands before it. -/
theorem pairwise_listed {root : Path} {globs : List String} :
    (listed ws root patterns globs).Pairwise fun r s ↦ ∀ w, Yields ws root patterns w s →
      ∃ v, Yields ws root patterns v r ∧ v.Before w := by
  refine ((pairwise_eraseDups_map (R := Way.Before) (fun {_ _ _} ↦ .trans) _
    pairwise_ways).sublist List.filter_sublist).imp ?_
  intro r s hrs w hw
  obtain ⟨hmem, hs⟩ := yields_iff.mp hw
  obtain ⟨v, hv, hr, hbefore⟩ := hrs w hmem hs
  exact ⟨v, yields_iff.mpr ⟨hv, hr⟩, hbefore⟩

/-- What a discovery that succeeds has listed. -/
theorem eq_listed_of_discover_eq_ok {root : Path} {files : List String}
    (h : (ws.discover patterns root withStandard).1 = .ok files) :
    ws.isDirectory root = true ∧ ∃ globs,
      excludeAlternatives ((if withStandard then standardExcludes else []) ++ excludes patterns) =
          .ok globs ∧
        files = (listed ws root patterns globs).map fun r ↦ (root.append r).text := by
  obtain ⟨hroot, globs, p, hglobs, hsweep, rfl⟩ := of_discover_eq_ok h
  refine ⟨hroot, globs, hglobs, ?_⟩
  have hstart : Visited ws root globs [] {} := .start
  have hend := hstart.foldl (((alternatives (includes patterns)).filterMap Except.toOption).flatMap
    (matchesOf ws root))
  rw [← sweep_eq_foldl hsweep] at hend
  rw [hend.files, List.nil_append, filterMap_alternatives, ← map_text_ways, List.map_map]
  rfl

/-- No file is listed twice, unless the root that is searched and some of the patterns, but not all
of them, start at the root of all directories. -/
theorem nodup_of_discover_eq_ok {root : Path}
    (h : RelativeIncludes patterns ∨ AbsoluteIncludes patterns ∨ root.Local) {files : List String}
    (hfiles : (ws.discover patterns root withStandard).1 = .ok files) : files.Nodup := by
  obtain ⟨-, globs, -, rfl⟩ := eq_listed_of_discover_eq_ok hfiles
  refine List.Nodup.map_on (fun r hr s hs heq ↦ ?_) nodup_listed
  obtain ⟨⟨v, hv⟩, -⟩ := mem_listed_iff.mp hr
  obtain ⟨⟨w, hw⟩, -⟩ := mem_listed_iff.mp hs
  rcases h with hrelative | habsolute | hlocal
  · exact (hrelative.local_of_yields hv).eq_of_text_append (hrelative.local_of_yields hw) heq
  · rw [habsolute.append_of_yields hv, habsolute.append_of_yields hw] at heq
    obtain ⟨-, rfl⟩ := yields_iff.mp hv
    obtain ⟨-, rfl⟩ := yields_iff.mp hw
    exact Path.ofText_inj_of_text heq
  · obtain ⟨-, rfl⟩ := yields_iff.mp hv
    obtain ⟨-, rfl⟩ := yields_iff.mp hw
    exact hlocal.ofText_eq_of_text_append heq

/-- What is listed. -/
structure Listing (ws : Workspace) (root : Path) (patterns : List String) (withStandard : Bool)
    (files : List String) : Prop where
  /-- No file is listed twice. -/
  nodup : files.Nodup
  /-- The paths listed are those that lead to a file, were found, and are not excluded. -/
  mem_iff : ∀ r : Path, r.Local → ((root.append r).text ∈ files ↔
    ws.isFile (root.append r) = true ∧ (∃ w, Yields ws root patterns w r) ∧
      ¬ Excluded withStandard patterns r)
  /-- Nothing else is listed, and what can be found before something else stands before it. -/
  ordered : ∃ rs : List Path, (∀ r ∈ rs, r.Local) ∧
    files = rs.map (fun r ↦ (root.append r).text) ∧
    rs.Pairwise fun r s ↦ ∀ w, Yields ws root patterns w s →
      ∃ v, Yields ws root patterns v r ∧ v.Before w

/-- A discovery that succeeds lists the files that were found and are not excluded. -/
theorem listing_of_discover (hrelative : RelativeIncludes patterns) {files : List String}
    (h : (ws.discover patterns (.ofText root) withStandard).1 = .ok files) :
    Listing ws (.ofText root) patterns withStandard files := by
  have hnodup := nodup_of_discover_eq_ok (.inl hrelative) h
  obtain ⟨-, globs, hglobs, rfl⟩ := eq_listed_of_discover_eq_ok h
  constructor
  · exact hnodup
  · intro r hr
    have hlisted : ((Path.ofText root).append r).text ∈
        (listed ws (.ofText root) patterns globs).map
          (fun r ↦ ((Path.ofText root).append r).text) ↔
        r ∈ listed ws (.ofText root) patterns globs := by
      rw [List.mem_map]
      constructor
      · rintro ⟨s, hs, heq⟩
        rwa [← (hrelative.local_of_mem_listed hs).eq_of_text_append hr heq]
      · exact fun h ↦ ⟨r, h, rfl⟩
    rw [hlisted, mem_listed_iff, isWanted, Bool.and_eq_true, Bool.not_eq_true',
      ← isExcludedByAny_iff hglobs, Bool.not_eq_true, and_left_comm]
  · exact ⟨_, fun r ↦ hrelative.local_of_mem_listed, rfl, pairwise_listed⟩

/-- Alternatives that overlap, a path that is also given for itself, and what is excluded. -/
theorem listing_of_discover_overlap :
    let ws := (((Workspace.empty ["w"]).insert (.ofText "src/a.ts") (.file [] .blank)).insert
      (.ofText "src/b.tsx") (.file [] .blank)).insert (.ofText "src/old/c.jsx") (.file [] .blank)
    let patterns := ["src/**/*.\x7btsx,jsx,ts\x7d", "src//a.ts", "!src/old/**"]
    RelativeIncludes patterns ∧
      (ws.discover patterns (.ofText ".")).1 = .ok ["src/b.tsx", "src/a.ts"] ∧
      Listing ws (.ofText ".") patterns true ["src/b.tsx", "src/a.ts"] := by
  intro ws patterns
  have hrelative : RelativeIncludes patterns := by decide +kernel
  have hfiles : (ws.discover patterns (.ofText ".")).1 = .ok ["src/b.tsx", "src/a.ts"] :=
    Except.eq_ok_of_toOption (by decide +kernel)
  exact ⟨hrelative, hfiles, listing_of_discover hrelative hfiles⟩

/-- A pattern from the root of all directories finds a file under a path of its own. -/
theorem listed_twice :
    let ws := (Workspace.empty ["w"]).insert (.ofText "src/a.ts") (.file [] .blank)
    (ws.discover ["src/*.ts", "/w/src/*.ts"] (.ofText "/w")).1.toOption =
      some ["/w/src/a.ts", "/w/src/a.ts"] := by
  decide +kernel

end

end HardcodedText.Discovery
