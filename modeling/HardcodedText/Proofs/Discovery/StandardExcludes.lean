import HardcodedText.Proofs.Discovery
import HardcodedText.Proofs.Discovery.Listing

/-!
# What is excluded by default

The patterns that are excluded by default have stars that reach over slashes, and two stars at their
start may stand for nothing.  What they come to can be said without patterns (`LeftOut`): a path is
left out for what it ends with, or for a directory that it leads through.

`discover_standard_excludes` carries this over to discovery: with these patterns, a discovery finds
what it finds without them, less what it finds under paths that are left out.  Every way to a file
mentions the directories through which it leads (`LeftOut.of_namesFrom`), so that no file is listed
whose path from the root is left out; a way that leads up or starts elsewhere may mention more
(`discover_standard_excludes_on_the_way`).
-/

namespace HardcodedText.Discovery

/-- What stands before the extension of a file that does not belong to the program itself. -/
def asideWords : List String := ["test", "stories", "spec"]

/-- The extensions of source files. -/
def sourceExtensions : List String := ["js", "jsx", "ts", "tsx"]

/-- The directories of what was installed or built. -/
def producedDirectories : List String := ["node_modules", "dist", "build"]

/-- A path ends as that of a test or a story does, or leads through a directory of what was
installed or built. -/
def LeftOut (path : String) : Prop :=
  (∃ word ∈ asideWords, ∃ extension ∈ sourceExtensions,
    ("." ++ word ++ "." ++ extension).toList <:+ path.toList) ∨
  ∃ directory ∈ producedDirectories, directory ∈ (Path.components path).dropLast

instance (path : String) : Decidable (LeftOut path) :=
  inferInstanceAs (Decidable (_ ∨ _))

/-! ## The patterns -/

/-- Two stars at the start leave open where a path begins to match, after a slash or at once. -/
theorem isExcludedBy_stars_iff {path rest : String} :
    isExcludedBy path ("**/" ++ rest) = true ↔
      (∃ before after, path = before ++ "/" ++ after ∧ Wildcard.accepts rest after = true) ∨
        Wildcard.accepts rest path = true := by
  have hpattern : ("**/" ++ rest).toList = '*' :: '*' :: '/' :: rest.toList := String.toList_append
  have hexcluded : isExcludedBy path ("**/" ++ rest) =
      (Wildcard.accepts ("**/" ++ rest) path || Wildcard.accepts (.ofList rest.toList) path) := by
    rw [isExcludedBy, hpattern]
    rfl
  rw [hexcluded, String.ofList_toList, Bool.or_eq_true, Wildcard.accepts, hpattern,
    tokens_stars_slash, Wildcard.run_anyRun_iff]
  refine or_congr_left ⟨?_, ?_⟩
  · rintro ⟨before, tail, hpath, h⟩
    obtain ⟨c, after, rfl, hc, h⟩ := (Wildcard.run_cons_iff (by rintro ⟨⟩)).mp h
    obtain rfl : c = '/' := beq_iff_eq.mp hc
    refine ⟨.ofList before, .ofList after, String.toList_inj.mp ?_, ?_⟩
    · rw [hpath, Path.toList_append_slash, String.toList_ofList, String.toList_ofList]
    · rwa [Wildcard.accepts, String.toList_ofList]
  · rintro ⟨before, after, rfl, h⟩
    refine ⟨before.toList, '/' :: after.toList, Path.toList_append_slash before after, ?_⟩
    exact (Wildcard.run_cons_iff (by rintro ⟨⟩)).mpr ⟨'/', _, rfl, beq_iff_eq.mpr rfl, h⟩

/-- A pattern for what a path ends with. -/
theorem isExcludedBy_ending_iff {path ending : String}
    (h : ending.toList.any Wildcard.isSpecial = false) :
    isExcludedBy path ("**/" ++ ("*" ++ ending)) = true ↔ ending.toList <:+ path.toList := by
  have haccepts (text : String) :
      Wildcard.accepts ("*" ++ ending) text = true ↔ ending.toList <:+ text.toList := by
    have hchars : ("*" ++ ending).toList = '*' :: ending.toList := String.toList_append
    rw [Wildcard.accepts, hchars,
      Wildcard.tokens_star_of_literal (Wildcard.isSpecial_eq_false_of_any h),
      Wildcard.run_anyRun_map_char_iff]
  rw [isExcludedBy_stars_iff]
  constructor
  · rintro (⟨before, after, rfl, hafter⟩ | hpath)
    · rw [String.toList_append]
      exact ((haccepts after).mp hafter).trans (List.suffix_append _ _)
    · exact (haccepts path).mp hpath
  · exact fun hpath ↦ .inr ((haccepts path).mpr hpath)

/-- A pattern for a directory that a path leads through. -/
theorem isExcludedBy_directory_iff {path directory : String}
    (h : directory.toList.any Wildcard.isSpecial = false) (hslash : '/' ∉ directory.toList) :
    isExcludedBy path ("**/" ++ (directory ++ "/" ++ "**")) = true ↔
      directory ∈ (Path.components path).dropLast := by
  have hliteral : ∀ c ∈ directory.toList ++ ['/'], Wildcard.isSpecial c = false :=
    List.forall_mem_append.mpr
      ⟨Wildcard.isSpecial_eq_false_of_any h, List.forall_mem_singleton.mpr rfl⟩
  have haccepts (text : String) : Wildcard.accepts (directory ++ "/" ++ "**") text = true ↔
      ∃ after, text = directory ++ "/" ++ after := by
    rw [Wildcard.accepts, Path.toList_append_slash, List.append_cons,
      Wildcard.tokens_append_of_literal hliteral, tokens_stars, Wildcard.run_map_char_anyRun_iff]
    constructor
    · rintro ⟨after, hafter⟩
      refine ⟨.ofList after, String.toList_inj.mp ?_⟩
      rw [← hafter, Path.toList_append_slash, String.toList_ofList, ← List.append_cons]
    · rintro ⟨after, rfl⟩
      exact ⟨after.toList, by rw [Path.toList_append_slash, ← List.append_cons]⟩
  rw [isExcludedBy_stars_iff, Path.mem_dropLast_components_iff hslash, haccepts, or_comm]
  refine or_congr_right ⟨?_, ?_⟩
  · rintro ⟨before, tail, rfl, htail⟩
    obtain ⟨after, rfl⟩ := (haccepts tail).mp htail
    exact ⟨before, after, rfl⟩
  · rintro ⟨before, after, rfl⟩
    exact ⟨before, _, rfl, (haccepts _).mpr ⟨after, rfl⟩⟩

/-- The alternatives of the patterns that are excluded by default. -/
def standardGlobs : List String :=
  (asideWords.flatMap fun word ↦ sourceExtensions.map fun extension ↦
    "**/" ++ ("*" ++ ("." ++ word ++ "." ++ extension))) ++
  producedDirectories.map fun directory ↦ "**/" ++ (directory ++ "/" ++ "**")

theorem excludeAlternatives_standardExcludes :
    excludeAlternatives standardExcludes = .ok standardGlobs :=
  Except.eq_ok_of_toOption (by decide +kernel)

theorem isExcludedByAny_standardGlobs_iff {path : String} :
    isExcludedByAny path standardGlobs = true ↔ LeftOut path := by
  have hending : ∀ word ∈ asideWords, ∀ extension ∈ sourceExtensions,
      ("." ++ word ++ "." ++ extension).toList.any Wildcard.isSpecial = false := by decide
  have hdirectory : ∀ directory ∈ producedDirectories,
      directory.toList.any Wildcard.isSpecial = false ∧ '/' ∉ directory.toList := by decide
  rw [isExcludedByAny, standardGlobs, List.any_append, Bool.or_eq_true, List.any_eq_true,
    List.any_eq_true]
  refine or_congr ⟨?_, ?_⟩ ⟨?_, ?_⟩
  · rintro ⟨glob, hglob, h⟩
    obtain ⟨word, hword, hglob⟩ := List.mem_flatMap.mp hglob
    obtain ⟨extension, hextension, rfl⟩ := List.mem_map.mp hglob
    exact ⟨word, hword, extension, hextension,
      (isExcludedBy_ending_iff (hending word hword extension hextension)).mp h⟩
  · rintro ⟨word, hword, extension, hextension, h⟩
    refine ⟨_, List.mem_flatMap.mpr ⟨word, hword, List.mem_map_of_mem hextension⟩, ?_⟩
    exact (isExcludedBy_ending_iff (hending word hword extension hextension)).mpr h
  · rintro ⟨glob, hglob, h⟩
    obtain ⟨directory, hmem, rfl⟩ := List.mem_map.mp hglob
    obtain ⟨hliteral, hslash⟩ := hdirectory directory hmem
    exact ⟨directory, hmem, (isExcludedBy_directory_iff hliteral hslash).mp h⟩
  · rintro ⟨directory, hmem, h⟩
    obtain ⟨hliteral, hslash⟩ := hdirectory directory hmem
    exact ⟨_, List.mem_map_of_mem hmem, (isExcludedBy_directory_iff hliteral hslash).mpr h⟩

/-! ## Discovery with and without them -/

variable {ws : Workspace} {root : Path} {patterns : List String}

/-- What is excluded has no part in how a search ends. -/
theorem sweep_snd_eq (globs globs' : List String) (p p' : Progress)
    (searched : List (Except DiscoveryError String)) :
    (sweep ws root globs p searched).2 = (sweep ws root globs' p' searched).2 := by
  induction searched generalizing p p' with
  | nil => rfl
  | cons a searched ih =>
    cases a with
    | error e => rfl
    | ok alternative =>
      rw [sweep, sweep]
      split
      · rfl
      · exact ih _ _

theorem discover_eq_error_iff {e : DiscoveryError} :
    (ws.discover patterns root true).1 = .error e ↔
      (ws.discover patterns root false).1 = .error e := by
  rw [Workspace.discover, Workspace.discover]
  dsimp only
  split
  · rfl
  · split
    · rfl
    · rw [if_pos rfl, if_neg Bool.false_ne_true, List.nil_append,
        excludeAlternatives_append excludeAlternatives_standardExcludes]
      cases excludeAlternatives (excludes patterns) with
      | error e' => rfl
      | ok globs =>
        have hend := @sweep_snd_eq ws root (standardGlobs ++ globs) globs {} {}
          (alternatives (includes patterns))
        dsimp only [Except.map]
        revert hend
        cases sweep ws root (standardGlobs ++ globs) {} (alternatives (includes patterns)) with
        | mk p end' =>
          cases sweep ws root globs {} (alternatives (includes patterns)) with
          | mk q end'' =>
            rintro (rfl : end' = end'')
            cases end' with
            | none => exact iff_of_false (by rintro ⟨⟩) (by rintro ⟨⟩)
            | some e' => rfl

theorem listed_standardGlobs_append (globs : List String) :
    listed ws root patterns (standardGlobs ++ globs) =
      (listed ws root patterns globs).filter fun r ↦ ¬ LeftOut r.text := by
  rw [listed, listed, List.filter_filter]
  refine List.filter_congr fun r _ ↦ ?_
  have hstandard : isExcludedByAny r.text standardGlobs = decide (LeftOut r.text) := by
    rw [Bool.eq_iff_iff, isExcludedByAny_standardGlobs_iff, decide_eq_true_iff]
  rw [isWanted, isWanted, isExcludedByAny, List.any_append, ← isExcludedByAny, ← isExcludedByAny,
    hstandard, Bool.not_or, Bool.and_left_comm, decide_not]

/-- The files that paths below a root lead to. -/
def filesAt (root : Path) (rs : List Path) : List String :=
  rs.map fun r ↦ (root.append r).text

/-- What is left out is taken from what is listed without the patterns. -/
theorem exists_discover_eq_ok {files : List String}
    (h : (ws.discover patterns root false).1 = .ok files) :
    ∃ globs, files = filesAt root (listed ws root patterns globs) ∧
      (ws.discover patterns root true).1 =
        .ok (filesAt root ((listed ws root patterns globs).filter fun r ↦ ¬ LeftOut r.text)) := by
  obtain ⟨-, globs, hglobs, rfl⟩ := eq_listed_of_discover_eq_ok h
  refine ⟨globs, rfl, ?_⟩
  cases hstandard : (ws.discover patterns root true).1 with
  | error e => cases h.symm.trans (discover_eq_error_iff.mp hstandard)
  | ok files =>
    obtain ⟨-, globs', hglobs', rfl⟩ := eq_listed_of_discover_eq_ok hstandard
    rw [if_neg Bool.false_ne_true, List.nil_append] at hglobs
    rw [if_pos rfl, excludeAlternatives_append excludeAlternatives_standardExcludes, hglobs]
      at hglobs'
    obtain rfl : standardGlobs ++ globs = globs' := Except.ok.inj hglobs'
    rw [listed_standardGlobs_append]
    rfl

/-! ## Paths below the root -/

theorem suffix_of_suffix_append_slash {ending before last : List Char} (h : '/' ∉ ending)
    (hsuffix : ending <:+ before ++ '/' :: last) : ending <:+ last := by
  rcases List.suffix_or_suffix_of_suffix hsuffix (List.suffix_append before ('/' :: last)) with
    hshort | hlong
  · rcases List.suffix_cons_iff.mp hshort with rfl | hlast
    · exact absurd List.mem_cons_self h
    · exact hlast
  · exact absurd (hlong.subset List.mem_cons_self) h

/-- What names that lead to a file end with, the last one does. -/
theorem suffix_getLast_of_suffix_intercalate {inner : List String} {ending last : String}
    (h : '/' ∉ ending.toList)
    (hsuffix : ending.toList <:+ ("/".intercalate (inner ++ [last])).toList) :
    ending.toList <:+ last.toList := by
  by_cases hinner : inner = []
  · subst hinner
    rwa [List.nil_append, String.intercalate_singleton] at hsuffix
  · rw [String.intercalate_append_of_ne_nil hinner (List.cons_ne_nil _ _),
      String.intercalate_singleton, Path.toList_append_slash] at hsuffix
    exact suffix_of_suffix_append_slash h hsuffix

theorem suffix_text {p : Path} {front : List String} {last : String}
    (h : p.names = front ++ [last]) : last.toList <:+ p.text.toList := by
  rw [Path.text, if_neg fun hempty ↦ (h ▸ List.append_ne_nil_of_right_ne_nil front
    (List.cons_ne_nil last [])) hempty.2, h, String.toList_append]
  refine List.IsSuffix.trans ?_ (List.suffix_append _ _)
  by_cases hfront : front = []
  · subst hfront
    simp only [List.nil_append, String.intercalate_singleton, List.suffix_rfl]
  · rw [String.intercalate_append_of_ne_nil hfront (List.cons_ne_nil _ _),
      String.intercalate_singleton, String.toList_append]
    exact List.suffix_append _ _

theorem slash_notMem_ending : ∀ word ∈ asideWords, ∀ extension ∈ sourceExtensions,
    '/' ∉ ("." ++ word ++ "." ++ extension).toList := by
  decide

theorem slash_notMem_of_mem_replicate {n : Nat} {name : String}
    (h : name ∈ List.replicate n "..") : '/' ∉ name.toList := by
  rw [(List.mem_replicate.mp h).2]
  decide

theorem not_leftOut_replicate (n : Nat) :
    ¬ LeftOut ("/".intercalate (List.replicate n "..")) := by
  have hshort : ∀ word ∈ asideWords, ∀ extension ∈ sourceExtensions,
      ¬ ("." ++ word ++ "." ++ extension).toList <:+ "..".toList := by decide
  cases n with
  | zero => decide
  | succ n =>
    rintro (⟨word, hword, extension, hextension, hsuffix⟩ | ⟨directory, hmem, hdirectory⟩)
    · have hslash := slash_notMem_ending word hword extension hextension
      rw [List.replicate_succ'] at hsuffix
      exact hshort word hword extension hextension
        (suffix_getLast_of_suffix_intercalate hslash hsuffix)
    · have hne : List.replicate (n + 1) ".." ≠ [] := List.cons_ne_nil _ _
      rw [Path.components_intercalate (fun _ ↦ slash_notMem_of_mem_replicate) hne] at hdirectory
      rw [(List.mem_replicate.mp (List.dropLast_subset _ hdirectory)).2] at hmem
      exact absurd hmem (by decide)

/-- A path under which a file is found is left out if the path that leads to the file from the root
is. -/
theorem LeftOut.of_namesFrom {root r : Path} (hr : r.WellFormed) {base target : List String}
    (hroot : ws.place root = .ok base) (hplace : ws.place (root.append r) = .ok target)
    (hfile : ws.isFile (root.append r) = true)
    (h : LeftOut ("/".intercalate (Workspace.namesFrom base target))) : LeftOut r.text := by
  obtain ⟨common, up, below, rfl, heq, hparts⟩ := Workspace.exists_namesFrom_eq base target
  rw [heq] at h
  have hbelow : below ≠ [] := by
    rintro rfl
    rw [List.append_nil] at h
    exact not_leftOut_replicate up h
  obtain ⟨place, hbefore, hfollow⟩ := Workspace.exists_follow_of_place_append hroot hplace
  obtain ⟨front, inner, last, hnames, rfl, hinner⟩ := Workspace.names_of_follow_eq_file hfollow
    (fun name hname ↦ (hr.names name hname).isStep) (Workspace.entry?_of_isFile hfile hplace)
    hbelow fun h ↦ hparts hbelow (h.trans hbefore)
  rw [← List.append_assoc] at h
  rcases h with ⟨word, hword, extension, hextension, hsuffix⟩ | ⟨directory, hmem, hdirectory⟩
  · have hslash := slash_notMem_ending word hword extension hextension
    refine .inl ⟨word, hword, extension, hextension, ?_⟩
    exact (suffix_getLast_of_suffix_intercalate hslash hsuffix).trans (suffix_text hnames)
  · have hsteps : ∀ name ∈ List.replicate up ".." ++ inner ++ [last], '/' ∉ name.toList := by
      intro name hname
      rcases List.mem_append.mp hname with hname | hname
      · rcases List.mem_append.mp hname with hname | hname
        · exact slash_notMem_of_mem_replicate hname
        · exact (hr.names name (hnames ▸ List.mem_append_left _ (hinner name hname))).noSlash
      · exact (hr.names name (hnames ▸ List.mem_append_right _ hname)).noSlash
    have hproduced : ".." ∉ producedDirectories := by decide
    rw [Path.components_intercalate hsteps (List.append_ne_nil_of_right_ne_nil _
      (List.cons_ne_nil _ _)), List.dropLast_concat] at hdirectory
    obtain ⟨slashes, hcomponents⟩ := hr.components_text
      (hnames ▸ List.append_ne_nil_of_right_ne_nil _ (List.cons_ne_nil _ _))
    refine .inr ⟨directory, hmem, ?_⟩
    rw [hcomponents, hnames, ← List.append_assoc, List.dropLast_concat]
    refine List.mem_append_right _ (hinner directory ?_)
    refine (List.mem_append.mp hdirectory).resolve_left fun hup ↦ ?_
    rw [(List.mem_replicate.mp hup).2] at hmem
    exact hproduced hmem

/-- No file is listed whose path from the root is left out. -/
theorem not_leftOut_of_mem {root : String} {files : List String}
    (h : (ws.discover patterns (.ofText root) true).1 = .ok files) {file : String}
    (hfile : file ∈ files) {base target : List String} (hroot : ws.place (.ofText root) = .ok base)
    (hplace : ws.place (.ofText file) = .ok target) :
    ¬ LeftOut ("/".intercalate (Workspace.namesFrom base target)) := by
  obtain ⟨-, globs, hglobs, rfl⟩ := eq_listed_of_discover_eq_ok h
  obtain ⟨r, hr, rfl⟩ := List.mem_map.mp hfile
  obtain ⟨⟨w, hw⟩, hwanted⟩ := mem_listed_iff.mp hr
  obtain ⟨-, rfl⟩ := yields_iff.mp hw
  obtain ⟨hisFile, hexcluded⟩ := Bool.and_eq_true_iff.mp hwanted
  have hwell := Path.wellFormed_ofText w.text
  rw [((Path.wellFormed_ofText root).append hwell).ofText_text] at hplace
  intro hout
  have hmatch :=
    isExcludedByAny_standardGlobs_iff.mpr (hout.of_namesFrom hwell hroot hplace hisFile)
  rw [if_pos rfl, excludeAlternatives_append excludeAlternatives_standardExcludes] at hglobs
  obtain ⟨more, -, rfl⟩ := Except.map_eq_ok_iff.mp hglobs
  rw [isExcludedByAny, List.any_append, ← isExcludedByAny, hmatch] at hexcluded
  cases hexcluded

/-- **Standard excludes.**  The patterns that are excluded by default exclude what is left out.
With them, discovery fails as it does without them.  No file is listed whose path from the root is
left out.  Of the files that are listed without them, those are taken away whose paths, as a pattern
found them, are left out; such a path is the path of the file from the root if it starts there and
does not lead up. -/
theorem discover_standard_excludes :
    (∃ globs, excludeAlternatives standardExcludes = .ok globs ∧
      ∀ path, isExcludedByAny path globs = true ↔ LeftOut path) ∧
    ∀ (ws : Workspace) (root : String) (patterns : List String),
      (∀ e, (ws.discover patterns (.ofText root) true).1 = .error e ↔
        (ws.discover patterns (.ofText root) false).1 = .error e) ∧
      (∀ files, (ws.discover patterns (.ofText root) true).1 = .ok files → ∀ file ∈ files,
        ∀ base target, ws.place (.ofText root) = .ok base → ws.place (.ofText file) = .ok target →
          ¬ LeftOut ("/".intercalate (Workspace.namesFrom base target))) ∧
      ∀ files, (ws.discover patterns (.ofText root) false).1 = .ok files →
        ∃ rs : List Path, files = filesAt (.ofText root) rs ∧
          (ws.discover patterns (.ofText root) true).1 =
            .ok (filesAt (.ofText root) (rs.filter fun r ↦ ¬ LeftOut r.text)) ∧
          ∀ r ∈ rs, (∃ w, Yields ws (.ofText root) patterns w r) ∧
            (r.Local → ".." ∉ r.names → ∀ base target, ws.place (.ofText root) = .ok base →
              ws.place ((Path.ofText root).append r) = .ok target →
                Workspace.namesFrom base target = r.names) := by
  refine ⟨⟨standardGlobs, excludeAlternatives_standardExcludes,
    fun path ↦ isExcludedByAny_standardGlobs_iff⟩, fun ws root patterns ↦
    ⟨fun e ↦ discover_eq_error_iff, fun files hfiles ↦ ?_, fun files hfiles ↦ ?_⟩⟩
  · exact fun file hfile base target ↦ not_leftOut_of_mem hfiles hfile
  · obtain ⟨globs, hlisted, hkept⟩ := exists_discover_eq_ok hfiles
    refine ⟨_, hlisted, hkept, fun r hr ↦ ⟨(mem_listed_iff.mp hr).1, ?_⟩⟩
    intro hlocal hup base target hroot hplace
    rw [Path.append, if_pos hlocal.anchor] at hplace
    obtain ⟨middle, hmiddle, hrest⟩ := Workspace.follow_append.mp hplace
    obtain rfl : middle = base := Except.ok.inj (hmiddle.symm.trans hroot)
    rw [Workspace.eq_append_of_follow hrest (fun name hname ↦ (hlocal.names name hname).isStep) hup,
      Workspace.namesFrom_append]

/-- A test and something that was built, next to files whose paths look nearly like theirs. -/
theorem discover_standard_excludes_near_misses :
    let ws := ((((Workspace.empty ["w"]).insert (.ofText "src/a.test.ts") (.file [] .blank)).insert
      (.ofText "src/mytest.ts") (.file [] .blank)).insert
      (.ofText "src/build/b.ts") (.file [] .blank)).insert
      (.ofText "src/builds/c.ts") (.file [] .blank)
    let patterns := ["*.test.ts", "my*", "build/*", "builds/*"]
    (ws.discover patterns (.ofText "src") false).1 =
        .ok ["src/a.test.ts", "src/mytest.ts", "src/build/b.ts", "src/builds/c.ts"] ∧
      (ws.discover patterns (.ofText "src") true).1 = .ok ["src/mytest.ts", "src/builds/c.ts"] ∧
      ¬ LeftOut ("/".intercalate (Workspace.namesFrom ["w", "src"] ["w", "src", "mytest.ts"])) := by
  intro ws patterns
  have hfiles : (ws.discover patterns (.ofText "src") true).1 =
      .ok ["src/mytest.ts", "src/builds/c.ts"] := Except.eq_ok_of_toOption (by decide +kernel)
  have hplace (text : String) {target : List String}
      (h : (ws.place (.ofText text)).toOption = some target) :
      ws.place (.ofText text) = .ok target :=
    Except.eq_ok_of_toOption h
  refine ⟨Except.eq_ok_of_toOption (by decide +kernel), hfiles, ?_⟩
  exact (discover_standard_excludes.2 ws "src" patterns).2.1 _ hfiles "src/mytest.ts"
    List.mem_cons_self _ _ (hplace "src" (by decide +kernel)) (hplace _ (by decide +kernel))

/-- What counts is the path under which a file was found, not the one that leads to it from the
root. -/
theorem discover_standard_excludes_on_the_way :
    let ws := (Workspace.empty ["w"]).insert (.ofText "build/app/src/a.ts") (.file [] .blank)
    let patterns := ["../../build/app/src/*.ts"]
    (ws.discover patterns (.ofText "build/app") false).1.toOption =
        some ["build/app/../../build/app/src/a.ts"] ∧
      (ws.discover patterns (.ofText "build/app") true).1.toOption = some [] ∧
      (ws.place (.ofText "build/app")).toOption = some ["w", "build", "app"] ∧
      (ws.place (.ofText "build/app/../../build/app/src/a.ts")).toOption =
        some ["w", "build", "app", "src", "a.ts"] ∧
      ¬ LeftOut ("/".intercalate (Workspace.namesFrom ["w", "build", "app"]
        ["w", "build", "app", "src", "a.ts"])) := by
  decide +kernel

end HardcodedText.Discovery
