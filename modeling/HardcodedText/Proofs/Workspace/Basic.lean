import HardcodedText.Proofs.Workspace.Path
import HardcodedText.Workspace.Basic

/-!
# Where paths lead

A path is followed name by name, through directories only (`Workspace.follow_cons_cases`).  So every
name in the place of a file, from where it parts with the place where the path started, is a name of
the path, and the last one is its last (`Workspace.names_of_follow_eq_file`).

Patterns look directories up by texts, files are looked up by paths.  The two agree: where the text
of a path leads to a directory, so does the path (`Workspace.at?_of_directory?`).
-/

namespace HardcodedText.Workspace

variable {ws : Workspace}

/-! ## Name by name -/

/-- What one name does. -/
theorem follow_cons_cases {place target : List String} {name : String} {names : List String}
    (h : ws.follow place (name :: names) = .ok target) :
    ws.entry? place = some .directory ∧
      (Path.isStep name = false ∧ ws.follow place names = .ok target ∨
        name = ".." ∧ ws.follow place.dropLast names = .ok target ∨
        Path.isStep name = true ∧ name ≠ ".." ∧ (ws.entry? (place ++ [name])).isSome = true ∧
          ws.follow (place ++ [name]) names = .ok target) := by
  rw [follow] at h
  split at h
  · cases h
  · cases h
  · next hentry =>
    refine ⟨hentry, ?_⟩
    split at h
    · next hstep =>
      rw [Bool.not_eq_true'] at hstep
      exact .inl ⟨hstep, h⟩
    · next hstep =>
      rw [Bool.not_eq_true', Bool.not_eq_false] at hstep
      split at h
      · next hup => exact .inr (.inl ⟨hup, h⟩)
      · next hup =>
        split at h
        · next hthere => exact .inr (.inr ⟨hstep, hup, hthere, h⟩)
        · cases h

/-- Parts that lead nowhere can be left out. -/
theorem follow_filter_isStep {place names target : List String}
    (h : ws.follow place names = .ok target) :
    ws.follow place (names.filter Path.isStep) = .ok target := by
  induction names generalizing place with
  | nil => exact h
  | cons name names ih =>
    obtain ⟨hentry, ⟨hstep, hrest⟩ | ⟨rfl, hrest⟩ | ⟨hstep, hup, hthere, hrest⟩⟩ :=
      follow_cons_cases h
    · rw [List.filter_cons_of_neg (by rw [hstep]; exact Bool.false_ne_true)]
      exact ih hrest
    · rw [List.filter_cons_of_pos (by decide), follow, hentry]
      exact ih hrest
    · rw [List.filter_cons_of_pos hstep, follow, hentry]
      dsimp only
      rw [hstep, if_neg (by decide), if_neg hup, if_pos hthere]
      exact ih hrest

theorem follow_append {place target : List String} {names more : List String} :
    ws.follow place (names ++ more) = .ok target ↔
      ∃ middle, ws.follow place names = .ok middle ∧ ws.follow middle more = .ok target := by
  induction names generalizing place with
  | nil =>
    constructor
    · exact fun h ↦ ⟨place, rfl, h⟩
    · rintro ⟨_, ⟨⟩, h⟩
      exact h
  | cons name names ih =>
    rw [List.cons_append, follow, follow]
    split
    · exact iff_of_false (by rintro ⟨⟩) (by rintro ⟨_, ⟨⟩, -⟩)
    · exact iff_of_false (by rintro ⟨⟩) (by rintro ⟨_, ⟨⟩, -⟩)
    · split
      · exact ih
      · split
        · exact ih
        · split
          · exact ih
          · exact iff_of_false (by rintro ⟨⟩) (by rintro ⟨_, ⟨⟩, -⟩)

/-- A name in the place that a path leads to is one of its names, unless the path started there. -/
theorem mem_of_follow {place target front : List String} {name : String} {names : List String}
    (h : ws.follow place names = .ok target) (hfront : front ++ [name] <+: target)
    (hnew : ¬ front ++ [name] <+: place) : name ∈ names := by
  induction names generalizing place with
  | nil =>
    cases h
    exact absurd hfront hnew
  | cons next names ih =>
    obtain ⟨-, ⟨-, h⟩ | ⟨-, h⟩ | ⟨-, -, -, h⟩⟩ := follow_cons_cases h
    · exact List.mem_cons_of_mem _ (ih h hnew)
    · exact List.mem_cons_of_mem _ (ih h fun hup ↦ hnew (hup.trans (List.dropLast_prefix _)))
    · by_cases hhere : front ++ [name] <+: place ++ [next]
      · have heq := (List.prefix_concat_iff.mp hhere).resolve_right hnew
        rw [(List.append_inj' heq rfl).2 |> List.singleton_inj.mp]
        exact List.mem_cons_self
      · exact List.mem_cons_of_mem _ (ih h hhere)

/-- A path goes through directories only. -/
theorem entry?_of_follow {place target front : List String} {names : List String}
    (h : ws.follow place names = .ok target) (hfront : front <+: target) (hne : front ≠ target)
    (hnew : ¬ front <+: place) : ws.entry? front = some .directory := by
  induction names generalizing place with
  | nil =>
    cases h
    exact absurd hfront hnew
  | cons next names ih =>
    obtain ⟨-, ⟨-, h⟩ | ⟨-, h⟩ | ⟨-, -, -, h⟩⟩ := follow_cons_cases h
    · exact ih h hnew
    · exact ih h fun hup ↦ hnew (hup.trans (List.dropLast_prefix _))
    · by_cases hhere : front <+: place ++ [next]
      · obtain rfl := (List.prefix_concat_iff.mp hhere).resolve_right hnew
        cases names with
        | nil =>
          cases h
          exact absurd rfl hne
        | cons => exact (follow_cons_cases h).1
      · exact ih h hhere

/-- The last name of a path to a file is that of the file. -/
theorem eq_concat_of_follow {place target : List String} {names : List String}
    (h : ws.follow place names = .ok target) (hsteps : ∀ name ∈ names, Path.isStep name = true)
    (hfile : ws.entry? target ≠ some .directory) (hnew : ¬ target <+: place) :
    ∃ front middle last, names = front ++ [last] ∧ target = middle ++ [last] ∧
      ws.follow place front = .ok middle := by
  rcases List.eq_nil_or_concat names with rfl | ⟨front, last, hnames⟩
  · cases h
    exact absurd (List.prefix_refl _) hnew
  · rw [List.concat_eq_append] at hnames
    subst hnames
    obtain ⟨middle, hmiddle, hlast⟩ := follow_append.mp h
    refine ⟨front, middle, last, rfl, ?_, hmiddle⟩
    obtain ⟨hentry, ⟨hstep, -⟩ | ⟨-, hup⟩ | ⟨-, -, -, hdown⟩⟩ := follow_cons_cases hlast
    · rw [hsteps last (List.mem_append_right _ List.mem_cons_self)] at hstep
      cases hstep
    · -- Going up leads to a directory that the path came through.
      cases hup
      by_cases heq : middle.dropLast = middle
      · rw [heq] at hfile
        exact absurd hentry hfile
      · exact absurd (entry?_of_follow hmiddle (List.dropLast_prefix _) heq hnew) hfile
    · cases hdown
      rfl

/-- The names in the place of a file, from where it parts with the place where a path started, are
names of the path, and the last one is its last. -/
theorem names_of_follow_eq_file {place common below : List String} {names : List String}
    (h : ws.follow place names = .ok (common ++ below))
    (hsteps : ∀ name ∈ names, Path.isStep name = true)
    (hfile : ws.entry? (common ++ below) ≠ some .directory) (hbelow : below ≠ [])
    (hparts : ¬ common ++ [below.head hbelow] <+: place) :
    ∃ front inner last, names = front ++ [last] ∧ below = inner ++ [last] ∧
      ∀ name ∈ inner, name ∈ front := by
  have hnew {start more : List String} (hbelow' : below = start ++ more) (hstart : start ≠ []) :
      ¬ common ++ start <+: place := by
    refine fun hbefore ↦ hparts (List.IsPrefix.trans ?_ hbefore)
    obtain ⟨first, start, rfl⟩ := List.exists_cons_of_ne_nil hstart
    simp only [hbelow', List.cons_append, List.head_cons]
    exact ⟨start, List.append_assoc ..⟩
  obtain ⟨front, middle, last, rfl, htarget, hmiddle⟩ :=
    eq_concat_of_follow h hsteps hfile (hnew (List.append_nil _).symm hbelow)
  obtain ⟨inner, last', hinner⟩ := (List.eq_nil_or_concat below).resolve_left hbelow
  rw [List.concat_eq_append] at hinner
  rw [hinner, ← List.append_assoc] at htarget
  obtain ⟨rfl, hlast⟩ := List.append_inj' htarget rfl
  obtain rfl := List.singleton_inj.mp hlast
  refine ⟨front, inner, last', rfl, hinner, fun name hname ↦ ?_⟩
  obtain ⟨before, after, rfl⟩ := List.append_of_mem hname
  have hmem : common ++ before ++ [name] <+: common ++ (before ++ name :: after) :=
    ⟨after, by simp only [List.append_assoc, List.singleton_append]⟩
  have hdown : below = before ++ [name] ++ (after ++ [last']) := by
    rw [hinner]
    simp only [List.append_assoc, List.cons_append, List.nil_append]
  refine mem_of_follow hmiddle hmem ?_
  rw [List.append_assoc]
  exact hnew hdown (List.append_ne_nil_of_right_ne_nil _ (List.cons_ne_nil _ _))

/-! ## From place to place -/

/-- The names that lead from one place to another, up as far as need be and then down. -/
def namesFrom : List String → List String → List String
  | [], target => target
  | base, [] => base.map fun _ ↦ ".."
  | name :: base, next :: target =>
    if name = next then namesFrom base target
    else (name :: base).map (fun _ ↦ "..") ++ next :: target

theorem namesFrom_append (base below : List String) : namesFrom base (base ++ below) = below := by
  induction base with
  | nil => cases below <;> rfl
  | cons name base ih => rwa [List.cons_append, namesFrom, if_pos rfl]

/-- One goes up to the place where the two places part. -/
theorem exists_namesFrom_eq (base target : List String) :
    ∃ common up below, target = common ++ below ∧
      namesFrom base target = List.replicate up ".." ++ below ∧
      ∀ hbelow : below ≠ [], ¬ common ++ [below.head hbelow] <+: base := by
  induction base, target using namesFrom.induct with
  | case1 target =>
    refine ⟨[], 0, target, rfl, by cases target <;> rfl, fun _ h ↦ ?_⟩
    exact List.cons_ne_nil _ _ (List.prefix_nil.mp h)
  | case2 base hbase =>
    refine ⟨[], base.length, [], rfl, ?_, fun h ↦ absurd rfl h⟩
    rw [namesFrom, List.append_nil, List.map_const']
    exact hbase
  | case3 base next target ih =>
    obtain ⟨common, up, below, rfl, hnames, hparts⟩ := ih
    refine ⟨next :: common, up, below, rfl, ?_, fun hbelow h ↦ hparts hbelow ?_⟩
    · rwa [namesFrom, if_pos rfl]
    · exact (List.prefix_cons_inj next).mp h
  | case4 name base next target hne =>
    refine ⟨[], (name :: base).length, next :: target, rfl, ?_, fun _ h ↦ ?_⟩
    · rw [namesFrom, if_neg hne, List.map_const']
    · exact hne (List.cons_prefix_cons.mp h).1.symm

/-- Names without `..` lead down. -/
theorem eq_append_of_follow {place target : List String} {names : List String}
    (h : ws.follow place names = .ok target) (hsteps : ∀ name ∈ names, Path.isStep name = true)
    (hup : ".." ∉ names) : target = place ++ names := by
  induction names generalizing place with
  | nil =>
    cases h
    exact (List.append_nil _).symm
  | cons name names ih =>
    obtain ⟨hstep', hsteps⟩ := List.forall_mem_cons.mp hsteps
    obtain ⟨hname, hup⟩ := not_or.mp (mt List.mem_cons.mpr hup)
    obtain ⟨-, ⟨hstep, -⟩ | ⟨rfl, -⟩ | ⟨-, -, -, h⟩⟩ := follow_cons_cases h
    · rw [hstep'] at hstep
      cases hstep
    · exact absurd rfl hname
    · rw [ih h hsteps hup, List.append_assoc]
      rfl

/-- A path after another one is followed from a place on the way to where the other one leads. -/
theorem exists_follow_of_place_append {p q : Path} {base target : List String}
    (hp : ws.place p = .ok base) (h : ws.place (p.append q) = .ok target) :
    ∃ place, place <+: base ∧ ws.follow place q.names = .ok target := by
  rw [Path.append] at h
  split at h
  · obtain ⟨middle, hmiddle, hrest⟩ := follow_append.mp h
    obtain rfl : middle = base := Except.ok.inj (hmiddle.symm.trans hp)
    exact ⟨middle, List.prefix_refl _, hrest⟩
  · next hanchor =>
    rw [place, start, if_neg hanchor] at h
    exact ⟨[], List.nil_prefix, h⟩

theorem entry?_of_isFile {p : Path} {target : List String} (h : ws.isFile p = true)
    (hplace : ws.place p = .ok target) : ws.entry? target ≠ some .directory := by
  intro hentry
  have hat : ws.at? p = some .directory := by
    rw [at?, hplace]
    exact hentry
  rw [isFile, hat] at h
  cases h

/-! ## Texts that lead to directories -/

theorem at?_of_directory? {text : String} {place : List String}
    (h : ws.directory? text = some place) : ws.at? (.ofText text) = some .directory := by
  rw [directory?] at h
  split at h
  · next target htarget =>
    split at h
    · next hentry =>
      rw [placeOfText] at htarget
      split at htarget
      · cases htarget
      · have hplace : ws.place (.ofText text) = .ok target := follow_filter_isStep htarget
        rw [at?, hplace]
        exact hentry
    · cases h
  · cases h

theorem isFile_eq_false_of_directory? {text : String} (h : (ws.directory? text).isSome = true) :
    ws.isFile (.ofText text) = false := by
  obtain ⟨place, hplace⟩ := Option.isSome_iff_exists.mp h
  rw [isFile, at?_of_directory? hplace]

end HardcodedText.Workspace
