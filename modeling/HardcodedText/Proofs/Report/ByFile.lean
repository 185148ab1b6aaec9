import Mathlib.Data.List.Basic
import Mathlib.Data.List.Forall2
import Mathlib.Data.List.Induction
import Mathlib.Data.List.Nodup
import HardcodedText.Report.Files
import HardcodedText.Report.Listing

/-!
# Diagnostics by file

Diagnostics are put one after the other into the groups of their files.  `Diagnostic.GroupsOf` says
what comes of that, whatever order the files come in: each diagnostic that is added keeps it
(`Diagnostic.GroupsOf.add`), so it holds of all groups (`Diagnostic.groupsOf_byFile`).

* `Diagnostic.flatMap_byFile_perm`: nothing is lost, and nothing is shown twice.
* `Diagnostic.flatMap_byFile_flatMap`: where the diagnostics come file by file anyway, the groups
  one after the other are the diagnostics as they were.
* `Listing.shows_render`: the listing shows the groups, with a numbered block for each diagnostic.
-/

namespace HardcodedText

namespace Diagnostic

/-- `GroupsOf ds groups`: the groups are those of the diagnostics `ds` by file. -/
structure GroupsOf (ds : List Diagnostic) (groups : List (String × List Diagnostic)) : Prop where
  /-- No file has two groups. -/
  nodup : (groups.map Prod.fst).Nodup
  /-- The files are those of the diagnostics. -/
  mem_iff : ∀ p, p ∈ groups.map Prod.fst ↔ p ∈ ds.map path
  /-- They come in the order in which they first occur. -/
  ordered : (groups.map Prod.fst).Pairwise fun p q ↦
    (ds.map path).idxOf p < (ds.map path).idxOf q
  /-- The group of a file has the diagnostics of that file, in their order. -/
  eq_filter : ∀ g ∈ groups, g.2 = ds.filter (·.path = g.1)

variable {d : Diagnostic} {ds : List Diagnostic} {groups : List (String × List Diagnostic)}

/-! ## Adding a diagnostic -/

/-- Groups of other files are passed over. -/
theorem addTo_append (h : d.path ∉ groups.map Prod.fst) (more : List (String × List Diagnostic)) :
    d.addTo (groups ++ more) = groups ++ d.addTo more := by
  induction groups with
  | nil => rfl
  | cons g groups ih =>
    obtain ⟨p, ds⟩ := g
    rw [List.map_cons, List.mem_cons, not_or] at h
    rw [List.cons_append, addTo, if_neg (Ne.symm h.1), ih h.2, List.cons_append]

theorem addTo_of_notMem (h : d.path ∉ groups.map Prod.fst) :
    d.addTo groups = groups ++ [(d.path, [d])] := by
  have happend := addTo_append h []
  rwa [List.append_nil] at happend

theorem addTo_of_mem (h : d.path ∈ groups.map Prod.fst) :
    ∃ before ds after, groups = before ++ (d.path, ds) :: after ∧
      d.path ∉ before.map Prod.fst ∧
      d.addTo groups = before ++ (d.path, ds ++ [d]) :: after := by
  induction groups with
  | nil => cases h
  | cons g groups ih =>
    obtain ⟨p, ds⟩ := g
    by_cases hp : p = d.path
    · subst hp
      exact ⟨[], ds, groups, rfl, List.not_mem_nil, by rw [addTo, if_pos rfl, List.nil_append]⟩
    · have htail := List.mem_of_ne_of_mem (Ne.symm hp) h
      obtain ⟨before, ds', after, rfl, hbefore, hadd⟩ := ih htail
      refine ⟨(p, ds) :: before, ds', after, rfl, ?_, ?_⟩
      · rw [List.map_cons, List.mem_cons, not_or]
        exact ⟨Ne.symm hp, hbefore⟩
      · rw [addTo, if_neg hp, hadd, List.cons_append]

theorem filter_path_concat_self (ds : List Diagnostic) (d : Diagnostic) :
    (ds ++ [d]).filter (·.path = d.path) = ds.filter (·.path = d.path) ++ [d] := by
  rw [List.filter_append]
  exact congrArg _ (List.filter_cons_of_pos (decide_eq_true rfl))

theorem filter_path_concat_of_ne {p : String} (h : d.path ≠ p) (ds : List Diagnostic) :
    (ds ++ [d]).filter (·.path = p) = ds.filter (·.path = p) := by
  have hnone : [d].filter (·.path = p) = [] := List.filter_cons_of_neg (mt of_decide_eq_true h)
  rw [List.filter_append, hnone, List.append_nil]

theorem idxOf_path_concat {p : String} (h : p ∈ ds.map path) (d : Diagnostic) :
    ((ds ++ [d]).map path).idxOf p = (ds.map path).idxOf p := by
  rw [List.map_append]
  exact List.idxOf_append_of_mem h

namespace GroupsOf

/-- One more diagnostic does not change where the files first occur. -/
theorem ordered_concat (h : GroupsOf ds groups) (d : Diagnostic) :
    (groups.map Prod.fst).Pairwise fun p q ↦
      ((ds ++ [d]).map path).idxOf p < ((ds ++ [d]).map path).idxOf q := by
  refine h.ordered.imp_of_mem fun {p q} hp hq hpq ↦ ?_
  rwa [idxOf_path_concat ((h.mem_iff p).mp hp), idxOf_path_concat ((h.mem_iff q).mp hq)]

theorem add_of_mem (h : GroupsOf ds groups) (hseen : d.path ∈ groups.map Prod.fst) :
    GroupsOf (ds ++ [d]) (d.addTo groups) := by
  obtain ⟨before, own, after, rfl, hbefore, hadd⟩ := addTo_of_mem hseen
  have hfst : (d.addTo (before ++ (d.path, own) :: after)).map Prod.fst =
      (before ++ (d.path, own) :: after).map Prod.fst := by
    rw [hadd, List.map_append, List.map_append, List.map_cons, List.map_cons]
  refine ⟨hfst ▸ h.nodup, fun p ↦ ?_, hfst ▸ h.ordered_concat d, fun g hg ↦ ?_⟩
  · rw [hfst, h.mem_iff, List.map_append, List.mem_append, List.map_singleton, List.mem_singleton]
    exact ⟨.inl, fun hp ↦ hp.elim id fun hp ↦ hp ▸ (h.mem_iff _).mp hseen⟩
  · have hnodup := h.nodup
    rw [List.map_append, List.map_cons, List.nodup_append] at hnodup
    obtain ⟨-, hrest, -⟩ := hnodup
    have hafter : d.path ∉ after.map Prod.fst := (List.nodup_cons.mp hrest).1
    rw [hadd, List.mem_append, List.mem_cons] at hg
    rcases hg with hg | rfl | hg
    · have hne : d.path ≠ g.1 := fun heq ↦ hbefore (heq ▸ List.mem_map_of_mem hg)
      rw [filter_path_concat_of_ne hne, h.eq_filter g (List.mem_append_left _ hg)]
    · rw [filter_path_concat_self, ← h.eq_filter _ (List.mem_append_right _ List.mem_cons_self)]
    · have hne : d.path ≠ g.1 := fun heq ↦ hafter (heq ▸ List.mem_map_of_mem hg)
      rw [filter_path_concat_of_ne hne,
        h.eq_filter g (List.mem_append_right _ (List.mem_cons_of_mem _ hg))]

theorem add_of_notMem (h : GroupsOf ds groups) (hseen : d.path ∉ groups.map Prod.fst) :
    GroupsOf (ds ++ [d]) (d.addTo groups) := by
  have hnew : d.path ∉ ds.map path := mt (h.mem_iff _).mpr hseen
  have hfst : (groups ++ [(d.path, [d])]).map Prod.fst = groups.map Prod.fst ++ [d.path] :=
    List.map_append
  rw [addTo_of_notMem hseen]
  refine ⟨?_, fun p ↦ ?_, ?_, fun g hg ↦ ?_⟩
  · rw [hfst]
    exact h.nodup.append (List.nodup_singleton _) (List.disjoint_singleton.mpr hseen)
  · rw [hfst, List.map_append, List.mem_append, List.mem_append, h.mem_iff, List.map_singleton]
  · rw [hfst, List.pairwise_append]
    refine ⟨h.ordered_concat d, List.pairwise_singleton _ _, fun p hp q hq ↦ ?_⟩
    obtain rfl := List.mem_singleton.mp hq
    have hp := (h.mem_iff p).mp hp
    rw [idxOf_path_concat hp, List.map_append, List.map_singleton,
      List.idxOf_append_of_notMem hnew]
    exact Nat.lt_add_right _ (List.idxOf_lt_length_iff.mpr hp)
  · rcases List.mem_append.mp hg with hg | hg
    · have hne : d.path ≠ g.1 := fun heq ↦ hseen (heq ▸ List.mem_map_of_mem hg)
      rw [filter_path_concat_of_ne hne, h.eq_filter g hg]
    · obtain rfl := List.mem_singleton.mp hg
      have hnone : ds.filter (·.path = d.path) = [] := by
        refine List.filter_eq_nil_iff.mpr fun e he heq ↦ hnew ?_
        exact of_decide_eq_true heq ▸ List.mem_map_of_mem he
      rw [filter_path_concat_self, hnone, List.nil_append]

/-- One more diagnostic goes to the group where it belongs. -/
theorem add (h : GroupsOf ds groups) (d : Diagnostic) : GroupsOf (ds ++ [d]) (d.addTo groups) := by
  by_cases hseen : d.path ∈ groups.map Prod.fst
  · exact h.add_of_mem hseen
  · exact h.add_of_notMem hseen

end GroupsOf

theorem byFile_concat (ds : List Diagnostic) (d : Diagnostic) :
    byFile (ds ++ [d]) = d.addTo (byFile ds) :=
  List.foldl_concat ..

/-- The diagnostics by file are their groups. -/
theorem groupsOf_byFile (ds : List Diagnostic) : GroupsOf ds (byFile ds) := by
  induction ds using List.reverseRecOn with
  | nil => exact ⟨.nil, fun p ↦ Iff.rfl, .nil, by rintro _ ⟨⟩⟩
  | append_singleton ds d ih =>
    rw [byFile_concat]
    exact ih.add d

example :
    let d (path frame : String) : Diagnostic := ⟨{ (default : Finding) with path }, frame⟩
    byFile [d "a.js" "1", d "b.js" "2", d "a.js" "3"] =
      [("a.js", [d "a.js" "1", d "a.js" "3"]), ("b.js", [d "b.js" "2"])] := by
  decide +kernel

/-- No group is empty. -/
theorem GroupsOf.ne_nil (h : GroupsOf ds groups) {g : String × List Diagnostic} (hg : g ∈ groups) :
    g.2 ≠ [] := by
  obtain ⟨d, hd, hpath⟩ := List.mem_map.mp ((h.mem_iff g.1).mp (List.mem_map_of_mem hg))
  rw [h.eq_filter g hg]
  exact List.ne_nil_of_mem (List.mem_filter.mpr ⟨hd, decide_eq_true hpath⟩)

/-- There are no other groups with these properties. -/
theorem GroupsOf.eq {groups' : List (String × List Diagnostic)} (h : GroupsOf ds groups)
    (h' : GroupsOf ds groups') : groups = groups' := by
  have hperm : (groups.map Prod.fst).Perm (groups'.map Prod.fst) :=
    (List.perm_ext_iff_of_nodup h.nodup h'.nodup).mpr fun p ↦
      (h.mem_iff p).trans (h'.mem_iff p).symm
  have hfst : groups.map Prod.fst = groups'.map Prod.fst :=
    hperm.eq_of_pairwise (fun p q _ _ hpq hqp ↦ absurd hpq (Nat.lt_asymm hqp)) h.ordered h'.ordered
  -- A group is known from its file.
  have hmap {gs : List (String × List Diagnostic)} (hgs : GroupsOf ds gs) :
      gs = (gs.map Prod.fst).map fun p ↦ (p, ds.filter (·.path = p)) := by
    rw [List.map_map]
    refine (List.map_id gs).symm.trans (List.map_congr_left fun g hg ↦ ?_)
    exact Prod.ext rfl (hgs.eq_filter g hg)
  rw [hmap h, hfst, ← hmap h']

/-! ## The groups one after the other -/

theorem flatMap_addTo_perm (d : Diagnostic) (groups : List (String × List Diagnostic)) :
    ((d.addTo groups).flatMap Prod.snd).Perm (groups.flatMap Prod.snd ++ [d]) := by
  by_cases h : d.path ∈ groups.map Prod.fst
  · obtain ⟨before, ds, after, rfl, -, hadd⟩ := addTo_of_mem h
    rw [hadd]
    simp only [List.flatMap_append, List.flatMap_cons, List.append_assoc]
    exact (List.perm_append_comm.append_left ds).append_left _
  · rw [addTo_of_notMem h, List.flatMap_append, List.flatMap_singleton]

theorem byFile_ne_nil (h : ds ≠ []) : byFile ds ≠ [] := by
  obtain ⟨d, hd⟩ := List.exists_mem_of_ne_nil ds h
  intro hnil
  have hmem := ((groupsOf_byFile ds).mem_iff d.path).mpr (List.mem_map_of_mem hd)
  rw [hnil] at hmem
  cases hmem

/-- The groups have all of the diagnostics, each as often as it occurs. -/
theorem flatMap_byFile_perm (ds : List Diagnostic) :
    ((byFile ds).flatMap Prod.snd).Perm ds := by
  induction ds using List.reverseRecOn with
  | nil => exact .refl _
  | append_singleton ds d ih =>
    rw [byFile_concat]
    exact (flatMap_addTo_perm d (byFile ds)).trans (ih.append_right [d])

/-- Diagnostics of one file, added after others, make one group. -/
theorem foldl_addTo_of_path {p : String} (hp : p ∉ groups.map Prod.fst) {ds more : List Diagnostic}
    (h : ∀ d ∈ more, d.path = p) :
    more.foldl (fun groups d ↦ d.addTo groups) (groups ++ [(p, ds)]) =
      groups ++ [(p, ds ++ more)] := by
  induction more generalizing ds with
  | nil => rw [List.foldl_nil, List.append_nil]
  | cons d more ih =>
    obtain ⟨rfl, hmore⟩ := List.forall_mem_cons.mp h
    rw [List.foldl_cons, addTo_append hp, addTo, if_pos rfl, ih hmore, List.append_assoc,
      List.singleton_append]

theorem flatMap_foldl_addTo {files : List String} (hfiles : files.Nodup)
    {f : String → List Diagnostic} (hf : ∀ p, ∀ d ∈ f p, d.path = p)
    (h : ∀ p ∈ files, p ∉ groups.map Prod.fst) :
    ((files.flatMap f).foldl (fun groups d ↦ d.addTo groups) groups).flatMap Prod.snd =
      groups.flatMap Prod.snd ++ files.flatMap f := by
  induction files generalizing groups with
  | nil => rw [List.flatMap_nil, List.foldl_nil, List.append_nil]
  | cons p files ih =>
    obtain ⟨hp, hnodup⟩ := List.nodup_cons.mp hfiles
    obtain ⟨hgroup, hrest⟩ := List.forall_mem_cons.mp h
    rw [List.flatMap_cons, List.foldl_append]
    cases hown : f p with
    | nil => exact ih hnodup hrest
    | cons d ds =>
      obtain ⟨rfl, hds⟩ := List.forall_mem_cons.mp (hown ▸ hf p)
      have hothers : ∀ q ∈ files, q ∉ (groups ++ [(d.path, [d] ++ ds)]).map Prod.fst := by
        intro q hq hmem
        rw [List.map_append, List.mem_append, List.map_singleton, List.mem_singleton] at hmem
        rcases hmem with hmem | rfl
        · exact hrest q hq hmem
        · exact hp hq
      rw [List.foldl_cons, addTo_of_notMem hgroup, foldl_addTo_of_path hgroup hds,
        ih hnodup hothers, List.flatMap_append, List.flatMap_singleton, List.append_assoc,
        List.singleton_append]

/-- Where the diagnostics come file by file, the groups one after the other are just these. -/
theorem flatMap_byFile_flatMap {files : List String} (hfiles : files.Nodup)
    {f : String → List Diagnostic} (hf : ∀ p, ∀ d ∈ f p, d.path = p) :
    (byFile (files.flatMap f)).flatMap Prod.snd = files.flatMap f :=
  flatMap_foldl_addTo hfiles hf fun _ _ ↦ List.not_mem_nil

end Diagnostic

/-! ## The listing -/

namespace Listing

/-- `Blocks n ds lines`: the lines show the diagnostics one after the other, numbered from `n` on,
with an empty line between them. -/
inductive Blocks : Nat → List Diagnostic → List String → Prop
  | last (n : Nat) (d : Diagnostic) : Blocks n [d] (item d n)
  | cons {n : Nat} {ds : List Diagnostic} {lines : List String} (d : Diagnostic)
      (h : Blocks (n + 1) ds lines) : Blocks n (d :: ds) (item d n ++ [""] ++ lines)

/-- `Section p ds lines`: the lines show the diagnostics `ds` of the file `p`. -/
inductive Section (p : String) (ds : List Diagnostic) : List String → Prop
  | mk {lines : List String} (h : Blocks 1 ds lines) :
      Section p ds ([s!"{p} ({ds.length} finding(s))", separator] ++ lines ++ [separator, ""])

/-- `Shows total files groups text`: the text speaks of `total` diagnostics in `files` files, and
shows the groups. -/
inductive Shows : Nat → Nat → List (String × List Diagnostic) → String → Prop
  | nothing : Shows 0 0 [] "No hardcoded text found."
  | groups {total files : Nat} {groups : List (String × List Diagnostic)}
      {sections : List (List String)} (hne : groups ≠ [])
      (h : List.Forall₂ (fun g lines ↦ Section g.1 g.2 lines) groups sections) :
      Shows total files groups ("\n".intercalate
        ([s!"Found {total} hardcoded string(s) in {files} file(s)", ""] ++ sections.flatten ++
          advice))

theorem blocks_zipIdx (n : Nat) (d : Diagnostic) (ds : List Diagnostic) :
    Blocks n (d :: ds)
      ([""].intercalate (((d :: ds).zipIdx n).map fun (d, index) ↦ item d index)) := by
  induction ds generalizing n d with
  | nil =>
    rw [List.zipIdx_singleton, List.map_singleton, List.intercalate_singleton]
    exact .last n d
  | cons e ds ih =>
    have hrest := ih (n + 1) e
    rw [List.zipIdx_cons, List.map_cons] at hrest ⊢
    rw [List.zipIdx_cons, List.map_cons, List.intercalate_cons_cons]
    exact .cons d hrest

theorem section_file (p : String) {ds : List Diagnostic} (h : ds ≠ []) :
    Section p ds (file p ds) := by
  cases ds with
  | nil => exact absurd rfl h
  | cons d ds => exact .mk (blocks_zipIdx 1 d ds)

/-- The listing shows the diagnostics by file, with their number and that of the files. -/
theorem shows_render (ds : List Diagnostic) :
    Shows ds.length (Diagnostic.byFile ds).length (Diagnostic.byFile ds) (render ds) := by
  cases ds with
  | nil => exact .nothing
  | cons d ds =>
    rw [render, List.isEmpty_cons, if_neg Bool.false_ne_true]
    dsimp only
    rw [List.flatMap_def]
    refine .groups (Diagnostic.byFile_ne_nil (List.cons_ne_nil d ds)) ?_
    refine List.forall₂_map_right_iff.mpr (List.forall₂_same.mpr fun g hg ↦ ?_)
    exact section_file g.1 ((Diagnostic.groupsOf_byFile _).ne_nil hg)

end Listing

end HardcodedText
