import HardcodedText.Check.Calls

/-!
# Taking arguments apart, one move at a time

`Exposure.ofArguments` and the functions beside it go through the arguments of a call by mutual
recursion.  Here the same is said by single moves: a node that stands at a *spot* leads on to parts
of it at spots of their own, and exposes something by itself.  `Spot.exposures_eq` ties the two
together.  All that follows about calls rests on this equation and does not open the functions
again.

* `Step` and `Leads` say by rules, and without a function, which node stands where.
* `Spot.Locates` lists what a node exposes with the path to each part, and paths rise from left to
  right (`Spot.exists_locates`).
-/

namespace HardcodedText

/-- Where a node stands while the arguments of a call are taken apart. -/
inductive Spot
  /-- In the place of an argument. -/
  | argument
  /-- Among the members of an object that was entered at a depth. -/
  | member (depth : Nat)
  /-- As what is spread among the members of an object that was entered at a depth. -/
  | inserted (depth : Nat)
  /-- As the value of a property of an object that was entered at a depth. -/
  | value (depth : Nat) (key : Option String)
  /-- In an array that is the value of a property.  An object there is entered at the depth. -/
  | element (depth : Nat) (key : Option String)
deriving DecidableEq

namespace Spot

/-- The depth at which an object is entered, if it is entered at all. -/
def opensAt : Spot → Option Nat
  | argument => some 0
  | member _ => none
  | inserted depth => some depth
  | value depth _ => some (depth + 1)
  | element depth _ => some depth

end Spot

/-- An object or array literal. -/
def Node.IsLiteral : Node → Prop
  | .object _ _ | .array _ _ => True
  | _ => False

/-- A spread. -/
def Node.IsSpread : Node → Prop
  | .spread _ _ => True
  | _ => False

/-- `Step s n i s' n'`: from the node `n` at the spot `s` its part `n'` with index `i` is reached,
which stands at the spot `s'`. -/
inductive Step : Spot → Node → Nat → Spot → Node → Prop
  /-- An object is entered wherever its spot says at which depth. -/
  | enter {s : Spot} {depth i : Nat} {site : Site} {members : List Node} {n : Node} :
    s.opensAt = some depth → members[i]? = some n →
      Step s (.object site members) i (.member depth) n
  /-- The elements of an array argument are arguments. -/
  | arrayArgument {i : Nat} {site : Site} {elements : List Node} {n : Node} :
    elements[i]? = some n → Step .argument (.array site elements) i .argument n
  /-- So is an object or array that is spread among arguments. -/
  | spreadArgument {site : Site} {n : Node} :
    n.IsLiteral → Step .argument (.spread site n) 0 .argument n
  /-- What is spread among members is inserted there. -/
  | spreadMember {depth : Nat} {site : Site} {n : Node} :
    Step (.member depth) (.spread site n) 0 (.inserted depth) n
  /-- A property leads to its value. -/
  | property {depth : Nat} {site : Site} {key : Option String} {n : Node} :
    Step (.member depth) (.property site key n) 0 (.value depth key) n
  /-- An array that is a value leads to its elements, one level deeper. -/
  | arrayValue {depth i : Nat} {key : Option String} {site : Site} {elements : List Node}
      {n : Node} :
    elements[i]? = some n →
      Step (.value depth key) (.array site elements) i (.element (depth + 1) key) n
  /-- Arrays in such an array are flattened. -/
  | arrayElement {depth i : Nat} {key : Option String} {site : Site} {elements : List Node}
      {n : Node} :
    elements[i]? = some n →
      Step (.element depth key) (.array site elements) i (.element depth key) n
  /-- Spreads in such an array are unwrapped, once. -/
  | spreadElement {depth : Nat} {key : Option String} {site : Site} {n : Node} :
    ¬ n.IsSpread → Step (.element depth key) (.spread site n) 0 (.element depth key) n

/-- `Leads s n p s' n'`: the path `p` leads from the node `n` at the spot `s` to the node `n'` at
the spot `s'`. -/
inductive Leads : Spot → Node → List Nat → Spot → Node → Prop
  | here {s : Spot} {n : Node} : Leads s n [] s n
  | down {s s' s'' : Spot} {n n' n'' : Node} {i : Nat} {p : List Nat} :
    Step s n i s' n' → Leads s' n' p s'' n'' → Leads s n (i :: p) s'' n''

/-- The path `p` leads from a list of arguments to the node `n` at the spot `s`. -/
def Stands (arguments : List Node) (p : List Nat) (s : Spot) (n : Node) : Prop :=
  ∃ i rest a, p = i :: rest ∧ arguments[i]? = some a ∧ Leads .argument a rest s n

namespace Spot

/-! ## The moves as a list -/

/-- The parts to which a node at a spot leads on, in order. -/
def moves : Spot → Node → List (Spot × Node)
  | s, .object _ members =>
    match s.opensAt with
    | some depth => members.map (member depth, ·)
    | none => []
  | argument, .array _ elements => elements.map (argument, ·)
  | value depth key, .array _ elements => elements.map (element (depth + 1) key, ·)
  | element depth key, .array _ elements => elements.map (element depth key, ·)
  | argument, .spread _ (.object site members) => [(argument, .object site members)]
  | argument, .spread _ (.array site elements) => [(argument, .array site elements)]
  | member depth, .spread _ n => [(inserted depth, n)]
  | element _ _, .spread _ (.spread _ _) => []
  | element depth key, .spread _ n => [(element depth key, n)]
  | member depth, .property _ key n => [(value depth key, n)]
  | _, _ => []

theorem moves_of_step {s s' : Spot} {n n' : Node} {i : Nat} (h : Step s n i s' n') :
    (s.moves n)[i]? = some (s', n') := by
  cases h with
  | enter hs hn => simp [moves, hs, hn]
  | arrayArgument hn => simp [moves, hn]
  | spreadArgument hn => cases n' <;> first | rfl | exact hn.elim
  | spreadMember => simp [moves]
  | property => rfl
  | arrayValue hn => simp [moves, hn]
  | arrayElement hn => simp [moves, hn]
  | spreadElement hn => cases n' <;> first | rfl | exact (hn trivial).elim

theorem step_of_moves {s s' : Spot} {n n' : Node} {i : Nat}
    (h : (s.moves n)[i]? = some (s', n')) : Step s n i s' n' := by
  have hmap : ∀ {t : Spot} {xs : List Node}, (xs.map (t, ·))[i]? = some (s', n') →
      xs[i]? = some n' ∧ t = s' := by
    intro t xs hx
    rw [List.getElem?_map, Option.map_eq_some_iff] at hx
    obtain ⟨m, hm, he⟩ := hx
    cases he
    exact ⟨hm, rfl⟩
  have hone : ∀ {t : Spot} {m : Node}, [(t, m)][i]? = some (s', n') → i = 0 ∧ t = s' ∧ m = n' := by
    intro t m hx
    rw [List.getElem?_singleton] at hx
    split at hx
    · cases hx
      exact ⟨‹_›, rfl, rfl⟩
    · cases hx
  revert h
  fun_cases moves s n <;> intro h
  case case1 hs =>
    obtain ⟨hn, rfl⟩ := hmap h
    exact .enter hs hn
  case case3 =>
    obtain ⟨hn, rfl⟩ := hmap h
    exact .arrayArgument hn
  case case4 =>
    obtain ⟨hn, rfl⟩ := hmap h
    exact .arrayValue hn
  case case5 =>
    obtain ⟨hn, rfl⟩ := hmap h
    exact .arrayElement hn
  case case6 =>
    obtain ⟨rfl, rfl, rfl⟩ := hone h
    exact .spreadArgument trivial
  case case7 =>
    obtain ⟨rfl, rfl, rfl⟩ := hone h
    exact .spreadArgument trivial
  case case8 =>
    obtain ⟨rfl, rfl, rfl⟩ := hone h
    exact .spreadMember
  case case10 hns =>
    obtain ⟨rfl, rfl, rfl⟩ := hone h
    refine .spreadElement fun hsp ↦ ?_
    unfold Node.IsSpread at hsp
    split at hsp
    · exact hns _ _ rfl
    · exact hsp
  case case11 =>
    obtain ⟨rfl, rfl, rfl⟩ := hone h
    exact .property
  all_goals simp at h

theorem sizeOf_lt_of_step {s s' : Spot} {n n' : Node} {i : Nat} (h : Step s n i s' n') :
    sizeOf n' < sizeOf n := by
  have hlist : ∀ {xs : List Node}, xs[i]? = some n' → sizeOf n' < sizeOf xs := fun hx ↦
    List.sizeOf_lt_of_mem (List.mem_of_getElem? hx)
  cases h with
  | enter _ hn =>
    have := hlist hn
    rw [Node.object.sizeOf_spec]
    omega
  | arrayArgument hn | arrayValue hn | arrayElement hn =>
    have := hlist hn
    rw [Node.array.sizeOf_spec]
    omega
  | spreadArgument | spreadMember | spreadElement =>
    rw [Node.spread.sizeOf_spec]
    omega
  | property =>
    rw [Node.property.sizeOf_spec]
    omega

/-! ## The moves and the functions -/

/-- What a node at a spot exposes by itself. -/
def own (shown : Option String → Bool) : Spot → Node → List Exposure
  | member _, .property site _ _ => [.inspected site.span]
  | argument, .object _ _ | argument, .array _ _ | argument, .spread _ _ => []
  | argument, n => [.argument n]
  | value _ _, .object _ _ | value _ _, .array _ _ => []
  | value depth key, n => Exposure.valueOf shown (Exposure.propertyKind depth) key n
  | element _ _, .object _ _ | element _ _, .array _ _ => []
  | element _ key, .spread _ (.spread site n) =>
    Exposure.valueOf shown .nestedObjectProperty key (.spread site n)
  | element _ _, .spread _ _ => []
  | element _ key, n => Exposure.valueOf shown .nestedObjectProperty key n
  | _, _ => []

/-- All that a node at a spot exposes. -/
def exposures (shown : Option String → Bool) : Spot → Node → List Exposure
  | argument, n => Exposure.ofArgument shown n
  | member depth, n => Exposure.ofMembers shown depth [n]
  | inserted depth, .object _ members => Exposure.ofMembers shown depth members
  | inserted _, _ => []
  | value depth key, n => Exposure.ofValue shown depth key n
  | element depth key, n => Exposure.ofElement shown depth key n

variable (shown : Option String → Bool)

theorem ofArguments_eq (ns : List Node) :
    Exposure.ofArguments shown ns = ns.flatMap (exposures shown argument) := by
  induction ns with
  | nil => rfl
  | cons n ns ih => rw [Exposure.ofArguments, ih, List.flatMap_cons, exposures]

theorem ofMembers_eq (depth : Nat) (ns : List Node) :
    Exposure.ofMembers shown depth ns = ns.flatMap (exposures shown (member depth)) := by
  induction ns with
  | nil => rfl
  | cons n ns ih =>
    rw [List.flatMap_cons, ← ih, exposures]
    cases n with
    | spread site m => cases m <;> simp [Exposure.ofMembers]
    | _ => simp [Exposure.ofMembers]

theorem ofElements_eq (depth : Nat) (key : Option String) (ns : List Node) :
    Exposure.ofElements shown depth key ns = ns.flatMap (exposures shown (element depth key)) := by
  induction ns with
  | nil => rfl
  | cons n ns ih => rw [Exposure.ofElements, ih, List.flatMap_cons, exposures]

theorem exposures_eq (s : Spot) (n : Node) :
    exposures shown s n =
      own shown s n ++ (s.moves n).flatMap fun m ↦ exposures shown m.1 m.2 := by
  cases s with
  | argument =>
    cases n with
    | object site members =>
      rw [exposures, Exposure.ofArgument, ofMembers_eq]
      simp [own, moves, opensAt, List.flatMap_map]
    | array site elements =>
      rw [exposures, Exposure.ofArgument, ofArguments_eq]
      simp [own, moves, List.flatMap_map]
    | spread site m => cases m <;> simp [exposures, own, moves, Exposure.ofArgument]
    | _ => simp [exposures, own, moves, Exposure.ofArgument]
  | member depth =>
    cases n with
    | spread site m => cases m <;> simp [exposures, own, moves, Exposure.ofMembers]
    | _ => simp [exposures, own, moves, opensAt, Exposure.ofMembers]
  | inserted depth =>
    cases n with
    | object site members =>
      rw [exposures, ofMembers_eq]
      simp [own, moves, opensAt, List.flatMap_map]
    | _ => simp [exposures, own, moves]
  | value depth key =>
    cases n with
    | object site members =>
      rw [exposures, Exposure.ofValue, ofMembers_eq]
      simp [own, moves, opensAt, List.flatMap_map]
    | array site elements =>
      rw [exposures, Exposure.ofValue, ofElements_eq]
      simp [own, moves, List.flatMap_map]
    | _ => simp [exposures, own, moves, Exposure.ofValue]
  | element depth key =>
    cases n with
    | object site members =>
      rw [exposures, Exposure.ofElement, ofMembers_eq]
      simp [own, moves, opensAt, List.flatMap_map]
    | array site elements =>
      rw [exposures, Exposure.ofElement, ofElements_eq]
      simp [own, moves, List.flatMap_map]
    | spread site m => cases m <;> simp [exposures, own, moves, Exposure.ofElement]
    | _ => simp [exposures, own, moves, Exposure.ofElement]

/-! ## Paths to what is exposed -/

/-- The path `p` leads from the node `n` at the spot `s` to a node that exposes `e` by itself. -/
def Exposes (s : Spot) (n : Node) (p : List Nat) (e : Exposure) : Prop :=
  ∃ s' n', Leads s n p s' n' ∧ e ∈ own shown s' n'

theorem exposes_nil_iff {s : Spot} {n : Node} {e : Exposure} :
    s.Exposes shown n [] e ↔ e ∈ own shown s n := by
  constructor
  · rintro ⟨s', n', h, he⟩
    cases h
    exact he
  · exact fun he ↦ ⟨s, n, .here, he⟩

theorem exposes_cons_iff {s : Spot} {n : Node} {i : Nat} {p : List Nat} {e : Exposure} :
    s.Exposes shown n (i :: p) e ↔
      ∃ m, (s.moves n)[i]? = some m ∧ m.1.Exposes shown m.2 p e := by
  constructor
  · rintro ⟨s', n', h, he⟩
    cases h with
    | down hstep h => exact ⟨_, moves_of_step hstep, _, _, h, he⟩
  · rintro ⟨m, hm, s', n', h, he⟩
    exact ⟨s', n', .down (step_of_moves hm) h, he⟩

/-- A list of exposures with paths to them: `R` says which paths lead where, each is listed once,
and they are listed from left to right. -/
structure Locates (es : List Exposure) (R : List Nat → Exposure → Prop)
    (L : List (List Nat × Exposure)) : Prop where
  /-- Without the paths, it is the list of exposures. -/
  map_snd : L.map Prod.snd = es
  /-- The paths rise. -/
  rising : L.Pairwise fun a b ↦ a.1 < b.1
  /-- The paths are those that lead to something. -/
  mem_iff : ∀ p e, (p, e) ∈ L ↔ R p e

/-- The parts of several nodes, the first of which has index `k`. -/
theorem exists_locates_moves (ms : List (Spot × Node)) (k : Nat)
    (h : ∀ m ∈ ms, ∃ L, Locates (exposures shown m.1 m.2) (m.1.Exposes shown m.2) L) :
    ∃ L, Locates (ms.flatMap fun m ↦ exposures shown m.1 m.2)
      (fun q e ↦ ∃ i p m, q = (i + k) :: p ∧ ms[i]? = some m ∧ m.1.Exposes shown m.2 p e) L := by
  induction ms generalizing k with
  | nil => exact ⟨[], rfl, .nil, by simp⟩
  | cons m ms ih =>
    obtain ⟨L, hL⟩ := h m (by simp)
    obtain ⟨L', hL'⟩ := ih (k + 1) fun m' hm' ↦ h m' (by simp [hm'])
    refine ⟨L.map (fun a ↦ (k :: a.1, a.2)) ++ L', ?_, ?_, ?_⟩
    · simp [← hL.map_snd, ← hL'.map_snd, Function.comp_def]
    · refine List.pairwise_append.mpr ⟨?_, hL'.rising, ?_⟩
      · rw [List.pairwise_map]
        exact hL.rising.imp fun hlt ↦ List.cons_lt_cons_iff.mpr (.inr ⟨rfl, hlt⟩)
      · rintro _ ha ⟨q, e⟩ hb
        obtain ⟨a, -, rfl⟩ := List.mem_map.mp ha
        obtain ⟨i, p, m', rfl, -, -⟩ := (hL'.mem_iff q e).mp hb
        exact List.cons_lt_cons_iff.mpr (.inl (by omega))
    · intro q e
      rw [List.mem_append, hL'.mem_iff]
      constructor
      · rintro (hq | ⟨i, p, m', rfl, hm', he⟩)
        · obtain ⟨⟨p, e'⟩, hp, heq⟩ := List.mem_map.mp hq
          cases heq
          exact ⟨0, p, m, by rw [Nat.zero_add], rfl, (hL.mem_iff p e').mp hp⟩
        · exact ⟨i + 1, p, m', congrArg (· :: p) (by omega), hm', he⟩
      · rintro ⟨i, p, m', rfl, hm', he⟩
        cases i with
        | zero =>
          cases hm'
          rw [Nat.zero_add]
          exact .inl (List.mem_map.mpr ⟨(p, e), (hL.mem_iff p e).mpr he, rfl⟩)
        | succ i => exact .inr ⟨i, p, m', congrArg (· :: p) (by omega), hm', he⟩

/-- A node exposes at most one thing by itself. -/
theorem own_pairwise (s : Spot) (n : Node) : (own shown s n).Pairwise fun _ _ ↦ False := by
  fun_cases own shown s n <;> simp [Exposure.valueOf] <;> split <;> simp

theorem exists_locates (s : Spot) (n : Node) :
    ∃ L, Locates (exposures shown s n) (s.Exposes shown n) L := by
  obtain ⟨L, hL⟩ := exists_locates_moves shown (s.moves n) 0 fun m hm ↦
    have hlt : sizeOf m.2 < sizeOf n := by
      obtain ⟨i, hi⟩ := List.getElem?_of_mem hm
      exact sizeOf_lt_of_step (step_of_moves hi)
    exists_locates m.1 m.2
  refine ⟨(own shown s n).map (fun e ↦ ([], e)) ++ L, ?_, ?_, ?_⟩
  · rw [exposures_eq, ← hL.map_snd]
    simp [Function.comp_def]
  · refine List.pairwise_append.mpr ⟨?_, hL.rising, ?_⟩
    · rw [List.pairwise_map]
      exact (own_pairwise shown s n).imp False.elim
    · rintro _ ha ⟨q, e⟩ hb
      obtain ⟨e', -, rfl⟩ := List.mem_map.mp ha
      obtain ⟨i, p, m', rfl, -, -⟩ := (hL.mem_iff q e).mp hb
      exact List.nil_lt_cons _ _
  · intro q e
    rw [List.mem_append, hL.mem_iff]
    cases q with
    | nil => simp [exposes_nil_iff]
    | cons i p =>
      rw [exposes_cons_iff]
      constructor
      · rintro (h | ⟨j, p', m, heq, hm, he⟩)
        · simp at h
        · cases heq
          exact ⟨m, hm, he⟩
      · rintro ⟨m, hm, he⟩
        exact .inr ⟨i, p, m, rfl, hm, he⟩
termination_by sizeOf n

/-- What the arguments of a call expose, with paths. -/
theorem exists_locates_arguments (arguments : List Node) :
    ∃ L, Locates (Exposure.ofArguments shown arguments)
      (fun p e ↦ ∃ s n, Stands arguments p s n ∧ e ∈ own shown s n) L := by
  obtain ⟨L, hL⟩ := exists_locates_moves shown (arguments.map (argument, ·)) 0
    fun m _ ↦ exists_locates shown m.1 m.2
  refine ⟨L, ?_, hL.rising, fun q e ↦ ?_⟩
  · rw [hL.map_snd, ofArguments_eq, List.flatMap_map]
  · rw [hL.mem_iff]
    constructor
    · rintro ⟨i, p, m, rfl, hm, s, n, h, he⟩
      rw [List.getElem?_map, Option.map_eq_some_iff] at hm
      obtain ⟨a, ha, rfl⟩ := hm
      exact ⟨s, n, ⟨i, p, a, rfl, ha, h⟩, he⟩
    · rintro ⟨s, n, ⟨i, p, a, rfl, ha, h⟩, he⟩
      exact ⟨i, p, (argument, a), rfl, by rw [List.getElem?_map, ha]; rfl, s, n, h, he⟩

theorem mem_ofArguments_iff {arguments : List Node} {e : Exposure} :
    e ∈ Exposure.ofArguments shown arguments ↔
      ∃ p s n, Stands arguments p s n ∧ e ∈ own shown s n := by
  obtain ⟨L, hL⟩ := exists_locates_arguments shown arguments
  rw [← hL.map_snd, List.mem_map]
  constructor
  · rintro ⟨⟨p, e'⟩, hp, rfl⟩
    exact ⟨p, (hL.mem_iff p e').mp hp⟩
  · rintro ⟨p, h⟩
    exact ⟨(p, e), (hL.mem_iff p e).mpr h, rfl⟩

end Spot

end HardcodedText
