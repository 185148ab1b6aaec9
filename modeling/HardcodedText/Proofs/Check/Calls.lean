import HardcodedText.Proofs.Check.Exposure

/-!
# The findings of a notification call

Which text a notification call shows is said here by rules about paths (`Occurs`), on top of those
that say which node stands where (`Stands`).  `Scope.callFindings_eq_map_finding` says that the
findings of a call are those texts, each once and from left to right.
-/

namespace HardcodedText

/-- Rules under which `toast` shows its arguments and the property `title` is seen by the user. -/
def Configuration.toasts : Configuration where
  calls := [⟨"toast"⟩]
  properties := ["title"]
  allow := []
  policies := ⟨⟨[], false, false⟩, [], []⟩
  minimum := 3
  freeStanding := true

/-- A hardcoded text in the arguments of a call. -/
structure Occurrence where
  /-- The path that leads to it. -/
  path : List Nat
  /-- Where it stands. -/
  kind : Kind
  /-- The property that it belongs to, if any. -/
  key : Option String
  /-- The text. -/
  node : Node

/-- The finding for a hardcoded text in the arguments of a call. -/
def Occurrence.finding (scope : Scope) (call : String) (o : Occurrence) : Finding :=
  scope.finding o.node <|
    match o.key with
    | none => Scope.argumentRemark call o.node
    | some key => Scope.propertyRemark (call ++ " ") o.kind key o.node

/-- The hardcoded texts that the arguments of a notification call show. -/
inductive Occurs (config : Configuration) (arguments : List Node) : Occurrence → Prop
  /-- Text in the place of an argument. -/
  | argument {p : List Nat} {n : Node} :
    Stands arguments p .argument n → config.isHardcoded n →
      Occurs config arguments ⟨p, .callArgument, none, n⟩
  /-- Text that is a property of an object in the place of an argument. -/
  | property {p : List Nat} {key : String} {n : Node} :
    Stands arguments p (.value 0 (some key)) n → key ∈ config.properties → config.isHardcoded n →
      Occurs config arguments ⟨p, .objectProperty, some key, n⟩
  /-- Text that is a property of an object further down. -/
  | nested {p : List Nat} {depth : Nat} {key : String} {n : Node} :
    Stands arguments p (.value (depth + 1) (some key)) n → key ∈ config.properties →
      config.isHardcoded n → Occurs config arguments ⟨p, .nestedObjectProperty, some key, n⟩
  /-- Text in an array that is a property. -/
  | element {p : List Nat} {depth : Nat} {key : String} {n : Node} :
    Stands arguments p (.element depth (some key)) n → key ∈ config.properties →
      config.isHardcoded n → Occurs config arguments ⟨p, .nestedObjectProperty, some key, n⟩

namespace Spot

variable {config : Configuration} {shown : Option String → Bool} {s : Spot} {n m : Node}

/-! ## What hardcoded text exposes by itself -/

/-- Hardcoded text is never taken apart. -/
theorem own_argument_of_isHardcoded (h : config.isHardcoded n) :
    own shown .argument n = [.argument n] := by
  cases n <;> first | rfl | simp [Configuration.isHardcoded] at h

theorem own_value_of_isHardcoded {depth : Nat} {key : Option String} (h : config.isHardcoded n) :
    own shown (.value depth key) n =
      Exposure.valueOf shown (Exposure.propertyKind depth) key n := by
  cases n <;> first | rfl | simp [Configuration.isHardcoded] at h

theorem own_element_of_isHardcoded {depth : Nat} {key : Option String} (h : config.isHardcoded n) :
    own shown (.element depth key) n = Exposure.valueOf shown .nestedObjectProperty key n := by
  cases n <;> first | rfl | simp [Configuration.isHardcoded] at h

theorem mem_valueOf_iff {kind : Kind} {key : Option String} {e : Exposure} :
    e ∈ Exposure.valueOf shown kind key n ↔ shown key = true ∧ e = .value kind (key.getD "") n := by
  unfold Exposure.valueOf
  split <;> simp_all

theorem of_argument_mem_own (h : .argument m ∈ own shown s n) : s = .argument ∧ m = n := by
  revert h
  fun_cases own shown s n <;> simp [mem_valueOf_iff]

theorem of_value_mem_own {kind : Kind} {key : String} (h : .value kind key m ∈ own shown s n)
    (hm : config.isHardcoded m) : m = n ∧ ∃ depth k, shown k = true ∧ k.getD "" = key ∧
      (s = .value depth k ∧ kind = Exposure.propertyKind depth ∨
        s = .element depth k ∧ kind = .nestedObjectProperty) := by
  revert h
  fun_cases own shown s n with
  | case8 depth k =>
    intro h
    obtain ⟨hk, he⟩ := mem_valueOf_iff.mp h
    cases he
    exact ⟨rfl, depth, k, hk, rfl, .inl ⟨rfl, rfl⟩⟩
  | case11 =>
    intro h
    obtain ⟨-, he⟩ := mem_valueOf_iff.mp h
    cases he
    cases hm
  | case13 depth k =>
    intro h
    obtain ⟨hk, he⟩ := mem_valueOf_iff.mp h
    cases he
    exact ⟨rfl, depth, k, hk, rfl, .inr ⟨rfl, rfl⟩⟩
  | _ => simp

theorem of_inspected_mem_own {span : Span} (h : .inspected span ∈ own shown s n) :
    ∃ depth site key v, s = .member depth ∧ n = .property site key v ∧ span = site.span := by
  revert h
  fun_cases own shown s n <;> simp [mem_valueOf_iff]

end Spot

/-! ## The findings of a call -/

/-- The text that something exposed by a path is, provided it is hardcoded. -/
def Occurrence.ofExposure? (config : Configuration) : List Nat × Exposure → Option Occurrence
  | (_, .inspected _) => none
  | (p, .argument n) => if config.isHardcoded n then some ⟨p, .callArgument, none, n⟩ else none
  | (p, .value kind key n) => if config.isHardcoded n then some ⟨p, kind, some key, n⟩ else none

theorem Occurrence.path_of_ofExposure? {config : Configuration} {a : List Nat × Exposure}
    {o : Occurrence} (h : ofExposure? config a = some o) : o.path = a.1 := by
  obtain ⟨p, e⟩ := a
  cases e <;> simp only [ofExposure?, Option.ite_none_right_eq_some, Option.some.injEq,
    reduceCtorEq] at h
  all_goals rw [← h.2]

theorem Scope.exposureFinding?_eq (scope : Scope) (call : String) (a : List Nat × Exposure) :
    scope.exposureFinding? call a.2 =
      (Occurrence.ofExposure? scope.config a).map (·.finding scope call) := by
  obtain ⟨p, e⟩ := a
  cases e <;> simp only [exposureFinding?, Occurrence.ofExposure?, Option.map_none]
  all_goals split <;> rfl

theorem Configuration.isUserFacing_iff {config : Configuration} {key : Option String} :
    config.isUserFacing key = true ↔ ∃ k, key = some k ∧ k ∈ config.properties := by
  cases key <;> simp [isUserFacing]

theorem Occurs.of_own {config : Configuration} {arguments : List Node} {p : List Nat} {s : Spot}
    {n : Node} {e : Exposure} {o : Occurrence} (hs : Stands arguments p s n)
    (he : e ∈ s.own config.isUserFacing n) (ho : Occurrence.ofExposure? config (p, e) = some o) :
    Occurs config arguments o := by
  cases e with
  | inspected span => cases ho
  | argument m =>
    obtain ⟨hm, ho⟩ := Option.ite_none_right_eq_some.mp ho
    cases ho
    obtain ⟨rfl, rfl⟩ := Spot.of_argument_mem_own he
    exact .argument hs hm
  | value kind key m =>
    obtain ⟨hm, ho⟩ := Option.ite_none_right_eq_some.mp ho
    cases ho
    obtain ⟨rfl, depth, k, hk, rfl, ⟨rfl, rfl⟩ | ⟨rfl, rfl⟩⟩ := Spot.of_value_mem_own he hm
    all_goals obtain ⟨key, rfl, hkey⟩ := Configuration.isUserFacing_iff.mp hk
    · cases depth with
      | zero => exact .property hs hkey hm
      | succ depth => exact .nested hs hkey hm
    · exact .element hs hkey hm

theorem Occurs.exists_own {config : Configuration} {arguments : List Node} {o : Occurrence}
    (h : Occurs config arguments o) : ∃ s n e, Stands arguments o.path s n ∧
      e ∈ s.own config.isUserFacing n ∧ Occurrence.ofExposure? config (o.path, e) = some o := by
  cases h with
  | argument hs hn =>
    exact ⟨_, _, .argument _, hs, by simp [Spot.own_argument_of_isHardcoded hn], if_pos hn⟩
  | property hs hkey hn =>
    refine ⟨_, _, .value _ _ _, hs, ?_, if_pos hn⟩
    rw [Spot.own_value_of_isHardcoded hn, Spot.mem_valueOf_iff]
    exact ⟨Configuration.isUserFacing_iff.mpr ⟨_, rfl, hkey⟩, rfl⟩
  | nested hs hkey hn =>
    refine ⟨_, _, .value _ _ _, hs, ?_, if_pos hn⟩
    rw [Spot.own_value_of_isHardcoded hn, Spot.mem_valueOf_iff]
    exact ⟨Configuration.isUserFacing_iff.mpr ⟨_, rfl, hkey⟩, rfl⟩
  | element hs hkey hn =>
    refine ⟨_, _, .value _ _ _, hs, ?_, if_pos hn⟩
    rw [Spot.own_element_of_isHardcoded hn, Spot.mem_valueOf_iff]
    exact ⟨Configuration.isUserFacing_iff.mpr ⟨_, rfl, hkey⟩, rfl⟩

theorem Scope.callFindings_of_notifies {scope : Scope} {callee : Node}
    (h : scope.config.notifies callee.path) (arguments : List Node) :
    scope.callFindings callee arguments =
      (Exposure.ofArguments scope.config.isUserFacing arguments).filterMap
        (scope.exposureFinding? callee.path) := by
  rw [callFindings, exposures, if_pos h]

theorem Scope.callFindings_of_not_notifies {scope : Scope} {callee : Node}
    (h : ¬ scope.config.notifies callee.path) (arguments : List Node) :
    scope.callFindings callee arguments = [] := by
  rw [callFindings, exposures, if_neg h, List.filterMap_nil]

theorem Scope.mem_callFindings_iff {scope : Scope} {callee : Node} {arguments : List Node}
    {f : Finding} (h : scope.config.notifies callee.path) :
    f ∈ scope.callFindings callee arguments ↔
      ∃ o, Occurs scope.config arguments o ∧ o.finding scope callee.path = f := by
  rw [callFindings_of_notifies h, List.mem_filterMap]
  constructor
  · rintro ⟨e, he, hf⟩
    obtain ⟨p, s, n, hs, hown⟩ := (Spot.mem_ofArguments_iff _).mp he
    rw [scope.exposureFinding?_eq callee.path (p, e), Option.map_eq_some_iff] at hf
    obtain ⟨o, ho, rfl⟩ := hf
    exact ⟨o, .of_own hs hown ho, rfl⟩
  · rintro ⟨o, ho, rfl⟩
    obtain ⟨s, n, e, hs, hown, heq⟩ := ho.exists_own
    refine ⟨e, (Spot.mem_ofArguments_iff _).mpr ⟨_, s, n, hs, hown⟩, ?_⟩
    rw [scope.exposureFinding?_eq callee.path (o.path, e), heq, Option.map_some]

/-- A notification call looks at the members of the objects in its arguments. -/
theorem Scope.mem_inspectedSpans_iff {scope : Scope} {callee : Node} {arguments : List Node}
    {span : Span} (h : scope.config.notifies callee.path) :
    span ∈ scope.inspectedSpans callee arguments ↔ ∃ p depth site key n,
      Stands arguments p (.member depth) (.property site key n) ∧ site.span = span := by
  rw [inspectedSpans, exposures, if_pos h, List.mem_filterMap]
  constructor
  · rintro ⟨e, he, hspan⟩
    obtain ⟨p, s, n, hs, hown⟩ := (Spot.mem_ofArguments_iff _).mp he
    cases e <;> cases hspan
    obtain ⟨depth, site, key, m, rfl, rfl, rfl⟩ := Spot.of_inspected_mem_own hown
    exact ⟨p, depth, site, key, m, hs, rfl⟩
  · rintro ⟨p, depth, site, key, n, hs, rfl⟩
    exact ⟨.inspected site.span,
      (Spot.mem_ofArguments_iff _).mpr ⟨p, _, _, hs, List.mem_singleton.mpr rfl⟩, rfl⟩

/-- The findings of a notification call are the hardcoded texts that its arguments show, each once
and from left to right. -/
theorem Scope.callFindings_eq_map_finding (scope : Scope) (callee : Node) (arguments : List Node)
    (h : scope.config.notifies callee.path) :
    ∃ os : List Occurrence,
      os.Pairwise (fun a b ↦ a.path < b.path) ∧
      (∀ o, o ∈ os ↔ Occurs scope.config arguments o) ∧
      scope.callFindings callee arguments = os.map (·.finding scope callee.path) := by
  obtain ⟨L, hL⟩ := Spot.exists_locates_arguments scope.config.isUserFacing arguments
  refine ⟨L.filterMap (Occurrence.ofExposure? scope.config), ?_, fun o ↦ ?_, ?_⟩
  · refine hL.rising.filterMap _ fun a b hab o ho o' ho' ↦ ?_
    rw [Occurrence.path_of_ofExposure? ho, Occurrence.path_of_ofExposure? ho']
    exact hab
  · rw [List.mem_filterMap]
    constructor
    · rintro ⟨⟨p, e⟩, hmem, ho⟩
      obtain ⟨s, n, hs, he⟩ := (hL.mem_iff p e).mp hmem
      exact .of_own hs he ho
    · intro ho
      obtain ⟨s, n, e, hs, he, heq⟩ := ho.exists_own
      exact ⟨(o.path, e), (hL.mem_iff _ _).mpr ⟨s, n, hs, he⟩, heq⟩
  · rw [callFindings_of_notifies h, ← hL.map_snd, List.filterMap_map, List.map_filterMap]
    exact congrArg (List.filterMap · L) (funext (scope.exposureFinding?_eq callee.path))

/-- `toast(["A"], { ...{ title: "B" }, more: { title: "C" } })` shows three texts. -/
theorem Scope.callFindings_eq_map_finding_toast :
    let scope : Scope := ⟨.toasts, "a.tsx", []⟩
    let callee : Node := .identifier default "toast"
    let title (text : String) : Node := .property default (some "title") (.string default text)
    let arguments : List Node := [
      .array default [.string default "A"],
      .object default [
        .spread default (.object default [title "B"]),
        .property default (some "more") (.object default [title "C"])]]
    scope.config.notifies callee.path ∧
      (scope.callFindings callee arguments).map Finding.kind =
        [.callArgument, .objectProperty, .nestedObjectProperty] ∧
      ∃ os : List Occurrence,
        os.Pairwise (fun a b ↦ a.path < b.path) ∧
        (∀ o, o ∈ os ↔ Occurs scope.config arguments o) ∧
        scope.callFindings callee arguments = os.map (·.finding scope callee.path) :=
  ⟨by decide, by decide, callFindings_eq_map_finding _ _ _ (by decide)⟩

end HardcodedText
