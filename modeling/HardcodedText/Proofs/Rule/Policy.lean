import HardcodedText.Check.Markup
import HardcodedText.Proofs.Lookup
import HardcodedText.Proofs.Rule.Options
import HardcodedText.Proofs.Text.LetterCase

/-!
# Overrides and the elements they are for

An override is filed under plain elements or under components by its key, and looked for in one of
the two places by the name of an element.  The two ways to tell names apart are different: a key
with a colon belongs to a component, a name with a dot does.  They agree on the names of plain
elements and of components (`Policies.Addressed`), and there every override that is written in a
configuration takes effect (`Policies.effective_of_addressed`).
-/

namespace HardcodedText

namespace Policies

/-! ## The two tables -/

theorem lookup_map_apply (base : Policy) (key : String) (overrides : List (String × Override)) :
    (overrides.map fun (key, o) ↦ (key, o.apply base)).lookup key =
      (overrides.lookup key).map (·.apply base) := by
  induction overrides with
  | nil => rfl
  | cons e overrides ih =>
    obtain ⟨other, o⟩ := e
    rw [List.map_cons, List.lookup_cons, List.lookup_cons]
    split
    · rfl
    · exact ih

/-- An override that is given takes the place of the built-in one. -/
theorem lookup_withBuiltIn (given : List (String × Override)) (key : String) :
    (withBuiltIn given).lookup key = (given.lookup key).or (builtIn.lookup key) := by
  rw [withBuiltIn, List.lookup_append, lookup_filter_key fun tag ↦ !given.any (·.1 == tag)]
  cases hgiven : given.lookup key with
  | some o => rfl
  | none =>
    have hnotMem := lookup_eq_none_iff_notMem.mp hgiven
    rw [if_pos]
    rw [Bool.not_eq_true', List.any_eq_false]
    exact fun e he heq ↦ hnotMem (List.mem_map.mpr ⟨e, he, beq_iff_eq.mp heq⟩)

/-- What is filed under the keys with a property: the overrides with such keys, each applied to the
policy for all elements. -/
theorem lookup_named (p : String → Bool) (given : List (String × Override)) (base : Policy)
    (key : String) :
    ((((withBuiltIn given).filter (·.1 != fallbackKey)).map fun (key, o) ↦
      (key, o.apply base)).filter fun e ↦ p e.1).lookup key =
      if p key && key != fallbackKey then
        ((given.lookup key).or (builtIn.lookup key)).map (·.apply base)
      else none := by
  rw [lookup_filter_key p, lookup_map_apply, lookup_filter_key (· != fallbackKey),
    lookup_withBuiltIn]
  cases p key <;> cases key != fallbackKey <;> rfl

theorem fallback_ofOverrides (given : List (String × Override)) :
    (ofOverrides given).fallback = ((given.lookup fallbackKey).getD {}).apply base := by
  rw [ofOverrides]
  dsimp only
  rw [fallbackOf, lookup_withBuiltIn, show builtIn.lookup fallbackKey = none from rfl,
    Option.or_none]

theorem lookup_elements_ofOverrides (given : List (String × Override)) (key : String) :
    (ofOverrides given).elements.lookup key =
      if !namesComponent key && key != fallbackKey then
        ((given.lookup key).or (builtIn.lookup key)).map (·.apply (ofOverrides given).fallback)
      else none :=
  lookup_named (!namesComponent ·) given _ key

theorem lookup_components_ofOverrides (given : List (String × Override)) (key : String) :
    (ofOverrides given).components.lookup key =
      if namesComponent key && key != fallbackKey then
        ((given.lookup key).or (builtIn.lookup key)).map (·.apply (ofOverrides given).fallback)
      else none :=
  lookup_named namesComponent given _ key

variable {given : List (String × Override)} {key : String} {o : Override}

theorem lookup_elements (h : given.lookup key = some o) (hkey : key ≠ fallbackKey)
    (hplain : namesComponent key = false) :
    (ofOverrides given).elements.lookup key = some (o.apply (ofOverrides given).fallback) := by
  rw [lookup_elements_ofOverrides, hplain, bne_iff_ne.mpr hkey, h]
  rfl

theorem lookup_components (h : given.lookup key = some o) (hkey : key ≠ fallbackKey)
    (hcomponent : namesComponent key = true) :
    (ofOverrides given).components.lookup key = some (o.apply (ofOverrides given).fallback) := by
  rw [lookup_components_ofOverrides, hcomponent, bne_iff_ne.mpr hkey, h]
  rfl

/-! ## Where a name is looked for -/

/-- The names of elements for which a policy can be given: plain elements, components, and names
with a colon that do not look like those of plain elements. -/
inductive Addressed (name : String) : Prop
  | plain (hfirst : name.toList.head?.any Text.isLower) (hdot : '.' ∉ name.toList)
      (hcolon : ':' ∉ name.toList)
  | component (hfirst : name.toList.head?.any Text.isUpper)
  | qualified (hcolon : ':' ∈ name.toList)
      (hother : '.' ∈ name.toList ∨ ¬ name.toList.head?.any Text.isLower)

theorem Addressed.ne_empty {name : String} (h : Addressed name) : name ≠ "" := by
  rintro rfl
  cases h with
  | plain hfirst => cases hfirst
  | component hfirst => cases hfirst
  | qualified hcolon => cases hcolon

/-- For the names of plain elements and of components, keys and names are told apart alike. -/
theorem Addressed.isPlainTag_eq {name : String} (h : Addressed name) :
    isPlainTag name = !namesComponent name := by
  have hcase : name.toList.head?.any Text.isLower = true →
      name.toList.head?.any Text.isUpper = false := by
    cases name.toList.head? with
    | none => exact fun _ ↦ rfl
    | some c => exact Text.not_isUpper_of_isLower
  unfold isPlainTag namesComponent
  cases h with
  | plain hfirst hdot hcolon => simp [hfirst, hdot, hcolon, hcase hfirst]
  | component hfirst =>
    have hlower : name.toList.head?.any Text.isLower = false := by
      rw [Bool.eq_false_iff]
      intro h
      rw [hcase h] at hfirst
      cases hfirst
    simp [hlower, hfirst]
  | qualified hcolon hother =>
    rcases hother with hdot | hfirst
    · simp [hcolon, hdot]
    · simp [hcolon, hfirst]

/-- Whatever a configuration says about the elements of a name takes effect on them, as long as the
name is not that of an import. -/
def Effective (name : String) : Prop :=
  ∀ (characters : CharacterNames) (raw : Json) (config : Configuration)
    (rules : List (String × Json)) (value : Json) (path : String) (imports : List Import),
    Configuration.ofJson characters raw = .ok config →
    raw.field? "markupAttributeRules" = some (.obj rules) →
    rules.lookup name = some value →
    (⟨config, path, imports⟩ : Scope).import? (Scope.rootName name) = none →
    ∃ o, Options.readOverride name value = .ok o ∧
      (⟨config, path, imports⟩ : Scope).policyOf name = o.apply config.policies.fallback

theorem effective_of_addressed (name : String) (hname : Addressed name)
    (hkey : name ≠ fallbackKey) : Effective name := by
  intro characters raw config rules value path imports hconfig hrules hvalue himport
  obtain ⟨fields, rfl⟩ : ∃ fields, raw = .obj fields := by
    cases raw with
    | obj fields => exact ⟨fields, rfl⟩
    | _ => cases hconfig
  have hpolicies := (Configuration.ofFields_eq_ok_iff.mp hconfig).2.2.1
  rw [show fields.lookup "markupAttributeRules" = some (.obj rules) from hrules] at hpolicies
  obtain ⟨overrides, hread, hof⟩ := Options.exists_of_readPolicies hpolicies
  obtain ⟨o, ho, hlookup⟩ := Options.lookup_readOverrides hread hvalue
  refine ⟨o, ho, ?_⟩
  rw [Scope.policyOf, if_neg hname.ne_empty, hname.isPlainTag_eq, hof]
  cases hcomponent : namesComponent name with
  | false =>
    rw [lookup_elements hlookup hkey hcomponent]
    rfl
  | true =>
    have hkeys : (⟨config, path, imports⟩ : Scope).policyKeys name = [name] := by
      rw [Scope.policyKeys, Scope.qualifiedKey?, himport]
      rfl
    rw [hkeys]
    simp only [List.findSome?_cons, lookup_components hlookup hkey hcomponent]
    rfl

/-- The rule for a member of a component inherits what it does not set from the rule for all
elements. -/
theorem effective_of_addressed_text :
    let rules : List (String × Json) := [("Typography.Text", .arr [.str "label"]),
      ("default", .obj [("allowNumbers", .bool false)])]
    Addressed "Typography.Text" ∧
      ∃ config,
        Configuration.ofJson .none (.obj [("markupAttributeRules", .obj rules)]) = .ok config ∧
        (⟨config, "a.tsx", []⟩ : Scope).policyOf "Typography.Text" =
          { attributes := ["label"], allowStrings := false, allowNumbers := false } := by
  intro rules
  have hname : Addressed "Typography.Text" := .component (by decide)
  refine ⟨hname, _, rfl, ?_⟩
  obtain ⟨o, ho, hpolicy⟩ := effective_of_addressed "Typography.Text" hname (by decide)
    .none (.obj [("markupAttributeRules", .obj rules)]) _ rules _ "a.tsx" [] rfl rfl rfl rfl
  cases ho
  exact hpolicy

/-- A single rule for a name suffices to see whether it takes effect. -/
theorem not_effective_of_policyOf_ne {name : String}
    (h : let config := { Configuration.standard with
            policies := .ofOverrides [(name, { attributes := some ["label"] })] }
      (⟨config, "a.tsx", []⟩ : Scope).policyOf name ≠
        ({ attributes := some ["label"] } : Override).apply config.policies.fallback) :
    ¬ Effective name := by
  intro heffective
  obtain ⟨o, ho, hpolicy⟩ := heffective .none
    (.obj [("markupAttributeRules", .obj [(name, .arr [.str "label"])])]) _ _ _ "a.tsx" [] rfl rfl
    List.lookup_cons_self rfl
  cases ho
  exact h hpolicy

/-- A fragment has no name, so that no rule is for it, and a name with a colon is that of an export
of a module.  Names with dots after a small letter, or without a letter at their start, are filed
with plain elements but not looked for there. -/
theorem not_effective_otherwise :
    ¬ Effective "" ∧ ¬ Effective "svg:rect" ∧ ¬ Effective "motion.div" ∧ ¬ Effective "_Row" :=
  ⟨not_effective_of_policyOf_ne (by decide), not_effective_of_policyOf_ne (by decide),
    not_effective_of_policyOf_ne (by decide), not_effective_of_policyOf_ne (by decide)⟩

end Policies

end HardcodedText
