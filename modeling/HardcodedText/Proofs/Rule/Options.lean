import HardcodedText.Proofs.Except
import HardcodedText.Rule.Options

/-!
# Reading options

A configuration is read if each option is (`Configuration.ofFields_eq_ok_iff`), and markup rules are
read one by one: what is written under a key is found under that key
(`Options.lookup_readOverrides`).
-/

namespace HardcodedText

variable {characters : CharacterNames}

/-- Options are read independently of each other. -/
theorem Configuration.ofFields_eq_ok_iff {fields : List (String × Json)} {config : Configuration} :
    Configuration.ofFields characters fields = .ok config ↔
      (∀ field ∈ fields, field.1 ∈ Options.names) ∧
      Options.readAllow characters (fields.lookup "allowPatterns") = .ok config.allow ∧
      Options.readPolicies (fields.lookup "markupAttributeRules") = .ok config.policies ∧
      Options.readMinimum (fields.lookup "minimumStaticTemplateLength") = .ok config.minimum ∧
      Options.readFreeStanding (fields.lookup "checkFreeStandingProperties") =
        .ok config.freeStanding ∧
      Options.readCalls (fields.lookup "notificationCallNames") = .ok config.calls ∧
      Options.readProperties (fields.lookup "userFacingPropertyNames") = .ok config.properties := by
  have hknown : ((fields.map (·.1)).filter (!Options.names.contains ·)).isEmpty = true ↔
      ∀ field ∈ fields, field.1 ∈ Options.names := by
    simp
  constructor
  · intro h
    unfold ofFields at h
    dsimp only at h
    split at h
    · next hnames =>
      obtain ⟨allow, hallow, h⟩ := Except.bind_eq_ok_iff.mp h
      obtain ⟨policies, hpolicies, h⟩ := Except.bind_eq_ok_iff.mp h
      obtain ⟨minimum, hminimum, h⟩ := Except.bind_eq_ok_iff.mp h
      obtain ⟨freeStanding, hfree, h⟩ := Except.bind_eq_ok_iff.mp h
      obtain ⟨calls, hcalls, h⟩ := Except.bind_eq_ok_iff.mp h
      obtain ⟨properties, hproperties, h⟩ := Except.bind_eq_ok_iff.mp h
      cases h
      exact ⟨hknown.mp hnames, hallow, hpolicies, hminimum, hfree, hcalls, hproperties⟩
    · cases h
  · rintro ⟨hnames, hallow, hpolicies, hminimum, hfree, hcalls, hproperties⟩
    unfold ofFields
    dsimp only
    rw [if_pos (hknown.mpr hnames), hallow, hpolicies, hminimum, hfree, hcalls, hproperties]
    rfl

/-- The rule that is written under a key is the override under that key. -/
theorem Options.lookup_readOverrides {rules : List (String × Json)}
    {overrides : List (String × Override)} (h : readOverrides rules = .ok overrides) {key : String}
    {value : Json} (hvalue : rules.lookup key = some value) :
    ∃ o, readOverride key value = .ok o ∧ overrides.lookup key = some o := by
  induction rules generalizing overrides with
  | nil => cases hvalue
  | cons rule rules ih =>
    obtain ⟨other, written⟩ := rule
    rw [readOverrides, List.mapM_cons] at h
    obtain ⟨first, hfirst, h⟩ := Except.bind_eq_ok_iff.mp h
    obtain ⟨o, ho, hpair⟩ := Except.bind_eq_ok_iff.mp hfirst
    obtain ⟨rest, hrest, h⟩ := Except.bind_eq_ok_iff.mp h
    cases hpair
    cases h
    rw [List.lookup_cons] at hvalue ⊢
    split at hvalue
    · next heq =>
      obtain rfl : key = other := beq_iff_eq.mp heq
      cases hvalue
      exact ⟨o, ho, rfl⟩
    · exact ih hrest hvalue

theorem Options.map_fst_readOverrides {rules : List (String × Json)}
    {overrides : List (String × Override)} (h : readOverrides rules = .ok overrides) :
    overrides.map Prod.fst = rules.map Prod.fst := by
  induction rules generalizing overrides with
  | nil =>
    cases h
    rfl
  | cons rule rules ih =>
    rw [readOverrides, List.mapM_cons] at h
    obtain ⟨first, hfirst, h⟩ := Except.bind_eq_ok_iff.mp h
    obtain ⟨o, -, hpair⟩ := Except.bind_eq_ok_iff.mp hfirst
    obtain ⟨rest, hrest, h⟩ := Except.bind_eq_ok_iff.mp h
    cases hpair
    cases h
    rw [List.map_cons, List.map_cons, ih hrest]

/-- Markup rules that are read give the policies of their overrides. -/
theorem Options.exists_of_readPolicies {rules : List (String × Json)} {policies : Policies}
    (h : readPolicies (some (.obj rules)) = .ok policies) :
    ∃ overrides, readOverrides rules = .ok overrides ∧ policies = .ofOverrides overrides := by
  rw [readPolicies] at h
  cases hread : readOverrides rules with
  | error e =>
    rw [hread] at h
    cases h
  | ok overrides =>
    rw [hread] at h
    cases h
    exact ⟨overrides, rfl, rfl⟩

/-- The policies of a configuration are those of the markup rules that are written in it. -/
theorem Configuration.exists_readOverrides {raw : Json} {config : Configuration}
    {rules : List (String × Json)} (h : ofJson characters raw = .ok config)
    (hrules : raw.field? "markupAttributeRules" = some (.obj rules)) :
    ∃ overrides, Options.readOverrides rules = .ok overrides ∧
      config.policies = .ofOverrides overrides := by
  cases raw with
  | obj fields =>
    have hpolicies := (ofFields_eq_ok_iff.mp h).2.2.1
    rw [show fields.lookup "markupAttributeRules" = some (.obj rules) from hrules] at hpolicies
    exact Options.exists_of_readPolicies hpolicies
  | _ => cases h

end HardcodedText
