import HardcodedText.Proofs.Rule.Policy

/-!
# Policies that inherit from others

A markup rule sets some parts of a policy and takes the others over (`Policy.Inherits`).  Policies
are two levels deep: the policy for all elements takes over from the base, and all others from it
(`Policies.Inherited`).  Neither the place of the rule for all elements among the rules nor the
order of the rules matters (`Configuration.policies_inherited`).
-/

namespace HardcodedText

namespace Policy

/-- The attributes that a markup rule sets, if it does. -/
def attributesSet? : Json → Option (List String)
  | .arr items => some (items.map Json.text)
  | .obj fields =>
    match fields.lookup "checkProps" with
    | some (.arr items) => some (items.map Json.text)
    | _ => none
  | _ => none

/-- The value that a markup rule sets a flag to, if it does. -/
def flagSet? (flag : String) : Json → Option Bool
  | .obj fields =>
    match fields.lookup flag with
    | some (.bool b) => some b
    | _ => none
  | _ => none

/-- `Inherits rule parent p`: the policy `p` has what `rule` sets, and else what `parent` has. -/
structure Inherits (rule : Json) (parent p : Policy) : Prop where
  /-- The attributes that the user gets to see. -/
  attributes : p.attributes = (attributesSet? rule).getD parent.attributes
  /-- Whether text may be hardcoded. -/
  allowStrings : p.allowStrings = (flagSet? "allowStrings" rule).getD parent.allowStrings
  /-- Whether numbers may be hardcoded. -/
  allowNumbers : p.allowNumbers = (flagSet? "allowNumbers" rule).getD parent.allowNumbers

theorem Inherits.eq {rule : Json} {parent p : Policy} (h : Inherits rule parent p) :
    p = ⟨(attributesSet? rule).getD parent.attributes,
      (flagSet? "allowStrings" rule).getD parent.allowStrings,
      (flagSet? "allowNumbers" rule).getD parent.allowNumbers⟩ := by
  rw [← h.attributes, ← h.allowStrings, ← h.allowNumbers]

theorem flagSet?_of_readFlag {key flag : String} {fields : List (String × Json)} {b : Option Bool}
    (h : Options.readFlag key flag fields = .ok b) : flagSet? flag (.obj fields) = b := by
  unfold Options.readFlag at h
  rw [flagSet?]
  split at h
  · next hlookup => rw [hlookup]; cases h; rfl
  · next hlookup => rw [hlookup]; cases h; rfl
  · next hlookup => rw [hlookup]; cases h; rfl
  · cases h

/-- A markup rule that is read is an override of what it sets. -/
theorem sets_of_readOverride {key : String} {rule : Json} {o : Override}
    (h : Options.readOverride key rule = .ok o) :
    o = ⟨attributesSet? rule, flagSet? "allowStrings" rule, flagSet? "allowNumbers" rule⟩ := by
  unfold Options.readOverride at h
  split at h
  · cases h
    rfl
  · next fields =>
    obtain ⟨strings, hstrings, h⟩ := Except.bind_eq_ok_iff.mp h
    obtain ⟨numbers, hnumbers, h⟩ := Except.bind_eq_ok_iff.mp h
    rw [flagSet?_of_readFlag hstrings, flagSet?_of_readFlag hnumbers, attributesSet?]
    dsimp only at h
    split at h
    · next hlookup => rw [hlookup]; cases h; rfl
    · next hlookup => rw [hlookup]; cases h; rfl
    · next value hnull hlookup =>
      rw [hlookup]
      cases value with
      | null => exact absurd rfl hnull
      | arr items => cases h; rfl
      | _ => cases h
  · cases h

theorem inherits_apply {key : String} {rule : Json} {o : Override}
    (h : Options.readOverride key rule = .ok o) (parent : Policy) :
    Inherits rule parent (o.apply parent) := by
  rw [sets_of_readOverride h]
  exact ⟨rfl, rfl, rfl⟩

end Policy

namespace Policies

/-- `Inherited rules ps`: the policies `ps` are those of the markup rules `rules`. -/
structure Inherited (rules : List (String × Json)) (ps : Policies) : Prop where
  /-- The rule for all elements, if there is one, changes the base. -/
  fallback : Policy.Inherits ((rules.lookup fallbackKey).getD .null) base ps.fallback
  /-- Every other rule changes the policy for all elements, and is in one of the two tables. -/
  given : ∀ key rule, (key, rule) ∈ rules → key ≠ fallbackKey →
    ∃ p, Policy.Inherits rule ps.fallback p ∧
      (ps.elements.lookup key = some p ∧ ps.components.lookup key = none ∨
        ps.elements.lookup key = none ∧ ps.components.lookup key = some p)
  /-- Where no rule is given, the built-in ones change the attributes. -/
  builtIn : ∀ tag o, (tag, o) ∈ builtIn → tag ∉ rules.map Prod.fst →
    ∃ attributes, o.attributes = some attributes ∧
      ps.elements.lookup tag = some { ps.fallback with attributes } ∧
      ps.components.lookup tag = none
  /-- There are no other keys in the tables. -/
  keys : ∀ key ∈ ps.elements.map Prod.fst ++ ps.components.map Prod.fst,
    key ≠ fallbackKey ∧ (key ∈ rules.map Prod.fst ∨ key ∈ Policies.builtIn.map Prod.fst)

/-! ## Policies of overrides -/

/-- A key is filed in one of the two tables. -/
theorem lookup_ofOverrides (given : List (String × Override)) (key : String) {p : Policy}
    (hkey : key ≠ fallbackKey)
    (hp : ((given.lookup key).or (builtIn.lookup key)).map
      (·.apply (ofOverrides given).fallback) = some p) :
    (ofOverrides given).elements.lookup key = some p ∧
        (ofOverrides given).components.lookup key = none ∧ namesComponent key = false ∨
      (ofOverrides given).elements.lookup key = none ∧
        (ofOverrides given).components.lookup key = some p ∧ namesComponent key = true := by
  rw [lookup_elements_ofOverrides, lookup_components_ofOverrides, hp, bne_iff_ne.mpr hkey]
  cases hcomponent : namesComponent key with
  | false => exact .inl ⟨rfl, rfl, rfl⟩
  | true => exact .inr ⟨rfl, rfl, rfl⟩

/-- The built-in overrides are for plain elements, and change nothing but the attributes. -/
theorem of_mem_builtIn {tag : String} {o : Override} (h : (tag, o) ∈ builtIn) :
    namesComponent tag = false ∧ tag ≠ fallbackKey ∧ builtIn.lookup tag = some o ∧
      ∃ attributes, o = { attributes := some attributes } := by
  have hall : ∀ e ∈ builtIn, namesComponent e.1 = false ∧ e.1 ≠ fallbackKey ∧
      builtIn.lookup e.1 = some e.2 ∧ e.2 = { attributes := some (e.2.attributes.getD []) } := by
    decide
  obtain ⟨hplain, hkey, hlookup, ho⟩ := hall _ h
  exact ⟨hplain, hkey, hlookup, _, ho⟩

theorem inherited_ofOverrides {rules : List (String × Json)} {given : List (String × Override)}
    (h : Options.readOverrides rules = .ok given) (hkeys : (rules.map Prod.fst).Nodup) :
    Inherited rules (ofOverrides given) where
  fallback := by
    rw [fallback_ofOverrides]
    cases hrule : rules.lookup fallbackKey with
    | some rule =>
      obtain ⟨o, ho, hlookup⟩ := Options.lookup_readOverrides h hrule
      rw [hlookup]
      exact Policy.inherits_apply ho base
    | none =>
      have hnone : given.lookup fallbackKey = none := by
        rw [lookup_eq_none_iff_notMem, Options.map_fst_readOverrides h]
        exact lookup_eq_none_iff_notMem.mp hrule
      rw [hnone]
      exact ⟨rfl, rfl, rfl⟩
  given key rule hrule hkey := by
    obtain ⟨o, ho, hlookup⟩ :=
      Options.lookup_readOverrides h ((lookup_eq_some_iff_mem hkeys).mpr hrule)
    refine ⟨o.apply (ofOverrides given).fallback, Policy.inherits_apply ho _, ?_⟩
    rcases lookup_ofOverrides given key hkey (by rw [hlookup]; rfl) with ⟨he, hc, -⟩ | ⟨he, hc, -⟩
    · exact .inl ⟨he, hc⟩
    · exact .inr ⟨he, hc⟩
  builtIn tag o ho htag := by
    obtain ⟨hplain, hkey, hbuiltIn, attributes, rfl⟩ := of_mem_builtIn ho
    have hnone : given.lookup tag = none := by
      rw [lookup_eq_none_iff_notMem, Options.map_fst_readOverrides h]
      exact htag
    refine ⟨attributes, rfl, ?_⟩
    rcases lookup_ofOverrides given tag hkey (by rw [hnone, hbuiltIn]; rfl) with
      ⟨he, hc, -⟩ | ⟨-, -, hcomponent⟩
    · exact ⟨he, hc⟩
    · rw [hplain] at hcomponent
      cases hcomponent
  keys key hmem := by
    have hfound : ¬ ((ofOverrides given).elements.lookup key = none ∧
        (ofOverrides given).components.lookup key = none) := by
      rw [lookup_eq_none_iff_notMem, lookup_eq_none_iff_notMem, ← not_or, not_not]
      exact List.mem_append.mp hmem
    rw [lookup_elements_ofOverrides, lookup_components_ofOverrides] at hfound
    constructor
    · rintro rfl
      simp at hfound
    · rw [← Options.map_fst_readOverrides h]
      by_contra hnone
      rw [not_or, ← lookup_eq_none_iff_notMem, ← lookup_eq_none_iff_notMem] at hnone
      rw [hnone.1, hnone.2] at hfound
      simp at hfound

/-! ## The order of rules -/

/-- `Matches ps ps'`: two sets of policies say the same about all elements and about every key. -/
structure Matches (ps ps' : Policies) : Prop where
  /-- The policies for all elements are the same. -/
  fallback : ps.fallback = ps'.fallback
  /-- The policies of plain elements are the same. -/
  elements : ∀ key, ps.elements.lookup key = ps'.elements.lookup key
  /-- The policies of components are the same. -/
  components : ∀ key, ps.components.lookup key = ps'.components.lookup key

theorem matches_of_perm {given given' : List (String × Override)} (h : given'.Perm given)
    (hkeys : (given.map Prod.fst).Nodup) : Matches (ofOverrides given') (ofOverrides given) := by
  have hlookup := lookup_eq_of_perm h hkeys
  have hfallback : (ofOverrides given').fallback = (ofOverrides given).fallback := by
    rw [fallback_ofOverrides, fallback_ofOverrides, hlookup]
  refine ⟨hfallback, fun key ↦ ?_, fun key ↦ ?_⟩
  · rw [lookup_elements_ofOverrides, lookup_elements_ofOverrides, hlookup, hfallback]
  · rw [lookup_components_ofOverrides, lookup_components_ofOverrides, hlookup, hfallback]

/-- Rules in another order are read as well, and say the same. -/
theorem exists_readPolicies_of_perm {rules rules' : List (String × Json)} (h : rules'.Perm rules)
    (hkeys : (rules.map Prod.fst).Nodup) {ps : Policies}
    (hread : Options.readPolicies (some (.obj rules)) = .ok ps) :
    ∃ ps', Options.readPolicies (some (.obj rules')) = .ok ps' ∧ Matches ps' ps := by
  obtain ⟨given, hgiven, rfl⟩ := Options.exists_of_readPolicies hread
  obtain ⟨given', hgiven', hperm⟩ := Except.exists_mapM_of_perm h.symm hgiven
  refine ⟨ofOverrides given', ?_, matches_of_perm hperm.symm ?_⟩
  · rw [Options.readPolicies, Options.readOverrides, hgiven']
    rfl
  · rw [Options.map_fst_readOverrides hgiven]
    exact hkeys

end Policies

namespace Configuration

variable {characters : CharacterNames} {fields fields' rules rules' : List (String × Json)}
  {c : Configuration}

theorem inherited_of_ofJson (hc : ofJson characters (.obj fields) = .ok c)
    (hrules : fields.lookup "markupAttributeRules" = some (.obj rules))
    (hkeys : (rules.map Prod.fst).Nodup) : c.policies.Inherited rules := by
  obtain ⟨given, hgiven, hof⟩ := exists_readOverrides hc hrules
  rw [hof]
  exact Policies.inherited_ofOverrides hgiven hkeys

/-- An object stays accepted when its markup rules are put in another order. -/
theorem exists_ofJson_of_perm (hperm : rules'.Perm rules) (hkeys : (rules.map Prod.fst).Nodup)
    (hrules : fields.lookup "markupAttributeRules" = some (.obj rules))
    (hrules' : fields'.lookup "markupAttributeRules" = some (.obj rules'))
    (hother : ∀ option, option ≠ "markupAttributeRules" →
      fields'.lookup option = fields.lookup option)
    (hc : ofJson characters (.obj fields) = .ok c) :
    ∃ c', ofJson characters (.obj fields') = .ok c' ∧ c'.policies.Matches c.policies := by
  obtain ⟨hnames, hallow, hpolicies, hminimum, hfree, hcalls, hproperties⟩ :=
    ofFields_eq_ok_iff.mp hc
  rw [hrules] at hpolicies
  obtain ⟨ps', hps', hmatches⟩ := Policies.exists_readPolicies_of_perm hperm hkeys hpolicies
  refine ⟨{ c with policies := ps' }, ofFields_eq_ok_iff.mpr ⟨?_, ?_⟩, hmatches⟩
  · intro field hfield
    by_cases hname : field.1 = "markupAttributeRules"
    · rw [hname]
      decide
    · have hmem : field.1 ∈ fields.map Prod.fst := by
        by_contra hnotMem
        rw [← lookup_eq_none_iff_notMem, ← hother _ hname, lookup_eq_none_iff_notMem] at hnotMem
        exact hnotMem (List.mem_map_of_mem hfield)
      obtain ⟨known, hknown, heq⟩ := List.mem_map.mp hmem
      exact heq ▸ hnames known hknown
  · rw [hrules', hother _ (by decide), hother _ (by decide), hother _ (by decide),
      hother _ (by decide), hother _ (by decide)]
    exact ⟨hallow, hps', hminimum, hfree, hcalls, hproperties⟩

/-- **Policies inherit part by part.**  Whatever the order of the markup rules, the rule for all
elements changes the base, each other rule changes the policy for all elements and is filed in one
table, and so are the built-in rules that none is given for; there is nothing else in the tables.
Rules in another order are accepted alike and say the same. -/
theorem policies_inherited (characters : CharacterNames) (fields rules : List (String × Json))
    (hrules : fields.lookup "markupAttributeRules" = some (.obj rules))
    (hkeys : (rules.map Prod.fst).Nodup) :
    (∀ c, ofJson characters (.obj fields) = .ok c → c.policies.Inherited rules) ∧
    ∀ fields' rules', rules'.Perm rules →
      fields'.lookup "markupAttributeRules" = some (.obj rules') →
      (∀ option, option ≠ "markupAttributeRules" →
        fields'.lookup option = fields.lookup option) →
      ((∃ c', ofJson characters (.obj fields') = .ok c') ↔
        ∃ c, ofJson characters (.obj fields) = .ok c) ∧
      ∀ c c', ofJson characters (.obj fields) = .ok c → ofJson characters (.obj fields') = .ok c' →
        c'.policies.Matches c.policies := by
  refine ⟨fun c hc ↦ inherited_of_ofJson hc hrules hkeys, ?_⟩
  intro fields' rules' hperm hrules' hother
  have hkeys' : (rules'.map Prod.fst).Nodup := (hperm.map Prod.fst).nodup_iff.mpr hkeys
  refine ⟨⟨?_, ?_⟩, ?_⟩
  · rintro ⟨c', hc'⟩
    obtain ⟨c, hc, -⟩ := exists_ofJson_of_perm hperm.symm hkeys' hrules' hrules
      (fun option hoption ↦ (hother option hoption).symm) hc'
    exact ⟨c, hc⟩
  · rintro ⟨c, hc⟩
    obtain ⟨c', hc', -⟩ := exists_ofJson_of_perm hperm hkeys hrules hrules' hother hc
    exact ⟨c', hc'⟩
  · intro c c' hc hc'
    obtain ⟨c'', hc'', hmatches⟩ := exists_ofJson_of_perm hperm hkeys hrules hrules' hother hc
    obtain rfl : c' = c'' := Except.ok.inj (hc'.symm.trans hc'')
    exact hmatches

/-- The rule for all elements comes last and is still taken over by all others: by an element and a
component with rules of their own, and by an element with a built-in one. -/
theorem policies_inherited_default_last :
    let rules : List (String × Json) := [("img", .arr [.str "alt"]),
      ("Tooltip", .obj [("checkProps", .null), ("allowStrings", .bool true)]),
      ("default", .obj [("checkProps", .arr [.str "label"]), ("allowNumbers", .bool false)])]
    let raw (rules : List (String × Json)) : Json := .obj [("markupAttributeRules", .obj rules)]
    ∃ c c', ofJson .none (raw rules) = .ok c ∧ ofJson .none (raw rules.reverse) = .ok c' ∧
      c'.policies.Matches c.policies ∧
      c.policies.fallback = { attributes := ["label"], allowNumbers := false } ∧
      c.policies.elements.lookup "img" =
        some { attributes := ["alt"], allowNumbers := false } ∧
      c.policies.components.lookup "Tooltip" =
        some { attributes := ["label"], allowStrings := true, allowNumbers := false } ∧
      c.policies.elements.lookup "button" =
        some { attributes := ["title", "aria-label"], allowNumbers := false } := by
  intro rules raw
  obtain ⟨hinherited, horder⟩ :=
    policies_inherited .none [("markupAttributeRules", .obj rules)] rules rfl (by decide)
  obtain ⟨haccepted, hmatches⟩ :=
    horder [("markupAttributeRules", .obj rules.reverse)] rules.reverse rules.reverse_perm rfl
      fun option hoption ↦ by rw [List.lookup_cons, List.lookup_cons, beq_false_of_ne hoption]
  obtain ⟨c, hc⟩ : ∃ c, ofJson .none (raw rules) = .ok c := ⟨_, rfl⟩
  obtain ⟨c', hc'⟩ := haccepted.mpr ⟨c, hc⟩
  obtain ⟨hfallback, hgiven, hbuiltIn, -⟩ := hinherited c hc
  have hlabel : c.policies.fallback = { attributes := ["label"], allowNumbers := false } :=
    hfallback.eq
  obtain ⟨img, himg, ⟨hlookup, -⟩ | ⟨-, hlookup⟩⟩ := hgiven "img" _ (.head _) (by decide)
  · obtain ⟨tooltip, htooltip, ⟨hlookup', -⟩ | ⟨-, hlookup'⟩⟩ :=
      hgiven "Tooltip" _ (.tail _ (.head _)) (by decide)
    · cases hc
      cases hlookup'
    · obtain ⟨_, ⟨⟩, hbutton, -⟩ := hbuiltIn "button" _ (.tail _ (.tail _ (.head _))) (by decide)
      rw [hlabel] at himg htooltip hbutton
      exact ⟨c, c', hc, hc', hmatches c c' hc hc', hlabel, hlookup.trans (congrArg _ himg.eq),
        hlookup'.trans (congrArg _ htooltip.eq), hbutton⟩
  · cases hc
    cases hlookup

end Configuration

end HardcodedText
