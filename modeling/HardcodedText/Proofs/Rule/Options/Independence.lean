import HardcodedText.Proofs.Lookup
import HardcodedText.Proofs.Rule.Options

/-!
# Options one by one

Each option sets a part of the configuration (`Configuration.SameIn`), and is read without regard to
the others (`Configuration.ofFields_eq_ok_iff_reads`).  So a configuration is put together from
those that its options give one by one, and the order of the options does not matter
(`Configuration.ofJson_option_by_option`).  Every error is reported as one of the configuration, but
for some in allow patterns: a number that cannot be read, and flags that exclude each other.
-/

namespace HardcodedText

namespace Configuration

open Options

/-! ## What an option sets -/

/-- `SameIn option c c'`: what `option` sets is the same in `c` and `c'`. -/
structure SameIn (option : String) (c c' : Configuration) : Prop where
  /-- The notification calls. -/
  calls : option = "notificationCallNames" → c.calls = c'.calls
  /-- The user-facing properties. -/
  properties : option = "userFacingPropertyNames" → c.properties = c'.properties
  /-- The allow patterns. -/
  allow : option = "allowPatterns" → c.allow = c'.allow
  /-- The policies of elements. -/
  policies : option = "markupAttributeRules" → c.policies = c'.policies
  /-- The least length of templates. -/
  minimum : option = "minimumStaticTemplateLength" → c.minimum = c'.minimum
  /-- The flag for free-standing properties. -/
  freeStanding : option = "checkFreeStandingProperties" → c.freeStanding = c'.freeStanding

/-- `Reads characters option value c`: what `option` sets in `c` is what `value` writes. -/
structure Reads (characters : CharacterNames) (option : String) (value : Option Json)
    (c : Configuration) : Prop where
  /-- The notification calls. -/
  calls : option = "notificationCallNames" → readCalls value = .ok c.calls
  /-- The user-facing properties. -/
  properties : option = "userFacingPropertyNames" → readProperties value = .ok c.properties
  /-- The allow patterns. -/
  allow : option = "allowPatterns" → readAllow characters value = .ok c.allow
  /-- The policies of elements. -/
  policies : option = "markupAttributeRules" → readPolicies value = .ok c.policies
  /-- The least length of templates. -/
  minimum : option = "minimumStaticTemplateLength" → readMinimum value = .ok c.minimum
  /-- The flag for free-standing properties. -/
  freeStanding :
    option = "checkFreeStandingProperties" → readFreeStanding value = .ok c.freeStanding

variable {characters : CharacterNames} {option : String} {value : Option Json}
  {c c' : Configuration} {fields fields' : List (String × Json)}

theorem SameIn.symm (h : SameIn option c c') : SameIn option c' c where
  calls ho := (h.calls ho).symm
  properties ho := (h.properties ho).symm
  allow ho := (h.allow ho).symm
  policies ho := (h.policies ho).symm
  minimum ho := (h.minimum ho).symm
  freeStanding ho := (h.freeStanding ho).symm

/-- A value writes one thing only. -/
theorem Reads.sameIn (h : Reads characters option value c) (h' : Reads characters option value c') :
    SameIn option c c' where
  calls ho := Except.ok.inj ((h.calls ho).symm.trans (h'.calls ho))
  properties ho := Except.ok.inj ((h.properties ho).symm.trans (h'.properties ho))
  allow ho := Except.ok.inj ((h.allow ho).symm.trans (h'.allow ho))
  policies ho := Except.ok.inj ((h.policies ho).symm.trans (h'.policies ho))
  minimum ho := Except.ok.inj ((h.minimum ho).symm.trans (h'.minimum ho))
  freeStanding ho := Except.ok.inj ((h.freeStanding ho).symm.trans (h'.freeStanding ho))

theorem Reads.congr (h : Reads characters option value c) (hsame : SameIn option c c') :
    Reads characters option value c' where
  calls ho := hsame.calls ho ▸ h.calls ho
  properties ho := hsame.properties ho ▸ h.properties ho
  allow ho := hsame.allow ho ▸ h.allow ho
  policies ho := hsame.policies ho ▸ h.policies ho
  minimum ho := hsame.minimum ho ▸ h.minimum ho
  freeStanding ho := hsame.freeStanding ho ▸ h.freeStanding ho

/-- An option that is left out has its standard value. -/
theorem reads_standard (option : String) : Reads characters option none standard :=
  ⟨fun _ ↦ rfl, fun _ ↦ rfl, fun _ ↦ rfl, fun _ ↦ rfl, fun _ ↦ rfl, fun _ ↦ rfl⟩

/-- What each option sets may be taken from a configuration of its own. -/
theorem exists_sameIn (pick : String → Configuration) :
    ∃ c, ∀ option, SameIn option c (pick option) := by
  refine ⟨{
    calls := (pick "notificationCallNames").calls
    properties := (pick "userFacingPropertyNames").properties
    allow := (pick "allowPatterns").allow
    policies := (pick "markupAttributeRules").policies
    minimum := (pick "minimumStaticTemplateLength").minimum
    freeStanding := (pick "checkFreeStandingProperties").freeStanding }, fun option ↦ ?_⟩
  constructor <;> (rintro rfl; rfl)

/-- A configuration is read option by option. -/
theorem ofFields_eq_ok_iff_reads :
    ofFields characters fields = .ok c ↔
      (∀ field ∈ fields, field.1 ∈ names) ∧
        ∀ option, Reads characters option (fields.lookup option) c := by
  rw [ofFields_eq_ok_iff]
  constructor
  · rintro ⟨hnames, hallow, hpolicies, hminimum, hfree, hcalls, hproperties⟩
    refine ⟨hnames, fun option ↦ ?_⟩
    constructor <;> (rintro rfl; assumption)
  · rintro ⟨hnames, h⟩
    exact ⟨hnames, (h _).allow rfl, (h _).policies rfl, (h _).minimum rfl, (h _).freeStanding rfl,
      (h _).calls rfl, (h _).properties rfl⟩

/-! ## One option alone -/

/-- Of some fields, the one for an option; nothing if the option is left out. -/
def only (option : String) (fields : List (String × Json)) : List (String × Json) :=
  (fields.lookup option).toList.map fun value ↦ (option, value)

theorem lookup_only_self (option : String) (fields : List (String × Json)) :
    (only option fields).lookup option = fields.lookup option := by
  unfold only
  cases fields.lookup option with
  | none => rfl
  | some value => exact List.lookup_cons_self

theorem lookup_only_of_ne {other : String} (h : other ≠ option) :
    (only option fields).lookup other = none := by
  rw [lookup_eq_none_iff_notMem]
  unfold only
  cases fields.lookup option with
  | none => exact List.not_mem_nil
  | some value => exact fun hmem ↦ h (List.mem_singleton.mp hmem)

theorem exists_ofFields_only (hname : option ∈ fields.map Prod.fst → option ∈ names)
    (h : Reads characters option (fields.lookup option) c) :
    ∃ c', ofFields characters (only option fields) = .ok c' ∧ SameIn option c c' := by
  obtain ⟨c', hc'⟩ := exists_sameIn fun other ↦ if other = option then c else standard
  have hsame : SameIn option c c' := by
    have := hc' option
    rw [if_pos rfl] at this
    exact this.symm
  refine ⟨c', ofFields_eq_ok_iff_reads.mpr ⟨?_, fun other ↦ ?_⟩, hsame⟩
  · rintro field hfield
    obtain ⟨value, hvalue, rfl⟩ := List.mem_map.mp hfield
    refine hname (List.mem_map.mpr ⟨(option, value), ?_, rfl⟩)
    exact mem_of_lookup_eq_some (Option.mem_toList.mp hvalue)
  · by_cases hother : other = option
    · subst hother
      rw [lookup_only_self]
      exact h.congr hsame
    · have := hc' other
      rw [if_neg hother] at this
      rw [lookup_only_of_ne hother]
      exact (reads_standard other).congr this.symm

theorem reads_of_ofFields_only (h : ofFields characters (only option fields) = .ok c) :
    Reads characters option (fields.lookup option) c := by
  have := (ofFields_eq_ok_iff_reads.mp h).2 option
  rwa [lookup_only_self] at this

/-- A configuration is accepted if its options have names that are known and each is accepted by
itself. -/
theorem exists_ofFields_iff :
    (∃ c, ofFields characters fields = .ok c) ↔
      ∀ option ∈ fields.map Prod.fst,
        option ∈ names ∧ ∃ c, ofFields characters (only option fields) = .ok c := by
  constructor
  · rintro ⟨c, hc⟩ option hoption
    obtain ⟨hnames, hreads⟩ := ofFields_eq_ok_iff_reads.mp hc
    obtain ⟨field, hfield, rfl⟩ := List.mem_map.mp hoption
    obtain ⟨c', hc', -⟩ := exists_ofFields_only (fun _ ↦ hnames field hfield) (hreads field.1)
    exact ⟨hnames field hfield, c', hc'⟩
  · intro h
    have hreads : ∀ option, ∃ c, Reads characters option (fields.lookup option) c := by
      intro option
      by_cases hoption : option ∈ fields.map Prod.fst
      · obtain ⟨-, c, hc⟩ := h option hoption
        exact ⟨c, reads_of_ofFields_only hc⟩
      · rw [lookup_eq_none_iff_notMem.mpr hoption]
        exact ⟨standard, reads_standard option⟩
    choose pick hpick using hreads
    obtain ⟨c, hc⟩ := exists_sameIn pick
    refine ⟨c, ofFields_eq_ok_iff_reads.mpr ⟨fun field hfield ↦ ?_, fun option ↦ ?_⟩⟩
    · exact (h field.1 (List.mem_map_of_mem hfield)).1
    · exact (hpick option).congr (hc option).symm

/-! ## The order of options -/

/-- Sorted names are the same for every order in which they are given. -/
theorem mergeSort_eq_of_perm {xs ys : List String} (h : xs.Perm ys) :
    xs.mergeSort (fun a b ↦ decide (a ≤ b)) = ys.mergeSort (fun a b ↦ decide (a ≤ b)) := by
  have hsorted (zs : List String) :
      (zs.mergeSort fun a b ↦ decide (a ≤ b)).Pairwise fun a b ↦ decide (a ≤ b) = true :=
    List.pairwise_mergeSort (fun a b c ↦ by simpa using String.le_trans) (fun a b ↦ by
      simpa using String.le_total a b) zs
  refine List.Perm.eq_of_pairwise ?_ (hsorted xs) (hsorted ys) ?_
  · intro a b _ _ hab hba
    exact String.le_antisymm (of_decide_eq_true hab) (of_decide_eq_true hba)
  · exact (List.mergeSort_perm xs _).trans (h.trans (List.mergeSort_perm ys _).symm)

theorem ofFields_eq_of_perm (h : fields'.Perm fields) (hkeys : (fields.map Prod.fst).Nodup) :
    ofFields characters fields' = ofFields characters fields := by
  have hunknown := (h.map Prod.fst).filter (!names.contains ·)
  unfold ofFields
  simp only [lookup_eq_of_perm h hkeys, hunknown.isEmpty_eq, mergeSort_eq_of_perm hunknown]

end Configuration

/-! ## Errors -/

namespace Options

/-- `Reported x`: if `x` fails, then with an error that is reported as one of the configuration. -/
def Reported {α : Type} (x : Except OptionError α) : Prop :=
  ∀ e, x = .error e → e.isReported = true

variable {α β : Type} {x : Except OptionError α} {f : α → Except OptionError β}

theorem reported_ok (a : α) : Reported (.ok a) := by
  rintro e ⟨⟩

theorem reported_error {e : OptionError} (h : e.isReported = true) :
    Reported (.error e : Except OptionError α) := by
  rintro _ ⟨⟩
  exact h

theorem Reported.bind (h : Reported x) (hf : ∀ a, Reported (f a)) : Reported (x >>= f) := by
  intro e he
  rcases Except.bind_eq_error_iff.mp he with he | ⟨a, -, he⟩
  · exact h e he
  · exact hf a e he

theorem Reported.map (h : Reported x) (g : α → β) : Reported (g <$> x) := by
  rw [map_eq_pure_bind]
  exact h.bind fun a ↦ reported_ok (g a)

theorem Reported.mapM {as : List α} (hf : ∀ a, Reported (f a)) : Reported (as.mapM f) := by
  intro e he
  obtain ⟨a, -, he⟩ := Except.exists_of_mapM_eq_error he
  exact hf a e he

theorem reported_readNames (what : String) (value : Json) : Reported (readNames what value) := by
  unfold readNames
  split
  · exact reported_ok _
  · exact reported_ok _
  · exact reported_error rfl

theorem reported_readFlag (key flag : String) (fields : List (String × Json)) :
    Reported (readFlag key flag fields) := by
  unfold readFlag
  split
  · exact reported_ok _
  · exact reported_ok _
  · exact reported_ok _
  · exact reported_error rfl

theorem reported_readOverride (key : String) (value : Json) :
    Reported (readOverride key value) := by
  unfold readOverride
  split
  · exact reported_ok _
  · next fields =>
    refine (reported_readFlag key _ fields).bind fun _ ↦ ?_
    refine (reported_readFlag key _ fields).bind fun _ ↦ ?_
    dsimp only
    split
    · exact reported_ok _
    · exact reported_ok _
    · exact ((reported_readNames key _).map some).bind fun _ ↦ reported_ok _
  · exact reported_error rfl

theorem reported_readPolicies (value : Option Json) : Reported (readPolicies value) := by
  unfold readPolicies
  split
  · exact reported_ok _
  · exact reported_ok _
  · refine Reported.map (Reported.mapM fun rule ↦ ?_) _
    exact (reported_readOverride rule.1 rule.2).bind fun _ ↦ reported_ok _
  · exact reported_error rfl

theorem reported_readMinimum (value : Option Json) : Reported (readMinimum value) := by
  unfold readMinimum
  split
  · exact reported_ok _
  · exact reported_ok _
  · exact reported_error rfl

theorem reported_readFreeStanding (value : Option Json) : Reported (readFreeStanding value) := by
  unfold readFreeStanding
  split
  · exact reported_ok _
  · exact reported_ok _
  · exact reported_error rfl

theorem reported_readCall (name : String) : Reported (readCall name) := by
  intro e he
  obtain ⟨cause, -, rfl⟩ := Except.mapError_eq_error_iff.mp he
  cases cause <;> rfl

theorem reported_readCalls (value : Option Json) : Reported (readCalls value) := by
  unfold readCalls
  split
  · exact reported_ok _
  · exact (reported_readNames _ _).bind fun _ ↦ Reported.mapM reported_readCall

theorem reported_readProperties (value : Option Json) : Reported (readProperties value) := by
  unfold readProperties
  split
  · exact reported_ok _
  · exact (reported_readNames _ _).map _

/-- `Unnoticed characters value`: one of the allow patterns in `value` is an expression that cannot
be read, and its fault is not noticed as one of expressions. -/
def Unnoticed (characters : CharacterNames) (value : Option Json) : Prop :=
  ∃ items pattern cause, value = some (.arr items) ∧ .obj [("regex", pattern)] ∈ items ∧
    Regex.read characters pattern.text = .error cause ∧ cause.fault.isNoticed = false

variable {characters : CharacterNames}

theorem read_eq_error_of_ofRegex {text : String} {cause : Regex.ReadError}
    (h : AllowPattern.ofRegex characters text = .error cause) :
    Regex.read characters text = .error cause := by
  unfold AllowPattern.ofRegex at h
  cases hread : Regex.read characters text with
  | error cause' =>
    rw [hread] at h
    cases h
    rfl
  | ok result =>
    rw [hread] at h
    cases h

theorem reported_or_unnoticed_of_readAllowPattern {item : Json} {e : OptionError}
    (h : readAllowPattern characters item = .error e) :
    e.isReported = true ∨ ∃ pattern cause, item = .obj [("regex", pattern)] ∧
      Regex.read characters pattern.text = .error cause ∧ cause.fault.isNoticed = false := by
  unfold readAllowPattern at h
  split at h
  · cases h
  · next key value =>
    split_ifs at h with hsubstring hregex
    · subst hregex
      obtain ⟨cause, hcause, rfl⟩ := Except.mapError_eq_error_iff.mp h
      cases hnoticed : cause.fault.isNoticed with
      | true => exact .inl hnoticed
      | false => exact .inr ⟨value, cause, rfl, read_eq_error_of_ofRegex hcause, hnoticed⟩
    · cases h
      exact .inl rfl
  · cases h
    exact .inl rfl

theorem reported_or_unnoticed_of_readAllow {value : Option Json} {e : OptionError}
    (h : readAllow characters value = .error e) :
    e.isReported = true ∨ Unnoticed characters value := by
  unfold readAllow at h
  split at h
  · cases h
  · cases h
  · next items =>
    obtain ⟨item, hitem, h⟩ := Except.exists_of_mapM_eq_error h
    rcases reported_or_unnoticed_of_readAllowPattern h with hreported | ⟨pattern, cause, rfl, hread⟩
    · exact .inl hreported
    · exact .inr ⟨items, pattern, cause, rfl, hitem, hread⟩
  · cases h
    exact .inl rfl

end Options

namespace Configuration

open Options

variable {characters : CharacterNames} {fields : List (String × Json)}

theorem reported_or_unnoticed_of_ofFields {e : OptionError}
    (h : ofFields characters fields = .error e) :
    e.isReported = true ∨ Unnoticed characters (fields.lookup "allowPatterns") := by
  unfold ofFields at h
  dsimp only at h
  split at h
  · rcases Except.bind_eq_error_iff.mp h with h | ⟨allow, -, h⟩
    · exact reported_or_unnoticed_of_readAllow h
    · refine .inl (Reported.bind (reported_readPolicies _) (fun _ ↦ ?_) e h)
      refine (reported_readMinimum _).bind fun _ ↦ ?_
      refine (reported_readFreeStanding _).bind fun _ ↦ ?_
      refine (reported_readCalls _).bind fun _ ↦ ?_
      exact (reported_readProperties _).bind fun _ ↦ reported_ok _
  · cases h
    exact .inl rfl

/-- **Options are independent of each other.**  An object is accepted if and only if all of its
options are known and each is accepted by itself.  What an option sets is then what it sets by
itself, or the standard if it is left out; so neither the order of the options nor a change to one
of them has an influence on what another one sets.  An object that is not accepted gives no
configuration at all, and the error is reported as one of the configuration unless an allow pattern
cannot be read and its fault is not noticed as one of expressions. -/
theorem ofJson_option_by_option (characters : CharacterNames) (fields : List (String × Json)) :
    ((∃ c, ofJson characters (.obj fields) = .ok c) ↔
      ∀ option ∈ fields.map Prod.fst,
        option ∈ names ∧ ∃ c, ofJson characters (.obj (only option fields)) = .ok c) ∧
    ofJson characters (.obj []) = .ok standard ∧
    (∀ c, ofJson characters (.obj fields) = .ok c → ∀ option,
      ∃ c', ofJson characters (.obj (only option fields)) = .ok c' ∧ SameIn option c c') ∧
    (∀ fields', fields'.Perm fields → (fields.map Prod.fst).Nodup →
      ofJson characters (.obj fields') = ofJson characters (.obj fields)) ∧
    (∀ c fields' c', ofJson characters (.obj fields) = .ok c →
      ofJson characters (.obj fields') = .ok c' → ∀ option,
        fields'.lookup option = fields.lookup option → SameIn option c' c) ∧
    ∀ e, ofJson characters (.obj fields) = .error e →
      e.isReported = true ∨ Unnoticed characters (fields.lookup "allowPatterns") := by
  refine ⟨exists_ofFields_iff, rfl, ?_, ?_, ?_, fun e ↦ reported_or_unnoticed_of_ofFields⟩
  · intro c hc option
    obtain ⟨hnames, hreads⟩ := ofFields_eq_ok_iff_reads.mp hc
    refine exists_ofFields_only (fun hoption ↦ ?_) (hreads option)
    obtain ⟨field, hfield, rfl⟩ := List.mem_map.mp hoption
    exact hnames field hfield
  · intro fields' hperm hkeys
    exact ofFields_eq_of_perm hperm hkeys
  · intro c fields' c' hc hc' option hlookup
    have hreads := (ofFields_eq_ok_iff_reads.mp hc').2 option
    rw [hlookup] at hreads
    exact hreads.sameIn ((ofFields_eq_ok_iff_reads.mp hc).2 option)

/-- Three options in two orders, one of them without a value. -/
theorem ofJson_option_by_option_three :
    let fields : List (String × Json) := [("userFacingPropertyNames", .null),
      ("checkFreeStandingProperties", .bool true), ("notificationCallNames", .arr [.str "say.*"])]
    ∃ c, ofJson .none (.obj fields) = .ok c ∧ ofJson .none (.obj fields.reverse) = .ok c ∧
      c.properties = [] ∧ c.freeStanding = true ∧ c.calls.map CallPattern.text = ["say.*"] ∧
      c.minimum = 3 := by
  intro fields
  obtain ⟨haccepted, -, hparts, horder, -, -⟩ := ofJson_option_by_option .none fields
  obtain ⟨c, hc⟩ : ∃ c, ofJson .none (.obj fields) = .ok c := by
    refine haccepted.mpr fun option hoption ↦ ?_
    simp only [fields, List.map_cons, List.map_nil, List.mem_cons, List.not_mem_nil, or_false]
      at hoption
    rcases hoption with rfl | rfl | rfl <;> exact ⟨by decide, _, rfl⟩
  obtain ⟨_, ⟨⟩, hproperties⟩ := hparts c hc "userFacingPropertyNames"
  obtain ⟨_, ⟨⟩, hfree⟩ := hparts c hc "checkFreeStandingProperties"
  obtain ⟨_, ⟨⟩, hcalls⟩ := hparts c hc "notificationCallNames"
  obtain ⟨_, ⟨⟩, hminimum⟩ := hparts c hc "minimumStaticTemplateLength"
  refine ⟨c, hc, ?_, ?_, hfree.freeStanding rfl, ?_, hminimum.minimum rfl⟩
  · exact (horder _ fields.reverse_perm (by decide)).trans hc
  · rw [hproperties.properties rfl]
    simp [sortNames]
  · rw [hcalls.calls rfl]
    rfl

/-- An allow pattern that repeats a character too often makes reading fail, and the failure is not
reported as one of the configuration. -/
theorem not_forall_isReported :
    ¬ ∀ (characters : CharacterNames) (fields : List (String × Json)) (e : OptionError),
      ofJson characters (.obj fields) = .error e → e.isReported = true := by
  intro h
  have hreported := h .none
    [("allowPatterns", .arr [.obj [("regex", .str "a\x7b4294967295\x7d")]])]
    (.allowRegex "a\x7b4294967295\x7d" ⟨.countTooLarge, none⟩) rfl
  cases hreported

end Configuration

end HardcodedText
