import HardcodedText.Proofs.Rule.Policy.Inheritance

/-!
# Rules for the exports of modules

A rule may be for an export of a module: its key is the module, a colon and the path of the export.
Documents import the export under names of their own, by itself, as the default, or as a part of the
module (`Import.Refers`).  Whatever the name, the rule is the one that goes for it
(`Policies.reaches_of_refers`): before any rule for the name itself, and with the last import of the
name hiding all others.
-/

namespace HardcodedText

namespace Import

/-- `Refers i path name`: where `i` is imported, `name` stands for the export `path` of the
module. -/
inductive Refers (i : Import) : (path name : String) → Prop
  /-- The name of an import stands for what is imported. -/
  | whole (hexported : i.exported ≠ "*") : Refers i i.exported i.localName
  /-- What follows after a dot leads on from there. -/
  | member (hexported : i.exported ≠ "*") (rest : String) :
    Refers i (i.exported ++ "." ++ rest) (i.localName ++ "." ++ rest)
  /-- After the name of a module, it leads to the exports. -/
  | ofModule (hexported : i.exported = "*") (path : String) :
    Refers i path (i.localName ++ "." ++ path)

/-- `IsLast i imports`: no import after `i` has the same name. -/
def IsLast (i : Import) (imports : List Import) : Prop :=
  ∃ before after, imports = before ++ i :: after ∧ ∀ j ∈ after, j.localName ≠ i.localName

/-- The key of the rules for an export. -/
def key (i : Import) (path : String) : String := i.source ++ ":" ++ path

theorem key_append (i : Import) (path suffix : String) :
    i.key (path ++ suffix) = i.key path ++ suffix :=
  String.append_assoc.symm

theorem colon_mem_key (i : Import) (path : String) : ':' ∈ (i.key path).toList := by
  simp [key]

theorem namesComponent_key (i : Import) (path : String) :
    Policies.namesComponent (i.key path) = true := by
  rw [Policies.namesComponent, List.contains_iff_mem.mpr (i.colon_mem_key path), Bool.true_or]

theorem key_ne_fallbackKey (i : Import) (path : String) : i.key path ≠ Policies.fallbackKey := by
  intro h
  have := h ▸ i.colon_mem_key path
  revert this
  decide

end Import

namespace Scope

variable {scope : Scope} {i : Import} {path name : String}

theorem import?_of_isLast (h : i.IsLast scope.imports) : scope.import? i.localName = some i := by
  obtain ⟨before, after, himports, hafter⟩ := h
  have hskipped : after.reverse.find? (·.localName == i.localName) = none := by
    rw [List.find?_eq_none]
    exact fun j hj heq ↦ hafter j (List.mem_reverse.mp hj) (beq_iff_eq.mp heq)
  rw [import?, himports, List.reverse_append, List.reverse_cons, List.append_assoc,
    List.find?_append, hskipped, Option.none_or, List.singleton_append]
  exact List.find?_cons_of_pos (beq_self_eq_true i.localName)

/-- What follows a name without dots is cut off at its first dot. -/
theorem parts_append {root suffix : String} (hroot : '.' ∉ root.toList)
    (hsuffix : suffix.toList.takeWhile (· != '.') = []) :
    rootName (root ++ suffix) = root ∧ dottedRest (root ++ suffix) = suffix.toList := by
  have hpass : ∀ c ∈ root.toList, (c != '.') = true :=
    fun c hc ↦ bne_iff_ne.mpr fun heq ↦ hroot (heq ▸ hc)
  have hdrop : suffix.toList.dropWhile (· != '.') = suffix.toList := by
    have happend := List.takeWhile_append_dropWhile (p := (· != '.')) (l := suffix.toList)
    rwa [hsuffix, List.nil_append] at happend
  constructor
  · rw [rootName, String.toList_append, List.takeWhile_append_of_pos hpass, hsuffix,
      List.append_nil, String.ofList_toList]
  · rw [dottedRest, String.toList_append, List.dropWhile_append_of_pos hpass, hdrop]

/-- The key for a name that begins with an import. -/
theorem qualifiedKey?_append {suffix : String} (hlast : i.IsLast scope.imports)
    (hroot : '.' ∉ i.localName.toList) (hsuffix : suffix.toList.takeWhile (· != '.') = []) :
    scope.qualifiedKey? (i.localName ++ suffix) =
      if i.exported = "*" then
        if suffix.toList.tail.isEmpty then none
        else some (i.key (.ofList suffix.toList.tail))
      else if suffix.toList.tail.isEmpty then some (i.key i.exported)
      else some (i.key (i.exported ++ suffix)) := by
  obtain ⟨hname, hrest⟩ := parts_append hroot hsuffix
  rw [qualifiedKey?, hname, import?_of_isLast hlast]
  dsimp only
  rw [hrest, String.ofList_toList, Import.key_append]
  rfl

/-- A name that refers to an export is looked up under the key of the export. -/
theorem qualifiedKey?_of_refers (hlast : i.IsLast scope.imports) (hroot : '.' ∉ i.localName.toList)
    (h : i.Refers path name) (hend : name ≠ i.localName ++ ".") :
    scope.qualifiedKey? name = some (i.key path) := by
  have hdotted (rest : String) : ("." ++ rest).toList = '.' :: rest.toList := by
    rw [String.toList_append]
    rfl
  have hrest {rest : String} (hname : name = i.localName ++ "." ++ rest) :
      rest.toList.isEmpty = false := by
    rw [List.isEmpty_eq_false_iff]
    intro hnil
    rw [String.toList_eq_nil_iff.mp hnil, String.append_empty] at hname
    exact hend hname
  cases h with
  | whole hexported =>
    have hempty : ("".toList.takeWhile (· != '.')) = [] := rfl
    have hkey := qualifiedKey?_append hlast hroot hempty
    rwa [String.append_empty, if_neg hexported] at hkey
  | member hexported rest =>
    rw [String.append_assoc, qualifiedKey?_append hlast hroot (by rw [hdotted]; rfl),
      if_neg hexported, hdotted, List.tail_cons, hrest rfl, String.append_assoc]
    rfl
  | ofModule hexported rest =>
    rw [String.append_assoc, qualifiedKey?_append hlast hroot (by rw [hdotted]; rfl),
      if_pos hexported, hdotted, List.tail_cons, hrest rfl, String.ofList_toList]
    rfl

/-- The policy under the key of an export goes for the names that refer to it. -/
theorem policyOf_of_refers (hlast : i.IsLast scope.imports) (hroot : '.' ∉ i.localName.toList)
    (h : i.Refers path name) (hend : name ≠ i.localName ++ ".") (hname : name ≠ "")
    (hplain : isPlainTag name = false) {p : Policy}
    (hp : scope.config.policies.components.lookup (i.key path) = some p) :
    scope.policyOf name = p := by
  rw [policyOf, if_neg hname, hplain, policyKeys, qualifiedKey?_of_refers hlast hroot h hend]
  simp [hp]

end Scope

namespace Policies

/-- The rules for the export `path` of the module that `i` is imported from go for the elements of
the name `name`, whatever else is configured and imported, as long as `i` is not hidden. -/
def Reaches (i : Import) (path name : String) : Prop :=
  ∀ (characters : CharacterNames) (raw : Json) (config : Configuration)
    (rules : List (String × Json)) (rule : Json) (file : String) (imports : List Import),
    Configuration.ofJson characters raw = .ok config →
    raw.field? "markupAttributeRules" = some (.obj rules) →
    rules.lookup (i.key path) = some rule →
    i.IsLast imports →
    config.policies.components.lookup (i.key path) =
        some ((⟨config, file, imports⟩ : Scope).policyOf name) ∧
      Policy.Inherits rule config.policies.fallback
        ((⟨config, file, imports⟩ : Scope).policyOf name)

/-- **Rules for an export reach it under every name.**  However an export is imported and whatever
it is called, the rule for it goes for the elements whose name refers to it, unless that is the name
of a plain element.  A name that is empty, or ends with the dot after the import, refers to
nothing. -/
theorem reaches_of_refers (i : Import) (path name : String) (hroot : '.' ∉ i.localName.toList)
    (h : i.Refers path name) (hplain : isPlainTag name = false) (hname : name ≠ "")
    (hend : name ≠ i.localName ++ ".") : Reaches i path name := by
  intro characters raw config rules rule file imports hconfig hrules hrule hlast
  obtain ⟨given, hread, hof⟩ := Configuration.exists_readOverrides hconfig hrules
  obtain ⟨o, ho, hlookup⟩ := Options.lookup_readOverrides hread hrule
  have hcomponent :=
    lookup_components hlookup (i.key_ne_fallbackKey path) (i.namesComponent_key path)
  rw [← hof] at hcomponent
  have hpolicy : (⟨config, file, imports⟩ : Scope).policyOf name = _ :=
    Scope.policyOf_of_refers hlast hroot h hend hname hplain hcomponent
  rw [hpolicy]
  exact ⟨hcomponent, Policy.inherits_apply ho _⟩

/-- A component that is imported from a module as a whole has the rule for its export, and neither
the rule for the name of the module in the document nor that for the name of the element.  An import
of the same name further up is hidden. -/
theorem reaches_of_refers_icons :
    let i : Import := ⟨"lib/icons", "icons", "*"⟩
    let rules : List (String × Json) := [("icons", .obj [("allowNumbers", .bool false)]),
      ("icons.Star.Half", .arr []), ("lib/icons:Star.Half", .arr [.str "caption"])]
    ∃ config,
      Configuration.ofJson .none (.obj [("markupAttributeRules", .obj rules)]) = .ok config ∧
      (⟨config, "a.tsx", [⟨"old", "icons", "Star"⟩, i, ⟨"old", "Star", "default"⟩]⟩ :
        Scope).policyOf "icons.Star.Half" = { attributes := ["caption"] } := by
  intro i rules
  obtain ⟨-, hinherits⟩ := reaches_of_refers i "Star.Half" "icons.Star.Half" (by decide)
    (.ofModule rfl "Star.Half") (by decide) (by decide) (by decide) .none
    (.obj [("markupAttributeRules", .obj rules)]) _ rules _ "a.tsx"
    [⟨"old", "icons", "Star"⟩, i, ⟨"old", "Star", "default"⟩] rfl rfl rfl
    ⟨[⟨"old", "icons", "Star"⟩], [⟨"old", "Star", "default"⟩], rfl, by decide⟩
  exact ⟨_, rfl, hinherits.eq⟩

/-- An element without a name is a fragment, to which no rule applies, even if there is an import
without a name; and nothing is looked for in a module unless something follows the dot. -/
theorem not_reaches_without_name :
    (Import.Refers ⟨"m", "", "X"⟩ "X" "" ∧ isPlainTag "" = false ∧
      ¬ Reaches ⟨"m", "", "X"⟩ "X" "") ∧
    (Import.Refers ⟨"m", "N", "*"⟩ "" "N." ∧ isPlainTag "N." = false ∧
      ¬ Reaches ⟨"m", "N", "*"⟩ "" "N.") := by
  refine ⟨⟨.whole (by decide), rfl, fun h ↦ ?_⟩, ⟨.ofModule rfl "", rfl, fun h ↦ ?_⟩⟩
  · have := (h .none (.obj [("markupAttributeRules", .obj [("m:X", .arr [])])]) _ _ _ "a.tsx"
      [⟨"m", "", "X"⟩] rfl rfl rfl ⟨[], [], rfl, by decide⟩).2.attributes
    cases this
  · have := (h .none (.obj [("markupAttributeRules", .obj [("m:", .arr [])])]) _ _ _ "a.tsx"
      [⟨"m", "N", "*"⟩] rfl rfl rfl ⟨[], [], rfl, by decide⟩).2.attributes
    cases this

end Policies

end HardcodedText
