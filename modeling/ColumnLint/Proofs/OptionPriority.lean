import ColumnLint.Policy
import ColumnLint.Proofs.OptionLookup

/-
  Which entry an option is taken from. Entries are ranked by the names of the rule, and those of one
  name, which differ in letter case, by the order of the map. An option should be what the first entry
  that sets it says (`firstSetting?`). But under each name only the first spelling is looked at, so
  the look-up gives that value unless it stands behind another spelling of its name
  (`findSome?_optionUnder?_eq_iff`).
-/

namespace ColumnLint

open Text

/-- The entries whose names are this one up to the case of ASCII letters, in the order of the map. -/
def OptionMap.spellings (m : OptionMap) (name : String) : List (String × Json) :=
  m.entries.filter fun e => sameLetters e.1.toList name.toList

namespace Config

variable {c : Config} {key : String} {names : List String}

/-- What an entry sets an option to, if it is an object that has it. -/
def settingOf (key : String) (e : String × Json) : Option Json := e.2.get? key

/-- The first setting of an option: of the entries under the first name in their order, then of those
under the next name. -/
def firstSetting? (c : Config) (names : List String) (key : String) : Option Json :=
  names.findSome? fun n => (c.ruleConfigs.spellings n).findSome? (settingOf key)

/-- The first setting of an option is hidden: it stands behind a spelling of its name that does not set
the option, and what the names behind lead to is another value or none. -/
inductive HidesSetting (c : Config) (key : String) : List String → Prop
  | here {name : String} {names : List String} {first : String × Json}
      {others : List (String × Json)} {value : Json}
      (hspellings : c.ruleConfigs.spellings name = first :: others)
      (hfirst : settingOf key first = none) (hothers : others.findSome? (settingOf key) = some value)
      (hnames : names.findSome? (c.optionUnder? key) ≠ some value) :
      HidesSetting c key (name :: names)
  | later {name : String} {names : List String}
      (hname : ∀ e ∈ c.ruleConfigs.spellings name, settingOf key e = none)
      (hnames : HidesSetting c key names) : HidesSetting c key (name :: names)

/-- Under a name, only the first spelling is looked at. -/
theorem optionUnder?_eq_head? (c : Config) (key name : String) :
    c.optionUnder? key name = (c.ruleConfigs.spellings name).head?.bind (settingOf key) := by
  unfold optionUnder? OptionMap.find? OptionMap.spellings
  rw [List.head?_filter]
  cases c.ruleConfigs.entries.find? _ with
  | none => rfl
  | some e =>
    obtain ⟨n, value⟩ := e
    cases value <;> rfl

theorem optionUnder?_of_spellings {name : String} {first : String × Json}
    {others : List (String × Json)} (h : c.ruleConfigs.spellings name = first :: others) :
    c.optionUnder? key name = settingOf key first := by
  rw [optionUnder?_eq_head?, h]
  rfl

/-- What the first spelling sets is the first setting under the name. -/
theorem findSome?_spellings_of_optionUnder? {name : String} {value : Json}
    (h : c.optionUnder? key name = some value) :
    (c.ruleConfigs.spellings name).findSome? (settingOf key) = some value := by
  rw [optionUnder?_eq_head?] at h
  obtain ⟨first, hfirst, hvalue⟩ := Option.bind_eq_some_iff.1 h
  obtain ⟨others, hspellings⟩ := List.head?_eq_some_iff.1 hfirst
  rw [hspellings, List.findSome?_cons, hvalue]

/-! ## Names one by one -/

/-- A name without a setting hides none and is passed over. -/
theorem hidesSetting_cons_of_silent {name : String}
    (h : ∀ e ∈ c.ruleConfigs.spellings name, settingOf key e = none) :
    c.HidesSetting key (name :: names) ↔ c.HidesSetting key names := by
  constructor
  · intro hhides
    cases hhides with
    | here hspellings hfirst hothers hnames =>
      obtain ⟨e, he, hvalue⟩ := List.exists_of_findSome?_eq_some hothers
      rw [h e (by rw [hspellings]; exact List.mem_cons_of_mem _ he)] at hvalue
      cases hvalue
    | later hname hnames => exact hnames
  · exact .later h

/-- A name whose first spelling sets the option hides nothing. -/
theorem not_hidesSetting_of_optionUnder? {name : String} {value : Json}
    (h : c.optionUnder? key name = some value) : ¬c.HidesSetting key (name :: names) := by
  intro hhides
  cases hhides with
  | here hspellings hfirst hothers hnames =>
    rw [optionUnder?_of_spellings hspellings, hfirst] at h
    cases h
  | later hname hnames =>
    have hset := findSome?_spellings_of_optionUnder? h
    rw [List.findSome?_eq_none_iff.2 hname] at hset
    cases hset

/-- A name whose setting stands behind its first spelling hides it, unless the names behind lead to the
same value. -/
theorem hidesSetting_cons_of_behind {name : String} {value : Json}
    (hnone : c.optionUnder? key name = none)
    (hset : (c.ruleConfigs.spellings name).findSome? (settingOf key) = some value) :
    c.HidesSetting key (name :: names) ↔ names.findSome? (c.optionUnder? key) ≠ some value := by
  constructor
  · intro hhides
    cases hhides with
    | here hspellings hfirst hothers hnames =>
      rw [hspellings, List.findSome?_cons, hfirst] at hset
      rwa [Option.some.inj (hset.symm.trans hothers)]
    | later hname hnames =>
      rw [List.findSome?_eq_none_iff.2 hname] at hset
      cases hset
  · intro hnames
    cases hspellings : c.ruleConfigs.spellings name with
    | nil =>
      rw [hspellings] at hset
      cases hset
    | cons first others =>
      rw [optionUnder?_of_spellings hspellings] at hnone
      rw [hspellings, List.findSome?_cons, hnone] at hset
      exact .here hspellings hnone hset hnames

/-- The first setting is found exactly when it is not hidden. -/
theorem findSome?_optionUnder?_eq_iff :
    names.findSome? (c.optionUnder? key) = c.firstSetting? names key ↔ ¬c.HidesSetting key names := by
  unfold firstSetting?
  induction names with
  | nil => exact ⟨fun _ h => (nomatch h), fun _ => rfl⟩
  | cons name names ih =>
    rw [List.findSome?_cons, List.findSome?_cons]
    cases hunder : c.optionUnder? key name with
    | some value =>
      simp [findSome?_spellings_of_optionUnder? hunder, not_hidesSetting_of_optionUnder? hunder]
    | none =>
      cases hset : (c.ruleConfigs.spellings name).findSome? (settingOf key) with
      | none =>
        rw [hidesSetting_cons_of_silent (List.findSome?_eq_none_iff.1 hset)]
        exact ih
      | some value =>
        rw [hidesSetting_cons_of_behind hunder hset, ne_eq, Classical.not_not]

/-- What is found is what some entry under one of the names sets. -/
theorem exists_setting_of_findSome? {value : Json}
    (h : names.findSome? (c.optionUnder? key) = some value) :
    ∃ n ∈ names, ∃ e ∈ c.ruleConfigs.spellings n, settingOf key e = some value := by
  obtain ⟨n, hn, hunder⟩ := List.exists_of_findSome?_eq_some h
  exact ⟨n, hn, List.exists_of_findSome?_eq_some (findSome?_spellings_of_optionUnder? hunder)⟩

/-- No two entries have names that differ only in the case of ASCII letters. -/
def SpelledOnce (c : Config) : Prop :=
  c.ruleConfigs.entries.Pairwise fun a b => sameLetters a.1.toList b.1.toList = false

theorem SpelledOnce.not_hidesSetting (h : c.SpelledOnce) : ¬c.HidesSetting key names := by
  intro hhides
  induction hhides with
  | @here name names first others value hspellings hfirst hothers hnames =>
    -- the setting is of another entry than the first, but both have the letters of the name
    obtain ⟨e, he, -⟩ := List.exists_of_findSome?_eq_some hothers
    have hletters : ∀ x ∈ first :: others, lower x.1.toList = lower name.toList := by
      intro x hx
      rw [← hspellings] at hx
      exact sameLetters_iff.1 (List.mem_filter.1 hx).2
    have hpairs : (first :: others).Pairwise fun a b =>
        sameLetters a.1.toList b.1.toList = false := hspellings ▸ h.filter _
    have hdiffer := (List.pairwise_cons.1 hpairs).1 e he
    rw [Bool.eq_false_iff, Ne, sameLetters_iff] at hdiffer
    exact hdiffer ((hletters first List.mem_cons_self).trans
      (hletters e (List.mem_cons_of_mem _ he)).symm)
  | later hname hnames ih => exact ih

/-- An option is its first setting unless that is hidden. It is always the setting of some entry, and
nothing is hidden if no two names of entries differ only in letter case. -/
theorem option_is_first_setting_unless_hidden (c : Config) {name : String} {r : Rule}
    (h : Rule.ofName? name = some r) (key : String) :
    (c.option? name key = c.firstSetting? r.names.list key ↔ ¬c.HidesSetting key r.names.list) ∧
    (∀ value, c.option? name key = some value →
      ∃ n ∈ r.names.list, ∃ e ∈ c.ruleConfigs.spellings n, settingOf key e = some value) ∧
    (c.SpelledOnce → c.option? name key = c.firstSetting? r.names.list key) := by
  rw [option?_eq_findSome? c h]
  exact ⟨findSome?_optionUnder?_eq_iff, fun value => exists_setting_of_findSome?,
    fun honce => findSome?_optionUnder?_eq_iff.2 honce.not_hidesSetting⟩

/-- Entries under all names of the rule: an object without the option, a value that is no object, and two
objects with the option. -/
def layered : Config where
  ruleConfigs := .ofList [
    ("l028", .object [(Policy.optionName, .string "unqualified")]),
    ("LINT_RF_003", .object [("other", .null)]),
    ("Rf03", .object [(Policy.optionName, .string "qualified")]),
    ("references.consistent", .string "unqualified")]

theorem layered_option_is_first_setting :
    Rule.ofName? "rf_3" = some .consistentReferences ∧ layered.SpelledOnce ∧
      layered.option? "rf_3" Policy.optionName =
        layered.firstSetting? ["LINT_RF_003", "references.consistent", "RF03", "L028"]
          Policy.optionName ∧
      layered.string? "rf_3" Policy.optionName = some "qualified" := by
  have hname : Rule.ofName? "rf_3" = some .consistentReferences := rfl
  have honce : layered.SpelledOnce := by
    unfold SpelledOnce
    decide
  exact ⟨hname, honce,
    (option_is_first_setting_unless_hidden layered hname Policy.optionName).2.2 honce, rfl⟩

/-- Two spellings of one name, of which only the second sets the option. -/
def twiceSpelled : Config where
  ruleConfigs := .ofList [
    ("RF03", .object []),
    ("rf03", .object [(Policy.optionName, .string "qualified")])]

/-- An object that leaves the option out hides the one that sets it. -/
theorem twiceSpelled_hides_setting :
    Rule.ofName? "LINT_RF_003" = some .consistentReferences ∧
      twiceSpelled.option? "LINT_RF_003" Policy.optionName = none ∧
      twiceSpelled.firstSetting? ["LINT_RF_003", "references.consistent", "RF03", "L028"]
        Policy.optionName = some (.string "qualified") := by
  exact ⟨rfl, rfl, rfl⟩

end Config

end ColumnLint
