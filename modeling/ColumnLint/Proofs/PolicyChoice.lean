import ColumnLint.Command.Run
import ColumnLint.Proofs.OptionLookup
import ColumnLint.Proofs.Verdict
import ColumnLint.Request

/-
  Which policy is chosen. A configuration names the policy by an option, and is refused exactly when
  that option is no word of a policy (`ofConfig_eq_error_iff`). Nothing but the options of rules
  decides this (`configuration_alone_decides_errors`). A policy given on the command line is written
  under the rule's code, where it is found before any other policy in the options
  (`policy_given_by_itself_wins`).
-/

namespace ColumnLint

open Text Sql

/-! ## The policy of a configuration -/

namespace Config

/-- The option that names the policy, wherever it is set. -/
def policyOption? (c : Config) : Option Json :=
  c.option? Rule.consistentReferences.code Policy.optionName

/-- What is wrong with the option that names the policy. -/
inductive Misnames (c : Config) : ConfigError → Prop where
  | type {j : Json} (hoption : c.policyOption? = some j) (hstring : ∀ s, j ≠ .string s) :
      Misnames c (.invalidType j.typeName)
  | word {s : String} (hoption : c.policyOption? = some (.string s))
      (hword : String.ofList (lower (trim s.toList)) ∉ ["consistent", "qualified", "unqualified"]) :
      Misnames c (.invalidOption s)

end Config

namespace Policy

theorem mem_all (p : Policy) : p ∈ all := by
  cases p <;> decide

theorem word_injective {p q : Policy} (h : p.word = q.word) : p = q := by
  revert h
  cases p <;> cases q <;> decide

theorem mem_words_iff {s : String} :
    s ∈ ["consistent", "qualified", "unqualified"] ↔ ∃ p : Policy, s = p.word := by
  have hwords : ["consistent", "qualified", "unqualified"] = all.map word := rfl
  rw [hwords, List.mem_map]
  constructor
  · rintro ⟨p, -, rfl⟩
    exact ⟨p, rfl⟩
  · rintro ⟨p, rfl⟩
    exact ⟨p, mem_all p, rfl⟩

/-- A word names the policy that it is, or it is refused. -/
theorem ofWord_cases (raw : String) :
    (∃ p, ofWord raw = .ok p ∧ String.ofList (lower (trim raw.toList)) = p.word) ∨
      ofWord raw = .error (.invalidOption raw) ∧
        ∀ p : Policy, String.ofList (lower (trim raw.toList)) ≠ p.word := by
  unfold ofWord
  cases hfind : all.find? fun p => p.word.toList == lower (trim raw.toList) with
  | some p =>
    left
    have hword : p.word.toList = lower (trim raw.toList) := by
      simpa using List.find?_some hfind
    refine ⟨p, rfl, ?_⟩
    rw [← hword, String.ofList_toList]
  | none =>
    right
    refine ⟨rfl, fun p hword => ?_⟩
    have hother := List.find?_eq_none.1 hfind p (mem_all p)
    apply hother
    rw [beq_iff_eq, ← hword, String.toList_ofList]

theorem ofWord_eq_ok_iff {raw : String} {p : Policy} :
    ofWord raw = .ok p ↔ String.ofList (lower (trim raw.toList)) = p.word := by
  rcases ofWord_cases raw with ⟨q, hok, hword⟩ | ⟨herror, hother⟩
  · rw [hok, hword]
    constructor
    · intro h
      cases h
      rfl
    · intro h
      rw [word_injective h]
  · rw [herror]
    constructor
    · intro h
      cases h
    · intro h
      exact absurd h (hother p)

theorem ofWord_eq_error_iff {raw : String} {e : ConfigError} :
    ofWord raw = .error e ↔ e = .invalidOption raw ∧
      String.ofList (lower (trim raw.toList)) ∉ ["consistent", "qualified", "unqualified"] := by
  rw [mem_words_iff, not_exists]
  rcases ofWord_cases raw with ⟨q, hok, hword⟩ | ⟨herror, hother⟩
  · rw [hok]
    constructor
    · intro h
      cases h
    · intro h
      exact absurd hword (h.2 q)
  · rw [herror]
    constructor
    · intro h
      cases h
      exact ⟨rfl, hother⟩
    · intro h
      rw [h.1]

theorem ofWord_word (p : Policy) : ofWord p.word = .ok p := by
  rw [ofWord_eq_ok_iff]
  cases p <;> decide

theorem ofConfig_of_none {c : Config} (h : c.policyOption? = none) :
    ofConfig c = .ok .consistent := by
  unfold Config.policyOption? at h
  unfold ofConfig
  rw [h]

theorem ofConfig_of_string {c : Config} {s : String} (h : c.policyOption? = some (.string s)) :
    ofConfig c = ofWord s := by
  unfold Config.policyOption? at h
  unfold ofConfig
  rw [h]

theorem ofConfig_of_other {c : Config} {j : Json} (h : c.policyOption? = some j)
    (hstring : ∀ s, j ≠ .string s) : ofConfig c = .error (.invalidType j.typeName) := by
  unfold Config.policyOption? at h
  unfold ofConfig
  rw [h]
  cases j with
  | string s => exact absurd rfl (hstring s)
  | _ => rfl

theorem ofConfig_eq_error_iff {c : Config} {e : ConfigError} :
    ofConfig c = .error e ↔ c.Misnames e := by
  constructor
  · intro h
    cases hoption : c.policyOption? with
    | none =>
      rw [ofConfig_of_none hoption] at h
      cases h
    | some j =>
      by_cases hstring : ∃ s, j = .string s
      · obtain ⟨s, rfl⟩ := hstring
        rw [ofConfig_of_string hoption, ofWord_eq_error_iff] at h
        obtain ⟨rfl, hword⟩ := h
        exact .word hoption hword
      · have hstring : ∀ s, j ≠ .string s := not_exists.1 hstring
        rw [ofConfig_of_other hoption hstring] at h
        cases h
        exact .type hoption hstring
  · intro h
    cases h with
    | type hoption hstring => exact ofConfig_of_other hoption hstring
    | word hoption hword => rw [ofConfig_of_string hoption, ofWord_eq_error_iff.2 ⟨rfl, hword⟩]

end Policy

theorem Linter.ofConfig_eq_ok {c : Config} {p : Policy} (h : Policy.ofConfig c = .ok p) :
    ofConfig c = .ok ⟨c, p⟩ := by
  unfold ofConfig
  rw [h]

/-! ## Refused requests -/

/-- A request fails exactly as its configuration misnames the policy. -/
theorem Request.lint_eq_error_iff {r : Request} {e : ConfigError} :
    r.lint = .error e ↔ (r.config.getD {}).Misnames e := by
  rw [← Policy.ofConfig_eq_error_iff]
  unfold lint Linter.ofConfig
  cases hpolicy : Policy.ofConfig (r.config.getD {}) with
  | error e' => simp
  | ok p => cases r.sourceName <;> simp

theorem Config.policyOption?_congr {c c' : Config} (h : c.ruleConfigs = c'.ruleConfigs) :
    c.policyOption? = c'.policyOption? := by
  unfold policyOption? option? objects
  rw [h]

theorem Config.Misnames.congr {c c' : Config} {e : ConfigError} (h : c.Misnames e)
    (hsame : c.policyOption? = c'.policyOption?) : c'.Misnames e := by
  cases h with
  | type hoption hstring => exact .type (hsame ▸ hoption) hstring
  | word hoption hword => exact .word (hsame ▸ hoption) hword

/-- A request fails exactly when the option that names the policy is no word of one. Requests with
the same options of rules fail alike, whatever else they ask for; where no policy is named,
references need only be consistent. -/
theorem configuration_alone_decides_errors (r : Request) :
    (∀ e, r.lint = .error e ↔ (r.config.getD {}).Misnames e) ∧
    (∀ r' : Request, (r'.config.getD {}).ruleConfigs = (r.config.getD {}).ruleConfigs →
      ∀ e, r'.lint = .error e ↔ r.lint = .error e) ∧
    ((r.config.getD {}).policyOption? = none →
      Linter.ofConfig (r.config.getD {}) = .ok ⟨r.config.getD {}, .consistent⟩) := by
  refine ⟨fun e => Request.lint_eq_error_iff, fun r' hsame e => ?_, fun hnone => ?_⟩
  · have hoption := Config.policyOption?_congr hsame
    rw [Request.lint_eq_error_iff, Request.lint_eq_error_iff]
    exact ⟨fun h => h.congr hoption, fun h => h.congr hoption.symm⟩
  · exact Linter.ofConfig_eq_ok (Policy.ofConfig_of_none hnone)

/-- A request whose options name no policy, under a name in small letters. -/
def misnamed : Request where
  sql := "SELECT a FROM t"
  config := some { ruleConfigs := .ofList [
    ("l028", .object [("single_table_references", .string " Both ")])] }

/-- The same options in a request that differs in all else and turns the rule off. -/
def misnamedElsewhere : Request where
  sql := "SELECT ("
  dialect := .postgres
  sourceName := some "b.sql"
  config := some { misnamed.config.getD {} with enabled := false, disabledRules := ["RF03"] }

theorem misnamed_fails_everywhere :
    misnamed.lint = .error (.invalidOption " Both ") ∧
      (misnamed.config.getD {}).Misnames (.invalidOption " Both ") ∧
      (misnamedElsewhere.config.getD {}).ruleConfigs = (misnamed.config.getD {}).ruleConfigs ∧
      misnamedElsewhere.lint = .error (.invalidOption " Both ") ∧
      (Config.policyOption? {}).isNone = true ∧ Linter.ofConfig {} = .ok ⟨{}, .consistent⟩ := by
  have hlint : misnamed.lint = .error (.invalidOption " Both ") := by decide +kernel
  obtain ⟨hiff, helsewhere, -⟩ := configuration_alone_decides_errors misnamed
  have hdefault : (Config.policyOption? {}).isNone = true := by decide +kernel
  refine ⟨hlint, (hiff _).1 hlint, rfl, (helsewhere misnamedElsewhere rfl _).2 hlint, hdefault, ?_⟩
  exact (configuration_alone_decides_errors ⟨"", .generic, none, none⟩).2.2
    (Option.isNone_iff_eq_none.1 hdefault)

/-! ## A policy given by itself -/

namespace Command

theorem firstNonObject?_eq_none_iff {fields : List (String × Json)} :
    firstNonObject? fields = none ↔ ∀ f ∈ fields, ∃ inner, f.2 = .object inner := by
  unfold firstNonObject?
  rw [Option.map_eq_none_iff, List.find?_eq_none]
  have hobject : ∀ j : Json, ¬j.asObject?.isNone = true ↔ ∃ inner, j = .object inner := by
    intro j
    cases j <;> simp [Json.asObject?]
  constructor
  · intro h f hf
    exact (hobject f.2).1 (h f hf)
  · intro h f hf
    exact (hobject f.2).2 (h f hf)

/-- The options of rules that are read from a text are objects. -/
theorem exists_object_of_readRuleConfigs {raw : Option String} {m : OptionMap}
    (h : readRuleConfigs raw = .ok m) {e : String × Json} (he : e ∈ m.entries) :
    ∃ fields, e.2 = .object fields := by
  unfold readRuleConfigs at h
  split at h
  · cases h
    cases he
  · split at h
    · cases h
    · split at h
      · cases h
      · rename_i hobjects
        cases h
        exact firstNonObject?_eq_none_iff.1 hobjects e (OptionMap.mem_entries_ofList he)
    · cases h

/-- The options in the entry of a name, none if there is no such entry. -/
def optionsUnder (m : OptionMap) (name : String) : List (String × Json) :=
  ((m.get? name).bind Json.asObject?).getD []

theorem withPolicy_eq_insert {m : OptionMap}
    (hobjects : ∀ e ∈ m.entries, ∃ fields, e.2 = .object fields) (p : Policy) :
    withPolicy m p = m.insert Rule.consistentReferences.code
      (.object (Json.setField Policy.optionName (.string p.word)
        (optionsUnder m Rule.consistentReferences.code))) := by
  unfold withPolicy optionsUnder
  dsimp only
  cases hget : m.get? Rule.consistentReferences.code with
  | none => rfl
  | some j =>
    obtain ⟨fields, rfl⟩ := hobjects _ (OptionMap.mem_of_get? hget)
    rfl

/-- What is set under the rule's code is found before what is set under any other name. -/
theorem policyOption?_of_get?_code {c : Config} {fields : List (String × Json)} {j : Json}
    (hentry : c.ruleConfigs.get? Rule.consistentReferences.code = some (.object fields))
    (hfield : fields.lookup Policy.optionName = some j) : c.policyOption? = some j := by
  have hcapitals : upper Rule.consistentReferences.code.toList =
      Rule.consistentReferences.code.toList := by decide
  have hunder : c.optionUnder? Policy.optionName Rule.consistentReferences.code = some j := by
    unfold Config.optionUnder?
    rw [OptionMap.find?_of_capitals hcapitals hentry]
    exact hfield
  unfold Config.policyOption?
  rw [Config.option?_eq_findSome? c ofName?_code]
  show List.findSome? _ (Rule.consistentReferences.code :: _) = _
  rw [List.findSome?_cons, hunder]

/-- A policy given by itself is that of the run, whatever the options of rules say about it, and all
else in them is kept. -/
theorem policy_given_by_itself_wins {o : Options} {p : Policy} {m : OptionMap}
    (hpolicy : o.policy = some p) (hread : readRuleConfigs o.ruleConfigs = .ok m) :
    ∃ c, o.config = .ok c ∧ Linter.ofConfig c = .ok ⟨c, p⟩ ∧ o.linter = .ok ⟨c, p⟩ ∧
      (c.ruleConfigs.entries.filter fun e => e.1 ≠ Rule.consistentReferences.code) =
        (m.entries.filter fun e => e.1 ≠ Rule.consistentReferences.code) ∧
      ∃ fields, c.ruleConfigs.get? Rule.consistentReferences.code = some (.object fields) ∧
        (fields.filter fun f => f.1 ≠ Policy.optionName) =
          (optionsUnder m Rule.consistentReferences.code).filter fun f =>
            f.1 ≠ Policy.optionName := by
  let fields := Json.setField Policy.optionName (.string p.word)
    (optionsUnder m Rule.consistentReferences.code)
  let c : Config := ⟨true, o.excludedRules, m.insert Rule.consistentReferences.code (.object fields)⟩
  have hconfig : o.config = .ok c := by
    unfold Options.config
    rw [hread, hpolicy]
    dsimp only
    rw [withPolicy_eq_insert fun e he => exists_object_of_readRuleConfigs hread he]
  have hentry : c.ruleConfigs.get? Rule.consistentReferences.code = some (.object fields) :=
    OptionMap.get?_insert_self ..
  -- the code is in capitals, so no other spelling of it hides what is set there
  have hoption : c.policyOption? = some (.string p.word) :=
    policyOption?_of_get?_code hentry (Json.lookup_setField ..)
  have hlinter : Linter.ofConfig c = .ok ⟨c, p⟩ := by
    apply Linter.ofConfig_eq_ok
    rw [Policy.ofConfig_of_string hoption, Policy.ofWord_word]
  refine ⟨c, hconfig, hlinter, ?_, OptionMap.filter_entries_insert .., fields, hentry,
    Json.filter_setField ..⟩
  unfold Options.linter
  simp only [hconfig, hlinter]

/-- A policy beside options that name the rule in two ways, and the policy as it should not be. -/
def crowded : Options where
  policy := some .qualified
  ruleConfigs := some
    "\x7b\"lint_rf_003\":\x7b\"single_table_references\":7\x7d,\"LINT_RF_003\":\x7b\"k\":1\x7d\x7d"

set_option maxRecDepth 100000 in
theorem crowded_reads :
    (readRuleConfigs crowded.ruleConfigs).toOption.map (fun m => m.entries.map Prod.fst) =
      some ["LINT_RF_003", "lint_rf_003"] := by
  decide +kernel

theorem policy_wins_over_crowded :
    ∃ m c, readRuleConfigs crowded.ruleConfigs = .ok m ∧
      m.entries.map Prod.fst = ["LINT_RF_003", "lint_rf_003"] ∧
      crowded.config = .ok c ∧ Linter.ofConfig c = .ok ⟨c, .qualified⟩ ∧
      crowded.linter = .ok ⟨c, .qualified⟩ ∧
      (c.ruleConfigs.entries.filter fun e => e.1 ≠ Rule.consistentReferences.code) =
        m.entries.filter fun e => e.1 ≠ Rule.consistentReferences.code := by
  have hnames := crowded_reads
  cases hread : readRuleConfigs crowded.ruleConfigs with
  | error e =>
    rw [hread] at hnames
    cases hnames
  | ok m =>
    rw [hread] at hnames
    obtain ⟨c, hconfig, hlinter, hrun, hkept, -⟩ := policy_given_by_itself_wins rfl hread
    exact ⟨m, c, rfl, Option.some.inj hnames, hconfig, hlinter, hrun, hkept⟩

end Command

end ColumnLint
