import ColumnLint.Proofs.MixedArguments
import ColumnLint.Proofs.ResultShape
import Mathlib.Data.List.Forall2

/-
  Rules excluded on the command line. A linter without the rule on references finds nothing in a
  text that can be parsed (`lint_of_not_checksReferences`). A run that does not exclude this rule is
  the same as one that excludes none (`run_excluding`). What is reported in either case is in
  `excluded_rule_is_not_reported`.
-/

namespace ColumnLint.Command

open Text Sql

/-! ## Linters with and without the rule -/

/-- The linter with these rules turned off instead of those that it has turned off. -/
def withDisabled (rules : List String) (l : Linter) : Linter :=
  { l with config := { l.config with disabledRules := rules } }

theorem linter_excluding (o : Options) (rules : List String) :
    (o.excluding rules).linter = o.linter.map (withDisabled rules) := by
  have hconfig : (o.excluding rules).config =
      o.config.map fun c => { c with disabledRules := rules } := by
    have hraw : (o.excluding rules).ruleConfigs = o.ruleConfigs := rfl
    unfold Options.config
    rw [hraw]
    cases readRuleConfigs o.ruleConfigs <;> rfl
  unfold Options.linter
  rw [hconfig]
  cases o.config with
  | error e => rfl
  | ok c =>
    -- the policy does not depend on the rules that are excluded
    have hpolicy : Policy.ofConfig { c with disabledRules := rules } = Policy.ofConfig c := rfl
    dsimp only [Except.map]
    unfold Linter.ofConfig
    rw [hpolicy]
    cases Policy.ofConfig c <;> rfl

theorem config_of_linter {o : Options} {l : Linter} (h : o.linter = .ok l) :
    l.config.enabled = true ∧ l.config.disabledRules = o.excludedRules := by
  unfold Options.linter Options.config Linter.ofConfig at h
  split at h
  · cases h
  · rename_i c hconfig
    split at hconfig <;> cases hconfig
    split at h
    · rename_i l' hl
      split at hl <;> cases hl
      cases h
      exact ⟨rfl, rfl⟩
    · cases h

theorem lint_congr {l l' : Linter} (hrules : l.rules = l'.rules) (hpolicy : l.policy = l'.policy)
    (henabled : l.config.enabled = l'.config.enabled) (d : Dialect) (text : List Char) :
    l.lint d text = l'.lint d text := by
  unfold Linter.lint Linter.checkDocument Linter.raised Linter.check
  rw [hrules, hpolicy, henabled]

theorem rules_of_checksReferences {l : Linter} (h : l.config.ChecksReferences) :
    l.rules = [.consistentReferences] := by
  unfold Linter.rules Rule.all
  refine List.filter_eq_self.2 fun r hr => ?_
  cases r
  exact (applies_code_iff _).2 h

theorem lint_of_not_checksReferences {l : Linter} (h : ¬l.config.ChecksReferences) {d : Dialect}
    {text : List Char} {statements : List Statement} (hparse : parse d text = .ok statements) :
    (l.lint d text).issues = [] := by
  refine List.eq_nil_iff_forall_not_mem.2 fun i hi => ?_
  rw [Linter.lint_issues_of_parse hparse] at hi
  exact h (Linter.mem_raised_iff.1 (Linter.mem_checkDocument_iff.1 hi).2.1).1

theorem issues_ne_nil_iff {l : Linter} (h : ¬l.config.ChecksReferences) {d : Dialect}
    {text : List Char} : (l.lint d text).issues ≠ [] ↔ ∃ e, parse d text = .error e := by
  cases hparse : parse d text with
  | error e =>
    rw [Linter.lint_of_error hparse]
    simp [LintResult.ofIssues]
  | ok statements =>
    rw [lint_of_not_checksReferences h hparse]
    simp

theorem code_ofName?_iff (name : String) :
    (Rule.ofName? name).map Rule.code = some "LINT_RF_003" ↔
      Rule.ofName? name = some .consistentReferences := by
  cases Rule.ofName? name with
  | none => simp
  | some r =>
    cases r
    simp [Rule.code, Rule.names]

/-! ## Runs -/

/-- A run that does not exclude the rule goes as if it excluded nothing. -/
theorem run_excluding {o : Options}
    (h : ∀ name ∈ o.excludedRules, Rule.ofName? name ≠ some .consistentReferences)
    (files : Files) (input : ByteArray) (nanos : Nat) :
    run (o.excluding []) files input nanos = run o files input nanos := by
  have hexamine : examine (o.excluding []) files.find input = examine o files.find input := by
    have hlinter := linter_excluding o []
    cases ho : o.linter with
    | error e =>
      rw [ho] at hlinter
      rw [examine_of_misconfigured (linter_eq_error_iff.1 ho),
        examine_of_misconfigured (linter_eq_error_iff.1 hlinter)]
    | ok l =>
      rw [ho] at hlinter
      obtain ⟨henabled, hdisabled⟩ := config_of_linter ho
      have hrules : l.rules = [.consistentReferences] :=
        rules_of_checksReferences ⟨henabled, by rwa [hdisabled]⟩
      have hrules' : (withDisabled [] l).rules = [.consistentReferences] :=
        rules_of_checksReferences ⟨henabled, by simp [withDisabled]⟩
      have hissues : Source.issues (withDisabled [] l) = Source.issues l := by
        funext d s
        exact congrArg LintResult.issues (lint_congr (hrules'.trans hrules.symm) rfl rfl d s.text)
      have hfindings : (o.excluding []).findings (withDisabled [] l) = o.findings l := by
        funext sources
        unfold Options.findings Source.warning? Source.report
        rw [hissues]
        rfl
      rw [examine_of_linter ho, examine_of_linter hlinter, hfindings]
      rfl
  unfold run
  rw [hexamine]
  rfl

/-- What is reported on a text whether or not the rule on references is excluded, and what is
reported if it is. -/
structure Source.ToldBy (s : Source) (d : Dialect) (excluded : Prop) (f : FileReport) : Prop where
  name : f.name = s.name
  parseError : ∀ e, parse d s.text = .error e → ∃ row, f.rows = [row] ∧
    row.code = "PARSE_ERROR" ∧ row.severity = .error ∧ row.message = e.render
  noBreach : excluded → ∀ row ∈ f.rows, row.code ≠ "LINT_RF_003"
  noRow : excluded → ∀ statements, parse d s.text = .ok statements → f.rows = []

theorem toldBy_report {l : Linter} {excluded : Prop}
    (h : excluded → ¬l.config.ChecksReferences) (d : Dialect) (s : Source) :
    s.ToldBy d excluded (s.report l d) := by
  have hbroken : ∀ e, parse d s.text = .error e →
      (s.report l d).rows = [Row.ofIssue s.text (parseIssue s.text e)] := by
    intro e he
    unfold Source.report Source.issues
    rw [Linter.lint_of_error he]
    rfl
  have hsound : excluded → ∀ statements, parse d s.text = .ok statements →
      (s.report l d).rows = [] := by
    intro hexcluded statements hparse
    unfold Source.report Source.issues
    rw [lint_of_not_checksReferences (h hexcluded) hparse]
    rfl
  refine ⟨rfl, fun e he => ⟨_, hbroken e he, rfl, rfl, rfl⟩, fun hexcluded row hrow => ?_, hsound⟩
  cases hparse : parse d s.text with
  | error e =>
    rw [hbroken e hparse] at hrow
    obtain rfl := List.mem_singleton.1 hrow
    exact fun hcode => absurd (show "PARSE_ERROR" = "LINT_RF_003" from hcode) (by decide)
  | ok statements =>
    rw [hsound hexcluded statements hparse] at hrow
    cases hrow

/-- Rules excluded on the command line. The values of all occurrences of the switch, wherever they
stand, are split at their commas and put together. A run that excludes the rule on references by some
piece reports no breach of it; one that does not is the same as without the switch. Either way it is
reported which texts cannot be parsed. -/
theorem excluded_rule_is_not_reported (c : CommandLine) :
    (c.WellPlaced → ∀ o, Options.ofArguments c.others = .ok o →
      Options.ofArguments c.arguments = .ok (o.excluding c.excludedRules)) ∧
    ∀ o, Options.ofArguments c.arguments = .ok o →
      o.excludedRules = c.excludedRules ∧
      Options.ofArguments c.others = .ok (o.excluding []) ∧
      ∀ files input nanos,
        (¬c.Excludes → runArguments c.arguments files input nanos =
          runArguments c.others files input nanos) ∧
        ((runArguments c.arguments files input nanos).exit ≠ 66 →
          ∃ (sources : List Source) (findings : Findings),
            readSources files.find input o.paths = .ok sources ∧
            (runArguments c.arguments files input nanos).exit = findings.exit ∧
            (runArguments c.arguments files input nanos).report? o =
              some (o.delivered (findings.report o false nanos)) ∧
            List.Forall₂ (fun s f => Source.ToldBy s o.dialect c.Excludes f) sources
              findings.files ∧
            (c.Excludes → (findings.exit = 1 ↔
              ∃ s ∈ sources, ∃ e, parse o.dialect s.text = .error e))) := by
  refine ⟨fun hplaced o ho => c.ofArguments_arguments hplaced ho, fun o ho => ?_⟩
  obtain ⟨hrules, hothers⟩ := c.ofArguments_others ho
  refine ⟨hrules, hothers, fun files input nanos => ⟨fun hnone => ?_, fun hexit => ?_⟩⟩
  · rw [runArguments_of_ok ho, runArguments_of_ok hothers]
    refine (run_excluding (fun name hname heq => hnone ⟨name, hrules ▸ hname, ?_⟩) ..).symm
    exact (code_ofName?_iff name).2 heq
  · rw [runArguments_of_ok ho] at hexit ⊢
    obtain ⟨-, findings, hexamine, hcode, -, hreport⟩ := exists_findings hexit
    obtain ⟨l, sources, hlinter, hread, rfl⟩ := examine_eq_ok_iff.1 hexamine
    have hoff : c.Excludes → ¬l.config.ChecksReferences := by
      rintro ⟨name, hname, hrule⟩ ⟨-, hchecks⟩
      refine hchecks name ?_ ((code_ofName?_iff name).1 hrule)
      rw [(config_of_linter hlinter).2, hrules]
      exact hname
    refine ⟨sources, _, hread, hcode, hreport, ?_, fun hexcluded => ?_⟩
    · refine List.forall₂_map_right_iff.2 (List.forall₂_same.2 fun s _ => ?_)
      exact toldBy_report hoff o.dialect s
    · have hfiles : (o.findings l sources).files = sources.map (Source.report l o.dialect) := rfl
      rw [exit_eq_one_iff, hfiles, exists_rows_iff]
      simp only [issues_ne_nil_iff (hoff hexcluded)]

theorem isOther_of_head? {a : String} (h : a.toList.head? ≠ some '-') : IsOther a := by
  refine ⟨?_, ?_, fun value => ?_⟩ <;> rintro rfl <;> exact h (by simp)

/-- The switch, with its value in an argument of its own, between two paths. -/
def betweenPaths (value : String) : CommandLine where
  given := [.other "a.sql", .exclusion value false, .other "b.sql"]
  behind := []
  isOther a ha := by
    simp only [List.mem_cons, List.not_mem_nil, or_false, Given.other.injEq, reduceCtorEq,
      false_or] at ha
    rcases ha with rfl | rfl <;> exact isOther_of_head? (by decide)
  mark := .inl rfl

set_option maxRecDepth 10000 in
theorem wellPlaced_betweenPaths {value : String} (h : IsPlain value) :
    (betweenPaths value).WellPlaced := by
  intro before value' attached after heq
  rcases before with _ | ⟨g, _ | ⟨g', before⟩⟩
  · cases heq
  · cases heq
    exact ⟨fun _ => h, { paths := ["a.sql"] }, rfl⟩
  · simp only [betweenPaths, List.cons_append, List.cons.injEq] at heq
    obtain ⟨-, -, hlast⟩ := heq
    rcases before with _ | ⟨g, before⟩
    · cases hlast
    · simp at hlast

set_option maxRecDepth 10000 in
theorem ofArguments_betweenPaths :
    Options.ofArguments ["a.sql", "b.sql"] = .ok { paths := ["a.sql", "b.sql"] } := by
  rfl

set_option maxRecDepth 10000 in
theorem betweenPaths_not_reported :
    Options.ofArguments ["a.sql", "--exclude-rules", "AL01, rf03", "b.sql"] =
        .ok { paths := ["a.sql", "b.sql"], excludedRules := ["AL01", " rf03"] } ∧
      (runArguments ["a.sql", "--exclude-rules", "AL01, rf03", "b.sql"] brokenAndSound .empty
        0).exit = 1 ∧
      runArguments ["a.sql", "--exclude-rules", "AL01", "b.sql"] brokenAndSound .empty 0 =
        runArguments ["a.sql", "b.sql"] brokenAndSound .empty 0 := by
  obtain ⟨haccept, hmeaning⟩ := excluded_rule_is_not_reported (betweenPaths "AL01, rf03")
  obtain ⟨haccept', hmeaning'⟩ := excluded_rule_is_not_reported (betweenPaths "AL01")
  have ho := haccept (wellPlaced_betweenPaths (.inr (by decide))) _ ofArguments_betweenPaths
  have ho' := haccept' (wellPlaced_betweenPaths (.inr (by decide))) _ ofArguments_betweenPaths
  have hexcludes : (betweenPaths "AL01, rf03").Excludes :=
    ⟨" rf03", by decide, rfl⟩
  have hnone : ¬(betweenPaths "AL01").Excludes := by
    rintro ⟨name, hname, hrule⟩
    obtain rfl := List.mem_singleton.1 (show name ∈ ["AL01"] from hname)
    cases hrule
  obtain ⟨-, -, hruns⟩ := hmeaning _ ho
  obtain ⟨-, -, hruns'⟩ := hmeaning' _ ho'
  obtain ⟨l, hlinter⟩ : ∃ l, Options.linter
      (Options.excluding { paths := ["a.sql", "b.sql"] } ["AL01", " rf03"]) = .ok l := ⟨_, rfl⟩
  have hfine : (runArguments (betweenPaths "AL01, rf03").arguments brokenAndSound .empty
      0).exit ≠ 66 := by
    rw [runArguments_of_ok ho]
    refine (exit_ne_failureExit_iff hlinter readSources_brokenAndSound).2 fun path hpath => ?_
    cases hpath
  have hbroken : ∃ e, parse .generic "SELECT )".toList = .error e :=
    (issues_ne_nil_iff (l := ⟨{ enabled := false }, .consistent⟩) (by decide)).1
      (issues_of_broken _)
  obtain ⟨sources, findings, hread, hexit, -, -, hone⟩ := (hruns brokenAndSound .empty 0).2 hfine
  cases readSources_brokenAndSound.symm.trans hread
  refine ⟨ho, hexit.trans ?_, (hruns' brokenAndSound .empty 0).1 hnone⟩
  exact (hone hexcludes).2 ⟨_, List.mem_cons_self, hbroken⟩

end ColumnLint.Command
