import ColumnLint.Linter
import ColumnLint.Proofs.Listing
import ColumnLint.Proofs.NormalForm
import ColumnLint.Proofs.Offender

/-
  What linting a text reports. An issue is in the result exactly when some reference of some select
  of the text breaks the policy and no comment suppresses it (`mem_lint_issues_iff`); a
  configuration that turns the rule off leaves nothing (`lint_issues_eq_nil`).
-/

namespace ColumnLint

open Text Sql

/-- The line that decides whether comments suppress the issue of a reference: that of the
reference, or that of its statement where the reference has no place. -/
def suppressionLine (text : List Char) (s : Statement) (r : Reference) : Nat :=
  match r.span with
  | some span => lineAt text span.start
  | none => lineAt text (statementRange text s).start

/-- The configuration does not turn off the rule on references. -/
def Config.ChecksReferences (c : Config) : Prop :=
  c.enabled = true ∧ ∀ name ∈ c.disabledRules, Rule.ofName? name ≠ some .consistentReferences

instance (c : Config) : Decidable c.ChecksReferences := inferInstanceAs (Decidable (_ ∧ _))

/-! ## Rules and entries -/

theorem ofName?_code :
    Rule.ofName? Rule.consistentReferences.code = some .consistentReferences := by
  decide +kernel

theorem applies_code_iff (c : Config) :
    c.applies Rule.consistentReferences.code = true ↔ c.ChecksReferences := by
  simp [Config.applies, ofName?_code, Config.ChecksReferences]

theorem mem_entriesOf {text : List Char} {statements : List Statement} {e : Entry} :
    e ∈ entriesOf text statements ↔
      ∃ n s, statements[n]? = some s ∧ e = ⟨s, n, statementRange text s⟩ := by
  unfold entriesOf
  simp only [List.mem_map, Prod.exists, List.mk_mem_zipIdx_iff_getElem?]
  constructor
  · intro hsome
    obtain ⟨s, n, hs, rfl⟩ := hsome
    exact ⟨n, s, hs, rfl⟩
  · intro hsome
    obtain ⟨n, s, hs, rfl⟩ := hsome
    exact ⟨s, n, hs, rfl⟩

/-- The entry with a number is the statement with that number. -/
theorem find?_entriesOf {text : List Char} {statements : List Statement} {n : Nat} {s : Statement}
    (h : statements[n]? = some s) :
    (entriesOf text statements).find? (fun e => e.index == n) =
      some ⟨s, n, statementRange text s⟩ := by
  have hmem : (⟨s, n, statementRange text s⟩ : Entry) ∈ entriesOf text statements :=
    mem_entriesOf.2 ⟨n, s, h, rfl⟩
  obtain ⟨e, he⟩ : ∃ e, (entriesOf text statements).find? (fun e => e.index == n) = some e := by
    apply Option.isSome_iff_exists.1
    rw [List.find?_isSome]
    exact ⟨_, hmem, by simp⟩
  have hn : e.index = n := by simpa using List.find?_some he
  obtain ⟨m, s', hs', rfl⟩ := mem_entriesOf.1 (List.mem_of_find?_eq_some he)
  obtain rfl : m = n := hn
  rw [he, Option.some.inj (hs'.symm.trans h)]

theorem lineOf?_issueOf {d : Dialect} {text : List Char} {statements : List Statement} {n : Nat}
    {s : Statement} (h : statements[n]? = some s) (p : Policy) (r : Reference) :
    (Document.ofText d text (entriesOf text statements)).lineOf? (p.issueOf n r) =
      some (suppressionLine text s r) := by
  unfold Document.lineOf? suppressionLine
  cases hr : r.span with
  | some span => simp [Policy.issueOf, hr, Document.ofText]
  | none => simp [Policy.issueOf, hr, Document.ofText, find?_entriesOf h]

theorem suppresses_issueOf {d : Dialect} {text : List Char} {statements : List Statement} {n : Nat}
    {s : Statement} (h : statements[n]? = some s) (p : Policy) (r : Reference) :
    (Document.ofText d text (entriesOf text statements)).suppresses (p.issueOf n r) =
      (Suppression.ofText d text).suppresses (suppressionLine text s r)
        Rule.consistentReferences.code := by
  unfold Document.suppresses
  rw [lineOf?_issueOf h]
  rfl

/-! ## Issues of a document -/

namespace Linter

theorem mem_raised_iff {l : Linter} {doc : Document} {i : Issue} :
    i ∈ l.raised doc ↔
      l.config.ChecksReferences ∧
        ∃ e ∈ doc.entries, i ∈ l.policy.issues doc.text e.index e.statement := by
  unfold raised rules
  simp only [List.mem_flatMap, List.mem_filter]
  constructor
  · intro hsome
    obtain ⟨rule, ⟨-, happlies⟩, e, he, hi⟩ := hsome
    cases rule
    exact ⟨(applies_code_iff _).1 happlies, e, he, hi⟩
  · intro hsome
    obtain ⟨hchecks, e, he, hi⟩ := hsome
    exact ⟨.consistentReferences, ⟨List.mem_singleton_self _, (applies_code_iff _).2 hchecks⟩,
      e, he, hi⟩

/-- An issue that is raised tells of a reference of some select that breaks the policy. -/
theorem exists_breaks_of_mem_raised {l : Linter} {doc : Document} {i : Issue}
    (h : i ∈ l.raised doc) :
    ∃ e ∈ doc.entries, ∃ placed ∈ selectScopes doc.text e.statement,
      placed.scope.aliases.length = 1 ∧
        ∃ r, l.policy.Breaks placed.scope.references r ∧ i = l.policy.issueOf e.index r := by
  obtain ⟨-, e, he, hi⟩ := mem_raised_iff.1 h
  exact ⟨e, he, Policy.mem_issues_iff.1 hi⟩

/-- What a select with one table has that meets known references is raised. -/
theorem mem_raised_of_meets {text : List Char} {statements : List Statement} {n : Nat}
    {s : Statement} {q : PlacedSelect} {references : List Reference} {r : Reference}
    (suppression : Suppression) (hs : statements[n]? = some s) (hq : q ∈ s.selects)
    (hmeets : q.meets text references = true)
    (hsorted : references.Pairwise fun a b => a.before b = true)
    (hbreaks : Policy.consistent.Breaks references r) :
    Policy.consistent.issueOf n r ∈
      raised ⟨{}, .consistent⟩ ⟨text, entriesOf text statements, suppression⟩ := by
  obtain ⟨hone, hrefs⟩ := q.scope_of_meets hmeets hsorted
  refine mem_raised_iff.2 ⟨by decide, _, mem_entriesOf.2 ⟨n, s, hs, rfl⟩, ?_⟩
  exact Policy.mem_issues_iff.2
    ⟨q.scope text, mem_selectScopes.2 ⟨q, hq, rfl⟩, hone, r, hrefs ▸ hbreaks, rfl⟩

theorem sourceName_of_mem_raised {l : Linter} {doc : Document} {i : Issue}
    (h : i ∈ l.raised doc) : i.sourceName = none := by
  obtain ⟨e, -, placed, -, -, r, -, rfl⟩ := exists_breaks_of_mem_raised h
  rfl

theorem mem_checkDocument_iff {l : Linter} {doc : Document} {i : Issue} :
    i ∈ l.checkDocument doc ↔
      l.config.enabled = true ∧ i ∈ l.raised doc ∧ doc.suppresses i = false := by
  unfold checkDocument
  split
  · rename_i henabled
    have hsource : ∀ b ∈ (l.raised doc).filter (fun i => !doc.suppresses i), b.sourceName = none :=
      fun b hb => sourceName_of_mem_raised (List.mem_filter.1 hb).1
    rw [mem_normalize_iff hsource]
    simp [List.mem_filter, henabled]
  · rename_i henabled
    simp [henabled]

/-- The issues of a text with statements are those of its document. -/
theorem lint_issues_of_parse {l : Linter} {d : Dialect} {text : List Char}
    {statements : List Statement} (h : parse d text = .ok statements) :
    (l.lint d text).issues =
      l.checkDocument (Document.ofText d text (entriesOf text statements)) := by
  unfold lint
  rw [h]
  rfl

theorem mem_lint_issues_iff {l : Linter} {d : Dialect} {text : List Char}
    {statements : List Statement} (hparse : parse d text = .ok statements)
    (hchecks : l.config.ChecksReferences) {i : Issue} :
    i ∈ (l.lint d text).issues ↔
      ∃ n s, statements[n]? = some s ∧
        ∃ placed ∈ selectScopes text s, placed.scope.aliases.length = 1 ∧
          ∃ r, l.policy.Breaks placed.scope.references r ∧ i = l.policy.issueOf n r ∧
            (Suppression.ofText d text).suppresses (suppressionLine text s r)
              Rule.consistentReferences.code = false := by
  rw [lint_issues_of_parse hparse, mem_checkDocument_iff, mem_raised_iff]
  constructor
  · intro hsome
    obtain ⟨-, ⟨-, e, he, hi⟩, hsuppress⟩ := hsome
    obtain ⟨n, s, hs, rfl⟩ := mem_entriesOf.1 he
    obtain ⟨placed, hplaced, hone, r, hr, rfl⟩ := Policy.mem_issues_iff.1 hi
    rw [suppresses_issueOf hs] at hsuppress
    exact ⟨n, s, hs, placed, hplaced, hone, r, hr, rfl, hsuppress⟩
  · intro hsome
    obtain ⟨n, s, hs, placed, hplaced, hone, r, hr, rfl, hsuppress⟩ := hsome
    refine ⟨hchecks.1, ⟨hchecks, _, mem_entriesOf.2 ⟨n, s, hs, rfl⟩, ?_⟩, ?_⟩
    · exact Policy.mem_issues_iff.2 ⟨placed, hplaced, hone, r, hr, rfl⟩
    · rw [suppresses_issueOf hs]
      exact hsuppress

theorem lint_issues_eq_nil {l : Linter} {d : Dialect} {text : List Char}
    {statements : List Statement} (hparse : parse d text = .ok statements)
    (hoff : ¬l.config.ChecksReferences) : (l.lint d text).issues = [] := by
  rw [lint_issues_of_parse hparse, List.eq_nil_iff_forall_not_mem]
  intro i hi
  exact hoff (mem_raised_iff.1 (mem_checkDocument_iff.1 hi).2.1).1

theorem config_of_ofConfig {c : Config} {l : Linter} (h : ofConfig c = .ok l) : l.config = c := by
  unfold ofConfig at h
  split at h
  · cases h
    rfl
  · cases h

/-- Linting a text reports each reference that breaks the policy and is not suppressed, and
nothing else; if the rule is turned off it reports nothing. -/
theorem lint_reports_exactly_breaches {c : Config} {l : Linter} (hconfig : ofConfig c = .ok l)
    {d : Dialect} {text : List Char} {statements : List Statement}
    (hparse : parse d text = .ok statements) :
    (c.ChecksReferences → ∀ i,
      i ∈ (l.lint d text).issues ↔
        ∃ n s, statements[n]? = some s ∧
          ∃ placed ∈ selectScopes text s, placed.scope.aliases.length = 1 ∧
            ∃ r, l.policy.Breaks placed.scope.references r ∧ i = l.policy.issueOf n r ∧
              (Suppression.ofText d text).suppresses (suppressionLine text s r)
                Rule.consistentReferences.code = false) ∧
    (¬c.ChecksReferences → (l.lint d text).issues = []) := by
  obtain rfl := config_of_ofConfig hconfig
  exact ⟨fun hchecks i => mem_lint_issues_iff hparse hchecks, lint_issues_eq_nil hparse⟩

/-- Two statements that mix references of both kinds; a comment suppresses the issue of the
first one. -/
def mixedTwice : List Char :=
  "SELECT f.a, b FROM f -- noqa\n; SELECT f.a, b FROM f".toList

set_option maxRecDepth 100000 in
theorem mixedTwice_parses :
    someSelect .generic mixedTwice 1 (PlacedSelect.meets mixedTwice
      [⟨"f.a", .qualified, false, some ⟨38, 41⟩⟩,
        ⟨"b", .unqualified, false, some ⟨43, 44⟩⟩]) = true := by
  decide +kernel

theorem lint_reports_mixedTwice :
    ofConfig {} = .ok ⟨{}, .consistent⟩ ∧ Config.ChecksReferences {} ∧
      (∃ statements, parse .generic mixedTwice = .ok statements) ∧
      Policy.consistent.issueOf 1 ⟨"b", .unqualified, false, some ⟨43, 44⟩⟩ ∈
        (lint ⟨{}, .consistent⟩ .generic mixedTwice).issues := by
  obtain ⟨statements, s, p, hparse, hs, hp, hmeets⟩ := exists_of_someSelect mixedTwice_parses
  obtain ⟨hone, hrefs⟩ := p.scope_of_meets hmeets (by decide)
  have hconfig : ofConfig {} = .ok ⟨{}, .consistent⟩ := rfl
  refine ⟨hconfig, by decide, ⟨_, hparse⟩, ?_⟩
  refine ((lint_reports_exactly_breaches hconfig hparse).1 (by decide) _).2
    ⟨1, s, hs, p.scope mixedTwice, mem_selectScopes.2 ⟨p, hp, rfl⟩, hone, _, ?_, rfl, ?_⟩
  · rw [hrefs]
    show firstSwitch (counted _) = _
    decide
  · show (Suppression.ofText .generic mixedTwice).suppresses (lineAt mixedTwice 43) _ = false
    decide +kernel

end Linter

end ColumnLint
