import ColumnLint.Proofs.Verdict
import ColumnLint.Request

/-
  The shape of results. A text that cannot be parsed has one issue, which says so, whether or not the
  rule is turned off; any other text has issues of the rule only (`lint_result_has_shape`). The summary
  is made before the issues get the name of the text, and still counts them: a name changes nothing
  but the name (`lint_eq_ok_iff`).
-/

namespace ColumnLint

open Text Sql

/-! ## Counting issues -/

namespace LintResult

/-- The summary counts the issues of the result. -/
structure Tallied (r : LintResult) : Prop where
  errors : r.summary.issueCount.errors = (r.issues.filter fun i => i.severity = .error).length
  warnings : r.summary.issueCount.warnings = (r.issues.filter fun i => i.severity = .warning).length
  infos : r.summary.issueCount.infos = (r.issues.filter fun i => i.severity = .info).length
  total : r.summary.issueCount.errors + r.summary.issueCount.warnings +
    r.summary.issueCount.infos = r.issues.length
  hasErrors : r.summary.hasErrors = true ↔ ∃ i ∈ r.issues, i.severity = .error

/-- The only issue is that the text cannot be parsed. -/
structure TellsParseError (r : LintResult) : Prop where
  issue : ∃ i, r.issues = [i] ∧ i.severity = .error ∧ i.code = "PARSE_ERROR" ∧
    i.statementIndex = none
  statementCount : r.summary.statementCount = 0
  hasErrors : r.summary.hasErrors = true

/-- The issues are those of the rule in the `n` statements of a text. -/
structure TellsBreaches (n : Nat) (r : LintResult) : Prop where
  issues : ∀ i ∈ r.issues, i.severity = .info ∧ i.code = "LINT_RF_003" ∧
    ∃ k < n, i.statementIndex = some k
  statementCount : r.summary.statementCount = n
  hasErrors : r.summary.hasErrors = false

/-- The result with the name of the text in each issue. -/
def named (name : Option String) (r : LintResult) : LintResult :=
  { r with issues := r.issues.map fun i => { i with sourceName := name } }

end LintResult

theorem IssueCount.total_ofIssues (issues : List Issue) :
    (ofIssues issues).total = issues.length := by
  induction issues with
  | nil => rfl
  | cons i issues ih =>
    simp only [total, ofIssues, List.countP_cons, List.length_cons] at ih ⊢
    cases i.severity <;> simp <;> omega

namespace LintResult

theorem tallied_ofIssues (n : Nat) (issues : List Issue) : (ofIssues n issues).Tallied where
  errors := List.countP_eq_length_filter ..
  warnings := List.countP_eq_length_filter ..
  infos := List.countP_eq_length_filter ..
  total := IssueCount.total_ofIssues issues
  hasErrors := by
    have hcount : (ofIssues n issues).summary.hasErrors =
        decide (0 < issues.countP fun i => i.severity == .error) := rfl
    rw [hcount, decide_eq_true_iff, List.countP_pos_iff]
    simp [ofIssues]

/-- Names do not count. -/
theorem Tallied.named {r : LintResult} (h : r.Tallied) (name : Option String) :
    (r.named name).Tallied := by
  have hfilter : ∀ s : Severity, ((r.named name).issues.filter fun i => i.severity = s).length =
      (r.issues.filter fun i => i.severity = s).length := by
    intro s
    unfold LintResult.named
    rw [List.filter_map, List.length_map]
    rfl
  have hlength : (r.named name).issues.length = r.issues.length := List.length_map ..
  refine ⟨?_, ?_, ?_, ?_, ?_⟩
  · rw [hfilter]
    exact h.errors
  · rw [hfilter]
    exact h.warnings
  · rw [hfilter]
    exact h.infos
  · rw [hlength]
    exact h.total
  · show r.summary.hasErrors = true ↔ _
    rw [h.hasErrors]
    simp [LintResult.named]

theorem named_named (r : LintResult) (name name' : Option String) :
    (r.named name).named name' = r.named name' := by
  unfold named
  rw [List.map_map]
  rfl

theorem named_of_sourceName {r : LintResult} {name : Option String}
    (h : ∀ i ∈ r.issues, i.sourceName = name) : r.named name = r := by
  have hsame : ∀ i ∈ r.issues, { i with sourceName := name } = i := by
    intro i hi
    rw [← h i hi]
  unfold named
  rw [List.map_congr_left hsame, List.map_id']

end LintResult

/-! ## Texts -/

namespace Linter

theorem lint_of_error {l : Linter} {d : Dialect} {text : List Char} {e : ParseError}
    (h : parse d text = .error e) : l.lint d text = .ofIssues 0 [parseIssue text e] := by
  unfold lint
  rw [h]

theorem lint_of_ok {l : Linter} {d : Dialect} {text : List Char} {statements : List Statement}
    (h : parse d text = .ok statements) :
    l.lint d text = .ofIssues statements.length
      (l.checkDocument (Document.ofText d text (entriesOf text statements))) := by
  unfold lint
  rw [h]

theorem tallied_lint (l : Linter) (d : Dialect) (text : List Char) : (l.lint d text).Tallied := by
  cases hparse : parse d text with
  | error e =>
    rw [lint_of_error hparse]
    exact LintResult.tallied_ofIssues ..
  | ok statements =>
    rw [lint_of_ok hparse]
    exact LintResult.tallied_ofIssues ..

theorem tellsParseError_lint (l : Linter) {d : Dialect} {text : List Char} {e : ParseError}
    (h : parse d text = .error e) : (l.lint d text).TellsParseError := by
  rw [lint_of_error h]
  exact ⟨⟨parseIssue text e, rfl, rfl, rfl, rfl⟩, rfl, rfl⟩

/-- An issue of a document tells of the rule and of one of its statements. -/
theorem exists_entry_of_mem_checkDocument {l : Linter} {doc : Document} {i : Issue}
    (h : i ∈ l.checkDocument doc) :
    i.severity = .info ∧ i.code = Rule.consistentReferences.code ∧ i.sourceName = none ∧
      ∃ e ∈ doc.entries, i.statementIndex = some e.index := by
  obtain ⟨-, hraised, -⟩ := mem_checkDocument_iff.1 h
  obtain ⟨e, he, placed, -, -, r, -, rfl⟩ := exists_breaks_of_mem_raised hraised
  exact ⟨rfl, rfl, rfl, e, he, rfl⟩

theorem tellsBreaches_lint (l : Linter) {d : Dialect} {text : List Char}
    {statements : List Statement} (h : parse d text = .ok statements) :
    (l.lint d text).TellsBreaches statements.length := by
  have hissues : ∀ i ∈ (l.lint d text).issues, i.severity = .info ∧ i.code = "LINT_RF_003" ∧
      ∃ k < statements.length, i.statementIndex = some k := by
    intro i hi
    rw [lint_issues_of_parse h] at hi
    obtain ⟨hinfo, hcode, -, e, he, hindex⟩ := exists_entry_of_mem_checkDocument hi
    obtain ⟨k, s, hs, rfl⟩ := mem_entriesOf.1 he
    obtain ⟨hk, -⟩ := List.getElem?_eq_some_iff.1 hs
    exact ⟨hinfo, hcode, k, hk, hindex⟩
  refine ⟨hissues, ?_, ?_⟩
  · rw [lint_of_ok h]
    rfl
  · rw [Bool.eq_false_iff, Ne, (tallied_lint l d text).hasErrors]
    rintro ⟨i, hi, herror⟩
    rw [(hissues i hi).1] at herror
    cases herror

theorem sourceName_of_mem_lint {l : Linter} {d : Dialect} {text : List Char} {i : Issue}
    (h : i ∈ (l.lint d text).issues) : i.sourceName = none := by
  cases hparse : parse d text with
  | error e =>
    rw [lint_of_error hparse] at h
    obtain rfl := List.mem_singleton.1 h
    rfl
  | ok statements =>
    rw [lint_issues_of_parse hparse] at h
    exact (exists_entry_of_mem_checkDocument h).2.2.1

end Linter

/-! ## Requests -/

/-- The result of a request is that of its text, with the name of the text. -/
theorem Request.lint_eq_ok_iff {r : Request} {result : LintResult} :
    r.lint = .ok result ↔ ∃ l, Linter.ofConfig (r.config.getD {}) = .ok l ∧
      result = (l.lint r.dialect r.sql.toList).named r.sourceName := by
  unfold lint
  cases hconfig : Linter.ofConfig (r.config.getD {}) with
  | error e => simp
  | ok l =>
    have hplain : (l.lint r.dialect r.sql.toList).named none = l.lint r.dialect r.sql.toList :=
      LintResult.named_of_sourceName fun i hi => Linter.sourceName_of_mem_lint hi
    cases hname : r.sourceName with
    | none => simp [hplain, eq_comm]
    | some name => simp [LintResult.named, Issue.withSource, eq_comm]

theorem LintResult.TellsParseError.named {r : LintResult} (h : r.TellsParseError)
    (name : Option String) : (r.named name).TellsParseError := by
  obtain ⟨i, hi, herror, hcode, hindex⟩ := h.issue
  refine ⟨⟨{ i with sourceName := name }, ?_, herror, hcode, hindex⟩, h.statementCount, h.hasErrors⟩
  unfold LintResult.named
  rw [hi]
  rfl

theorem LintResult.TellsBreaches.named {r : LintResult} {n : Nat} (h : r.TellsBreaches n)
    (name : Option String) : (r.named name).TellsBreaches n := by
  refine ⟨fun i hi => ?_, h.statementCount, h.hasErrors⟩
  obtain ⟨j, hj, rfl⟩ := List.mem_map.1 hi
  exact h.issues j hj

/-- A result tells that the text cannot be parsed, or it tells of the rule and the statements of the
text. Its summary counts its issues, all of which have the name of the text, and under another name
the result is the same but for the name. -/
theorem lint_result_has_shape {r : Request} {result : LintResult} (h : r.lint = .ok result) :
    ((∃ e, parse r.dialect r.sql.toList = .error e ∧ result.TellsParseError) ∨
      ∃ statements, parse r.dialect r.sql.toList = .ok statements ∧
        result.TellsBreaches statements.length) ∧
    result.Tallied ∧
    (∀ i ∈ result.issues, i.sourceName = r.sourceName) ∧
    ∀ name, { r with sourceName := name }.lint = .ok (result.named name) := by
  obtain ⟨l, hconfig, rfl⟩ := Request.lint_eq_ok_iff.1 h
  refine ⟨?_, (Linter.tallied_lint ..).named _, fun i hi => ?_, fun name => ?_⟩
  · cases hparse : parse r.dialect r.sql.toList with
    | error e => exact .inl ⟨e, rfl, (l.tellsParseError_lint hparse).named _⟩
    | ok statements => exact .inr ⟨statements, rfl, (l.tellsBreaches_lint hparse).named _⟩
  · obtain ⟨j, -, rfl⟩ := List.mem_map.1 hi
    rfl
  · rw [LintResult.named_named]
    exact Request.lint_eq_ok_iff.2 ⟨l, hconfig, rfl⟩

/-- A text that cannot be parsed, with a name, in a request that turns off linting and the rule. -/
def unfinished : Request where
  sql := "SELECT )"
  sourceName := some "a.sql"
  config := some { enabled := false, disabledRules := ["RF03"] }

/-- What is told about it. -/
def unfinishedResult : LintResult :=
  ⟨[⟨.error, "PARSE_ERROR",
      "Parse error (Generic) at line 1, column 8: sql parser error: " ++
        "Expected: an expression, found: ) at Line: 1, Column: 8",
      some ⟨7, 7⟩, none, some "a.sql"⟩], 0, ⟨1, 0, 0⟩, true⟩

set_option maxRecDepth 100000 in
theorem unfinished_lint : unfinished.lint = .ok unfinishedResult := by
  decide +kernel

theorem unfinished_has_shape :
    unfinished.lint = .ok unfinishedResult ∧ unfinishedResult.TellsParseError ∧
      unfinishedResult.Tallied ∧
      { unfinished with sourceName := none }.lint = .ok (unfinishedResult.named none) := by
  obtain ⟨hshape, htallied, -, hname⟩ := lint_result_has_shape unfinished_lint
  refine ⟨unfinished_lint, ?_, htallied, hname none⟩
  rcases hshape with ⟨e, -, htells⟩ | ⟨statements, -, htells⟩
  · exact htells
  · exact absurd htells.hasErrors (by decide)

end ColumnLint
