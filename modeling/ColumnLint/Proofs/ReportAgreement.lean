import ColumnLint.Proofs.RunOutcome

/-
  Exit codes and reports. A table is a section for each text and a line of counts
  (`table_eq_print`); JSON has an array of violations for each text. Both count anew what the exit
  code tells, and they agree with it, whatever the format of the report and wherever it goes
  (`exit_code_agrees_with_reports`).
-/

namespace ColumnLint

open Text Sql

/-! ## Tables taken apart -/

/-- The part of a table on one text: a line with its name and status, and a line for each row. -/
structure TableSection where
  name : List Char
  status : List Char
  lines : List (List Char)

def TableSection.print (s : TableSection) : List Char :=
  "== [".toList ++ s.name ++ "] ".toList ++ s.status ++ ['\n'] ++ s.lines.flatten

/-- The sections of a table and the numbers that it ends with. -/
structure TableView where
  sections : List TableSection
  passed : Nat
  failed : Nat
  violations : Nat

namespace TableView

def print (nanos : Nat) (t : TableView) : List Char :=
  t.sections.flatMap TableSection.print ++ "All Finished in ".toList ++ elapsed nanos ++
    "!\n  ".toList ++ fileCount t.passed ++ " passed. ".toList ++ fileCount t.failed ++
    " failed. ".toList ++ (toString t.violations).toList ++ " violations found.\n".toList

/-- The sections of both tables, and the sums of their numbers. -/
def append (t u : TableView) : TableView where
  sections := t.sections ++ u.sections
  passed := t.passed + u.passed
  failed := t.failed + u.failed
  violations := t.violations + u.violations

end TableView

/-- The section on a text. Its rows are listed by line and column. -/
def FileReport.toSection (f : FileReport) : TableSection where
  name := f.name.toList
  status := if f.rows = [] then "PASS".toList else "FAIL".toList
  lines := (f.rows.mergeSort Row.notAfter).map (Row.print false)

/-- The table on texts. -/
def TableView.ofReports (files : List FileReport) : TableView where
  sections := files.map FileReport.toSection
  passed := files.countP fun f => f.rows = []
  failed := files.countP fun f => f.rows ≠ []
  violations := (files.flatMap FileReport.rows).length

theorem FileReport.print_eq (f : FileReport) : f.print false = f.toSection.print := by
  unfold FileReport.print TableSection.print toSection passes paint
  cases f.rows <;> simp [List.flatMap_def]

theorem passes_eq (f : FileReport) : f.passes = decide (f.rows = []) := by
  unfold FileReport.passes
  cases f.rows <;> rfl

theorem failedCount_eq (files : List FileReport) :
    failedCount files = (TableView.ofReports files).failed := by
  unfold failedCount TableView.ofReports
  simp only [passes_eq, decide_not]

theorem passed_add_failed (files : List FileReport) :
    (TableView.ofReports files).passed + (TableView.ofReports files).failed = files.length := by
  rw [List.length_eq_countP_add_countP fun f : FileReport => decide (f.rows = [])]
  simp [TableView.ofReports]

theorem length_sub_failedCount (files : List FileReport) :
    files.length - failedCount files = (TableView.ofReports files).passed := by
  have hsum := passed_add_failed files
  rw [failedCount_eq]
  omega

theorem table_eq_print (nanos : Nat) (files : List FileReport) :
    table false nanos files = (TableView.ofReports files).print nanos := by
  have hsections : files.flatMap (FileReport.print false) =
      (TableView.ofReports files).sections.flatMap TableSection.print := by
    unfold TableView.ofReports
    rw [List.flatMap_map]
    exact List.flatMap_congr fun f _ => f.print_eq
  unfold table TableView.print
  dsimp only
  rw [length_sub_failedCount, hsections, failedCount_eq]
  rfl

theorem endingLine_print (nanos : Nat) (t : TableView) :
    Command.endingLine (t.print nanos) = t.print nanos := by
  have hend : (t.print nanos).getLast? = some '\n' := by
    unfold TableView.print
    rw [List.getLast?_append]
    rfl
  unfold Command.endingLine
  rw [if_pos hend]

theorem ofReports_append (files more : List FileReport) :
    TableView.ofReports (files ++ more) =
      (TableView.ofReports files).append (TableView.ofReports more) := by
  unfold TableView.ofReports TableView.append
  simp only [List.map_append, List.countP_append, List.flatMap_append, List.length_append]

theorem failed_pos_iff (files : List FileReport) :
    0 < (TableView.ofReports files).failed ↔ ∃ f ∈ files, f.rows ≠ [] := by
  unfold TableView.ofReports
  rw [List.countP_pos_iff]
  simp

theorem status_eq_fail_iff (f : FileReport) : f.toSection.status = "FAIL".toList ↔ f.rows ≠ [] := by
  unfold FileReport.toSection
  split <;> simp_all

theorem length_lines (files : List FileReport) :
    ((TableView.ofReports files).sections.flatMap TableSection.lines).length =
      (TableView.ofReports files).violations := by
  unfold TableView.ofReports
  rw [List.flatMap_map, List.length_flatMap, List.length_flatMap]
  simp [FileReport.toSection]

/-! ## JSON -/

/-- A value as a report is written: on one line or laid out over lines. -/
def jsonText (compact : Bool) (j : Json) : List Char := if compact then j.compact else j.pretty 0

/-- The violations that an entry of a report tells. -/
def violationsIn? (entry : Json) : Option (List Json) :=
  (entry.get? "violations").bind Json.asArray?

theorem jsonReport_eq (compact : Bool) (files : List FileReport) :
    jsonReport compact files = jsonText compact (.array (files.map FileReport.toJson)) := rfl

theorem violationsIn?_toJson (f : FileReport) :
    violationsIn? f.toJson = some (f.rows.map Row.toJson) := by
  rfl

theorem exists_violation_iff (files : List FileReport) :
    (∃ entry ∈ files.map FileReport.toJson, ∃ list, violationsIn? entry = some list ∧ list ≠ []) ↔
      ∃ f ∈ files, f.rows ≠ [] := by
  simp only [List.mem_map, exists_exists_and_eq_and, violationsIn?_toJson, Option.some.injEq,
    exists_eq_left', ne_eq, List.map_eq_nil_iff]

theorem length_violations (files : List FileReport) :
    ((files.map FileReport.toJson).flatMap fun entry => (violationsIn? entry).getD []).length =
      (files.flatMap FileReport.rows).length := by
  rw [List.flatMap_map, List.length_flatMap, List.length_flatMap]
  simp [violationsIn?_toJson]

namespace Command

/-! ## Runs with the same task -/

/-- Runs with these options lint the same texts in the same way. How the report is written, where it
goes, and what is told on the way may differ. -/
structure Options.SameTask (o o' : Options) : Prop where
  paths : o.paths = o'.paths
  dialect : o.dialect = o'.dialect
  policy : o.policy = o'.policy
  ruleConfigs : o.ruleConfigs = o'.ruleConfigs
  excludedRules : o.excludedRules = o'.excludedRules

theorem Options.SameTask.linter_eq {o o' : Options} (h : o.SameTask o') : o.linter = o'.linter := by
  unfold Options.linter Options.config
  rw [h.ruleConfigs, h.policy, h.excludedRules]

/-- The exit code of a run and its report say the same about the issues of the texts. -/
structure Outcome.Agrees (out : Outcome) (o : Options) (nanos : Nat) (l : Linter)
    (sources : List Source) : Prop where
  exit_eq_one_iff : out.exit = 1 ↔ ∃ s ∈ sources, (l.lint o.dialect s.text).issues ≠ []
  exit_eq_zero_iff : out.exit = 0 ↔ ∀ s ∈ sources, (l.lint o.dialect s.text).issues = []
  table : o.format = .table → ∃ t : TableView, out.report? o = some (t.print nanos) ∧
    t.sections = sources.map (fun s => (s.report l o.dialect).toSection) ∧
    (out.exit = 1 ↔ 0 < t.failed) ∧
    (out.exit = 1 ↔ ∃ part ∈ t.sections, part.status = "FAIL".toList) ∧
    t.passed + t.failed = sources.length ∧
    t.violations = (t.sections.flatMap TableSection.lines).length ∧
    t.violations = (sources.flatMap fun s => (l.lint o.dialect s.text).issues).length
  json : o.format = .json → ∃ entries : List Json,
    out.report? o = some (o.delivered (jsonText o.compact (.array entries))) ∧
    entries = sources.map (fun s => (s.report l o.dialect).toJson) ∧
    (out.exit = 1 ↔ ∃ entry ∈ entries, ∃ list, violationsIn? entry = some list ∧ list ≠ []) ∧
    (entries.flatMap fun entry => (violationsIn? entry).getD []).length =
      (sources.flatMap fun s => (l.lint o.dialect s.text).issues).length

theorem rows_report_ne_nil_iff {l : Linter} {d : Dialect} {s : Source} :
    (s.report l d).rows ≠ [] ↔ (l.lint d s.text).issues ≠ [] := by
  unfold Source.report Source.issues
  simp

theorem exists_rows_iff {l : Linter} {d : Dialect} {sources : List Source} :
    (∃ f ∈ sources.map (Source.report l d), f.rows ≠ []) ↔
      ∃ s ∈ sources, (l.lint d s.text).issues ≠ [] := by
  simp only [List.mem_map, exists_exists_and_eq_and, rows_report_ne_nil_iff]

theorem hasViolations_iff {findings : Findings} :
    findings.hasViolations = true ↔ ∃ f ∈ findings.files, f.rows ≠ [] := by
  unfold Findings.hasViolations
  simp [passes_eq]

theorem exit_eq_one_iff {findings : Findings} :
    findings.exit = 1 ↔ ∃ f ∈ findings.files, f.rows ≠ [] := by
  rw [← hasViolations_iff]
  unfold Findings.exit
  cases findings.hasViolations <;> simp

theorem exit_eq_zero_iff {findings : Findings} :
    findings.exit = 0 ↔ ¬∃ f ∈ findings.files, f.rows ≠ [] := by
  rw [← hasViolations_iff]
  unfold Findings.exit
  cases findings.hasViolations <;> simp

theorem length_rows_report (l : Linter) (d : Dialect) (sources : List Source) :
    ((sources.map (Source.report l d)).flatMap FileReport.rows).length =
      (sources.flatMap fun s => (l.lint d s.text).issues).length := by
  rw [List.flatMap_map, List.length_flatMap, List.length_flatMap]
  simp [Source.report, Source.issues]

section Reports

variable {o : Options} {files : Files} {input : ByteArray} {nanos : Nat} {l : Linter}
  {sources : List Source}

/-- A run with a linter and texts fails only if its report cannot be written. -/
theorem exit_ne_failureExit_iff (hlinter : o.linter = .ok l)
    (hread : readSources files.find input o.paths = .ok sources) :
    (run o files input nanos).exit ≠ failureExit ↔ o.CanWrite files :=
  ⟨fun h => (exists_findings h).1, fun hwrite =>
    exit_of_examine (examine_eq_ok_iff.2 ⟨l, sources, hlinter, hread, rfl⟩) hwrite nanos⟩

theorem outcome_of_sources (hlinter : o.linter = .ok l)
    (hread : readSources files.find input o.paths = .ok sources)
    (h : (run o files input nanos).exit ≠ failureExit) :
    (run o files input nanos).exit = (o.findings l sources).exit ∧
      (run o files input nanos).stderr = String.join (o.findings l sources).warnings ∧
      (run o files input nanos).report? o =
        some (o.delivered ((o.findings l sources).report o false nanos)) := by
  obtain ⟨-, findings, hexamine, hrest⟩ := exists_findings h
  have hfindings := examine_eq_ok_iff.2 ⟨l, sources, hlinter, hread, rfl⟩
  rw [hexamine] at hfindings
  cases hfindings
  exact hrest

theorem delivered_table (hformat : o.format = .table) (nanos : Nat) (findings : Findings) :
    o.delivered (findings.report o false nanos) =
      (TableView.ofReports findings.files).print nanos := by
  unfold Options.delivered Findings.report
  rw [hformat]
  dsimp only
  rw [table_eq_print, endingLine_print, ite_self]

theorem report_json (hformat : o.format = .json) (nanos : Nat) (findings : Findings) :
    findings.report o false nanos =
      jsonText o.compact (.array (findings.files.map FileReport.toJson)) := by
  unfold Findings.report
  rw [hformat]
  exact jsonReport_eq _ _

theorem agrees_of_sources (hlinter : o.linter = .ok l)
    (hread : readSources files.find input o.paths = .ok sources)
    (h : (run o files input nanos).exit ≠ failureExit) :
    (run o files input nanos).Agrees o nanos l sources := by
  obtain ⟨hexit, -, hreport⟩ := outcome_of_sources hlinter hread h
  have hfiles : (o.findings l sources).files = sources.map (Source.report l o.dialect) := rfl
  refine ⟨?_, ?_, fun hformat => ?_, fun hformat => ?_⟩
  · rw [hexit, exit_eq_one_iff, hfiles, exists_rows_iff]
  · rw [hexit, exit_eq_zero_iff, hfiles, exists_rows_iff]
    simp
  · rw [delivered_table hformat] at hreport
    refine ⟨_, hreport, ?_, ?_, ?_, ?_, ?_, ?_⟩
    · exact List.map_map
    · rw [hexit, exit_eq_one_iff, failed_pos_iff]
    · rw [hexit, exit_eq_one_iff]
      simp only [TableView.ofReports, List.mem_map, exists_exists_and_eq_and, status_eq_fail_iff]
    · rw [passed_add_failed, hfiles, List.length_map]
    · exact (length_lines _).symm
    · exact length_rows_report l o.dialect sources
  · rw [report_json hformat] at hreport
    refine ⟨_, hreport, ?_, ?_, ?_⟩
    · exact List.map_map
    · rw [hexit, exit_eq_one_iff, exists_violation_iff]
    · rw [length_violations]
      exact length_rows_report l o.dialect sources

end Reports

/-- A run that does not fail has the exit code 1 if some text has an issue and 0 otherwise, and its
report says the same. So does every other run with the same task, whatever its report looks like,
unless the file for the report cannot be written. -/
theorem exit_code_agrees_with_reports {arguments : List String} {o : Options}
    (ho : Options.ofArguments arguments = .ok o) {files : Files} {input : ByteArray} {nanos : Nat}
    (h : (runArguments arguments files input nanos).exit ≠ 66) :
    ∃ l sources, o.linter = .ok l ∧ readSources files.find input o.paths = .ok sources ∧
      (runArguments arguments files input nanos).Agrees o nanos l sources ∧
      ∀ arguments' o' nanos', Options.ofArguments arguments' = .ok o' → o.SameTask o' →
        ((runArguments arguments' files input nanos').exit ≠ 66 ↔ o'.CanWrite files) ∧
        ((runArguments arguments' files input nanos').exit ≠ 66 →
          (runArguments arguments' files input nanos').exit =
            (runArguments arguments files input nanos).exit ∧
          (runArguments arguments' files input nanos').Agrees o' nanos' l sources) := by
  rw [runArguments_of_ok ho] at h ⊢
  obtain ⟨-, findings, hexamine, -⟩ := exists_findings h
  obtain ⟨l, sources, hlinter, hread, -⟩ := examine_eq_ok_iff.1 hexamine
  refine ⟨l, sources, hlinter, hread, agrees_of_sources hlinter hread h, ?_⟩
  intro arguments' o' nanos' ho' hsame
  rw [runArguments_of_ok ho']
  have hlinter' : o'.linter = .ok l := hsame.linter_eq ▸ hlinter
  have hread' : readSources files.find input o'.paths = .ok sources := hsame.paths ▸ hread
  refine ⟨exit_ne_failureExit_iff hlinter' hread', fun h' => ⟨?_, ?_⟩⟩
  · rw [(outcome_of_sources hlinter hread h).1, (outcome_of_sources hlinter' hread' h').1]
    unfold Findings.exit Findings.hasViolations Options.findings
    rw [hsame.dialect]
  · exact agrees_of_sources hlinter' hread' h'

/-- A file that is no SQL, and one that is. -/
def brokenAndSound : Files where
  root := .directory [("a.sql", .file "SELECT )".toUTF8), ("b.sql", .file "SELECT a FROM t".toUTF8)]

theorem readSources_brokenAndSound :
    readSources brokenAndSound.find .empty ["a.sql", "b.sql"] =
      .ok [⟨"a.sql", "SELECT )".toList⟩, ⟨"b.sql", "SELECT a FROM t".toList⟩] := by
  rfl

set_option maxRecDepth 100000 in
theorem issues_of_broken (l : Linter) : (l.lint .generic "SELECT )".toList).issues ≠ [] := by
  have hrefused : (parse .generic "SELECT )".toList).toBool = false := by decide +kernel
  unfold Linter.lint
  cases hparse : parse .generic "SELECT )".toList with
  | ok statements =>
    rw [hparse] at hrefused
    cases hrefused
  | error e => exact List.cons_ne_nil _ _

set_option maxRecDepth 100000 in
theorem brokenAndSound_exit_codes :
    (runArguments ["a.sql", "b.sql"] brokenAndSound .empty 0).exit = 1 ∧
      (runArguments ["-q", "-f", "json", "-o", "r.json", "a.sql", "b.sql"] brokenAndSound .empty
        5).exit = 1 := by
  have hplain : Options.ofArguments ["a.sql", "b.sql"] = .ok { paths := ["a.sql", "b.sql"] } := by
    decide +kernel
  have hquiet : Options.ofArguments ["-q", "-f", "json", "-o", "r.json", "a.sql", "b.sql"] =
      .ok { paths := ["a.sql", "b.sql"], format := .json, output := some "r.json",
            quiet := true } := by
    decide +kernel
  obtain ⟨l, hlinter⟩ : ∃ l, Options.linter { paths := ["a.sql", "b.sql"] } = .ok l := ⟨_, rfl⟩
  have hruns : (runArguments ["a.sql", "b.sql"] brokenAndSound .empty 0).exit ≠ 66 := by
    rw [runArguments_of_ok hplain]
    refine (exit_ne_failureExit_iff hlinter readSources_brokenAndSound).2 fun path hpath => ?_
    cases hpath
  obtain ⟨l', sources, -, hread, hagrees, hother⟩ := exit_code_agrees_with_reports hplain hruns
  cases readSources_brokenAndSound.symm.trans hread
  have hexit := hagrees.exit_eq_one_iff.2 ⟨_, List.mem_cons_self, issues_of_broken l'⟩
  obtain ⟨hwrites, hsame⟩ := hother _ _ 5 hquiet ⟨rfl, rfl, rfl, rfl, rfl⟩
  refine ⟨hexit, ((hsame (hwrites.2 fun path hpath => ?_)).1).trans hexit⟩
  cases hpath
  exact ⟨[], "r.json", ⟨[], by decide, rfl⟩, by decide, _, rfl, fun inner hinner => by cases hinner⟩

end Command

end ColumnLint
