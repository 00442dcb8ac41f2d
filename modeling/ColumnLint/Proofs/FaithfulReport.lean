import ColumnLint.Proofs.JsonReading
import ColumnLint.Proofs.ReportAgreement
import ColumnLint.Proofs.WireRoundTrip

/-
  Reports tell what they are made from. Either layout of a JSON report is a text by the rules of
  JSON, and reading it gives one value, from which the texts' names and rows are recovered
  (`reportsIn?`). The table lists the same rows for each text, by line and column, those of one place
  in the order that they have in the report (`StablySorted`).
-/

namespace ColumnLint

open Text

/-! ## Reports read back -/

/-- Lines and columns have 64 bits. -/
def FileReport.Sized (f : FileReport) : Prop :=
  ∀ r ∈ f.rows, r.line < Nat.pow 2 64 ∧ r.column < Nat.pow 2 64

/-- The row that a violation of a report tells. The name of its rule goes with the code. -/
def Row.ofJson? (j : Json) : Option Row := do
  return {
    line := ← requiredField Json.asNat64? j "line"
    column := ← requiredField Json.asNat64? j "column"
    code := ← requiredField Json.asString? j "code"
    message := ← requiredField Json.asString? j "message"
    severity := ← requiredField Severity.ofJson? j "severity" }

def FileReport.ofJson? (j : Json) : Option FileReport := do
  return {
    name := ← requiredField Json.asString? j "file"
    rows := ← (violationsIn? j).bind (List.mapM Row.ofJson?) }

/-- The texts that a report tells, with their rows. -/
def reportsIn? (j : Json) : Option (List FileReport) :=
  j.asArray?.bind (List.mapM FileReport.ofJson?)

theorem Row.ofJson?_toJson {r : Row} (hline : r.line < Nat.pow 2 64)
    (hcolumn : r.column < Nat.pow 2 64) : Row.ofJson? r.toJson = some r := by
  have hreadLine : requiredField Json.asNat64? r.toJson "line" = some r.line :=
    asNat64?_ofNat hline
  have hreadColumn : requiredField Json.asNat64? r.toJson "column" = some r.column :=
    asNat64?_ofNat hcolumn
  have hseverity : requiredField Severity.ofJson? r.toJson "severity" = some r.severity :=
    Severity.ofJson?_word r.severity
  unfold Row.ofJson?
  rw [hreadLine, hreadColumn, hseverity]
  rfl

theorem FileReport.ofJson?_toJson {f : FileReport} (h : f.Sized) :
    FileReport.ofJson? f.toJson = some f := by
  have hrows : (f.rows.map Row.toJson).mapM Row.ofJson? = some f.rows :=
    mapM_read_map fun r hr => Row.ofJson?_toJson (h r hr).1 (h r hr).2
  unfold FileReport.ofJson?
  rw [violationsIn?_toJson, Option.bind_some, hrows]
  rfl

theorem reportsIn?_toJson {files : List FileReport} (h : ∀ f ∈ files, f.Sized) :
    reportsIn? (.array (files.map FileReport.toJson)) = some files :=
  mapM_read_map fun f hf => FileReport.ofJson?_toJson (h f hf)

/-! ## Reports as texts -/

theorem Row.plain_toJson {r : Row} (hline : r.line < Nat.pow 2 64)
    (hcolumn : r.column < Nat.pow 2 64) (depth : Nat) : Json.Plain (depth + 1) r.toJson := by
  have hnames : ["line", "column", "code", "name", "message", "severity"].Nodup := by decide
  refine ⟨hnames, fun f hf => Json.plain_of_scalar ?_ depth⟩
  simp only [List.mem_cons, List.not_mem_nil, or_false] at hf
  rcases hf with rfl | rfl | rfl | rfl | rfl | rfl
  · exact .natural hline
  · exact .natural hcolumn
  · exact .string r.code
  · dsimp only
    split
    · exact .string _
    · exact .null
  · exact .string r.message
  · exact .string r.severity.word

theorem FileReport.plain_toJson {f : FileReport} (h : f.Sized) (depth : Nat) :
    Json.Plain (depth + 3) f.toJson := by
  have hnames : ["file", "violations"].Nodup := by decide
  refine ⟨hnames, List.forall_mem_cons.2 ⟨Json.plain_of_scalar (.string f.name) _,
    List.forall_mem_singleton.2 fun j hj => ?_⟩⟩
  obtain ⟨r, hr, rfl⟩ := List.mem_map.1 hj
  exact Row.plain_toJson (h r hr).1 (h r hr).2 depth

theorem plain_report {files : List FileReport} (h : ∀ f ∈ files, f.Sized) :
    Json.Plain Json.maxDepth (.array (files.map FileReport.toJson)) := by
  intro j hj
  obtain ⟨f, hf, rfl⟩ := List.mem_map.1 hj
  exact FileReport.plain_toJson (h f hf) 123

theorem written_jsonReport {files : List FileReport} (h : ∀ f ∈ files, f.Sized) (compact : Bool) :
    Json.Written Json.maxDepth (.array (files.map FileReport.toJson)) (jsonReport compact files) := by
  rw [jsonReport_eq]
  cases compact with
  | true => exact Json.written_compact (plain_report h)
  | false => exact Json.written_pretty (plain_report h) 0

theorem read_jsonReport {files : List FileReport} (h : ∀ f ∈ files, f.Sized) (compact : Bool) :
    Json.read (jsonReport compact files) = .ok (.array (files.map FileReport.toJson)) :=
  Json.read_of_written (written_jsonReport h compact)

/-- A report is told apart from any other, however the two are laid out. -/
theorem eq_of_jsonReport_eq {files others : List FileReport} (h : ∀ f ∈ files, f.Sized)
    (hothers : ∀ f ∈ others, f.Sized) {compact compact' : Bool}
    (heq : jsonReport compact files = jsonReport compact' others) : files = others := by
  have hread := read_jsonReport h compact
  rw [heq, read_jsonReport hothers compact'] at hread
  have hfiles := reportsIn?_toJson h
  rw [← Except.ok.inj hread, reportsIn?_toJson hothers] at hfiles
  exact (Option.some.inj hfiles).symm

/-! ## Rows of the table -/

/-- A listing has the rows, by line and column, and those of one place in their order. -/
structure StablySorted (rows listed : List Row) : Prop where
  perm : listed.Perm rows
  sorted : listed.Pairwise fun a b => a.line < b.line ∨ (a.line = b.line ∧ a.column ≤ b.column)
  stable (line column : Nat) :
    listed.filter (fun r => r.line == line && r.column == column) =
      rows.filter (fun r => r.line == line && r.column == column)

theorem Row.notAfter_iff {a b : Row} :
    a.notAfter b = true ↔ a.line < b.line ∨ (a.line = b.line ∧ a.column ≤ b.column) := by
  simp [Row.notAfter]

theorem Row.notAfter_trans (a b c : Row) (hab : a.notAfter b = true) (hbc : b.notAfter c = true) :
    a.notAfter c = true := by
  rw [Row.notAfter_iff] at hab hbc ⊢
  omega

theorem Row.notAfter_total (a b : Row) : (a.notAfter b || b.notAfter a) = true := by
  rw [Bool.or_eq_true, Row.notAfter_iff, Row.notAfter_iff]
  omega

theorem stablySorted_mergeSort (rows : List Row) :
    StablySorted rows (rows.mergeSort Row.notAfter) where
  perm := List.mergeSort_perm ..
  sorted := (List.pairwise_mergeSort Row.notAfter_trans Row.notAfter_total rows).imp
    Row.notAfter_iff.1
  stable line column := by
    refine filter_mergeSort Row.notAfter_trans Row.notAfter_total ?_
    refine List.pairwise_filter.2 (List.pairwise_of_forall fun a b ha hb => ?_)
    simp only [Bool.and_eq_true, beq_iff_eq] at ha hb
    rw [Row.notAfter_iff]
    omega

/-- The line that opens the section of a text. -/
def FileReport.heading (colored : Bool) (f : FileReport) : List Char :=
  "== [".toList ++ f.name.toList ++ "] ".toList ++
    (if f.rows = [] then paint colored .green "PASS".toList
      else paint colored .red "FAIL".toList) ++ ['\n']

/-- The lines behind the sections. -/
def closingLines (colored : Bool) (nanos passed failed violations : Nat) : List Char :=
  "All Finished in ".toList ++ elapsed nanos ++ "!\n  ".toList ++
    paint colored .green (fileCount passed) ++ " passed. ".toList ++
    paint colored .red (fileCount failed) ++ " failed. ".toList ++
    (toString violations).toList ++ " violations found.\n".toList

theorem FileReport.print_eq_heading (colored : Bool) (f : FileReport) :
    f.print colored =
      f.heading colored ++ (f.rows.mergeSort Row.notAfter).flatMap (Row.print colored) := by
  unfold FileReport.print FileReport.heading
  rw [passes_eq]
  simp

theorem table_eq_sections (colored : Bool) (nanos : Nat) (files : List FileReport) :
    table colored nanos files = files.flatMap (fun f =>
        f.heading colored ++ (f.rows.mergeSort Row.notAfter).flatMap (Row.print colored)) ++
      closingLines colored nanos (TableView.ofReports files).passed
        (TableView.ofReports files).failed (TableView.ofReports files).violations := by
  have hsections : files.flatMap (FileReport.print colored) = files.flatMap (fun f =>
      f.heading colored ++ (f.rows.mergeSort Row.notAfter).flatMap (Row.print colored)) :=
    List.flatMap_congr fun f _ => f.print_eq_heading colored
  unfold table closingLines
  dsimp only
  rw [length_sub_failedCount, hsections, failedCount_eq]
  simp only [List.append_assoc]
  rfl

/-! ## Faithful reports -/

/-- Both layouts of a JSON report are JSON and read as one value, which gives back every name and
row, so that reports on other texts or rows differ. The one on one line has no line break. The table
lists the same rows for each text, sorted stably by line and column. -/
theorem json_report_is_faithful {files : List FileReport} (h : ∀ f ∈ files, f.Sized) :
    (∃ j, (∀ compact, Json.Written Json.maxDepth j (jsonReport compact files) ∧
        Json.read (jsonReport compact files) = .ok j) ∧ reportsIn? j = some files) ∧
      (∀ others : List FileReport, (∀ f ∈ others, f.Sized) → others ≠ files →
        ∀ compact compact', jsonReport compact files ≠ jsonReport compact' others) ∧
      '\n' ∉ jsonReport true files ∧
      ∀ colored nanos, ∃ listing : FileReport → List Row,
        (∀ f ∈ files, StablySorted f.rows (listing f)) ∧
        table colored nanos files =
          files.flatMap (fun f => f.heading colored ++ (listing f).flatMap (Row.print colored)) ++
            closingLines colored nanos (files.countP fun f => f.rows = [])
              (files.countP fun f => f.rows ≠ []) (files.flatMap FileReport.rows).length := by
  refine ⟨⟨.array (files.map FileReport.toJson), fun compact => ?_, reportsIn?_toJson h⟩,
    fun others hothers hne compact compact' heq => ?_, ?_, fun colored nanos => ?_⟩
  · exact ⟨written_jsonReport h compact, read_jsonReport h compact⟩
  · exact hne (eq_of_jsonReport_eq h hothers heq).symm
  · exact Json.newline_not_mem_compact (plain_report h)
  · exact ⟨fun f => f.rows.mergeSort Row.notAfter, fun f _ => stablySorted_mergeSort f.rows,
      table_eq_sections colored nanos files⟩

/-- Two rows of one place out of order with a third, characters that need escapes, and a text without
rows. -/
def oddReports : List FileReport :=
  [⟨"a \"b\"\\.sql", [⟨2, 5, "X1", "tab\tbell\x07", .error⟩, ⟨1, 3, "LINT_RF_003", "\n", .info⟩,
    ⟨2, 5, "X1", "é", .warning⟩]⟩, ⟨"", []⟩]

/-- The same report, but that the message spells out the escape of its last character. -/
def spelledReports : List FileReport :=
  [⟨"a \"b\"\\.sql", [⟨2, 5, "X1", "tab\tbell\\u0007", .error⟩, ⟨1, 3, "LINT_RF_003", "\n", .info⟩,
    ⟨2, 5, "X1", "é", .warning⟩]⟩, ⟨"", []⟩]

theorem oddReports_told_apart :
    (∀ f ∈ oddReports, f.Sized) ∧
      (∃ j, (∀ compact, Json.read (jsonReport compact oddReports) = .ok j) ∧
        reportsIn? j = some oddReports) ∧
      jsonReport false oddReports ≠ jsonReport true spelledReports ∧
      '\n' ∉ jsonReport true oddReports ∧ '\n' ∈ jsonReport false oddReports := by
  have hsized : ∀ f ∈ oddReports, f.Sized := by
    unfold oddReports FileReport.Sized
    decide
  have hspelled : ∀ f ∈ spelledReports, f.Sized := by
    unfold spelledReports FileReport.Sized
    decide
  obtain ⟨⟨j, hj, hback⟩, hother, hline, -⟩ := json_report_is_faithful hsized
  exact ⟨hsized, ⟨j, fun compact => (hj compact).2, hback⟩,
    hother spelledReports hspelled (by decide) false true, hline, by decide⟩

end ColumnLint
