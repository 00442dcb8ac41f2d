import ColumnLint.Proofs.Verdict
import Mathlib.Data.List.Basic

/-
  Linting a text is linting its statements one by one. The issues of a statement carry its number,
  so statements whose numbers go up have their issues in order one behind the other, and no issue
  repeats one of another statement (`normalize_flatMap`). What comments suppress in a statement is
  decided by that statement alone (`suppresses_ofText`). So the issues of a document are those of
  its statements (`checkDocument_eq_flatMap`).
-/

namespace ColumnLint

open Text Sql

/-- The numbers of the statements go up. -/
def Ascending (entries : List Entry) : Prop := entries.Pairwise fun a b => a.index < b.index

/-! ## Issues of several statements -/

namespace Issue

variable {a b : Issue} {m n : Nat}

/-- An issue of an earlier statement comes first. -/
theorem isLE_order_of_lt (ha : a.statementIndex = some m) (hb : b.statementIndex = some n)
    (h : m < n) : (a.order b).isLE = true := by
  have hcompare : compare m n = .lt := Nat.compare_eq_lt.2 h
  simp [order, ha, hb, hcompare]

theorem repeats_of_lt (ha : a.statementIndex = some m) (hb : b.statementIndex = some n)
    (h : m < n) : a.repeats b = false := by
  have hne : m ≠ n := by omega
  simp [repeats, ha, hb, hne]

end Issue

theorem normalize_flatMap {f : Entry → List Issue} {entries : List Entry}
    (hindex : ∀ e ∈ entries, ∀ i ∈ f e, i.statementIndex = some e.index)
    (h : Ascending entries) :
    normalize (entries.flatMap f) = entries.flatMap fun e => normalize (f e) := by
  induction entries with
  | nil => simp [normalize]
  | cons e entries ih =>
    obtain ⟨hfirst, hrest⟩ := List.pairwise_cons.1 h
    have hlater : ∀ b ∈ entries.flatMap f, ∃ n, b.statementIndex = some n ∧ e.index < n := by
      intro b hb
      obtain ⟨e', he', hb⟩ := List.mem_flatMap.1 hb
      exact ⟨e'.index, hindex e' (List.mem_cons_of_mem _ he') b hb, hfirst e' he'⟩
    have hown : ∀ a ∈ f e, a.statementIndex = some e.index := hindex e List.mem_cons_self
    rw [List.flatMap_cons, List.flatMap_cons, normalize_append,
      ih (fun e' he' => hindex e' (List.mem_cons_of_mem _ he')) hrest]
    · intro a ha b hb
      obtain ⟨n, hn, hlt⟩ := hlater b hb
      exact Issue.isLE_order_of_lt (hown a ha) hn hlt
    · intro a ha b hb
      obtain ⟨n, hn, hlt⟩ := hlater b hb
      exact Issue.repeats_of_lt (hown a ha) hn hlt

/-! ## Suppression in one statement -/

theorem find?_of_ascending {entries : List Entry} (h : Ascending entries) {e : Entry}
    (he : e ∈ entries) : entries.find? (fun x => x.index == e.index) = some e := by
  induction entries with
  | nil => cases he
  | cons x entries ih =>
    obtain ⟨hfirst, hrest⟩ := List.pairwise_cons.1 h
    rcases List.mem_cons.1 he with rfl | he
    · simp
    · have hlt := hfirst e he
      have hne : (x.index == e.index) = false := by
        rw [beq_eq_false_iff_ne]
        omega
      rw [List.find?_cons, hne]
      exact ih hrest he

/-- For an issue of a statement the other statements do not matter. -/
theorem suppresses_ofText (d : Dialect) (text : List Char) {entries : List Entry}
    (h : Ascending entries) {e : Entry} (he : e ∈ entries) {i : Issue}
    (hi : i.statementIndex = some e.index) :
    (Document.ofText d text entries).suppresses i = (Document.ofText d text [e]).suppresses i := by
  have hline : (Document.ofText d text entries).lineOf? i =
      (Document.ofText d text [e]).lineOf? i := by
    unfold Document.lineOf?
    rw [hi]
    cases i.span with
    | some s => rfl
    | none => simp [Document.ofText, find?_of_ascending h he]
  unfold Document.suppresses
  rw [hline]
  rfl

namespace Linter

/-- The issues that are raised in a document are those raised in its statements. -/
theorem raised_ofText (l : Linter) (d : Dialect) (text : List Char) (entries : List Entry) :
    l.raised (Document.ofText d text entries) =
      entries.flatMap fun e => l.raised (Document.ofText d text [e]) := by
  unfold raised rules
  simp only [Rule.all, List.filter_cons, List.filter_nil]
  split
  · simp [Document.ofText]
  · simp

theorem statementIndex_of_mem_raised {l : Linter} {d : Dialect} {text : List Char} {e : Entry}
    {i : Issue} (h : i ∈ l.raised (Document.ofText d text [e])) :
    i.statementIndex = some e.index := by
  obtain ⟨e', he', placed, -, -, r, -, rfl⟩ := exists_breaks_of_mem_raised h
  obtain rfl := List.mem_singleton.1 he'
  rfl

theorem checkDocument_eq_flatMap (l : Linter) (d : Dialect) (text : List Char)
    {entries : List Entry} (h : Ascending entries) :
    l.checkDocument (Document.ofText d text entries) =
      entries.flatMap (l.checkStatement d text) := by
  unfold checkStatement checkDocument
  cases l.config.enabled with
  | false => simp
  | true =>
    simp only [if_true]
    have hfilter : (l.raised (Document.ofText d text entries)).filter
        (fun i => !(Document.ofText d text entries).suppresses i) =
        entries.flatMap fun e => (l.raised (Document.ofText d text [e])).filter
          fun i => !(Document.ofText d text [e]).suppresses i := by
      rw [raised_ofText, List.filter_flatMap]
      apply List.flatMap_congr
      intro e he
      apply List.filter_congr
      intro i hi
      rw [suppresses_ofText d text h he (statementIndex_of_mem_raised hi)]
    rw [hfilter, normalize_flatMap _ h]
    intro e _ i hi
    exact statementIndex_of_mem_raised (List.mem_filter.1 hi).1

theorem ascending_entriesOf (text : List Char) (statements : List Statement) :
    Ascending (entriesOf text statements) := by
  have hnumbers : (statements.zipIdx.map Prod.snd).Pairwise (· < ·) := by
    rw [List.zipIdx_map_snd]
    exact List.pairwise_lt_range'
  unfold Ascending entriesOf
  rw [List.pairwise_map]
  exact List.pairwise_map.1 hnumbers

/-- Linting a text gives the issues of its statements one after the other, and so does checking
any statements of a text whose numbers go up. -/
theorem lint_issues_eq_flatMap (l : Linter) (d : Dialect) (text : List Char) :
    (∀ statements, parse d text = .ok statements →
      (l.lint d text).issues = statements.zipIdx.flatMap fun (s, n) =>
        l.checkStatement d text ⟨s, n, statementRange text s⟩) ∧
    ∀ entries : List Entry, (entries.Pairwise fun a b => a.index < b.index) →
      l.checkDocument (Document.ofText d text entries) =
        entries.flatMap (l.checkStatement d text) := by
  refine ⟨fun statements hparse => ?_, fun entries => l.checkDocument_eq_flatMap d text⟩
  rw [lint_issues_of_parse hparse, checkDocument_eq_flatMap l d text (ascending_entriesOf ..)]
  unfold entriesOf
  rw [List.flatMap_map]

/-- A text of two statements, and a document that holds one of them twice, as the statements 3
and 7. -/
theorem lint_mixedTwice_statementwise :
    ∃ statements s, parse .generic mixedTwice = .ok statements ∧ statements[1]? = some s ∧
      (lint ⟨{}, .consistent⟩ .generic mixedTwice).issues =
        (statements.zipIdx.flatMap fun (s, n) =>
          checkStatement ⟨{}, .consistent⟩ .generic mixedTwice
            ⟨s, n, statementRange mixedTwice s⟩) ∧
      checkDocument ⟨{}, .consistent⟩
          (.ofText .generic mixedTwice [⟨s, 3, ⟨31, 51⟩⟩, ⟨s, 7, ⟨31, 51⟩⟩]) =
        checkStatement ⟨{}, .consistent⟩ .generic mixedTwice ⟨s, 3, ⟨31, 51⟩⟩ ++
          checkStatement ⟨{}, .consistent⟩ .generic mixedTwice ⟨s, 7, ⟨31, 51⟩⟩ := by
  obtain ⟨statements, s, p, hparse, hs, -, -⟩ := exists_of_someSelect mixedTwice_parses
  obtain ⟨hlint, hdocument⟩ :=
    lint_issues_eq_flatMap ⟨{}, .consistent⟩ .generic mixedTwice
  refine ⟨statements, s, hparse, hs, hlint statements hparse, ?_⟩
  rw [hdocument _ (by simp)]
  simp

end Linter

end ColumnLint
