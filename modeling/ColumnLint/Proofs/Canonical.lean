import ColumnLint.Proofs.FaithfulSpan
import ColumnLint.Proofs.Statementwise
import Mathlib.Data.List.Nodup
import Mathlib.Data.List.Perm.Basic

/-
  The list of issues of a document. Issues that rules raise are told apart by what they are sorted
  by, as long as no place reaches the number that stands for a missing one (`eq_of_order_eq`). So a
  sorted list of them is known from how often each of them is in it (`eq_of_count_eq`), and a normal
  form has an issue with a place once and one without a place as often as it was there
  (`count_normalize`). From these two facts follow what the list of a document holds and in which
  order, that the order of the entries does not matter, and that comments only take issues out.
-/

namespace ColumnLint

open Text Sql

namespace Issue

/-- An issue as rules raise it: it has a statement, is not assigned to a source, and its place
starts below the number that stands for a missing one. -/
structure Regular (i : Issue) : Prop where
  statement : ∃ n, i.statementIndex = some n
  source : i.sourceName = none
  place : ∀ s, i.span = some s → s.start < missingPlace

/-- A place is no later than another one; a missing place is the latest. -/
def PlaceLe : Option Span → Option Span → Prop
  | _, none => True
  | none, some _ => False
  | some s, some t => s.start < t.start ∨ s.start = t.start ∧ s.stop ≤ t.stop

/-- An issue may stand before another one: of statement, place, severity, code and message each
may only be greater if one before it is smaller. -/
structure MayPrecede (a b : Issue) : Prop where
  statement : ∃ m n, a.statementIndex = some m ∧ b.statementIndex = some n ∧ m ≤ n
  place : a.statementIndex = b.statementIndex → PlaceLe a.span b.span
  severity : a.statementIndex = b.statementIndex → a.span = b.span →
    a.severity.rank ≤ b.severity.rank
  code : a.statementIndex = b.statementIndex → a.span = b.span → a.severity = b.severity →
    a.code ≤ b.code
  message : a.statementIndex = b.statementIndex → a.span = b.span → a.severity = b.severity →
    a.code = b.code → a.message ≤ b.message

end Issue

/-! ## Issues that compare equal -/

theorem Severity.eq_of_rank_eq {a b : Severity} (h : a.rank = b.rank) : a = b := by
  cases a <;> cases b <;> simp_all [rank]

/-- Places that are not taken for missing ones are known from their ends. -/
theorem span_eq_of_getD_eq {s t : Option Span}
    (hs : ∀ x, s = some x → x.start < missingPlace) (ht : ∀ x, t = some x → x.start < missingPlace)
    (hstart : (s.map Span.start).getD missingPlace = (t.map Span.start).getD missingPlace)
    (hstop : (s.map Span.stop).getD missingPlace = (t.map Span.stop).getD missingPlace) :
    s = t := by
  cases s with
  | none =>
    cases t with
    | none => rfl
    | some y =>
      have hy := ht y rfl
      rw [Option.map_none, Option.getD_none, Option.map_some, Option.getD_some] at hstart
      omega
  | some x =>
    cases t with
    | none =>
      have hx := hs x rfl
      rw [Option.map_none, Option.getD_none, Option.map_some, Option.getD_some] at hstart
      omega
    | some y =>
      obtain ⟨start, stop⟩ := x
      obtain ⟨start', stop'⟩ := y
      obtain rfl : start = start' := hstart
      obtain rfl : stop = stop' := hstop
      rfl

namespace Issue

variable {a b : Issue} {xs ys : List Issue}

theorem eq_of_order_eq (ha : a.Regular) (hb : b.Regular) (h : a.order b = .eq) : a = b := by
  obtain ⟨⟨m, hm⟩, hasource, haplace⟩ := ha
  obtain ⟨⟨n, hn⟩, hbsource, hbplace⟩ := hb
  simp only [order, Ordering.then_eq_eq, Std.compare_eq_iff_eq] at h
  obtain ⟨hindex, hstart, hstop, hrank, hcode, hmessage⟩ := h
  have hspan := span_eq_of_getD_eq haplace hbplace hstart hstop
  have hseverity := Severity.eq_of_rank_eq hrank
  rw [hm, hn, Option.getD_some, Option.getD_some] at hindex
  obtain ⟨severity, code, message, span, index, source⟩ := a
  obtain ⟨severity', code', message', span', index', source'⟩ := b
  simp only [Issue.mk.injEq]
  refine ⟨hseverity, hcode, hmessage, hspan, ?_, ?_⟩
  · exact hm.trans (by rw [hindex]; exact hn.symm)
  · exact hasource.trans hbsource.symm

/-- The order of issues is an order on those that rules raise. -/
theorem eq_of_isLE_of_isLE (ha : a.Regular) (hb : b.Regular) (hab : (a.order b).isLE = true)
    (hba : (b.order a).isLE = true) : a = b := by
  apply eq_of_order_eq ha hb
  have hswap : b.order a = (a.order b).swap := Std.OrientedCmp.eq_swap
  rw [hswap] at hba
  cases horder : a.order b with
  | eq => rfl
  | lt => rw [horder] at hba; cases hba
  | gt => rw [horder] at hab; cases hab

/-- A sorted list is known from how often each issue is in it. -/
theorem eq_of_count_eq (hxs : ∀ i ∈ xs, i.Regular)
    (hsorted : xs.Pairwise fun a b => (a.order b).isLE = true)
    (hsorted' : ys.Pairwise fun a b => (a.order b).isLE = true)
    (hcount : ∀ i, xs.count i = ys.count i) : xs = ys := by
  have hperm : xs.Perm ys := List.perm_iff_count.2 hcount
  refine hperm.eq_of_pairwise (fun a b ha hb hab hba => ?_) hsorted hsorted'
  exact eq_of_isLE_of_isLE (hxs a ha) (hxs b (hperm.mem_iff.2 hb)) hab hba

/-! ## What the normal form keeps -/

theorem withoutRepeats_sublist (a : Issue) (rest : List Issue) :
    (a.withoutRepeats rest).Sublist (a :: rest) := by
  induction rest generalizing a with
  | nil => exact .refl _
  | cons b rest ih =>
    unfold withoutRepeats
    split
    · exact (ih a).trans (.cons_cons a (.cons b (.refl rest)))
    · exact .cons_cons a (ih b)

theorem repeats_self (h : a.span.isSome = true) : a.repeats a = true := by
  simp [repeats, h]

/-- In a sorted list an issue that does not repeat the next one has no equal behind it, unless it
has no place. -/
theorem not_mem_of_not_repeats {rest : List Issue} (hregular : ∀ i ∈ a :: b :: rest, i.Regular)
    (hsorted : (a :: b :: rest).Pairwise fun a b => (a.order b).isLE = true)
    (hrepeats : a.repeats b = false) (hspan : a.span.isSome = true) : a ∉ b :: rest := by
  intro hmem
  obtain ⟨hfirst, hrest⟩ := List.pairwise_cons.1 hsorted
  have hba : (b.order a).isLE = true := by
    rcases List.mem_cons.1 hmem with rfl | hmem
    · exact hfirst a List.mem_cons_self
    · exact (List.pairwise_cons.1 hrest).1 a hmem
  have hab : a = b :=
    eq_of_isLE_of_isLE (hregular a (by simp)) (hregular b (by simp))
      (hfirst b List.mem_cons_self) hba
  rw [← hab, repeats_self hspan] at hrepeats
  cases hrepeats

theorem count_withoutRepeats {rest : List Issue} (hregular : ∀ i ∈ a :: rest, i.Regular)
    (hsorted : (a :: rest).Pairwise fun a b => (a.order b).isLE = true) (i : Issue) :
    (a.withoutRepeats rest).count i =
      if i.span.isSome then min 1 ((a :: rest).count i) else (a :: rest).count i := by
  induction rest generalizing a with
  | nil =>
    have hle : [a].count i ≤ 1 := List.count_le_length
    unfold withoutRepeats
    split
    · omega
    · rfl
  | cons b rest ih =>
    unfold withoutRepeats
    split
    · rename_i hrepeats
      have hsource : a.sourceName = b.sourceName :=
        (hregular a (by simp)).source.trans (hregular b (by simp)).source.symm
      obtain rfl := eq_of_repeats hrepeats hsource
      have hspan : a.span.isSome = true := by
        simp only [repeats, Bool.and_eq_true] at hrepeats
        exact hrepeats.1.1.1.1.1.1
      rw [ih (fun x hx => hregular x (List.mem_cons_of_mem _ hx)) hsorted.tail]
      by_cases hi : a = i
      · subst hi
        simp only [hspan, if_true, List.count_cons_self]
        omega
      · simp only [List.count_cons_of_ne hi]
    · rename_i hrepeats
      rw [List.count_cons, List.count_cons (l := b :: rest),
        ih (fun x hx => hregular x (List.mem_cons_of_mem _ hx)) hsorted.tail]
      by_cases hi : a = i
      · subst hi
        split
        · rename_i hspan
          have hzero : (b :: rest).count a = 0 := List.count_eq_zero.2
            (not_mem_of_not_repeats hregular hsorted (by simpa using hrepeats) hspan)
          simp [hzero]
        · rfl
      · have hne : (a == i) = false := by simpa using hi
        simp [hne]

end Issue

section Normalize

variable {issues others : List Issue}

theorem normalize_sublist (issues : List Issue) :
    (normalize issues).Sublist (issues.mergeSort fun a b => (a.order b).isLE) := by
  unfold normalize
  split
  · exact List.nil_sublist _
  · rename_i a rest hsort
    rw [hsort]
    exact Issue.withoutRepeats_sublist a rest

theorem pairwise_normalize (issues : List Issue) :
    (normalize issues).Pairwise fun a b => (a.order b).isLE = true :=
  (List.pairwise_mergeSort Issue.isLE_order_trans Issue.isLE_order_total issues).sublist
    (normalize_sublist issues)

/-- An issue with a place is kept once, one without a place as often as it is there. -/
theorem count_normalize (h : ∀ i ∈ issues, i.Regular) (i : Issue) :
    (normalize issues).count i =
      if i.span.isSome then min 1 (issues.count i) else issues.count i := by
  have hperm := List.mergeSort_perm issues fun a b => (a.order b).isLE
  have hsorted := List.pairwise_mergeSort Issue.isLE_order_trans Issue.isLE_order_total issues
  rw [← hperm.count_eq i]
  unfold normalize
  split
  · rename_i hsort
    simp [hsort]
  · rename_i a rest hsort
    rw [hsort] at hsorted hperm ⊢
    exact Issue.count_withoutRepeats (fun x hx => h x (hperm.mem_iff.1 hx)) hsorted i

theorem regular_of_mem_normalize (h : ∀ i ∈ issues, i.Regular) :
    ∀ i ∈ normalize issues, i.Regular := fun i hi => h i (mem_of_mem_normalize hi)

theorem normalize_eq_of_perm (h : ∀ i ∈ issues, i.Regular) (hperm : issues.Perm others) :
    normalize issues = normalize others := by
  have hothers : ∀ i ∈ others, i.Regular := fun i hi => h i (hperm.mem_iff.2 hi)
  refine Issue.eq_of_count_eq (regular_of_mem_normalize h) (pairwise_normalize _)
    (pairwise_normalize _) fun i => ?_
  rw [count_normalize h, count_normalize hothers, hperm.count_eq]

theorem normalize_filter (h : ∀ i ∈ issues, i.Regular) (p : Issue → Bool) :
    normalize (issues.filter p) = (normalize issues).filter p := by
  have hfilter : ∀ i ∈ issues.filter p, i.Regular := fun i hi => h i (List.mem_filter.1 hi).1
  refine Issue.eq_of_count_eq (regular_of_mem_normalize hfilter) (pairwise_normalize _)
    ((pairwise_normalize _).filter p) fun i => ?_
  rw [count_normalize hfilter]
  cases hp : p i with
  | true => rw [List.count_filter hp, List.count_filter hp, count_normalize h]
  | false =>
    have hnone : ∀ l : List Issue, (l.filter p).count i = 0 := by
      intro l
      rw [List.count_eq_zero]
      intro hi
      rw [List.mem_filter, hp] at hi
      cases hi.2
    simp [hnone]

theorem normalize_normalize (h : ∀ i ∈ issues, i.Regular) :
    normalize (normalize issues) = normalize issues := by
  refine Issue.eq_of_count_eq (regular_of_mem_normalize (regular_of_mem_normalize h))
    (pairwise_normalize _) (pairwise_normalize _) fun i => ?_
  rw [count_normalize (regular_of_mem_normalize h), count_normalize h]
  split <;> omega

end Normalize

/-! ## Issues in order -/

/-- What counts after a comparison that is equal. -/
theorem isLE_of_then_of_eq {o o' : Ordering} (h : (o.then o').isLE = true) (heq : o = .eq) :
    o'.isLE = true := by
  rw [heq] at h
  exact h

theorem isLE_compare_string {a b : String} : (compare a b).isLE = true ↔ a ≤ b :=
  isLE_compareOfLessAndEq String.le_antisymm String.not_le String.le_total

theorem placeLe_of_isLE {s t : Option Span} {o : Ordering}
    (hs : ∀ x, s = some x → x.start < missingPlace)
    (h : ((compare ((s.map Span.start).getD missingPlace) ((t.map Span.start).getD missingPlace)).then
      ((compare ((s.map Span.stop).getD missingPlace)
        ((t.map Span.stop).getD missingPlace)).then o)).isLE = true)
    (ht : ∀ x, t = some x → x.start < missingPlace) : Issue.PlaceLe s t := by
  cases t with
  | none => cases s <;> trivial
  | some y =>
    have hstart := Nat.isLE_compare.1 (Ordering.isLE_then_iff_and.1 h).1
    cases s with
    | none =>
      have hy := ht y rfl
      rw [Option.map_none, Option.getD_none, Option.map_some, Option.getD_some] at hstart
      omega
    | some x =>
      rw [Option.map_some, Option.getD_some, Option.map_some, Option.getD_some] at hstart
      rcases Nat.lt_or_eq_of_le hstart with hlt | heq
      · exact .inl hlt
      · have hrest := isLE_of_then_of_eq h (Nat.compare_eq_eq.2 heq)
        exact .inr ⟨heq, Nat.isLE_compare.1 (Ordering.isLE_then_iff_and.1 hrest).1⟩

/-- The numbers that stand for missing ones do not show in the order of the issues that rules
raise. -/
theorem Issue.mayPrecede_of_isLE {a b : Issue} (ha : a.Regular) (hb : b.Regular)
    (h : (a.order b).isLE = true) : a.MayPrecede b := by
  unfold order at h
  have hplace := fun hs : a.statementIndex = b.statementIndex =>
    isLE_of_then_of_eq h (Nat.compare_eq_eq.2 (by rw [hs]))
  have hseverity := fun hs (hp : a.span = b.span) =>
    isLE_of_then_of_eq (isLE_of_then_of_eq (hplace hs) (Nat.compare_eq_eq.2 (by rw [hp])))
      (Nat.compare_eq_eq.2 (by rw [hp]))
  have hcode := fun hs hp (hv : a.severity = b.severity) =>
    isLE_of_then_of_eq (hseverity hs hp) (Nat.compare_eq_eq.2 (by rw [hv]))
  have hmessage := fun hs hp hv (hc : a.code = b.code) =>
    isLE_of_then_of_eq (hcode hs hp hv) (Std.compare_eq_iff_eq.2 hc)
  refine ⟨?_, fun hs => ?_, fun hs hp => ?_, fun hs hp hv => ?_, fun hs hp hv hc => ?_⟩
  · obtain ⟨m, hm⟩ := ha.statement
    obtain ⟨n, hn⟩ := hb.statement
    have hle := Nat.isLE_compare.1 (Ordering.isLE_then_iff_and.1 h).1
    rw [hm, hn] at hle
    exact ⟨m, n, hm, hn, hle⟩
  · exact placeLe_of_isLE ha.place (hplace hs) hb.place
  · exact Nat.isLE_compare.1 (Ordering.isLE_then_iff_and.1 (hseverity hs hp)).1
  · exact isLE_compare_string.1 (Ordering.isLE_then_iff_and.1 (hcode hs hp hv)).1
  · exact isLE_compare_string.1 (hmessage hs hp hv hc)

/-! ## Documents -/

/-- The line that decides whether comments suppress an issue: that of its place, or that of the
first entry with its number. -/
def Document.IsLineOf (doc : Document) (i : Issue) (line : Nat) : Prop :=
  match i.span with
  | some s => line = lineAt doc.text s.start
  | none => ∃ n e, i.statementIndex = some n ∧
      doc.entries.find? (fun e => e.index == n) = some e ∧ line = lineAt doc.text e.range.start

theorem find?_index_eq_some_iff {entries : List Entry}
    (hdistinct : (entries.map Entry.index).Nodup) {n : Nat} {e : Entry} :
    entries.find? (fun e => e.index == n) = some e ↔ e ∈ entries ∧ e.index = n := by
  constructor
  · intro h
    exact ⟨List.mem_of_find?_eq_some h, by simpa using List.find?_some h⟩
  · intro h
    obtain ⟨he, rfl⟩ := h
    obtain ⟨found, hfound⟩ : ∃ found, entries.find? (fun x => x.index == e.index) = some found := by
      apply Option.isSome_iff_exists.1
      rw [List.find?_isSome]
      exact ⟨e, he, by simp⟩
    have hindex : found.index = e.index := by simpa using List.find?_some hfound
    rw [hfound, List.inj_on_of_nodup_map hdistinct (List.mem_of_find?_eq_some hfound) he hindex]

/-- Entries with different numbers are found in whatever order they are. -/
theorem find?_index_of_perm {entries others : List Entry} (hperm : entries.Perm others)
    (hdistinct : (entries.map Entry.index).Nodup) (n : Nat) :
    entries.find? (fun e => e.index == n) = others.find? fun e => e.index == n := by
  have hdistinct' : (others.map Entry.index).Nodup := (hperm.map _).nodup_iff.1 hdistinct
  apply Option.ext
  intro e
  rw [find?_index_eq_some_iff hdistinct, find?_index_eq_some_iff hdistinct', hperm.mem_iff]

namespace Document

variable {doc other : Document}

theorem suppresses_of_perm (htext : doc.text = other.text)
    (hsuppression : doc.suppression = other.suppression) (hperm : doc.entries.Perm other.entries)
    (hdistinct : (doc.entries.map Entry.index).Nodup) (i : Issue) :
    doc.suppresses i = other.suppresses i := by
  have hline : doc.lineOf? i = other.lineOf? i := by
    unfold lineOf?
    simp only [htext, find?_index_of_perm hperm hdistinct]
  unfold suppresses
  rw [hline, hsuppression]

/-- What fewer comments leave, more comments need not leave. -/
theorem suppresses_of_subset {more : Suppression}
    (h : doc.suppression.directives ⊆ more.directives) {i : Issue}
    (hi : doc.suppresses i = true) :
    Document.suppresses { doc with suppression := more } i = true := by
  unfold suppresses at hi ⊢
  have hline : Document.lineOf? { doc with suppression := more } i = doc.lineOf? i := rfl
  rw [hline]
  cases hi' : doc.lineOf? i with
  | none => rw [hi'] at hi; cases hi
  | some line =>
    rw [hi'] at hi
    unfold Suppression.suppresses at hi ⊢
    obtain ⟨d, hd, hcovers⟩ := List.any_eq_true.1 hi
    exact List.any_eq_true.2 ⟨d, h hd, hcovers⟩

end Document

namespace Linter

variable {l : Linter} {doc : Document} {i : Issue}

theorem regular_of_mem_raised (hsize : byteSize doc.text < missingPlace) (h : i ∈ l.raised doc) :
    i.Regular := by
  obtain ⟨e, -, placed, hplaced, -, r, hr, rfl⟩ := exists_breaks_of_mem_raised h
  obtain ⟨p, -, rfl⟩ := mem_selectScopes.1 hplaced
  obtain ⟨leaf, -, rfl⟩ := Scope.mem_references.1 (mem_counted.1 hr.mem_counted).1
  refine ⟨⟨e.index, rfl⟩, rfl, fun s hs => ?_⟩
  have hfits := fits_of_slice? (slice?_of_ofLeaf hs)
  have hordered := hfits.ordered
  have hinside := hfits.inside
  omega

/-- The issues that are left to be put in order. -/
def kept (l : Linter) (doc : Document) : List Issue :=
  if l.config.enabled then (l.raised doc).filter fun i => !doc.suppresses i else []

theorem checkDocument_eq_normalize (l : Linter) (doc : Document) :
    l.checkDocument doc = normalize (l.kept doc) := by
  unfold checkDocument kept
  split
  · rfl
  · simp [normalize]

theorem regular_of_mem_kept (hsize : byteSize doc.text < missingPlace) :
    ∀ i ∈ l.kept doc, i.Regular := by
  intro i hi
  unfold kept at hi
  split at hi
  · exact regular_of_mem_raised hsize (List.mem_filter.1 hi).1
  · cases hi

/-- Where comments leave an issue, they leave each time it is raised. -/
theorem count_kept (hi : i ∈ l.kept doc) : (l.kept doc).count i = (l.raised doc).count i := by
  unfold kept at hi ⊢
  split at hi
  · rw [if_pos ‹_›]
    exact List.count_filter (List.mem_filter.1 hi).2
  · cases hi

/-- An issue that is raised has a line. -/
theorem exists_isLineOf (hi : i ∈ l.raised doc) :
    ∃ line, doc.lineOf? i = some line ∧ doc.IsLineOf i line := by
  obtain ⟨e, he, placed, -, -, r, -, rfl⟩ := exists_breaks_of_mem_raised hi
  unfold Document.lineOf? Document.IsLineOf Policy.issueOf
  cases r.span with
  | some s => exact ⟨_, rfl, rfl⟩
  | none =>
    obtain ⟨first, hfirst⟩ : ∃ first, doc.entries.find? (fun x => x.index == e.index) = some first := by
      apply Option.isSome_iff_exists.1
      rw [List.find?_isSome]
      exact ⟨e, he, by simp⟩
    exact ⟨_, by simp [hfirst], e.index, first, rfl, hfirst, rfl⟩

theorem kept_perm {other : Document} (htext : doc.text = other.text)
    (hsuppression : doc.suppression = other.suppression)
    (hperm : doc.entries.Perm other.entries) (hdistinct : (doc.entries.map Entry.index).Nodup) :
    (l.kept doc).Perm (l.kept other) := by
  have hraised : (l.raised doc).Perm (l.raised other) := by
    unfold raised
    rw [htext]
    exact List.Perm.flatMap_left _ fun r _ => hperm.flatMap_right _
  have hsame : (fun i => !doc.suppresses i) = fun i => !other.suppresses i := by
    funext i
    rw [Document.suppresses_of_perm htext hsuppression hperm hdistinct]
  unfold kept
  split
  · rw [hsame]
    exact hraised.filter _
  · exact .nil

theorem kept_eq_filter (l : Linter) (doc : Document) :
    l.kept doc =
      (l.kept { doc with suppression := {} }).filter fun i => !doc.suppresses i := by
  have hnone : ∀ i, Document.suppresses { doc with suppression := {} } i = false := by
    intro i
    unfold Document.suppresses
    split <;> rfl
  unfold kept
  split
  · simp only [hnone, Bool.not_false, List.filter_true]
    rfl
  · rfl

/-- The issues of a document are sorted, those without a place behind the others of their
statement, and each issue with a place is there once. They are what the rules raise for the
entries and comments do not suppress, issues without a place as often as they are raised. Putting
them in order again changes nothing. -/
theorem checkDocument_in_normal_form (l : Linter) (doc : Document)
    (hsize : byteSize doc.text < missingPlace) :
    (l.checkDocument doc).Pairwise Issue.MayPrecede ∧
    ((l.checkDocument doc).filter fun i => i.span.isSome).Nodup ∧
    (∀ i, i ∈ l.checkDocument doc ↔
      l.config.enabled = true ∧
        (∃ rule ∈ l.rules, ∃ e ∈ doc.entries, i ∈ l.check doc.text e rule) ∧
        doc.suppresses i = false) ∧
    (∀ i ∈ l.checkDocument doc, i.span = none →
      (l.checkDocument doc).count i = (l.raised doc).count i) ∧
    normalize (l.checkDocument doc) = l.checkDocument doc := by
  have hregular := regular_of_mem_kept (l := l) hsize
  have hcount := count_normalize hregular
  refine ⟨?_, ?_, fun i => ?_, fun i hi hspan => ?_, ?_⟩
  · rw [checkDocument_eq_normalize]
    refine (pairwise_normalize _).imp_of_mem fun ha hb hle => ?_
    exact Issue.mayPrecede_of_isLE (regular_of_mem_normalize hregular _ ha)
      (regular_of_mem_normalize hregular _ hb) hle
  · rw [checkDocument_eq_normalize, List.nodup_iff_count_le_one]
    intro i
    by_cases hspan : i.span.isSome = true
    · have hsame : ((normalize (l.kept doc)).filter fun i => i.span.isSome).count i =
          (normalize (l.kept doc)).count i := List.count_filter hspan
      rw [hsame, hcount, if_pos hspan]
      exact Nat.min_le_left _ _
    · rw [List.count_eq_zero.2 (by simp [hspan])]
      exact Nat.zero_le 1
  · rw [mem_checkDocument_iff]
    unfold raised
    simp only [List.mem_flatMap]
  · rw [checkDocument_eq_normalize] at hi ⊢
    rw [hcount, hspan, count_kept (mem_of_mem_normalize hi)]
    rfl
  · rw [checkDocument_eq_normalize]
    exact normalize_normalize hregular

/-- A column with a prefix, and a star with one that a comment leaves without a place. -/
def placelessStar : List Char := "SELECT f.a, f./*x*/* FROM f".toList

set_option maxRecDepth 100000 in
theorem placelessStar_parses :
    someStatement .generic placelessStar 0 (fun s =>
      match s.selects with
      | [p] => p.meets placelessStar [⟨"f.a", .qualified, false, some ⟨7, 10⟩⟩,
          ⟨"f.*", .qualified, true, none⟩]
      | _ => false) = true := by
  decide +kernel

/-- In a document that has the statement twice, with one number, the issue with a place is told
once and the one without a place twice. -/
theorem checkDocument_of_entry_twice :
    byteSize placelessStar < missingPlace ∧
      ∃ statements s, parse .generic placelessStar = .ok statements ∧ statements[0]? = some s ∧
        ((checkDocument ⟨{}, .unqualified⟩
          (.ofText .generic placelessStar [⟨s, 3, ⟨0, 27⟩⟩, ⟨s, 3, ⟨0, 27⟩⟩])).filter
            fun i => i.span.isSome).count
          (Policy.unqualified.issueOf 3 ⟨"f.a", .qualified, false, some ⟨7, 10⟩⟩) = 1 ∧
        (checkDocument ⟨{}, .unqualified⟩
          (.ofText .generic placelessStar [⟨s, 3, ⟨0, 27⟩⟩, ⟨s, 3, ⟨0, 27⟩⟩])).count
          (Policy.unqualified.issueOf 3 ⟨"f.*", .qualified, true, none⟩) = 2 := by
  have hsize : byteSize placelessStar < missingPlace := by decide +kernel
  obtain ⟨statements, s, hparse, hs, hcheck⟩ := exists_of_someStatement placelessStar_parses
  split at hcheck
  case h_2 => cases hcheck
  rename_i p hselects
  obtain ⟨hone, hrefs⟩ := p.scope_of_meets hcheck (by decide)
  refine ⟨hsize, statements, s, hparse, hs, ?_⟩
  obtain ⟨-, hnodup, hmem, hcount, -⟩ := checkDocument_in_normal_form ⟨{}, .unqualified⟩
    (.ofText .generic placelessStar [⟨s, 3, ⟨0, 27⟩⟩, ⟨s, 3, ⟨0, 27⟩⟩]) hsize
  have hrules : rules ⟨{}, .unqualified⟩ = [.consistentReferences] := by decide +kernel
  have hissues : Policy.unqualified.issues placelessStar 3 s =
      [Policy.unqualified.issueOf 3 ⟨"f.a", .qualified, false, some ⟨7, 10⟩⟩,
        Policy.unqualified.issueOf 3 ⟨"f.*", .qualified, true, none⟩] := by
    rw [Policy.issues_of_one_select 3 hselects hone, hrefs]
    rfl
  have hnone : Suppression.ofText .generic placelessStar = {} := by decide +kernel
  have htold : ∀ i ∈ Policy.unqualified.issues placelessStar 3 s,
      i ∈ checkDocument ⟨{}, .unqualified⟩
        (.ofText .generic placelessStar [⟨s, 3, ⟨0, 27⟩⟩, ⟨s, 3, ⟨0, 27⟩⟩]) := by
    intro i hi
    refine (hmem i).2 ⟨rfl, ⟨.consistentReferences, by simp [hrules], _, List.mem_cons_self, hi⟩, ?_⟩
    unfold Document.suppresses Document.ofText
    rw [hnone]
    split <;> rfl
  rw [hissues] at htold
  constructor
  · apply Nat.le_antisymm (List.nodup_iff_count_le_one.1 hnodup _)
    exact List.one_le_count_iff.2 (List.mem_filter.2 ⟨htold _ List.mem_cons_self, rfl⟩)
  · rw [hcount _ (htold _ (List.mem_cons_of_mem _ List.mem_cons_self)) rfl]
    unfold raised check Document.ofText
    simp only [hrules, hissues, List.flatMap_cons, List.flatMap_nil, List.append_nil]
    decide +kernel

/-- Entries with different numbers may come in any order. -/
theorem checkDocument_eq_of_perm (l : Linter) (doc other : Document)
    (hsize : byteSize doc.text < missingPlace) (htext : doc.text = other.text)
    (hsuppression : doc.suppression = other.suppression)
    (hperm : doc.entries.Perm other.entries) (hdistinct : (doc.entries.map Entry.index).Nodup) :
    l.checkDocument doc = l.checkDocument other := by
  rw [checkDocument_eq_normalize, checkDocument_eq_normalize]
  exact normalize_eq_of_perm (regular_of_mem_kept hsize)
    (kept_perm htext hsuppression hperm hdistinct)

/-- A statement that stands in a document under two numbers, in either order. -/
theorem checkDocument_mixedTwice_swapped :
    byteSize mixedTwice < missingPlace ∧
      ∃ statements s, parse .generic mixedTwice = .ok statements ∧ statements[1]? = some s ∧
        checkDocument ⟨{}, .consistent⟩
          (.ofText .generic mixedTwice [⟨s, 7, ⟨31, 51⟩⟩, ⟨s, 3, ⟨31, 51⟩⟩]) =
        checkDocument ⟨{}, .consistent⟩
          (.ofText .generic mixedTwice [⟨s, 3, ⟨31, 51⟩⟩, ⟨s, 7, ⟨31, 51⟩⟩]) := by
  have hsize : byteSize mixedTwice < missingPlace := by decide +kernel
  obtain ⟨statements, s, p, hparse, hs, -, -⟩ := exists_of_someSelect mixedTwice_parses
  exact ⟨hsize, statements, s, hparse, hs,
    checkDocument_eq_of_perm ⟨{}, .consistent⟩ (.ofText .generic mixedTwice
      [⟨s, 7, ⟨31, 51⟩⟩, ⟨s, 3, ⟨31, 51⟩⟩]) (.ofText .generic mixedTwice
      [⟨s, 3, ⟨31, 51⟩⟩, ⟨s, 7, ⟨31, 51⟩⟩]) hsize rfl rfl (List.Perm.swap ..)
      (by simp [Document.ofText])⟩

/-- Comments take the issues out whose line they suppress, and leave the others as they are without
comments. More comments never add, move or change an issue. -/
theorem checkDocument_eq_filter (l : Linter) (doc : Document)
    (hsize : byteSize doc.text < missingPlace) :
    l.checkDocument doc =
      (l.checkDocument { doc with suppression := {} }).filter (fun i => !doc.suppresses i) ∧
    (∀ i ∈ l.checkDocument { doc with suppression := {} }, ∃ line, doc.IsLineOf i line ∧
      doc.suppresses i = doc.suppression.suppresses line i.code) ∧
    ∀ more : Suppression, doc.suppression.directives ⊆ more.directives →
      (l.checkDocument { doc with suppression := more }).Sublist (l.checkDocument doc) := by
  have hregular : ∀ i ∈ l.kept { doc with suppression := {} }, i.Regular :=
    regular_of_mem_kept hsize
  have hfilter : ∀ s : Suppression, l.checkDocument { doc with suppression := s } =
      (l.checkDocument { doc with suppression := {} }).filter
        fun i => !Document.suppresses { doc with suppression := s } i := by
    intro s
    rw [checkDocument_eq_normalize, kept_eq_filter, checkDocument_eq_normalize]
    exact normalize_filter hregular _
  refine ⟨hfilter doc.suppression, fun i hi => ?_, fun more hmore => ?_⟩
  · obtain ⟨line, hline, hline'⟩ := exists_isLineOf (mem_checkDocument_iff.1 hi).2.1
    refine ⟨line, hline', ?_⟩
    have hline : doc.lineOf? i = some line := hline
    unfold Document.suppresses
    rw [hline]
  · rw [hfilter more, hfilter doc.suppression]
    apply List.monotone_filter_right
    intro i hi
    cases hdoc : doc.suppresses i with
    | false => rfl
    | true =>
      rw [Document.suppresses_of_subset hmore hdoc] at hi
      cases hi

set_option maxRecDepth 100000 in
theorem mixedTwice_parses_first :
    someSelect .generic mixedTwice 0 (PlacedSelect.meets mixedTwice
      [⟨"f.a", .qualified, false, some ⟨7, 10⟩⟩,
        ⟨"b", .unqualified, false, some ⟨12, 13⟩⟩]) = true := by
  decide +kernel

/-- A comment on the line of an issue takes it out of the list that is there without comments. -/
theorem checkDocument_mixedTwice_filtered :
    byteSize mixedTwice < missingPlace ∧
      ∃ statements doc, parse .generic mixedTwice = .ok statements ∧
        doc = Document.ofText .generic mixedTwice (entriesOf mixedTwice statements) ∧
        Policy.consistent.issueOf 0 ⟨"b", .unqualified, false, some ⟨12, 13⟩⟩ ∈
          checkDocument ⟨{}, .consistent⟩ { doc with suppression := {} } ∧
        doc.IsLineOf (Policy.consistent.issueOf 0 ⟨"b", .unqualified, false, some ⟨12, 13⟩⟩) 1 ∧
        doc.suppression.suppresses 1 Rule.consistentReferences.code = true ∧
        Policy.consistent.issueOf 0 ⟨"b", .unqualified, false, some ⟨12, 13⟩⟩ ∉
          checkDocument ⟨{}, .consistent⟩ doc := by
  have hsize : byteSize mixedTwice < missingPlace := by decide +kernel
  obtain ⟨statements, s, p, hparse, hs, hp, hmeets⟩ := exists_of_someSelect mixedTwice_parses_first
  have hsuppresses : (Suppression.ofText .generic mixedTwice).suppresses (lineAt mixedTwice 12)
      Rule.consistentReferences.code = true := by decide +kernel
  have hbare : Policy.consistent.issueOf 0 ⟨"b", .unqualified, false, some ⟨12, 13⟩⟩ ∈
      checkDocument ⟨{}, .consistent⟩
        ⟨mixedTwice, entriesOf mixedTwice statements, {}⟩ := by
    refine mem_checkDocument_iff.2
      ⟨rfl, mem_raised_of_meets {} hs hp hmeets (by decide) ?_, rfl⟩
    show firstSwitch (counted _) = _
    decide
  refine ⟨hsize, statements, _, hparse, rfl, hbare, ?_, hsuppresses, ?_⟩
  · show 1 = lineAt mixedTwice 12
    decide +kernel
  · rw [(checkDocument_eq_filter _ _ hsize).1, List.mem_filter]
    intro hkept
    have hline : (Document.ofText .generic mixedTwice (entriesOf mixedTwice statements)).suppresses
        (Policy.consistent.issueOf 0 ⟨"b", .unqualified, false, some ⟨12, 13⟩⟩) = true :=
      hsuppresses
    rw [hline] at hkept
    cases hkept.2

end Linter

end ColumnLint
