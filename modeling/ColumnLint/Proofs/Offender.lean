import ColumnLint.Rule.References

/-
  Which references of a select offend, said without the list of kinds seen so far. Under a policy
  that requires a kind they are the counted references of the other kind
  (`offendersAfter_of_required`); where only one kind is asked for, there is at most one, the
  first counted reference of another kind than the first one (`offendersAfter_nil`). The issues
  of a statement follow from that (`mem_issues_iff`).
-/

namespace ColumnLint

open Text Sql

/-- The references that say how columns are referred to: all but bare stars. -/
def counted (references : List Reference) : List Reference :=
  references.filter fun r => !r.isBareStar

/-- The first reference whose kind is not that of the first one. -/
def firstSwitch (references : List Reference) : Option Reference :=
  references.head?.bind fun first => references.find? fun r => r.kind != first.kind

/-- A counted reference breaks the policy: it is not of the required kind, or, where no kind is
required, it is the first one whose kind is not that of the first one. -/
def Policy.Breaks (p : Policy) (references : List Reference) (r : Reference) : Prop :=
  match p.required with
  | some k => r ∈ counted references ∧ r.kind ≠ k
  | none => firstSwitch (counted references) = some r

/-! ## Counted references -/

theorem counted_cons_of_isBareStar {r : Reference} {rest : List Reference}
    (h : r.isBareStar = true) : counted (r :: rest) = counted rest := by
  simp [counted, h]

theorem counted_cons_of_not_isBareStar {r : Reference} {rest : List Reference}
    (h : r.isBareStar = false) : counted (r :: rest) = r :: counted rest := by
  simp [counted, h]

theorem mem_counted {r : Reference} {references : List Reference} :
    r ∈ counted references ↔ r ∈ references ∧ r.isBareStar = false := by
  simp [counted]

/-- The first reference is none of another kind, so the search may start behind it. -/
theorem firstSwitch_cons (r : Reference) (rest : List Reference) :
    firstSwitch (r :: rest) = rest.find? fun x => x.kind != r.kind := by
  simp [firstSwitch]

theorem mem_of_firstSwitch {r : Reference} {references : List Reference}
    (h : firstSwitch references = some r) : r ∈ references := by
  obtain ⟨first, -, hfind⟩ := Option.bind_eq_some_iff.1 h
  exact List.mem_of_find?_eq_some hfind

namespace Policy

variable {p : Policy}

/-! ## Offenders -/

theorem offendersAfter_of_required {k : Qualification} (h : p.required = some k)
    (seen : List Qualification) (references : List Reference) :
    p.offendersAfter seen references = (counted references).filter fun r => r.kind != k := by
  induction references generalizing seen with
  | nil => rfl
  | cons r rest ih =>
    unfold offendersAfter
    cases hr : r.isBareStar with
    | true => rw [if_pos rfl, ih, counted_cons_of_isBareStar hr]
    | false =>
      rw [if_neg (by simp), counted_cons_of_not_isBareStar hr, List.filter_cons, ih]
      simp only [offends, h]

/-- After references of both kinds nothing offends any more. -/
theorem offendersAfter_of_both (h : p.required = none) {seen : List Qualification}
    (hseen : ∀ k : Qualification, k ∈ seen) (references : List Reference) :
    p.offendersAfter seen references = [] := by
  induction references generalizing seen with
  | nil => rfl
  | cons r rest ih =>
    unfold offendersAfter
    cases hr : r.isBareStar with
    | true => rw [if_pos rfl, ih hseen]
    | false =>
      have hoff : p.offends seen r.kind = false := by simp [offends, h, hseen r.kind]
      rw [if_neg (by simp), hoff, ih fun k => List.mem_cons_of_mem _ (hseen k)]
      rfl

/-- After references of one kind the first one of the other kind offends, and none behind it. -/
theorem offendersAfter_of_one (h : p.required = none) {k : Qualification}
    {seen : List Qualification} (hne : seen ≠ []) (hseen : ∀ q ∈ seen, q = k)
    (references : List Reference) :
    p.offendersAfter seen references =
      ((counted references).find? fun r => r.kind != k).toList := by
  induction references generalizing seen with
  | nil => rfl
  | cons r rest ih =>
    unfold offendersAfter
    cases hr : r.isBareStar with
    | true => rw [if_pos rfl, ih hne hseen, counted_cons_of_isBareStar hr]
    | false =>
      rw [if_neg (by simp), counted_cons_of_not_isBareStar hr, List.find?_cons]
      by_cases hk : r.kind = k
      · have hmem : r.kind ∈ seen := by
          obtain ⟨q, hq⟩ := List.exists_mem_of_ne_nil seen hne
          rw [hk, ← hseen q hq]
          exact hq
        have hoff : p.offends seen r.kind = false := by simp [offends, h, hmem]
        have hseen' : ∀ q ∈ r.kind :: seen, q = k := by
          intro q hq
          rcases List.mem_cons.1 hq with rfl | hq
          · exact hk
          · exact hseen q hq
        rw [hoff, ih (List.cons_ne_nil _ _) hseen']
        simp [hk]
      · have hmem : r.kind ∉ seen := fun hin => hk (hseen _ hin)
        have hoff : p.offends seen r.kind = true := by
          simp [offends, h, hmem, hne]
        have hboth : ∀ q : Qualification, q ∈ r.kind :: seen := by
          intro q
          obtain ⟨q', hq'⟩ := List.exists_mem_of_ne_nil seen hne
          obtain rfl := hseen q' hq'
          -- there are two kinds only, so `q` is that of `r` or the one seen
          cases q <;> cases hrk : r.kind <;> cases q' <;> simp_all
        have hne' : (r.kind != k) = true := by simpa using hk
        rw [hoff, offendersAfter_of_both h hboth, hne']
        rfl

theorem offendersAfter_nil (h : p.required = none) (references : List Reference) :
    p.offendersAfter [] references = (firstSwitch (counted references)).toList := by
  induction references with
  | nil => rfl
  | cons r rest ih =>
    unfold offendersAfter
    cases hr : r.isBareStar with
    | true => rw [if_pos rfl, ih, counted_cons_of_isBareStar hr]
    | false =>
      have hoff : p.offends [] r.kind = false := by simp [offends, h]
      rw [if_neg (by simp), hoff, counted_cons_of_not_isBareStar hr, firstSwitch_cons]
      exact offendersAfter_of_one h (List.cons_ne_nil _ _) (by simp) rest

theorem mem_offendersAfter_nil {references : List Reference} {r : Reference} :
    r ∈ p.offendersAfter [] references ↔ p.Breaks references r := by
  unfold Breaks
  cases h : p.required with
  | some k => simp [offendersAfter_of_required h]
  | none => simp [offendersAfter_nil h]

/-- Only a counted reference of the select breaks a policy. -/
theorem Breaks.mem_counted {references : List Reference} {r : Reference}
    (h : p.Breaks references r) : r ∈ counted references := by
  unfold Breaks at h
  split at h
  · exact h.1
  · exact mem_of_firstSwitch h

/-! ## Issues of a statement -/

/-- The issue of a reference that offends in the statement with this number. -/
def issueOf (p : Policy) (index : Nat) (r : Reference) : Issue where
  severity := .info
  code := Rule.consistentReferences.code
  message := p.message r
  span := r.span
  statementIndex := some index

/-- A select of one table has an issue for each reference that offends, any other select none. -/
theorem mem_scope_issues {s : Scope} {index : Nat} {i : Issue} :
    i ∈ (if s.aliases.isEmpty then []
      else ((violations? p s).getD []).map (Violation.issue index)) ↔
      s.aliases.length = 1 ∧ ∃ r, p.Breaks s.references r ∧ i = p.issueOf index r := by
  match hs : s.aliases with
  | [] => simp
  | [a] =>
    have hv : (violations? p s).getD [] =
        (p.offendersAfter [] s.references).map fun r => ⟨r, p.message r⟩ := by
      unfold violations?
      rw [if_neg (by simp [hs])]
      cases p.offendersAfter [] s.references <;> rfl
    simp only [List.isEmpty_cons, hv, Bool.false_eq_true, if_false, List.map_map, List.mem_map,
      mem_offendersAfter_nil, List.length_singleton, true_and, Function.comp_apply]
    constructor
    · intro hsome
      obtain ⟨r, hr, rfl⟩ := hsome
      exact ⟨r, hr, rfl⟩
    · intro hsome
      obtain ⟨r, hr, rfl⟩ := hsome
      exact ⟨r, hr, rfl⟩
  | a :: b :: rest =>
    have hv : violations? p s = none := by
      unfold violations?
      rw [if_pos (by simp [hs])]
    simp [hv]

theorem mem_issues_iff {text : List Char} {index : Nat} {s : Statement} {i : Issue} :
    i ∈ p.issues text index s ↔
      ∃ placed ∈ selectScopes text s, placed.scope.aliases.length = 1 ∧
        ∃ r, p.Breaks placed.scope.references r ∧ i = p.issueOf index r := by
  unfold issues
  simp only [List.mem_flatMap, mem_scope_issues]

/-- The issues of a statement with one select, which reads from one table. -/
theorem issues_of_one_select {text : List Char} (index : Nat) {s : Statement} {q : PlacedSelect}
    (hselects : s.selects = [q]) (hone : (q.scope text).scope.aliases.length = 1) :
    p.issues text index s =
      (p.offendersAfter [] (q.scope text).scope.references).map (p.issueOf index) := by
  have hsome : (q.scope text).scope.aliases.isEmpty = false := by
    rw [List.isEmpty_eq_false_iff, ← List.length_pos_iff]
    omega
  unfold issues selectScopes
  rw [hselects, List.map_singleton, List.flatMap_singleton, if_neg (by simp [hsome])]
  unfold violations?
  rw [if_neg (by omega)]
  cases p.offendersAfter [] (q.scope text).scope.references with
  | nil => rfl
  | cons r rest =>
    rw [Option.getD_some, List.map_map]
    rfl

end Policy

end ColumnLint
