import ColumnLint.Proofs.ExactViolations
import Mathlib.Data.Nat.Find
import Mathlib.Order.Bounds.Basic

/-
  How the three policies agree on one select. A reference is reported if the select has one
  violation more with it than before it (`ReportsAt`), so that equal references are told apart by
  their numbers. Each counted reference is reported by one of the two policies that ask for a kind,
  and the policy that asks for none reports the first one that is reported by the policy for the
  kind of the first reference (`policies_agree`).
-/

namespace ColumnLint

open Text Sql

/-- A select with its first `n` references only. -/
def Scope.upTo (s : Scope) (n : Nat) : Scope := { s with references := s.references.take n }

theorem Qualification.eq_of_ne {a b c : Qualification} (ha : a ≠ c) (hb : b ≠ c) : a = b := by
  cases a <;> cases b <;> cases c <;> simp_all

namespace Policy

/-- The reference with the number `i` is reported: there is one violation more with it than before
it. -/
def ReportsAt (p : Policy) (s : Scope) (i : Nat) : Prop :=
  ((violations? p (s.upTo (i + 1))).getD []).length =
    ((violations? p (s.upTo i)).getD []).length + 1

variable {p : Policy} {s : Scope} {i : Nat} {r : Reference}

/-! ## One step of the run -/

/-- The kinds of the counted references, the last one first. -/
def kindsOf (references : List Reference) : List Qualification :=
  ((counted references).map Reference.kind).reverse

theorem offendersAfter_cons_star (hr : r.isBareStar = true) (seen : List Qualification)
    (rest : List Reference) : p.offendersAfter seen (r :: rest) = p.offendersAfter seen rest := by
  rw [offendersAfter, if_pos hr]

theorem offendersAfter_cons_counted (hr : r.isBareStar = false) (seen : List Qualification)
    (rest : List Reference) :
    p.offendersAfter seen (r :: rest) =
      (if p.offends seen r.kind then [r] else []) ++ p.offendersAfter (r.kind :: seen) rest := by
  rw [offendersAfter, if_neg (by simp [hr])]
  dsimp only
  split <;> rfl

/-- The run goes on behind a part of the references with the kinds that it has met. -/
theorem offendersAfter_append (seen : List Qualification) (front back : List Reference) :
    p.offendersAfter seen (front ++ back) =
      p.offendersAfter seen front ++ p.offendersAfter (kindsOf front ++ seen) back := by
  induction front generalizing seen with
  | nil => rfl
  | cons r front ih =>
    rw [List.cons_append]
    cases hr : r.isBareStar with
    | true =>
      have hkinds : kindsOf (r :: front) = kindsOf front := by
        unfold kindsOf
        rw [counted_cons_of_isBareStar hr]
      rw [offendersAfter_cons_star hr, offendersAfter_cons_star hr, hkinds, ih]
    | false =>
      have hkinds : kindsOf (r :: front) ++ seen = kindsOf front ++ r.kind :: seen := by
        unfold kindsOf
        rw [counted_cons_of_not_isBareStar hr]
        simp
      rw [offendersAfter_cons_counted hr, offendersAfter_cons_counted hr, hkinds, ih,
        List.append_assoc]

/-- The reference with the number `i` offends, given those before it. -/
def offendsAt (p : Policy) (references : List Reference) (i : Nat) : Bool :=
  match references[i]? with
  | some r => !r.isBareStar && p.offends (kindsOf (references.take i)) r.kind
  | none => false

theorem offendsAt_eq {references : List Reference} (h : references[i]? = some r) :
    p.offendsAt references i =
      (!r.isBareStar && p.offends (kindsOf (references.take i)) r.kind) := by
  unfold offendsAt
  rw [h]

theorem offendersAfter_take_succ {references : List Reference} (h : references[i]? = some r) :
    p.offendersAfter [] (references.take (i + 1)) = p.offendersAfter [] (references.take i) ++
      if p.offendsAt references i then [r] else [] := by
  have htake : references.take (i + 1) = references.take i ++ [r] := by
    rw [List.take_add_one, h]
    rfl
  rw [htake, offendersAfter_append, List.append_nil, offendsAt_eq h]
  cases hr : r.isBareStar with
  | true =>
    rw [offendersAfter_cons_star hr]
    rfl
  | false =>
    rw [offendersAfter_cons_counted hr]
    exact congrArg _ (List.append_nil _)

theorem offendsAt_lt {references : List Reference} (h : p.offendsAt references i = true) :
    i < references.length := by
  unfold offendsAt at h
  split at h
  · rename_i r hr
    exact (List.getElem?_eq_some_iff.1 hr).1
  · cases h

/-- What the run over the first `n` references finds, by numbers. -/
theorem map_offendsAt (references : List Reference) {n : Nat} (hn : n ≤ references.length) :
    ((List.range n).filter (p.offendsAt references)).map (references[·]?) =
      (p.offendersAfter [] (references.take n)).map some := by
  induction n with
  | zero => rfl
  | succ n ih =>
    have hr : references[n]? = some references[n] := List.getElem?_eq_getElem hn
    rw [List.range_succ, List.filter_append, List.map_append, ih (by omega),
      offendersAfter_take_succ hr, List.map_append]
    cases hoffends : p.offendsAt references n <;> simp [hoffends, hr]

/-! ## Reported references -/

theorem getD_violations?_of_single (h : s.aliases.length ≤ 1) :
    (violations? p s).getD [] =
      (p.offendersAfter [] s.references).map fun r => ⟨r, p.message r⟩ := by
  unfold violations?
  rw [if_neg (by omega)]
  cases p.offendersAfter [] s.references <;> rfl

theorem reportsAt_iff :
    p.ReportsAt s i ↔ s.aliases.length ≤ 1 ∧ p.offendsAt s.references i = true := by
  unfold ReportsAt
  by_cases h : s.aliases.length ≤ 1
  · rw [getD_violations?_of_single (s := s.upTo (i + 1)) h,
      getD_violations?_of_single (s := s.upTo i) h, List.length_map, List.length_map]
    show (p.offendersAfter [] (s.references.take (i + 1))).length =
      (p.offendersAfter [] (s.references.take i)).length + 1 ↔ _
    cases hr : s.references[i]? with
    | none =>
      have hlength := List.getElem?_eq_none_iff.1 hr
      rw [List.take_of_length_le hlength, List.take_of_length_le (by omega)]
      simp [offendsAt, hr]
    | some r =>
      rw [offendersAfter_take_succ hr, List.length_append]
      cases p.offendsAt s.references i <;> simp [h]
  · rw [violations?_of_several (s := s.upTo (i + 1)) (by exact Nat.lt_of_not_le h),
      violations?_of_several (s := s.upTo i) (by exact Nat.lt_of_not_le h)]
    simp [h]

/-- The violations are those of the reported references, in their order. -/
theorem exists_places (p : Policy) (s : Scope) :
    ∃ places : List Nat, places.Pairwise (· < ·) ∧ (∀ i, i ∈ places ↔ p.ReportsAt s i) ∧
      places.map (s.references[·]?) =
        ((violations? p s).getD []).map fun v => some v.reference := by
  by_cases h : s.aliases.length ≤ 1
  · refine ⟨(List.range s.references.length).filter (p.offendsAt s.references),
      List.pairwise_lt_range.filter _, fun i => ?_, ?_⟩
    · rw [List.mem_filter, List.mem_range, reportsAt_iff]
      exact ⟨fun hi => ⟨h, hi.2⟩, fun hi => ⟨offendsAt_lt hi.2, hi.2⟩⟩
    · rw [map_offendsAt s.references (Nat.le_refl _), List.take_length,
        getD_violations?_of_single h, List.map_map]
      rfl
  · refine ⟨[], .nil, fun i => ?_, ?_⟩
    · simp [reportsAt_iff, h]
    · rw [violations?_of_several (Nat.lt_of_not_le h)]
      rfl

theorem isSome_violations?_iff : (violations? p s).isSome = true ↔ ∃ i, p.ReportsAt s i := by
  obtain ⟨places, -, hplaces, hmap⟩ := exists_places p s
  have hsome : (violations? p s).isSome = true ↔ (violations? p s).getD [] ≠ [] := by
    unfold violations?
    split
    · simp
    · cases p.offendersAfter [] s.references <;> simp
  have hnil : (violations? p s).getD [] = [] ↔ places = [] := by
    rw [← List.map_eq_nil_iff, ← hmap, List.map_eq_nil_iff]
  rw [hsome, Ne, hnil, List.eq_nil_iff_forall_not_mem]
  simp [hplaces]

/-! ## Which references are reported -/

theorem mem_kindsOf_take {references : List Reference} {k : Qualification} :
    k ∈ kindsOf (references.take i) ↔
      ∃ j r, j < i ∧ references[j]? = some r ∧ r.isBareStar = false ∧ r.kind = k := by
  unfold kindsOf
  rw [List.mem_reverse, List.mem_map]
  constructor
  · rintro ⟨r, hr, hkind⟩
    obtain ⟨hmem, hstar⟩ := mem_counted.1 hr
    obtain ⟨j, hj⟩ := List.mem_iff_getElem?.1 hmem
    rw [List.getElem?_take] at hj
    split at hj
    · rename_i hlt
      exact ⟨j, r, hlt, hj, hstar, hkind⟩
    · cases hj
  · rintro ⟨j, r, hlt, hj, hstar, hkind⟩
    refine ⟨r, mem_counted.2 ⟨List.mem_iff_getElem?.2 ⟨j, ?_⟩, hstar⟩, hkind⟩
    rw [List.getElem?_take, if_pos hlt, hj]

theorem reportsAt_iff_offends :
    p.ReportsAt s i ↔ s.aliases.length ≤ 1 ∧ ∃ r, s.references[i]? = some r ∧
      r.isBareStar = false ∧ p.offends (kindsOf (s.references.take i)) r.kind = true := by
  rw [reportsAt_iff]
  cases hr : s.references[i]? with
  | none => simp [offendsAt, hr]
  | some r => simp [offendsAt_eq hr]

/-- A policy that asks for a kind reports the counted references of the other one. -/
theorem reportsAt_of_required {k : Qualification} (h : p.required = some k) :
    p.ReportsAt s i ↔ s.aliases.length ≤ 1 ∧ ∃ r, s.references[i]? = some r ∧
      r.isBareStar = false ∧ r.kind ≠ k := by
  rw [reportsAt_iff_offends]
  simp [offends, h]

/-- The policy that asks for a kind. -/
def asking : Qualification → Policy
  | .qualified => qualified
  | .unqualified => unqualified

theorem required_asking (k : Qualification) : (asking k).required = some k := by
  cases k <;> rfl

/-- The first counted reference has a number, and no smaller number is that of a counted one. -/
theorem exists_of_find? {references : List Reference} {first : Reference}
    (h : references.find? (fun r => !r.isBareStar) = some first) :
    ∃ f : Nat, references[f]? = some first ∧ first.isBareStar = false ∧
      ∀ (j : Nat) (r : Reference), references[j]? = some r → r.isBareStar = false → f ≤ j := by
  obtain ⟨hfirst, front, back, rfl, hfront⟩ := List.find?_eq_some_iff_append.1 h
  refine ⟨front.length, by simp, by simpa using hfirst, fun j r hj hr => ?_⟩
  by_contra hlt
  rw [List.getElem?_append_left (by omega)] at hj
  have hstar := hfront r (List.mem_of_getElem? hj)
  simp [hr] at hstar

theorem exists_first {references : List Reference} (hi : references[i]? = some r)
    (hr : r.isBareStar = false) :
    ∃ first, references.find? (fun r => !r.isBareStar) = some first := by
  rw [← Option.isSome_iff_exists, List.find?_isSome]
  exact ⟨r, List.mem_of_getElem? hi, by simp [hr]⟩

/-- Where no kind is asked for, the first reference of another kind than the first is reported. -/
theorem reportsAt_consistent_iff :
    consistent.ReportsAt s i ↔
      ∃ (first : Reference) (p : Policy), s.references.find? (fun r => !r.isBareStar) = some first ∧
        p.required = some first.kind ∧ IsLeast {j | p.ReportsAt s j} i := by
  have hoffends : ∀ r : Reference,
      consistent.offends (kindsOf (s.references.take i)) r.kind = true ↔
        kindsOf (s.references.take i) ≠ [] ∧ r.kind ∉ kindsOf (s.references.take i) := by
    intro r
    simp [offends, required]
  simp only [reportsAt_iff_offends (p := consistent), hoffends]
  constructor
  · rintro ⟨hsingle, r, hi, hr, hbefore, hnew⟩
    obtain ⟨first, hfind⟩ := exists_first hi hr
    obtain ⟨f, hf, hfirst, hleast⟩ := exists_of_find? hfind
    -- some reference before this one is counted, so the first one is
    obtain ⟨k, hk⟩ := List.exists_mem_of_ne_nil _ hbefore
    obtain ⟨j, x, hji, hj, hx, -⟩ := mem_kindsOf_take.1 hk
    have hfj := hleast j x hj hx
    have hkind : r.kind ≠ first.kind := by
      intro heq
      exact hnew (mem_kindsOf_take.2 ⟨f, first, by omega, hf, hfirst, heq.symm⟩)
    have hrequired := required_asking first.kind
    refine ⟨first, asking first.kind, hfind, hrequired,
      (reportsAt_of_required hrequired).2 ⟨hsingle, r, hi, hr, hkind⟩, fun j hj => ?_⟩
    obtain ⟨-, x, hj, hx, hother⟩ := (reportsAt_of_required hrequired).1 hj
    by_contra hlt
    have heq : x.kind = r.kind := Qualification.eq_of_ne hother hkind
    exact hnew (mem_kindsOf_take.2 ⟨j, x, by omega, hj, hx, heq⟩)
  · rintro ⟨first, p, hfind, hrequired, hreports, hlower⟩
    obtain ⟨hsingle, r, hi, hr, hkind⟩ := (reportsAt_of_required hrequired).1 hreports
    obtain ⟨f, hf, hfirst, hleast⟩ := exists_of_find? hfind
    have hlt : f < i := by
      have hle := hleast i r hi hr
      have hne : f ≠ i := by
        rintro rfl
        rw [hf] at hi
        exact hkind (congrArg Reference.kind (Option.some.inj hi).symm)
      omega
    refine ⟨hsingle, r, hi, hr, ?_, fun hmem => ?_⟩
    · exact List.ne_nil_of_mem (mem_kindsOf_take.2 ⟨f, first, hlt, hf, hfirst, rfl⟩)
    · -- a reference of this kind before this one would be reported
      obtain ⟨j, x, hji, hj, hx, heq⟩ := mem_kindsOf_take.1 hmem
      have hle := hlower ((reportsAt_of_required hrequired).2 ⟨hsingle, x, hj, hx, heq ▸ hkind⟩)
      omega

/-- References of both kinds are counted if and only if each policy for a kind reports one. -/
theorem exists_reportsAt_consistent_iff :
    (∃ i, consistent.ReportsAt s i) ↔
      (∃ i, qualified.ReportsAt s i) ∧ ∃ i, unqualified.ReportsAt s i := by
  constructor
  · rintro ⟨i, hi⟩
    obtain ⟨first, p, hfind, hrequired, hreports, -⟩ := reportsAt_consistent_iff.1 hi
    obtain ⟨hsingle, r, hi, hr, hkind⟩ := (reportsAt_of_required hrequired).1 hreports
    obtain ⟨f, hf, hfirst, -⟩ := exists_of_find? hfind
    have hboth : ∀ k, ∃ j, (asking k).ReportsAt s j := by
      intro k
      by_cases hk : first.kind = k
      · exact ⟨i, (reportsAt_of_required (required_asking k)).2
          ⟨hsingle, r, hi, hr, hk ▸ hkind⟩⟩
      · exact ⟨f, (reportsAt_of_required (required_asking k)).2 ⟨hsingle, first, hf, hfirst, hk⟩⟩
    exact ⟨hboth .qualified, hboth .unqualified⟩
  · rintro ⟨⟨i, hi⟩, j, hj⟩
    have hreports : ∀ k, ∃ j, (asking k).ReportsAt s j := by
      intro k
      cases k with
      | qualified => exact ⟨i, hi⟩
      | unqualified => exact ⟨j, hj⟩
    obtain ⟨-, r, hr, hstar, -⟩ := (reportsAt_of_required (p := qualified) rfl).1 hi
    obtain ⟨first, hfind⟩ := exists_first hr hstar
    classical
    have hex := hreports first.kind
    refine ⟨Nat.find hex, reportsAt_consistent_iff.2 ⟨first, asking first.kind, hfind,
      required_asking _, Nat.find_spec hex, fun j hj => Nat.find_min' hex hj⟩⟩

/-- A counted reference is reported by one of the policies that ask for a kind. -/
theorem xor_reportsAt (hsingle : s.aliases.length ≤ 1) (hi : s.references[i]? = some r)
    (hr : r.isBareStar = false) : Xor (qualified.ReportsAt s i) (unqualified.ReportsAt s i) := by
  have hreports : ∀ {p : Policy} {k : Qualification}, p.required = some k →
      (p.ReportsAt s i ↔ r.kind ≠ k) := by
    intro p k h
    rw [reportsAt_of_required h]
    simp [hsingle, hi, hr]
  rw [hreports (p := qualified) rfl, hreports (p := unqualified) rfl]
  cases r.kind <;> simp [Xor]

end Policy

/-- The violations of a policy are those of the references that it reports. There are some where no
kind is asked for if and only if there are some for each kind that may be asked for; then the first
reference that is reported for the kind of the first counted one is reported, and no other. In a
select of one table each counted reference is reported for one of the two kinds. -/
theorem policies_agree (s : Scope) :
    (∀ p : Policy, ∃ places : List Nat, places.Pairwise (· < ·) ∧
      (∀ i, i ∈ places ↔ p.ReportsAt s i) ∧
      places.map (s.references[·]?) = ((violations? p s).getD []).map fun v => some v.reference) ∧
    ((violations? .consistent s).isSome = true ↔
      (violations? .qualified s).isSome = true ∧ (violations? .unqualified s).isSome = true) ∧
    (∀ i, Policy.consistent.ReportsAt s i ↔ ∃ (first : Reference) (p : Policy),
      s.references.find? (fun r => !r.isBareStar) = some first ∧ p.required = some first.kind ∧
        IsLeast {j | p.ReportsAt s j} i) ∧
    (s.aliases.length ≤ 1 → ∀ (i : Nat) (r : Reference), s.references[i]? = some r →
      r.isBareStar = false →
        Xor (Policy.qualified.ReportsAt s i) (Policy.unqualified.ReportsAt s i)) := by
  refine ⟨fun p => p.exists_places s, ?_, fun i => Policy.reportsAt_consistent_iff,
    fun hsingle i r => Policy.xor_reportsAt hsingle⟩
  simp only [Policy.isSome_violations?_iff]
  exact Policy.exists_reportsAt_consistent_iff

/-- The first switch is the first reference that is reported where no prefix is asked for, and the
last star is reported for one kind only. -/
theorem switching_policies_agree :
    switching.aliases.length ≤ 1 ∧ Policy.consistent.ReportsAt switching 2 ∧
      IsLeast {j | Policy.unqualified.ReportsAt switching j} 2 ∧
      Xor (Policy.qualified.ReportsAt switching 5) (Policy.unqualified.ReportsAt switching 5) := by
  have hsingle : switching.aliases.length ≤ 1 := by decide
  obtain ⟨-, -, hfirst, hone⟩ := policies_agree switching
  have hreports : Policy.consistent.ReportsAt switching 2 := rfl
  refine ⟨hsingle, hreports, ?_, hone hsingle 5 _ rfl rfl⟩
  obtain ⟨first, p, hfind, hrequired, hleast⟩ := (hfirst 2).1 hreports
  obtain rfl : ⟨"a", .unqualified, false, none⟩ = first := Option.some.inj hfind
  obtain rfl : p = .unqualified := by
    cases p <;> simp_all [Policy.required]
  exact hleast

end ColumnLint
