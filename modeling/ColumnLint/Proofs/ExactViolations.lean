import ColumnLint.Proofs.Offender

/-
  The violations of a select, said without a run over its references. They are the counted references
  that the policy objects to, in their order, each with its message; there are none if the select
  reads from several tables (`violations_are_objections`). So nothing else about the select counts:
  not the names of its tables, not its other columns, and no bare star.
-/

namespace ColumnLint

open Text Sql

namespace Policy

/-- What a policy objects to among counted references: all of the kind that is not asked for, or the
first one that is not of the kind of the first. -/
def objections (references : List Reference) : Policy → List Reference
  | qualified => references.filter fun r => r.kind = .unqualified
  | unqualified => references.filter fun r => r.kind = .qualified
  | consistent => (firstSwitch references).toList

/-- How the messages of a policy end. -/
def ending : Policy → String
  | consistent => " which is inconsistent with previous references."
  | qualified | unqualified => "."

theorem offendersAfter_nil_eq_objections (p : Policy) (references : List Reference) :
    p.offendersAfter [] references = p.objections (counted references) := by
  cases p with
  | consistent => exact offendersAfter_nil rfl references
  | qualified =>
    rw [offendersAfter_of_required (k := .qualified) rfl]
    refine List.filter_congr fun r _ => ?_
    cases r.kind <;> rfl
  | unqualified =>
    rw [offendersAfter_of_required (k := .unqualified) rfl]
    refine List.filter_congr fun r _ => ?_
    cases r.kind <;> rfl

theorem message_eq (p : Policy) (r : Reference) :
    p.message r = r.kind.capitalized ++ " reference " ++ String.ofList (quoted r.text.toList) ++
      " found in single table select" ++ p.ending := by
  have hcomplaint : p.complaint = " found in single table select" ++ p.ending := by
    cases p <;> decide
  unfold message
  rw [hcomplaint, ← String.append_assoc]

end Policy

theorem violations?_of_several {s : Scope} (h : 1 < s.aliases.length) (p : Policy) :
    violations? p s = none := by
  unfold violations?
  rw [if_pos h]

theorem violations?_of_single {s : Scope} (h : s.aliases.length ≤ 1) (p : Policy) :
    violations? p s = if p.objections (counted s.references) = [] then none
      else some ((p.objections (counted s.references)).map fun r => ⟨r, p.message r⟩) := by
  unfold violations?
  rw [if_neg (by omega), p.offendersAfter_nil_eq_objections]
  cases p.objections (counted s.references) <;> rfl

/-- Where a select reads from several tables there are no violations. Else they are what the policy
objects to among the counted references. -/
theorem violations_are_objections (p : Policy) (s : Scope) :
    (1 < s.aliases.length → violations? p s = none) ∧
    (s.aliases.length ≤ 1 →
      (violations? p s = none ↔ p.objections (counted s.references) = []) ∧
      ((violations? p s).getD []).map Violation.reference = p.objections (counted s.references) ∧
      ∀ v ∈ (violations? p s).getD [], v.message =
        v.reference.kind.capitalized ++ " reference " ++
          String.ofList (quoted v.reference.text.toList) ++ " found in single table select" ++
          p.ending) ∧
    ∀ other : Scope, other.aliases.length = s.aliases.length →
      counted other.references = counted s.references → violations? p other = violations? p s := by
  refine ⟨fun h => violations?_of_several h p, fun h => ?_, fun other haliases hcounted => ?_⟩
  · rw [violations?_of_single h]
    split
    · rename_i hnone
      simp [hnone]
    · rename_i hsome
      refine ⟨by simp [hsome], ?_, ?_⟩
      · rw [Option.getD_some, List.map_map]
        exact List.map_id _
      · intro v hv
        obtain ⟨r, -, rfl⟩ := List.mem_map.1 hv
        exact p.message_eq r
  · by_cases h : 1 < s.aliases.length
    · rw [violations?_of_several h, violations?_of_several (haliases ▸ h)]
    · rw [violations?_of_single (by omega), violations?_of_single (by omega), hcounted]

/-- A select of one table whose references switch from kind to kind, with stars between them. -/
def switching : Scope where
  aliases := [⟨"foo", false, none⟩]
  references := [⟨"*", .unqualified, true, none⟩, ⟨"a", .unqualified, false, none⟩,
    ⟨"foo.b", .qualified, false, none⟩, ⟨"*", .unqualified, true, none⟩,
    ⟨"c", .unqualified, false, none⟩, ⟨"foo.*", .qualified, true, none⟩]
  columnAliases := ["x"]
  sharedColumns := []

/-- Only the first switch is told. Without the stars and under another name the same is told, and
nothing with a second table. -/
theorem switching_violations :
    switching.aliases.length ≤ 1 ∧
      ((violations? .consistent switching).getD []).map Violation.reference =
        [⟨"foo.b", .qualified, false, none⟩] ∧
      violations? .consistent ⟨[⟨"f", true, none⟩], counted switching.references, [], ["k"]⟩ =
        violations? .consistent switching ∧
      violations? .unqualified { switching with aliases := [⟨"a", false, none⟩, ⟨"b", false, none⟩] } =
        none := by
  have hsingle : switching.aliases.length ≤ 1 := by decide
  obtain ⟨-, hone, hsame⟩ := violations_are_objections .consistent switching
  refine ⟨hsingle, (hone hsingle).2.1.trans (by decide), hsame _ rfl (by decide), ?_⟩
  exact (violations_are_objections .unqualified _).1 (by decide)

end ColumnLint
