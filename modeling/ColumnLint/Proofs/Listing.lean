import ColumnLint.Scope.Forest
import ColumnLint.Sql.Parse

/-
  The list of a scope's references: the references of the select's leaves, each once
  (`references_perm`), in the order of their places with those without a place behind
  (`pairwise_references`).
-/

namespace ColumnLint

open Text Sql

namespace Reference

theorem before_trans (a b c : Reference) (hab : a.before b = true) (hbc : b.before c = true) :
    a.before c = true := by
  unfold before at *
  cases ha : a.span <;> cases hb : b.span <;> cases hc : c.span <;>
    simp_all only [decide_eq_true_eq, Bool.false_eq_true]
  omega

theorem before_total (a b : Reference) : (a.before b || b.before a) = true := by
  unfold before
  cases ha : a.span <;> cases hb : b.span <;> simp
  omega

end Reference

namespace Scope

variable {text : List Char} {s : Select} {keys : List Expr}

theorem references_perm (text : List Char) (s : Select) (keys : List Expr) :
    (ofSelect text s keys).references.Perm ((s.leaves keys).map (Reference.ofLeaf text)) :=
  List.mergeSort_perm ..

/-- References that are met in order stay as they are. -/
theorem references_of_pairwise
    (h : ((s.leaves keys).map (Reference.ofLeaf text)).Pairwise fun a b => a.before b = true) :
    (ofSelect text s keys).references = (s.leaves keys).map (Reference.ofLeaf text) :=
  List.mergeSort_of_pairwise h

theorem mem_references {r : Reference} :
    r ∈ (ofSelect text s keys).references ↔
      ∃ leaf ∈ s.leaves keys, Reference.ofLeaf text leaf = r := by
  rw [(references_perm text s keys).mem_iff, List.mem_map]

end Scope

theorem mem_selectScopes {text : List Char} {s : Statement} {placed : PlacedScope} :
    placed ∈ selectScopes text s ↔ ∃ p ∈ s.selects, p.scope text = placed := List.mem_map

/-! ## Texts -/

/-- Some select of the statement with the number `n` of a text passes a check. -/
def someSelect (d : Dialect) (text : List Char) (n : Nat) (check : PlacedSelect → Bool) : Bool :=
  match parse d text with
  | .ok statements =>
    match statements[n]? with
    | some s => s.selects.any check
    | none => false
  | .error _ => false

theorem exists_of_someSelect {d : Dialect} {text : List Char} {n : Nat}
    {check : PlacedSelect → Bool} (h : someSelect d text n check = true) :
    ∃ statements s p, parse d text = .ok statements ∧ statements[n]? = some s ∧ p ∈ s.selects ∧
      check p = true := by
  unfold someSelect at h
  split at h
  · rename_i statements hparse
    split at h
    · rename_i s hs
      obtain ⟨p, hp, hcheck⟩ := List.any_eq_true.1 h
      exact ⟨statements, s, p, hparse, hs, hp, hcheck⟩
    · cases h
  · cases h

/-- The statement with the number `n` of a text passes a check. -/
def someStatement (d : Dialect) (text : List Char) (n : Nat) (check : Statement → Bool) : Bool :=
  match parse d text with
  | .ok statements =>
    match statements[n]? with
    | some s => check s
    | none => false
  | .error _ => false

theorem exists_of_someStatement {d : Dialect} {text : List Char} {n : Nat}
    {check : Statement → Bool} (h : someStatement d text n check = true) :
    ∃ statements s, parse d text = .ok statements ∧ statements[n]? = some s ∧ check s = true := by
  unfold someStatement at h
  split at h
  · rename_i statements hparse
    split at h
    · rename_i s hs
      exact ⟨statements, s, hparse, hs, h⟩
    · cases h
  · cases h

/-- The select has one table, and these are its references as they are met. -/
def PlacedSelect.meets (text : List Char) (references : List Reference) (p : PlacedSelect) :
    Bool :=
  (p.scope text).scope.aliases.length == 1 &&
    (p.select.leaves p.keys).map (Reference.ofLeaf text) == references

theorem PlacedSelect.scope_of_meets {text : List Char} {references : List Reference}
    {p : PlacedSelect} (h : p.meets text references = true)
    (hsorted : references.Pairwise fun a b => a.before b = true) :
    (p.scope text).scope.aliases.length = 1 ∧ (p.scope text).scope.references = references := by
  simp only [meets, Bool.and_eq_true, beq_iff_eq] at h
  obtain ⟨hone, rfl⟩ := h
  exact ⟨hone, Scope.references_of_pairwise hsorted⟩

end ColumnLint
