import ColumnLint.Proofs.SelectPlaces
import Mathlib.Data.Nat.Find
import Mathlib.Logic.Relation

/-
  The parents of the selects of a statement. Each select is listed behind its parent, and between
  the two there are only selects below the parent (`nested_selects`); so the selects that descend
  from one are a block right behind it (`exists_block`). The parent is the innermost select around
  the place of a select (`scopes_list_forest`).
-/

namespace ColumnLint

open Text Sql

/-- An entry of a list descends from another one, by the numbers of their parents. -/
def Descends (parents : List (Option Nat)) : Nat → Nat → Prop :=
  Relation.TransGen fun j i => parents[i]? = some (some j)

/-- The parents of entries that are numbered from `start` on. Each is the one that is given or an
earlier entry, and an entry between another one and its parent has no parent before that one. -/
structure Nested (parent : Option Nat) (start : Nat) (parents : List (Option Nat)) : Prop where
  earlier : ∀ (i : Nat) (q : Option Nat), parents[i]? = some q →
    q = parent ∨ ∃ m, q = some m ∧ start ≤ m ∧ m < start + i
  between : ∀ (i m : Nat), parents[i]? = some (some m) → start ≤ m →
    ∀ k, m < start + k → k ≤ i → ∃ m', parents[k]? = some (some m') ∧ m ≤ m'

namespace Nested

variable {parent : Option Nat} {start : Nat} {ps qs : List (Option Nat)}

theorem nil (parent : Option Nat) (start : Nat) : Nested parent start [] where
  earlier := fun i q h => by simp at h
  between := fun i m h => by simp at h

theorem append (hp : Nested parent start ps) (hq : Nested parent (start + ps.length) qs)
    (hparent : ∀ m, parent = some m → m < start) : Nested parent start (ps ++ qs) where
  earlier := by
    intro i q h
    by_cases hi : i < ps.length
    · rw [List.getElem?_append_left hi] at h
      exact hp.earlier i q h
    · rw [List.getElem?_append_right (by omega)] at h
      rcases hq.earlier _ q h with hq | ⟨m, hm, hle, hlt⟩
      · exact .inl hq
      · exact .inr ⟨m, hm, by omega, by omega⟩
  between := by
    intro i m h hm k hk hki
    by_cases hi : i < ps.length
    · rw [List.getElem?_append_left hi] at h
      obtain ⟨m', hm', hle⟩ := hp.between i m h hm k hk hki
      exact ⟨m', by rw [List.getElem?_append_left (by omega), hm'], hle⟩
    · rw [List.getElem?_append_right (by omega)] at h
      -- the parent is in the second list, and so is what stands behind it
      have hlast : start + ps.length ≤ m := by
        rcases hq.earlier _ _ h with heq | ⟨m', heq, hle, -⟩
        · have := hparent m heq.symm
          omega
        · rw [Option.some.inj heq]
          exact hle
      obtain ⟨m', hm', hle⟩ := hq.between _ m h hlast (k - ps.length) (by omega) (by omega)
      exact ⟨m', by rw [List.getElem?_append_right (by omega), hm'], hle⟩

/-- An entry before those below it. -/
theorem node (parent : Option Nat) (h : Nested (some start) (start + 1) ps) :
    Nested parent start (parent :: ps) where
  earlier := by
    intro i q hq
    cases i with
    | zero => exact .inl (Option.some.inj hq).symm
    | succ i =>
      rw [List.getElem?_cons_succ] at hq
      rcases h.earlier i q hq with rfl | ⟨m, rfl, hle, hlt⟩
      · exact .inr ⟨start, rfl, by omega, by omega⟩
      · exact .inr ⟨m, rfl, by omega, by omega⟩
  between := by
    intro i m hm hle k hk hki
    obtain ⟨k, rfl⟩ : ∃ k', k = k' + 1 := ⟨k - 1, by omega⟩
    obtain ⟨i, rfl⟩ : ∃ i', i = i' + 1 := ⟨i - 1, by omega⟩
    rw [List.getElem?_cons_succ] at hm ⊢
    by_cases hfirst : m = start
    · -- everything behind the first entry has a parent from it on
      obtain ⟨q, hq⟩ : ∃ q, ps[k]? = some q := by
        have hlen := (List.getElem?_eq_some_iff.1 hm).1
        exact ⟨ps[k], List.getElem?_eq_getElem (by omega)⟩
      rcases h.earlier k q hq with rfl | ⟨m', rfl, hle', -⟩
      · exact ⟨start, hq, by omega⟩
      · exact ⟨m', hq, by omega⟩
    · exact h.between i m hm (by omega) k (by omega) (by omega)

end Nested

mutual
theorem nested_tree : (t : SelectTree) → (parent : Option Nat) → (start : Nat) →
    Nested parent start ((t.list parent start).map PlacedSelect.parent)
  | .node s keys children, parent, start => by
    rw [SelectTree.list, List.map_cons]
    refine .node parent (nested_trees children fun m hm => ?_)
    obtain rfl := Option.some.inj hm
    omega

/-- The parents in a listing of trees. -/
theorem nested_trees : (ts : List SelectTree) → ∀ {parent : Option Nat} {start : Nat},
    (∀ m, parent = some m → m < start) →
    Nested parent start ((listTrees parent start ts).map PlacedSelect.parent)
  | [], parent, start, _ => .nil parent start
  | t :: ts, parent, start, hparent => by
    rw [listTrees, List.map_append]
    refine (nested_tree t parent start).append ?_ hparent
    rw [List.length_map]
    refine nested_trees ts fun m hm => ?_
    have := hparent m hm
    omega
end

/-! ## Blocks -/

namespace Nested

variable {parents : List (Option Nat)} {i j k : Nat}

theorem lt_of_parent (h : Nested none 0 parents) (hij : parents[i]? = some (some j)) : j < i := by
  rcases h.earlier i _ hij with heq | ⟨m, heq, -, hlt⟩
  · cases heq
  · rw [Option.some.inj heq]
    omega

theorem lt_of_descends (h : Nested none 0 parents) (hij : Descends parents j i) : j < i := by
  induction hij with
  | single hparent => exact h.lt_of_parent hparent
  | tail _ hparent ih =>
    have := h.lt_of_parent hparent
    omega

/-- What stands between an entry and its parent descends from the parent. -/
theorem descends_of_parent (h : Nested none 0 parents) (hij : parents[i]? = some (some j))
    (hk : j < k) (hki : k ≤ i) : Descends parents j k := by
  induction k using Nat.strongRecOn with
  | ind k ih =>
    obtain ⟨m, hm, hle⟩ := h.between i j hij (by omega) k (by omega) hki
    have hlt := h.lt_of_parent hm
    by_cases heq : m = j
    · rw [heq] at hm
      exact .single hm
    · exact .tail (ih m hlt (by omega) (by omega)) hm

theorem descends_of_le (h : Nested none 0 parents) (hij : Descends parents j i) (hk : j < k)
    (hki : k ≤ i) : Descends parents j k := by
  induction hij with
  | single hparent => exact h.descends_of_parent hparent hk hki
  | @tail m i hjm hparent ih =>
    by_cases hkm : k ≤ m
    · exact ih hkm
    · exact hjm.trans (h.descends_of_parent hparent (by omega) hki)

/-- What descends from an entry is a block right behind it. -/
theorem exists_block (h : Nested none 0 parents) (j : Nat) :
    ∃ n, ∀ i, Descends parents j i ↔ j < i ∧ i ≤ j + n := by
  classical
  let P := fun n => Descends parents j (j + n)
  refine ⟨Nat.findGreatest P parents.length, fun i => ⟨fun hij => ?_, fun hi => ?_⟩⟩
  · have hlt := h.lt_of_descends hij
    have hlen : i < parents.length := by
      cases hij with
      | single hparent => exact (List.getElem?_eq_some_iff.1 hparent).1
      | tail _ hparent => exact (List.getElem?_eq_some_iff.1 hparent).1
    have hP : P (i - j) := by
      show Descends parents j (j + (i - j))
      rwa [Nat.add_sub_cancel' (by omega)]
    have hle : i - j ≤ Nat.findGreatest P parents.length := Nat.le_findGreatest (by omega) hP
    exact ⟨hlt, by omega⟩
  · have hlast : P (Nat.findGreatest P parents.length) :=
      Nat.findGreatest_of_ne_zero rfl (by omega)
    exact h.descends_of_le hlast hi.1 hi.2

end Nested

/-! ## Parents of scopes -/

theorem nested_selects (s : Statement) : Nested none 0 (s.selects.map PlacedSelect.parent) :=
  nested_trees s.forest fun m hm => by cases hm

theorem parents_selectScopes (text : List Char) (s : Statement) :
    (selectScopes text s).map PlacedScope.parent = s.selects.map PlacedSelect.parent := by
  unfold selectScopes
  rw [List.map_map]
  rfl

/-- The scopes of a statement are listed as a forest. Each select has a place; a select in no
other one has no parent, and the parent of any other is the innermost select around its place,
listed before it; and what descends from a select is a block right behind it. -/
theorem scopes_list_forest (text : List Char) (s : Statement) :
    (∃ places : List (List Child), places.length = s.selects.length ∧ places.Nodup ∧
      ∀ (i : Nat) (p : List Child) (e : PlacedSelect), places[i]? = some p →
        s.selects[i]? = some e →
        (selectScopes text s)[i]? = some (e.scope text) ∧
        (Node.statement s).at? p = some (.select e.select e.keys) ∧
        ((e.parent = none ∧ ∀ q, ¬(Node.statement s).Encloses q p) ∨
          ∃ j q, e.parent = some j ∧ j < i ∧ places[j]? = some q ∧
            (Node.statement s).Innermost q p)) ∧
    ∀ j, ∃ n, ∀ i,
      Descends ((selectScopes text s).map PlacedScope.parent) j i ↔ j < i ∧ i ≤ j + n := by
  constructor
  · obtain ⟨zs, h⟩ := exists_placement s
    refine ⟨zs.map Prod.fst, ?_, h.nodup, fun i p e hp he => ?_⟩
    · rw [← h.selects, List.length_map, List.length_map]
    · rw [List.getElem?_map] at hp
      obtain ⟨z, hz, rfl⟩ := Option.map_eq_some_iff.1 hp
      obtain rfl : z.2 = e := by
        rw [← h.selects, List.getElem?_map, hz] at he
        exact Option.some.inj he
      refine ⟨?_, h.at_place z (List.mem_of_getElem? hz), ?_⟩
      · unfold selectScopes
        rw [List.getElem?_map, he, Option.map_some]
      · rcases h.parents i z hz with hnone | ⟨j, y, hj, hy, hparent, hin⟩
        · exact .inl hnone
        · exact .inr ⟨j, y.1, hparent, hj, by rw [List.getElem?_map, hy, Option.map_some], hin⟩
  · rw [parents_selectScopes]
    exact (nested_selects s).exists_block

end ColumnLint
