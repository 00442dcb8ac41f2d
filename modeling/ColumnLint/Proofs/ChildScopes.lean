import ColumnLint.Proofs.Nesting

/-
  The children of the selects of a statement, in their order. Selects are listed with the numbers
  of their parents; those with the parent `i` are the roots of the trees below the select with the
  number `i` (`ListsChildren`), and these are the trees of the selects in that select and nothing
  else (`childrenOf_selects`).
-/

namespace ColumnLint

open Text Sql

/-! ## Trees below trees -/

namespace SelectTree

/-- A select with the sort keys of its query. -/
def root : SelectTree → Select × List Expr
  | node s keys _ => (s, keys)

def children : SelectTree → List SelectTree
  | node _ _ children => children

end SelectTree

mutual
/-- A tree and those below it, in the order of their selects. -/
def SelectTree.subtrees : SelectTree → List SelectTree
  | .node s keys children => .node s keys children :: subtreesOf children

def subtreesOf : List SelectTree → List SelectTree
  | [] => []
  | t :: ts => t.subtrees ++ subtreesOf ts
end

theorem subtreesOf_eq_flatMap (ts : List SelectTree) :
    subtreesOf ts = ts.flatMap SelectTree.subtrees := by
  induction ts with
  | nil => rfl
  | cons t ts ih => rw [subtreesOf, List.flatMap_cons, ih]

theorem subtreesOf_append (ts us : List SelectTree) :
    subtreesOf (ts ++ us) = subtreesOf ts ++ subtreesOf us := by
  rw [subtreesOf_eq_flatMap, List.flatMap_append, ← subtreesOf_eq_flatMap, ← subtreesOf_eq_flatMap]

def PlacedSelect.root (p : PlacedSelect) : Select × List Expr := (p.select, p.keys)

/-- The selects of a list whose parent has the number `m`. -/
def childrenOf (selects : List PlacedSelect) (m : Nat) : List (Select × List Expr) :=
  (selects.filter fun p => p.parent = some m).map PlacedSelect.root

theorem childrenOf_append (xs ys : List PlacedSelect) (m : Nat) :
    childrenOf (xs ++ ys) m = childrenOf xs m ++ childrenOf ys m := by
  unfold childrenOf
  rw [List.filter_append, List.map_append]

theorem childrenOf_cons_of_eq {x : PlacedSelect} {m : Nat} (h : x.parent = some m)
    (xs : List PlacedSelect) : childrenOf (x :: xs) m = x.root :: childrenOf xs m := by
  unfold childrenOf
  rw [List.filter_cons_of_pos (by simpa using h), List.map_cons]

theorem childrenOf_cons_of_ne {x : PlacedSelect} {m : Nat} (h : x.parent ≠ some m)
    (xs : List PlacedSelect) : childrenOf (x :: xs) m = childrenOf xs m := by
  unfold childrenOf
  rw [List.filter_cons_of_neg (by simpa using h)]

/-! ## Children in a listing -/

/-- The selects of trees, numbered from `start` on: the trees have the parent that is given, and the
children of any other select are those of its tree. -/
structure ListsChildren (parent : Option Nat) (start : Nat) (ts : List SelectTree)
    (selects : List PlacedSelect) : Prop where
  roots : selects.map PlacedSelect.root = (subtreesOf ts).map SelectTree.root
  tops : ∀ m, parent = some m → childrenOf selects m = ts.map SelectTree.root
  before : ∀ m, m < start → parent ≠ some m → childrenOf selects m = []
  inside : ∀ (i : Nat) (t : SelectTree), (subtreesOf ts)[i]? = some t →
    childrenOf selects (start + i) = t.children.map SelectTree.root
  behind : ∀ m, start + selects.length ≤ m → childrenOf selects m = []

namespace ListsChildren

variable {parent : Option Nat} {start : Nat} {ts us : List SelectTree}
  {xs ys : List PlacedSelect}

theorem nil (parent : Option Nat) (start : Nat) : ListsChildren parent start [] [] where
  roots := rfl
  tops := fun _ _ => rfl
  before := fun _ _ _ => rfl
  inside := fun i t h => by cases h
  behind := fun _ _ => rfl

theorem length_eq (h : ListsChildren parent start ts xs) : (subtreesOf ts).length = xs.length := by
  simpa using (congrArg List.length h.roots).symm

theorem append (hxs : ListsChildren parent start ts xs)
    (hys : ListsChildren parent (start + xs.length) us ys)
    (hparent : ∀ m, parent = some m → m < start) :
    ListsChildren parent start (ts ++ us) (xs ++ ys) where
  roots := by rw [List.map_append, hxs.roots, hys.roots, subtreesOf_append, List.map_append]
  tops := by
    intro m hm
    rw [childrenOf_append, hxs.tops m hm, hys.tops m hm, List.map_append]
  before := by
    intro m hm hne
    rw [childrenOf_append, hxs.before m hm hne, hys.before m (by omega) hne]
    rfl
  inside := by
    intro i t ht
    rw [subtreesOf_append] at ht
    have hlength := hxs.length_eq
    rw [childrenOf_append]
    by_cases hi : i < xs.length
    · rw [List.getElem?_append_left (by omega)] at ht
      have hne : parent ≠ some (start + i) := by
        intro heq
        have := hparent _ heq
        omega
      rw [hxs.inside i t ht, hys.before (start + i) (by omega) hne, List.append_nil]
    · rw [List.getElem?_append_right (by omega), hlength] at ht
      have hplace : start + i = start + xs.length + (i - xs.length) := by omega
      rw [hxs.behind (start + i) (by omega), hplace, hys.inside _ t ht, List.nil_append]
  behind := by
    intro m hm
    rw [List.length_append] at hm
    rw [childrenOf_append, hxs.behind m (by omega), hys.behind m (by omega)]
    rfl

/-- A select before those below it. -/
theorem node (s : Select) (keys : List Expr) (h : ListsChildren (some start) (start + 1) ts xs)
    (hparent : ∀ m, parent = some m → m < start) :
    ListsChildren parent start [.node s keys ts] (⟨parent, s, keys⟩ :: xs) where
  roots := by
    rw [List.map_cons, h.roots, subtreesOf, SelectTree.subtrees, subtreesOf, List.append_nil]
    rfl
  tops := by
    intro m hm
    have hlt := hparent m hm
    have hne : some start ≠ some m := by
      intro heq
      rw [Option.some.inj heq] at hlt
      omega
    rw [childrenOf_cons_of_eq hm, h.before m (by omega) hne]
    rfl
  before := by
    intro m hm hne
    have hstart : some start ≠ some m := by
      intro heq
      rw [Option.some.inj heq] at hm
      omega
    rw [childrenOf_cons_of_ne hne, h.before m (by omega) hstart]
  inside := by
    intro i t ht
    rw [subtreesOf, SelectTree.subtrees, subtreesOf, List.append_nil] at ht
    have hne : ∀ m, start ≤ m → parent ≠ some m := by
      intro m hm heq
      have := hparent m heq
      omega
    rw [childrenOf_cons_of_ne (hne _ (by omega))]
    cases i with
    | zero =>
      obtain rfl := Option.some.inj ht
      exact h.tops start rfl
    | succ i =>
      rw [List.getElem?_cons_succ] at ht
      rw [← h.inside i t ht]
      congr 1
      omega
  behind := by
    intro m hm
    rw [List.length_cons] at hm
    have hne : parent ≠ some m := by
      intro heq
      have := hparent m heq
      omega
    rw [childrenOf_cons_of_ne hne, h.behind m (by omega)]

end ListsChildren

mutual
theorem listsChildren_tree : (t : SelectTree) → ∀ {parent : Option Nat} {start : Nat},
    (∀ m, parent = some m → m < start) → ListsChildren parent start [t] (t.list parent start)
  | .node s keys children, parent, start, hparent => by
    rw [SelectTree.list]
    refine .node s keys (listsChildren_trees children fun m hm => ?_) hparent
    obtain rfl := Option.some.inj hm
    omega

theorem listsChildren_trees : (ts : List SelectTree) → ∀ {parent : Option Nat} {start : Nat},
    (∀ m, parent = some m → m < start) → ListsChildren parent start ts (listTrees parent start ts)
  | [], parent, start, _ => .nil parent start
  | t :: ts, parent, start, hparent => by
    rw [listTrees]
    refine (listsChildren_tree t hparent).append (listsChildren_trees ts fun m hm => ?_) hparent
    have := hparent m hm
    omega
end

/-! ## Trees of selects -/

theorem mem_subtreesOf {t : SelectTree} {ts : List SelectTree} :
    t ∈ subtreesOf ts ↔ ∃ u ∈ ts, t ∈ u.subtrees := by
  rw [subtreesOf_eq_flatMap, List.mem_flatMap]

/-- Below each select of a node are the selects in it. -/
theorem children_of_mem_subtreesOf (n : Node) :
    ∀ t ∈ subtreesOf n.forest, t.children = (Node.select t.root.1 t.root.2).inner := by
  induction n using Node.searchedInduction with
  | h n ih =>
    have hinner : ∀ t ∈ subtreesOf n.inner,
        t.children = (Node.select t.root.1 t.root.2).inner := by
      intro t ht
      obtain ⟨u, hu, htu⟩ := mem_subtreesOf.1 ht
      obtain ⟨m, hm, hum⟩ := List.mem_flatMap.1 ((inner_perm n).mem_iff.1 hu)
      exact ih m hm t (mem_subtreesOf.2 ⟨u, hum, htu⟩)
    by_cases hn : ∃ s keys, n = .select s keys
    · obtain ⟨s, keys, rfl⟩ := hn
      intro t ht
      obtain ⟨u, hu, ht⟩ := mem_subtreesOf.1 ht
      obtain rfl := List.mem_singleton.1 hu
      rcases List.mem_cons.1 ht with rfl | ht
      · rfl
      · exact hinner t ht
    · rw [Node.forest_eq_inner fun s keys heq => hn ⟨s, keys, heq⟩]
      exact hinner

/-- The children of a select of a statement are the roots of the trees of the selects in it. -/
theorem childrenOf_selects {s : Statement} {i : Nat} {e : PlacedSelect}
    (h : s.selects[i]? = some e) :
    childrenOf s.selects i = (Node.select e.select e.keys).inner.map SelectTree.root := by
  have hlists : ListsChildren none 0 s.forest s.selects :=
    listsChildren_trees s.forest fun m hm => by cases hm
  have hroot : ((subtreesOf s.forest).map SelectTree.root)[i]? = some e.root := by
    rw [← hlists.roots, List.getElem?_map, h]
    rfl
  rw [List.getElem?_map, Option.map_eq_some_iff] at hroot
  obtain ⟨t, ht, hroot⟩ := hroot
  have hchildren : t.children = (Node.select e.select e.keys).inner := by
    have htrees := children_of_mem_subtreesOf (.statement s) t (List.mem_of_getElem? ht)
    rw [hroot] at htrees
    exact htrees
  rw [← hchildren, ← hlists.inside i t ht, Nat.zero_add]

end ColumnLint
