import ColumnLint.Proofs.ChildScopes
import ColumnLint.Proofs.Offender
import Mathlib.Data.List.Lex

/-
  The table sources that a select reads from. The clause `FROM` is a tree whose inner nodes are
  joins in parentheses; a route through it gives at each step the number of a part from left to
  right (`PartAt`). Each leaf gives one alias, each join its shared columns and each derived table
  its selects, all in the order of their routes (`scopes_list_table_leaves`). So a select has issues
  only if the tree has one leaf.
-/

namespace ColumnLint

open Text Sql

/-! ## Lists in the order of places -/

/-- The list holds what stands at the places of `At`, each place once, in lexicographic order. -/
def ListedInOrder {α : Type} (At : List Nat → α → Prop) (xs : List α) : Prop :=
  ∃ places : List (List Nat × α), places.map Prod.snd = xs ∧
    (places.map Prod.fst).Pairwise (List.Lex (· < ·)) ∧ ∀ p x, (p, x) ∈ places ↔ At p x

namespace ListedInOrder

variable {α β : Type} {A B : List Nat → α → Prop} {xs : List α}

theorem congr (h : ∀ p x, A p x ↔ B p x) (ha : ListedInOrder A xs) : ListedInOrder B xs := by
  obtain ⟨places, hxs, horder, hmem⟩ := ha
  exact ⟨places, hxs, horder, fun p x => (hmem p x).trans (h p x)⟩

theorem singleton (x : α) : ListedInOrder (fun p y => p = [] ∧ y = x) [x] :=
  ⟨[([], x)], rfl, List.pairwise_singleton _ _, fun p y => by simp⟩

/-- For each item of a list a list of its own: a place is the number of the item and a place in its
list. -/
theorem flatMap {C : β → List Nat → α → Prop} {f : β → List α} {ys : List β}
    (h : ∀ y ∈ ys, ListedInOrder (C y) (f y)) :
    ListedInOrder (fun p x => ∃ i route y, p = i :: route ∧ ys[i]? = some y ∧ C y route x)
      (ys.flatMap f) := by
  choose! g hg using h
  have hitem : ∀ a ∈ ys.zipIdx, a.1 ∈ ys := by
    rintro ⟨y, i⟩ ha
    exact List.mem_of_getElem? (List.mk_mem_zipIdx_iff_getElem?.1 ha)
  refine ⟨ys.zipIdx.flatMap fun a => (g a.1).map fun b => (a.2 :: b.1, b.2), ?_, ?_,
    fun p x => ?_⟩
  · have hys : ys.flatMap f = ys.zipIdx.flatMap fun a => f a.1 := by
      conv_lhs => rw [← List.zipIdx_map_fst 0 ys, List.flatMap_map]
    rw [List.map_flatMap, hys]
    apply List.flatMap_congr
    intro a ha
    rw [List.map_map, ← (hg a.1 (hitem a ha)).1]
    rfl
  · have hnumbers : ys.zipIdx.Pairwise fun a b => a.2 < b.2 := by
      rw [← List.pairwise_map, List.zipIdx_map_snd]
      exact List.pairwise_lt_range'
    rw [List.map_flatMap, List.pairwise_flatMap]
    constructor
    · intro a ha
      rw [List.map_map, List.pairwise_map]
      exact (List.pairwise_map.1 (hg a.1 (hitem a ha)).2.1).imp .cons
    · -- places in the lists of different items differ in their first number
      refine hnumbers.imp fun {a b} hab p hp q hq => ?_
      simp only [List.map_map, List.mem_map, Function.comp_apply] at hp hq
      obtain ⟨c, -, rfl⟩ := hp
      obtain ⟨d, -, rfl⟩ := hq
      exact .rel hab
  · simp only [List.mem_flatMap, List.mem_map]
    constructor
    · rintro ⟨⟨y, i⟩, hy, ⟨route, z⟩, hz, heq⟩
      obtain ⟨rfl, rfl⟩ := Prod.mk.inj heq
      exact ⟨i, route, y, rfl, List.mk_mem_zipIdx_iff_getElem?.1 hy,
        ((hg y (hitem _ hy)).2.2 route z).1 hz⟩
    · rintro ⟨i, route, y, rfl, hi, hx⟩
      have hy := List.mk_mem_zipIdx_iff_getElem?.2 hi
      exact ⟨(y, i), hy, (route, x), ((hg y (hitem _ hy)).2.2 route x).2 hx, rfl⟩

/-- The items of a list that a function keeps. -/
theorem filterMap (f : α → Option β) (ha : ListedInOrder A xs) :
    ListedInOrder (fun p y => ∃ x, A p x ∧ f x = some y) (xs.filterMap f) := by
  obtain ⟨places, rfl, horder, hmem⟩ := ha
  refine ⟨places.filterMap fun a => (f a.2).map fun y => (a.1, y), ?_, ?_, fun p y => ?_⟩
  · rw [List.map_filterMap, List.filterMap_map]
    apply List.filterMap_congr
    intro a _
    cases h : f a.2 <;> simp [h]
  · rw [List.pairwise_map] at horder ⊢
    rw [List.pairwise_filterMap]
    refine horder.imp fun {a b} hab x hx y hy => ?_
    obtain ⟨-, -, rfl⟩ := Option.map_eq_some_iff.1 hx
    obtain ⟨-, -, rfl⟩ := Option.map_eq_some_iff.1 hy
    exact hab
  · simp only [List.mem_filterMap, Option.map_eq_some_iff, Prod.mk.injEq]
    constructor
    · rintro ⟨⟨q, x⟩, hx, z, hz, rfl, rfl⟩
      exact ⟨x, (hmem q x).1 hx, hz⟩
    · rintro ⟨x, hx, hy⟩
      exact ⟨(p, x), (hmem p x).2 hx, y, hy, rfl, rfl⟩

theorem length_eq_one_iff (ha : ListedInOrder A xs) : xs.length = 1 ↔ ∃! p, ∃ x, A p x := by
  obtain ⟨places, rfl, horder, hmem⟩ := ha
  rw [List.length_map]
  constructor
  · intro h
    obtain ⟨⟨p, x⟩, rfl⟩ := List.length_eq_one_iff.1 h
    refine ⟨p, ⟨x, (hmem p x).1 List.mem_cons_self⟩, fun q hq => ?_⟩
    obtain ⟨y, hy⟩ := hq
    exact (Prod.mk.inj (List.mem_singleton.1 ((hmem q y).2 hy))).1
  · rintro ⟨p, ⟨x, hx⟩, hunique⟩
    have hall : ∀ a ∈ places, a.1 = p := fun a ha => hunique a.1 ⟨a.2, (hmem a.1 a.2).1 ha⟩
    -- two places would be the same, and no place is before itself
    have hshort : ¬1 < places.length := by
      intro hlt
      have hbefore := List.pairwise_iff_getElem.1 (List.pairwise_map.1 horder) 0 1
        (by omega) hlt (by omega)
      rw [hall _ (List.getElem_mem _), hall _ (List.getElem_mem _)] at hbefore
      exact irrefl_of (List.Lex (· < ·)) p hbefore
    have hpos := List.length_pos_of_mem ((hmem p x).2 hx)
    omega

end ListedInOrder

/-! ## The tree of table sources -/

/-- A part of joined tables: a table source, or the columns that a join shares. -/
inductive TablePart where
  | source (s : Source)
  | shared (names : List Name)

/-- The parts of joined tables from left to right: the first source, and for each join its source
and the columns that it shares. -/
def Sql.Joined.parts (t : Joined) : List TablePart :=
  .source t.source :: t.joins.flatMap fun j => [.source j.source, .shared j.shared]

/-- The part at the end of a route through joined tables, joins in parentheses entered. -/
inductive Sql.Joined.PartAt : Joined → List Nat → TablePart → Prop where
  | here {t : Joined} {i : Nat} {part : TablePart} (hi : t.parts[i]? = some part) :
    PartAt t [i] part
  | inside {t inner : Joined} {label : Option Alias} {i : Nat} {route : List Nat}
    {part : TablePart} (hi : t.parts[i]? = some (.source (.nested inner label)))
    (h : PartAt inner route part) : PartAt t (i :: route) part

/-- A part that holds no others: columns, or a source that is no join in parentheses. -/
def TablePart.IsLeaf (part : TablePart) : Prop := ∀ t label, part ≠ .source (.nested t label)

/-- The part at the end of a route from a select. -/
def Sql.Select.PartAt (s : Select) (route : List Nat) (part : TablePart) : Prop :=
  ∃ i rest t, route = i :: rest ∧ s.sources[i]? = some t ∧ t.PartAt rest part

/-- The table source at the end of a route from a select, if that is a leaf. -/
def Sql.Select.TableAt (s : Select) (route : List Nat) (leaf : Source) : Prop :=
  s.PartAt route (.source leaf) ∧ (TablePart.source leaf).IsLeaf

/-! ## One walk through the tree -/

mutual
/-- The parts that hold no others, in the order in which a walk from left to right meets them. -/
def Sql.Source.walk : Source → List TablePart
  | .nested tables _ => tables.walk
  | s => [.source s]

def Sql.Joined.walk : Joined → List TablePart
  | ⟨source, joins⟩ => source.walk ++ joinsWalk joins

def joinsWalk : List Join → List TablePart
  | [] => []
  | ⟨_, source, _, _, names⟩ :: joins => source.walk ++ .shared names :: joinsWalk joins
end

namespace TablePart

def walk : TablePart → List TablePart
  | source s => s.walk
  | shared names => [.shared names]

/-- The leaves of a part: itself, or those in its parentheses. -/
def LeafAt : TablePart → List Nat → TablePart → Prop
  | source (.nested t _), route, leaf => t.PartAt route leaf ∧ leaf.IsLeaf
  | part, route, leaf => route = [] ∧ leaf = part

theorem leafAt_of_isLeaf {part : TablePart} (h : part.IsLeaf) (route : List Nat)
    (leaf : TablePart) : part.LeafAt route leaf ↔ route = [] ∧ leaf = part := by
  cases part with
  | shared names => exact Iff.rfl
  | source s =>
    cases s with
    | nested t label => exact absurd rfl (h t label)
    | _ => exact Iff.rfl

def table? : TablePart → Option Source
  | source s => some s
  | shared _ => none

def names? : TablePart → Option (List Name)
  | source _ => none
  | shared names => some names

end TablePart

theorem Sql.Joined.walk_eq_flatMap (t : Joined) : t.walk = t.parts.flatMap TablePart.walk := by
  obtain ⟨source, joins⟩ := t
  have hjoins : joinsWalk joins = (joins.flatMap fun j =>
      [TablePart.source j.source, .shared j.shared]).flatMap TablePart.walk := by
    induction joins with
    | nil => rfl
    | cons j joins ih =>
      obtain ⟨words, source, matching, on, names⟩ := j
      rw [joinsWalk, ih]
      rfl
  rw [Joined.walk, hjoins]
  rfl

/-- A leaf of joined tables is one of a part of theirs. -/
theorem Sql.Joined.partAt_iff {t : Joined} {p : List Nat} {leaf : TablePart} :
    t.PartAt p leaf ∧ leaf.IsLeaf ↔
      ∃ i route part, p = i :: route ∧ t.parts[i]? = some part ∧ part.LeafAt route leaf := by
  constructor
  · rintro ⟨h, hleaf⟩
    cases h with
    | here hi => exact ⟨_, [], leaf, rfl, hi, (TablePart.leafAt_of_isLeaf hleaf _ _).2 ⟨rfl, rfl⟩⟩
    | inside hi h => exact ⟨_, _, _, rfl, hi, h, hleaf⟩
  · rintro ⟨i, route, part, rfl, hi, h⟩
    by_cases hnested : ∃ inner label, part = .source (.nested inner label)
    · obtain ⟨inner, label, rfl⟩ := hnested
      exact ⟨.inside hi h.1, h.2⟩
    · have hpart : part.IsLeaf := fun inner label heq => hnested ⟨inner, label, heq⟩
      obtain ⟨rfl, rfl⟩ := (TablePart.leafAt_of_isLeaf hpart _ _).1 h
      exact ⟨.here hi, hpart⟩

theorem listed_leaf_part {part : TablePart} (h : part.IsLeaf) (hwalk : part.walk = [part]) :
    ListedInOrder part.LeafAt part.walk := by
  rw [hwalk]
  exact (ListedInOrder.singleton part).congr fun route leaf =>
    (TablePart.leafAt_of_isLeaf h route leaf).symm

theorem listed_walk_of_parts {t : Joined}
    (h : ∀ part ∈ t.parts, ListedInOrder part.LeafAt part.walk) :
    ListedInOrder (fun p leaf => t.PartAt p leaf ∧ leaf.IsLeaf) t.walk := by
  rw [Joined.walk_eq_flatMap]
  exact (ListedInOrder.flatMap h).congr fun p leaf => Joined.partAt_iff.symm

mutual
theorem listed_source_walk : (s : Source) →
    ListedInOrder (TablePart.source s).LeafAt (TablePart.source s).walk
  | .nested t _ => listed_walk t
  | .table .. | .derived .. | .computed .. | .reshaped .. =>
    listed_leaf_part (fun t label heq => by cases heq) rfl

/-- A walk through joined tables lists their leaves in the order of their routes. -/
theorem listed_walk : (t : Joined) →
    ListedInOrder (fun p leaf => t.PartAt p leaf ∧ leaf.IsLeaf) t.walk
  | ⟨source, joins⟩ => listed_walk_of_parts fun part hpart => by
    rcases List.mem_cons.1 hpart with rfl | hpart
    · exact listed_source_walk source
    · exact listed_joins_walk joins part hpart

theorem listed_joins_walk : (joins : List Join) →
    ∀ part ∈ joins.flatMap fun j => [TablePart.source j.source, .shared j.shared],
      ListedInOrder part.LeafAt part.walk
  | [], _, h => absurd h List.not_mem_nil
  | ⟨_, source, _, _, names⟩ :: joins, part, h => by
    rcases List.mem_append.1 h with h | h
    · rcases List.mem_cons.1 h with rfl | h
      · exact listed_source_walk source
      · obtain rfl := List.mem_singleton.1 h
        exact listed_leaf_part (fun t label heq => by cases heq) rfl
    · exact listed_joins_walk joins part h
end

/-! ## What is gathered on the walk -/

/-- The query of a derived table. -/
def Sql.Source.query? : Source → Option Query
  | .derived _ q _ => some q
  | .table .. | .nested .. | .computed .. | .reshaped .. => none

/-- The lists that are gathered from table sources, each for itself: they hold what one walk meets,
and their selects are those of the derived tables and those of the conditions. -/
structure Gathered (walk : List TablePart) (leaves : List Source) (shared : List Name)
    (conditions : List Expr) (derived inner : List SelectTree) : Prop where
  leaves_eq : leaves = walk.filterMap TablePart.table?
  shared_eq : shared = (walk.filterMap TablePart.names?).flatten
  derived_eq : derived = (leaves.filterMap Source.query?).flatMap Query.forest
  inner_eq : inner = conditions.flatMap Expr.forest

namespace Gathered

variable {walk walk' : List TablePart} {leaves leaves' : List Source} {shared shared' : List Name}
  {conditions conditions' : List Expr} {derived derived' inner inner' : List SelectTree}

theorem nil : Gathered [] [] [] [] [] [] := ⟨rfl, rfl, rfl, rfl⟩

theorem append (h : Gathered walk leaves shared conditions derived inner)
    (h' : Gathered walk' leaves' shared' conditions' derived' inner') :
    Gathered (walk ++ walk') (leaves ++ leaves') (shared ++ shared') (conditions ++ conditions')
      (derived ++ derived') (inner ++ inner') where
  leaves_eq := by rw [h.leaves_eq, h'.leaves_eq, List.filterMap_append]
  shared_eq := by rw [h.shared_eq, h'.shared_eq, List.filterMap_append, List.flatten_append]
  derived_eq := by rw [h.derived_eq, h'.derived_eq, List.filterMap_append, List.flatMap_append]
  inner_eq := by rw [h.inner_eq, h'.inner_eq, List.flatMap_append]

/-- Behind the source of a join comes what it matches rows by. -/
theorem join (names : List Name) (on : List Expr) :
    Gathered [.shared names] [] names on [] (listForest on) where
  leaves_eq := rfl
  shared_eq := (List.append_nil names).symm
  derived_eq := rfl
  inner_eq := listForest_eq_flatMap on

end Gathered

mutual
theorem gathered_source : (s : Source) →
    Gathered s.walk s.leaves s.shared s.conditions s.derivedForest s.conditionForest
  | .nested t _ => gathered_joined t
  | .derived _ q _ => ⟨rfl, rfl, (List.append_nil q.forest).symm, rfl⟩
  | .table .. | .computed .. | .reshaped .. => ⟨rfl, rfl, rfl, rfl⟩

theorem gathered_joined : (t : Joined) →
    Gathered t.walk t.leaves t.shared t.conditions t.derivedForest t.conditionForest
  | ⟨source, joins⟩ => (gathered_source source).append (gathered_joins joins)

theorem gathered_joins : (joins : List Join) →
    Gathered (joinsWalk joins) (joinLeaves joins) (joinShared joins) (joinConditions joins)
      (joinsForest joins) (joinConditionForest joins)
  | [] => .nil
  | ⟨_, source, _, on, names⟩ :: joins => by
    have h := ((gathered_source source).append (.join names on)).append (gathered_joins joins)
    rwa [List.append_assoc, List.append_nil, List.append_nil] at h
end

theorem gathered_tables (tables : List Joined) :
    Gathered (tables.flatMap Joined.walk) (tables.flatMap Joined.leaves)
      (tables.flatMap Joined.shared) (tables.flatMap Joined.conditions)
      (sourcesForest tables) (conditionsForest tables) := by
  induction tables with
  | nil => exact .nil
  | cons t tables ih =>
    simp only [List.flatMap_cons]
    exact (gathered_joined t).append ih

/-! ## The tables of a select -/

namespace Sql.Select

/-- The expressions of a select's own clauses. -/
def exprs (s : Select) (keys : List Expr) : List Expr :=
  s.projection.flatMap Item.exprs ++ s.sources.flatMap Joined.conditions ++ s.clauses keys

theorem listed_leaves (s : Select) :
    ListedInOrder (fun p leaf => s.PartAt p leaf ∧ leaf.IsLeaf)
      (s.sources.flatMap Joined.walk) := by
  refine (ListedInOrder.flatMap fun t _ => listed_walk t).congr fun p leaf => ?_
  constructor
  · rintro ⟨i, route, t, rfl, hi, h, hleaf⟩
    exact ⟨⟨i, route, t, rfl, hi, h⟩, hleaf⟩
  · rintro ⟨⟨i, route, t, rfl, hi, h⟩, hleaf⟩
    exact ⟨i, route, t, rfl, hi, h, hleaf⟩

theorem listed_tables (s : Select) :
    ListedInOrder s.TableAt (s.sources.flatMap Joined.leaves) := by
  rw [(gathered_tables s.sources).leaves_eq]
  refine (s.listed_leaves.filterMap TablePart.table?).congr fun p leaf => ?_
  constructor
  · rintro ⟨part, h, hpart⟩
    cases part with
    | source t =>
      obtain rfl := Option.some.inj hpart
      exact h
    | shared names => cases hpart
  · intro h
    exact ⟨.source leaf, h, rfl⟩

theorem listed_shared (s : Select) :
    ListedInOrder (fun p names => s.PartAt p (.shared names))
      ((s.sources.flatMap Joined.walk).filterMap TablePart.names?) := by
  refine (s.listed_leaves.filterMap TablePart.names?).congr fun p names => ?_
  constructor
  · rintro ⟨part, h, hpart⟩
    cases part with
    | source t => cases hpart
    | shared names' =>
      obtain rfl := Option.some.inj hpart
      exact h.1
  · intro h
    exact ⟨.shared names, ⟨h, fun t label heq => by cases heq⟩, rfl⟩

/-- The selects in a select are those of its derived tables, then those in its expressions. -/
theorem inner_eq (s : Select) (keys : List Expr) :
    (Node.select s keys).inner =
      ((s.sources.flatMap Joined.leaves).filterMap Source.query?).flatMap Query.forest
        ++ (s.exprs keys).flatMap Expr.forest := by
  have hderived : s.derivedForest = sourcesForest s.sources := by
    cases s
    rfl
  have hinner : s.innerForest ++ listForest keys = (s.exprs keys).flatMap Expr.forest := by
    cases s
    simp only [innerForest, exprs, clauses, itemsForest_eq_flatMap, windowsForest_eq_flatMap,
      listForest_eq_flatMap, (gathered_tables _).inner_eq, List.flatMap_append, List.append_assoc]
  show s.derivedForest ++ s.innerForest ++ listForest keys = _
  rw [List.append_assoc, hinner, hderived, (gathered_tables s.sources).derived_eq]

end Sql.Select

/-! ## Child scopes and issues -/

/-- The scopes of a statement whose parent has the number `i`. -/
def childScopes (text : List Char) (s : Statement) (i : Nat) : List Scope :=
  ((selectScopes text s).filter fun c => c.parent = some i).map PlacedScope.scope

theorem childScopes_eq_map (text : List Char) (s : Statement) (i : Nat) :
    childScopes text s i =
      (childrenOf s.selects i).map fun r => Scope.ofSelect text r.1 r.2 := by
  unfold childScopes selectScopes childrenOf
  rw [List.filter_map, List.map_map, List.map_map]
  rfl

/-- The scope of the root of a tree of selects. -/
def SelectTree.scope (text : List Char) (t : SelectTree) : Scope :=
  Scope.ofSelect text t.root.1 t.root.2

theorem childScopes_of_select (text : List Char) {s : Statement} {i : Nat} {e : PlacedSelect}
    (h : s.selects[i]? = some e) :
    childScopes text s i =
      (((e.select.sources.flatMap Joined.leaves).filterMap Source.query?).flatMap Query.forest
        ++ (e.select.exprs e.keys).flatMap Expr.forest).map (SelectTree.scope text) := by
  rw [childScopes_eq_map, childrenOf_selects h, Select.inner_eq, List.map_map]
  rfl

namespace Policy

/-- The issues that a select raises. -/
def raised (p : Policy) (text : List Char) (index : Nat) (e : PlacedSelect) : List Issue :=
  if (e.scope text).scope.aliases.isEmpty then []
  else ((violations? p (e.scope text).scope).getD []).map (Violation.issue index)

theorem issues_eq_flatMap_raised (p : Policy) (text : List Char) (index : Nat) (s : Statement) :
    p.issues text index s = s.selects.flatMap (p.raised text index) := by
  unfold issues selectScopes
  rw [List.flatMap_map]
  rfl

/-- A select has issues only if it reads from one table source. -/
theorem mem_raised {p : Policy} {text : List Char} {index : Nat} {e : PlacedSelect} {i : Issue} :
    i ∈ p.raised text index e ↔ (∃! route, ∃ leaf, e.select.TableAt route leaf) ∧
      ∃ r, p.Breaks (e.scope text).scope.references r ∧ i = p.issueOf index r := by
  have hlength : (e.scope text).scope.aliases.length =
      (e.select.sources.flatMap Joined.leaves).length := List.length_map _
  unfold raised
  rw [mem_scope_issues, hlength, e.select.listed_tables.length_eq_one_iff]

end Policy

/-- The scope of a select has an alias for each leaf of its table sources, and the columns of each
join that shares some; its first children are the selects of the leaves that are derived tables. All
are in the order of their routes. The select has issues only if there is one leaf. -/
theorem scopes_list_table_leaves (p : Policy) (text : List Char) (index : Nat) (s : Statement) :
    p.issues text index s = s.selects.flatMap (p.raised text index) ∧
    ∀ (i : Nat) (e : PlacedSelect), s.selects[i]? = some e →
      ∃ (leaves : List Source) (shared : List (List Name)),
        ListedInOrder e.select.TableAt leaves ∧
        (e.scope text).scope.aliases = leaves.map (TableAlias.ofSource text) ∧
        ListedInOrder (fun route names => e.select.PartAt route (.shared names)) shared ∧
        (e.scope text).scope.sharedColumns = shared.flatten.map Name.print ∧
        childScopes text s i = ((leaves.filterMap Source.query?).flatMap Query.forest
          ++ (e.select.exprs e.keys).flatMap Expr.forest).map (SelectTree.scope text) ∧
        ∀ issue, issue ∈ p.raised text index e ↔
          (∃! route, ∃ leaf, e.select.TableAt route leaf) ∧
            ∃ r, p.Breaks (e.scope text).scope.references r ∧ issue = p.issueOf index r := by
  refine ⟨p.issues_eq_flatMap_raised text index s, fun i e hi => ?_⟩
  have hshared : (e.scope text).scope.sharedColumns =
      (e.select.sources.flatMap Joined.shared).map Name.print := rfl
  rw [(gathered_tables e.select.sources).shared_eq] at hshared
  exact ⟨_, _, e.select.listed_tables, rfl, e.select.listed_shared, hshared,
    childScopes_of_select text hi, fun issue => Policy.mem_raised⟩

/-- A select with no other clause than its table sources. -/
def selectFrom (tables : Joined) : Select where
  region := none
  quantifiers := []
  projection := [.star []]
  into := []
  sources := [tables]
  views := []
  prewhere := []
  selection := []
  groups := []
  others := []
  sorting := []
  having := []
  qualify := []
  windows := []
  windowsFirst := false
  hierarchy := []

def queryFrom (tables : Joined) : Query := ⟨none, "", [], .select (selectFrom tables), [], []⟩

def ofTable (name : String) : Source := .table [.ident ⟨name, none, none⟩] [] none []

/-- A table and a derived table, joined in parentheses that have an alias of their own. -/
def joinInParentheses : Joined :=
  ⟨.nested ⟨ofTable "t", [⟨"JOIN", .derived false (queryFrom ⟨ofTable "u", []⟩)
    (some ⟨⟨"d", none, none⟩, []⟩), [], [], [[.ident ⟨"k", none, none⟩]]⟩]⟩
    (some ⟨⟨"j", none, none⟩, []⟩), []⟩

theorem joinInParentheses_has_two_leaves :
    (Statement.query (queryFrom joinInParentheses)).selects[0]? =
      some ⟨none, selectFrom joinInParentheses, []⟩ ∧
    ∃ (leaves : List Source) (shared : List (List Name)),
      ListedInOrder (selectFrom joinInParentheses).TableAt leaves ∧
      leaves.map (TableAlias.ofSource []) = [⟨"t", false, none⟩, ⟨"d", true, none⟩] ∧
      shared.flatten.map Name.print = ["k"] ∧
      ((leaves.filterMap Source.query?).flatMap Query.forest).map (SelectTree.scope []) =
        [Scope.ofSelect [] (selectFrom ⟨ofTable "u", []⟩) []] := by
  obtain ⟨leaves, shared, hleaves, haliases, -, hshared, hchildren, -⟩ :=
    (scopes_list_table_leaves .consistent [] 0 (.query (queryFrom joinInParentheses))).2 0
      ⟨none, selectFrom joinInParentheses, []⟩ rfl
  have hexprs : ((selectFrom joinInParentheses).exprs []).flatMap Expr.forest = [] := rfl
  rw [hexprs, List.append_nil] at hchildren
  exact ⟨rfl, leaves, shared, hleaves, haliases.symm, hshared.symm, hchildren.symm⟩

end ColumnLint
