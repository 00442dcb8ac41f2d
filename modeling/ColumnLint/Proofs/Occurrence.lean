import ColumnLint.Proofs.Listing
import Mathlib.Data.List.Nodup
import Mathlib.Tactic.Choose

/-
  Where columns and stars occur in a select. A place is a path through the syntax tree; the
  relations `LeafAt` say what stands at a place without going through the tree in any order. The
  references of a scope are those of the leaves at all places, each place once
  (`listsLeaves`).
-/

namespace ColumnLint

open Text Sql

/-! ## Lists of what stands at places -/

/-- The list holds what stands at the places of `At`, each place once. -/
def Listed {π α : Type} (At : π → α → Prop) (xs : List α) : Prop :=
  ∃ places : List (π × α), places.map Prod.snd = xs ∧ (places.map Prod.fst).Nodup ∧
    ∀ p x, (p, x) ∈ places ↔ At p x

namespace Listed

variable {π ρ α β : Type} {A B : π → α → Prop} {xs ys : List α}

theorem congr (h : ∀ p x, A p x ↔ B p x) (ha : Listed A xs) : Listed B xs := by
  obtain ⟨places, hxs, hnodup, hmem⟩ := ha
  exact ⟨places, hxs, hnodup, fun p x => (hmem p x).trans (h p x)⟩

theorem nil (h : ∀ p x, ¬A p x) : Listed A [] :=
  ⟨[], rfl, List.nodup_nil, fun p x => by simpa using h p x⟩

theorem singleton {p : π} {x : α} (h : A p x) (honly : ∀ q y, A q y → q = p ∧ y = x) :
    Listed A [x] := by
  refine ⟨[(p, x)], rfl, List.nodup_singleton p, fun q y => ?_⟩
  rw [List.mem_singleton, Prod.mk.injEq]
  constructor
  · intro hsome
    obtain ⟨rfl, rfl⟩ := hsome
    exact h
  · exact honly q y

/-- The items of a list, by their numbers. -/
theorem ofList (xs : List α) : Listed (fun (i : Nat) x => xs[i]? = some x) xs := by
  refine ⟨xs.zipIdx.map Prod.swap, ?_, ?_, fun i x => ?_⟩
  · rw [List.map_map]
    exact List.zipIdx_map_fst 0 xs
  · have hnumbers : (xs.zipIdx.map Prod.swap).map Prod.fst = List.range' 0 xs.length := by
      rw [List.map_map]
      exact List.zipIdx_map_snd 0 xs
    rw [hnumbers]
    exact List.nodup_range'
  · dsimp only
    rw [← List.mk_mem_zipIdx_iff_getElem?]
    constructor
    · intro h
      obtain ⟨⟨y, j⟩, hmem, heq⟩ := List.mem_map.1 h
      obtain ⟨rfl, rfl⟩ := Prod.mk.inj heq
      exact hmem
    · exact fun h => List.mem_map.2 ⟨(x, i), h, rfl⟩

/-- Places may be renamed. -/
theorem rename (f : π → ρ) (hf : ∀ a b, f a = f b → a = b) (ha : Listed A xs) :
    Listed (fun p x => ∃ a, p = f a ∧ A a x) xs := by
  obtain ⟨places, hxs, hnodup, hmem⟩ := ha
  refine ⟨places.map fun a => (f a.1, a.2), ?_, ?_, fun p x => ?_⟩
  · rw [List.map_map, ← hxs]
    rfl
  · have hmap : (places.map fun a => (f a.1, a.2)).map Prod.fst =
        (places.map Prod.fst).map f := by
      simp only [List.map_map]
      rfl
    rw [hmap]
    exact hnodup.map hf
  · rw [List.mem_map]
    constructor
    · intro hsome
      obtain ⟨⟨a, y⟩, hay, heq⟩ := hsome
      obtain ⟨rfl, rfl⟩ := Prod.mk.inj heq
      exact ⟨a, rfl, (hmem a y).1 hay⟩
    · intro hsome
      obtain ⟨a, rfl, hax⟩ := hsome
      exact ⟨(a, x), (hmem a x).2 hax, rfl⟩

/-- Two lists that share no place, one behind the other. -/
theorem append (ha : Listed A xs) (hb : Listed B ys) (hdisjoint : ∀ p x y, A p x → ¬B p y) :
    Listed (fun p x => A p x ∨ B p x) (xs ++ ys) := by
  obtain ⟨ps, hxs, hps, hA⟩ := ha
  obtain ⟨qs, hys, hqs, hB⟩ := hb
  refine ⟨ps ++ qs, by rw [List.map_append, hxs, hys], ?_, fun p x => ?_⟩
  · rw [List.map_append, List.nodup_append]
    refine ⟨hps, hqs, ?_⟩
    rintro p hp q hq rfl
    obtain ⟨⟨p', x⟩, hpx, rfl⟩ := List.mem_map.1 hp
    obtain ⟨⟨q', y⟩, hqy, heq⟩ := List.mem_map.1 hq
    obtain rfl : q' = p' := heq
    exact hdisjoint q' x y ((hA q' x).1 hpx) ((hB q' y).1 hqy)
  · rw [List.mem_append, hA, hB]

/-- For each listed item a list of its own: a place is that of the item and one in its list. -/
theorem flatMap {C : α → ρ → β → Prop} {f : α → List β} (ha : Listed A xs)
    (hc : ∀ x ∈ xs, Listed (C x) (f x)) :
    Listed (fun (p : π × ρ) y => ∃ x, A p.1 x ∧ C x p.2 y) (xs.flatMap f) := by
  obtain ⟨places, rfl, hnodup, hmem⟩ := ha
  choose! g hg using hc
  have hitem : ∀ a ∈ places, a.2 ∈ places.map Prod.snd := fun a ha => List.mem_map_of_mem ha
  refine ⟨places.flatMap fun a => (g a.2).map fun b => ((a.1, b.1), b.2), ?_, ?_, fun p y => ?_⟩
  · rw [List.map_flatMap, List.flatMap_map]
    apply List.flatMap_congr
    intro a ha
    rw [List.map_map, ← (hg a.2 (hitem a ha)).1]
    rfl
  · rw [List.map_flatMap, List.nodup_flatMap]
    constructor
    · intro a ha
      have hmap : ((g a.2).map fun b => ((a.1, b.1), b.2)).map Prod.fst =
          ((g a.2).map Prod.fst).map (Prod.mk a.1) := by
        simp only [List.map_map]
        rfl
      rw [hmap]
      exact (hg a.2 (hitem a ha)).2.1.map fun b c h => (Prod.mk.inj h).2
    · -- lists of different items differ in the first part of their places
      refine (List.pairwise_map.1 hnodup).imp fun {a b} hab => ?_
      intro p hpa hpb
      simp only [List.map_map, List.mem_map, Function.comp_apply] at hpa hpb
      obtain ⟨c, -, rfl⟩ := hpa
      obtain ⟨d, -, heq⟩ := hpb
      exact hab (Prod.mk.inj heq).1.symm
  · simp only [List.mem_flatMap, List.mem_map]
    constructor
    · intro hsome
      obtain ⟨⟨q, x⟩, hqx, ⟨r, z⟩, hrz, heq⟩ := hsome
      obtain ⟨rfl, rfl⟩ := Prod.mk.inj heq
      exact ⟨x, (hmem q x).1 hqx, ((hg x (hitem _ hqx)).2.2 r z).1 hrz⟩
    · intro hsome
      obtain ⟨x, hpx, hy⟩ := hsome
      have hplace := (hmem p.1 x).2 hpx
      exact ⟨(p.1, x), hplace, (p.2, y), ((hg x (hitem _ hplace)).2.2 p.2 y).2 hy, rfl⟩

end Listed

/-! ## Expressions -/

/-- A step from an expression to one inside it. -/
inductive Step where
  | operand (i : Nat)
  /-- The value whose fields and elements are taken. -/
  | root
  /-- An operand of the access with the number `i`. -/
  | element (i j : Nat)
  /-- The value of an argument that is given by name. -/
  | value
  /-- The key in a sort key with gaps to fill. -/
  | key
  | bound (i : Nat)
  /-- What stands behind the period of the access with the number `i`. -/
  | field (i : Nat)
  | aside
deriving DecidableEq, Repr

/-- The leaf at the end of a path. Paths enter no query, no name of a field or of an argument and
no prefix of a star. Only if they are wide do they enter the bounds of gaps, what stands behind a
period and is more than a name, and what is set aside. -/
inductive Sql.Expr.LeafAt (wide : Bool) : Expr → List Step → Leaf → Prop where
  | column (name : List Ident) : LeafAt wide (.column name) [] (.column name)
  | star (region : Option Region) : LeafAt wide (.star region) [] .star
  | starOf (name : Name) (region : Option Region) :
    LeafAt wide (.starOf name region) [] (.starOf (Name.print name) (Name.extent name))
  | operand {f : Form} {operands : List Expr} {i : Nat} {e : Expr} {path : List Step}
    {leaf : Leaf} (hi : operands[i]? = some e) (h : LeafAt wide e path leaf) :
    LeafAt wide (.form f operands) (.operand i :: path) leaf
  | root {e : Expr} {accesses : List Access} {path : List Step} {leaf : Leaf}
    (h : LeafAt wide e path leaf) : LeafAt wide (.access e accesses) (.root :: path) leaf
  | element {root : Expr} {accesses : List Access} {i j : Nat} {words : List String}
    {operands : List Expr} {e : Expr} {path : List Step} {leaf : Leaf}
    (hi : accesses[i]? = some (.subscript words operands)) (hj : operands[j]? = some e)
    (h : LeafAt wide e path leaf) : LeafAt wide (.access root accesses) (.element i j :: path) leaf
  | value {name : Expr} {sign : String} {e : Expr} {path : List Step} {leaf : Leaf}
    (h : LeafAt wide e path leaf) : LeafAt wide (.named name sign e) (.value :: path) leaf
  | key {e : Expr} {words : List String} {bounds : List Expr} {path : List Step} {leaf : Leaf}
    (h : LeafAt wide e path leaf) : LeafAt wide (.filled e words bounds) (.key :: path) leaf
  | bound {key : Expr} {words : List String} {bounds : List Expr} {i : Nat} {e : Expr}
    {path : List Step} {leaf : Leaf} (hwide : wide = true) (hi : bounds[i]? = some e)
    (h : LeafAt wide e path leaf) : LeafAt wide (.filled key words bounds) (.bound i :: path) leaf
  | field {root : Expr} {accesses : List Access} {i : Nat} {e : Expr} {path : List Step}
    {leaf : Leaf} (hwide : wide = true) (hi : accesses[i]? = some (.field e))
    (hname : ∀ name, e ≠ .column name) (h : LeafAt wide e path leaf) :
    LeafAt wide (.access root accesses) (.field i :: path) leaf
  | aside {e : Expr} {path : List Step} {leaf : Leaf} (hwide : wide = true)
    (h : LeafAt wide e path leaf) : LeafAt wide (.aside e) (.aside :: path) leaf

/-- The expressions in the brackets of an access. -/
def Sql.Access.operands : Access → List Expr
  | .field _ => []
  | .subscript _ es => es

theorem listLeaves_eq_flatMap (es : List Expr) : listLeaves es = es.flatMap Expr.leaves := by
  induction es with
  | nil => rfl
  | cons e es ih => rw [listLeaves, List.flatMap_cons, ih]

theorem pathLeaves_eq_flatMap (path : List Access) :
    pathLeaves path = (path.flatMap Access.operands).flatMap Expr.leaves := by
  induction path with
  | nil => rfl
  | cons a path ih =>
    rw [List.flatMap_cons, List.flatMap_append, ← ih]
    cases a with
    | field e => rfl
    | subscript words es => rw [pathLeaves, listLeaves_eq_flatMap, Access.operands]

/-- The operands of accesses, by the number of the access and their own. -/
theorem listed_operands (path : List Access) :
    Listed (fun (p : Nat × Nat) e =>
      ∃ words es, path[p.1]? = some (.subscript words es) ∧ es[p.2]? = some e)
      (path.flatMap Access.operands) := by
  have h := (Listed.ofList path).flatMap fun a _ => Listed.ofList a.operands
  refine h.congr fun p e => ?_
  constructor
  · intro hsome
    obtain ⟨a, ha, he⟩ := hsome
    cases a with
    | field e' => cases he
    | subscript words es => exact ⟨words, es, ha, he⟩
  · intro hsome
    obtain ⟨words, es, ha, he⟩ := hsome
    exact ⟨_, ha, he⟩

/-! A form's leaves are those of its parts; the step to the part comes first in their paths. -/

section Parts

variable {e : Expr} {es : List Expr}

theorem listed_form (f : Form) (h : ∀ e ∈ es, Listed (e.LeafAt false) e.leaves) :
    Listed (Expr.LeafAt false (.form f es)) (Expr.form f es).leaves := by
  rw [Expr.leaves, listLeaves_eq_flatMap]
  have hparts := ((Listed.ofList es).flatMap h).rename (fun p => Step.operand p.1 :: p.2)
    fun a b heq => by
      obtain ⟨hi, hpath⟩ := List.cons.inj heq
      exact Prod.ext (Step.operand.inj hi) hpath
  refine hparts.congr fun path leaf => ?_
  constructor
  · intro hsome
    obtain ⟨⟨i, path⟩, rfl, e, hi, hleaf⟩ := hsome
    exact .operand hi hleaf
  · rintro (_ | _ | _ | ⟨hi, hleaf⟩)
    exact ⟨(_, _), rfl, _, hi, hleaf⟩

theorem listed_access {accesses : List Access} (he : Listed (e.LeafAt false) e.leaves)
    (h : ∀ e ∈ accesses.flatMap Access.operands, Listed (e.LeafAt false) e.leaves) :
    Listed (Expr.LeafAt false (.access e accesses)) (Expr.access e accesses).leaves := by
  rw [Expr.leaves, pathLeaves_eq_flatMap]
  have hroot := he.rename (Step.root :: ·) fun a b heq => (List.cons.inj heq).2
  have hparts := ((listed_operands accesses).flatMap h).rename
    (fun p => Step.element p.1.1 p.1.2 :: p.2) fun a b heq => by
      obtain ⟨hstep, hpath⟩ := List.cons.inj heq
      obtain ⟨hi, hj⟩ := Step.element.inj hstep
      exact Prod.ext (Prod.ext hi hj) hpath
  refine (hroot.append hparts ?_).congr fun path leaf => ?_
  · rintro path x y ⟨a, rfl, -⟩ ⟨b, heq, -⟩
    cases heq
  · constructor
    · rintro (⟨path, rfl, hleaf⟩ | ⟨⟨⟨i, j⟩, path⟩, rfl, e, ⟨words, es, hi, hj⟩, hleaf⟩)
      · exact .root hleaf
      · exact .element hi hj hleaf
    · intro hleaf
      cases hleaf with
      | root hleaf => exact .inl ⟨_, rfl, hleaf⟩
      | element hi hj hleaf =>
        exact .inr ⟨((_, _), _), rfl, _, ⟨_, _, hi, hj⟩, hleaf⟩
      | field hwide => cases hwide

theorem listed_named (name : Expr) (sign : String) (he : Listed (e.LeafAt false) e.leaves) :
    Listed (Expr.LeafAt false (.named name sign e)) (Expr.named name sign e).leaves := by
  rw [Expr.leaves]
  refine (he.rename (Step.value :: ·) fun a b heq => (List.cons.inj heq).2).congr
    fun path leaf => ?_
  constructor
  · intro hsome
    obtain ⟨path, rfl, hleaf⟩ := hsome
    exact .value hleaf
  · intro hleaf
    cases hleaf with
    | value hleaf => exact ⟨_, rfl, hleaf⟩

theorem listed_filled (words : List String) (he : Listed (e.LeafAt false) e.leaves) :
    Listed (Expr.LeafAt false (.filled e words es)) (Expr.filled e words es).leaves := by
  rw [Expr.leaves]
  refine (he.rename (Step.key :: ·) fun a b heq => (List.cons.inj heq).2).congr
    fun path leaf => ?_
  constructor
  · intro hsome
    obtain ⟨path, rfl, hleaf⟩ := hsome
    exact .key hleaf
  · intro hleaf
    cases hleaf with
    | key hleaf => exact ⟨_, rfl, hleaf⟩
    | bound hwide => cases hwide

end Parts

mutual
/-- The leaves of an expression are those at its places, each place once. -/
theorem listed_leaves : (e : Expr) → Listed (e.LeafAt false) e.leaves
  | .column name => .singleton (.column name) fun path leaf h => by
    cases h
    exact ⟨rfl, rfl⟩
  | .star region => .singleton (.star region) fun path leaf h => by
    cases h
    exact ⟨rfl, rfl⟩
  | .starOf name region => .singleton (.starOf name region) fun path leaf h => by
    cases h
    exact ⟨rfl, rfl⟩
  | .constant .. => .nil fun path leaf h => by cases h
  | .form f operands => listed_form f (listed_leaves_of_mem operands)
  | .access root path => listed_access (listed_leaves root) (listed_leaves_of_access path)
  | .named name sign value => listed_named name sign (listed_leaves value)
  | .filled key words _ => listed_filled words (listed_leaves key)
  | .aside _ => .nil fun path leaf h => by
    cases h with
    | aside hwide => cases hwide
  | .query _ | .join _ => .nil fun path leaf h => by cases h

theorem listed_leaves_of_mem : (es : List Expr) → ∀ e ∈ es, Listed (e.LeafAt false) e.leaves
  | [], _, h => absurd h List.not_mem_nil
  | e :: es, x, h => by
    rcases List.mem_cons.1 h with hx | h
    · rw [hx]
      exact listed_leaves e
    · exact listed_leaves_of_mem es x h

theorem listed_leaves_of_access : (path : List Access) →
    ∀ e ∈ path.flatMap Access.operands, Listed (e.LeafAt false) e.leaves
  | [], _, h => absurd h List.not_mem_nil
  | .field _ :: path, x, h => listed_leaves_of_access path x h
  | .subscript _ es :: path, x, h => by
    rcases List.mem_append.1 h with h | h
    · exact listed_leaves_of_mem es x h
    · exact listed_leaves_of_access path x h
end

/-! ## Joins -/

/-- A step through joined tables. -/
inductive JoinStep where
  /-- Into the parentheses of the first source. -/
  | first
  /-- Into the parentheses of the source that the join with this number adds. -/
  | joined (i : Nat)
  /-- To a condition of the join with the number `i`. -/
  | on (i k : Nat)
deriving DecidableEq, Repr

/-- The condition at the end of a route through joined tables, their parentheses entered. -/
inductive Sql.Joined.ConditionAt : Joined → List JoinStep → Expr → Prop where
  | first {t : Joined} {label : Option Alias} {joins : List Join} {route : List JoinStep}
    {e : Expr} (h : ConditionAt t route e) :
    ConditionAt ⟨.nested t label, joins⟩ (.first :: route) e
  | joined {source : Source} {joins : List Join} {i : Nat} {join : Join} {t : Joined}
    {label : Option Alias} {route : List JoinStep} {e : Expr} (hi : joins[i]? = some join)
    (hsource : join.source = .nested t label) (h : ConditionAt t route e) :
    ConditionAt ⟨source, joins⟩ (.joined i :: route) e
  | on {source : Source} {joins : List Join} {i k : Nat} {join : Join} {e : Expr}
    (hi : joins[i]? = some join) (hk : join.on[k]? = some e) :
    ConditionAt ⟨source, joins⟩ [.on i k] e

/-- The conditions in the parentheses of a source. -/
def Sql.Source.ConditionAt (source : Source) (route : List JoinStep) (e : Expr) : Prop :=
  ∃ t label, source = .nested t label ∧ t.ConditionAt route e

theorem joinConditions_eq_flatMap (joins : List Join) :
    joinConditions joins = joins.flatMap fun j => j.source.conditions ++ j.on := by
  induction joins with
  | nil => rfl
  | cons j joins ih =>
    obtain ⟨words, source, matching, on, shared⟩ := j
    rw [joinConditions, List.flatMap_cons, ih]

/-- What one join adds: the conditions in its source, and its own. -/
theorem listed_join {j : Join} (h : Listed j.source.ConditionAt j.source.conditions) :
    Listed (fun (p : List JoinStep ⊕ Nat) e =>
      (∃ route, p = .inl route ∧ j.source.ConditionAt route e) ∨
        ∃ k, p = .inr k ∧ j.on[k]? = some e) (j.source.conditions ++ j.on) := by
  have hsource := h.rename (ρ := List JoinStep ⊕ Nat) .inl fun a b heq => Sum.inl.inj heq
  have hon := (Listed.ofList j.on).rename (ρ := List JoinStep ⊕ Nat) .inr
    fun a b heq => Sum.inr.inj heq
  refine hsource.append hon ?_
  rintro p x y ⟨a, rfl, -⟩ ⟨b, heq, -⟩
  cases heq

/-- The route of a condition that the join with the number `i` adds. -/
def joinRoute (i : Nat) : List JoinStep ⊕ Nat → List JoinStep
  | .inl route => .joined i :: route
  | .inr k => [.on i k]

theorem joinRoute_inj {i i' : Nat} {p p' : List JoinStep ⊕ Nat}
    (h : joinRoute i p = joinRoute i' p') : i = i' ∧ p = p' := by
  cases p <;> cases p' <;> simp_all [joinRoute]

theorem listed_joined {source : Source} {joins : List Join}
    (hfirst : Listed source.ConditionAt source.conditions)
    (h : ∀ j ∈ joins, Listed j.source.ConditionAt j.source.conditions) :
    Listed (Joined.ConditionAt ⟨source, joins⟩) (Joined.conditions ⟨source, joins⟩) := by
  rw [Joined.conditions, joinConditions_eq_flatMap]
  have hsource := hfirst.rename (JoinStep.first :: ·) fun a b heq => (List.cons.inj heq).2
  have hjoins := ((Listed.ofList joins).flatMap fun j hj => listed_join (h j hj)).rename
    (fun p => joinRoute p.1 p.2) fun a b heq => by
      obtain ⟨hi, hp⟩ := joinRoute_inj heq
      exact Prod.ext hi hp
  refine (hsource.append hjoins ?_).congr fun route e => ?_
  · rintro route x y ⟨a, rfl, -⟩ ⟨⟨i, p⟩, heq, -⟩
    cases p <;> cases heq
  · constructor
    · rintro (⟨route, rfl, t, label, rfl, hcond⟩ |
        ⟨⟨i, -⟩, rfl, j, hi, ⟨route, rfl, t, label, hsource, hcond⟩ | ⟨k, rfl, hk⟩⟩)
      · exact .first hcond
      · exact .joined hi hsource hcond
      · exact .on hi hk
    · intro hcond
      cases hcond with
      | first hcond => exact .inl ⟨_, rfl, _, _, rfl, hcond⟩
      | joined hi hsource hcond =>
        exact .inr ⟨(_, .inl _), rfl, _, hi, .inl ⟨_, rfl, _, _, hsource, hcond⟩⟩
      | on hi hk => exact .inr ⟨(_, .inr _), rfl, _, hi, .inr ⟨_, rfl, hk⟩⟩

mutual
theorem listed_source_conditions :
    (source : Source) → Listed source.ConditionAt source.conditions
  | .nested t label => (listed_conditions t).congr fun route e => by
    constructor
    · intro h
      exact ⟨t, label, rfl, h⟩
    · intro hsome
      obtain ⟨t, label, heq, h⟩ := hsome
      cases heq
      exact h
  | .table .. | .derived .. | .computed .. | .reshaped .. =>
    .nil fun route e h => by
      obtain ⟨t, label, heq, -⟩ := h
      cases heq

/-- The conditions of joined tables are those at the ends of routes, each route once. -/
theorem listed_conditions : (t : Joined) → Listed t.ConditionAt t.conditions
  | ⟨source, joins⟩ =>
    listed_joined (listed_source_conditions source) (listed_conditions_of_mem joins)

theorem listed_conditions_of_mem :
    (joins : List Join) → ∀ j ∈ joins, Listed j.source.ConditionAt j.source.conditions
  | [], _, h => absurd h List.not_mem_nil
  | ⟨words, source, matching, on, shared⟩ :: joins, j, h => by
    rcases List.mem_cons.1 h with hj | h
    · rw [hj]
      exact listed_source_conditions source
    · exact listed_conditions_of_mem joins j h
end

/-! ## Selects -/

/-- The leaf at the end of a path in a projection item. The options of a star and its prefix are
not entered. -/
inductive Sql.Item.LeafAt (wide : Bool) : Item → List Step → Leaf → Prop where
  | expr {e : Expr} {label : Option Ident} {path : List Step} {leaf : Leaf}
    (h : e.LeafAt wide path leaf) : LeafAt wide (.expr e label) path leaf
  | star (options : List Expr) : LeafAt wide (.star options) [] .star
  | starOf (name : Name) (options : List Expr) :
    LeafAt wide (.starOf name options) [] (.starOf (Name.print name) (Name.extent name))
  | starOfExpr (e : Expr) (options : List Expr) :
    LeafAt wide (.starOfExpr e options) [] (.starOf e.print e.extent)

/-- A clause of a select whose expressions name columns, the projection and joins aside. -/
inductive Clause where
  | prewhere
  | selection
  | grouping
  | having
  | qualify
  | sorting
  | windows
  /-- The sort keys of the query that the select is the body of. -/
  | ordering
deriving DecidableEq, Repr

namespace Clause

def all : List Clause :=
  [prewhere, selection, grouping, having, qualify, sorting, windows, ordering]

def exprs (s : Select) (keys : List Expr) : Clause → List Expr
  | prewhere => s.prewhere
  | selection => s.selection
  | grouping => s.groups
  | having => s.having
  | qualify => s.qualify
  | sorting => s.sorting
  | windows => s.windows.flatMap Window.exprs
  | ordering => keys

end Clause

/-- Where a leaf stands in a select. -/
inductive Place where
  | item (i : Nat) (path : List Step)
  /-- In a join condition of the table source with this number. -/
  | condition (table : Nat) (route : List JoinStep) (path : List Step)
  | clause (c : Clause) (i : Nat) (path : List Step)
deriving DecidableEq, Repr

/-- The leaf at a place of a select, given the sort keys of its query. -/
inductive Sql.Select.LeafAt (wide : Bool) (s : Select) (keys : List Expr) :
    Place → Leaf → Prop where
  | item {i : Nat} {item : Item} {path : List Step} {leaf : Leaf}
    (hi : s.projection[i]? = some item) (h : item.LeafAt wide path leaf) :
    LeafAt wide s keys (.item i path) leaf
  | condition {i : Nat} {t : Joined} {route : List JoinStep} {e : Expr} {path : List Step}
    {leaf : Leaf} (hi : s.sources[i]? = some t) (he : t.ConditionAt route e)
    (h : e.LeafAt wide path leaf) : LeafAt wide s keys (.condition i route path) leaf
  | clause {c : Clause} {i : Nat} {e : Expr} {path : List Step} {leaf : Leaf}
    (hi : (c.exprs s keys)[i]? = some e) (h : e.LeafAt wide path leaf) :
    LeafAt wide s keys (.clause c i path) leaf

section Select

variable (s : Select) (keys : List Expr)

end Select

/-! ## References -/

/-- Whether a leaf has a prefix, and whether it is a star. -/
def Leaf.form : Leaf → Qualification × Bool
  | .column name => (if 2 ≤ name.length then .qualified else .unqualified, false)
  | .star => (.unqualified, true)
  | .starOf .. => (.qualified, true)

end ColumnLint
