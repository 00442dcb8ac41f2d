import ColumnLint.Proofs.SelectCount

/-
  The selects of a statement by their places. Each select at a searched place is listed once, with
  the innermost select around it as its parent (`exists_placement`), and has one scope; so every
  select has one exactly when none is at a place that is skipped, and then there are as many scopes
  as selects are written in the statement (`one_scope_for_each_searched_select`).
-/

namespace ColumnLint

open Text Sql

/-! ## The first selects in a node -/

namespace Node

/-- The way to a place is searched and meets no select before the one at its end. -/
inductive Meets : Node → List Child → Select → List Expr → Prop where
  | here (s : Select) (keys : List Expr) : Meets (.select s keys) [] s keys
  | searched {n m : Node} {i : Nat} {place : List Child} {s : Select} {keys : List Expr}
    (hn : ∀ s keys, n ≠ .select s keys) (hi : n.contents.searched[i]? = some m)
    (h : Meets m place s keys) : Meets n (.searched i :: place) s keys

/-- The way from the contents of a node on meets no select before the one at its end. -/
def MeetsInside (n : Node) (place : List Child) (s : Select) (keys : List Expr) : Prop :=
  ∃ i m rest, place = .searched i :: rest ∧ n.contents.searched[i]? = some m ∧
    m.Meets rest s keys

variable {n : Node} {p q : List Child} {s s' : Select} {keys keys' : List Expr}

theorem Meets.at?_eq (h : n.Meets p s keys) : n.at? p = some (.select s keys) := by
  induction h with
  | here => rfl
  | searched hn hi h ih => rw [at?_cons, Contents.get?, hi, Option.bind_some, ih]

theorem Meets.allSearched (h : n.Meets p s keys) : Child.AllSearched p := by
  induction h with
  | here => exact fun c hc => absurd hc List.not_mem_nil
  | searched hn hi h ih => exact List.forall_mem_cons.2 ⟨rfl, ih⟩

theorem Meets.eq_of_isPrefix (h : n.Meets p s keys) (hq : q <+: p)
    (hs : n.at? q = some (.select s' keys')) : q = p := by
  induction h generalizing q with
  | here => exact List.prefix_nil.1 hq
  | searched hn hi h ih =>
    cases q with
    | nil => exact absurd (Option.some.inj hs) (hn _ _)
    | cons c q =>
      obtain ⟨rfl, hrest⟩ := List.cons_prefix_cons.1 hq
      rw [at?_cons, Contents.get?, hi, Option.bind_some] at hs
      rw [ih hrest hs]

theorem meets_iff_meetsInside (hn : ∀ s keys, n ≠ .select s keys) :
    n.Meets p s keys ↔ n.MeetsInside p s keys := by
  constructor
  · intro h
    cases h with
    | here => exact absurd rfl (hn _ _)
    | searched hn hi h => exact ⟨_, _, _, rfl, hi, h⟩
  · intro hsome
    obtain ⟨i, m, rest, rfl, hi, h⟩ := hsome
    exact .searched hn hi h

/-- The way to a select meets a first one. -/
theorem exists_meets (hs : n.at? p = some (.select s keys)) (hp : Child.AllSearched p) :
    ∃ q rest s' keys', p = q ++ rest ∧ n.Meets q s' keys' := by
  induction p generalizing n with
  | nil =>
    obtain rfl := Option.some.inj hs
    exact ⟨[], [], s, keys, rfl, .here s keys⟩
  | cons c p ih =>
    by_cases hn : ∃ s keys, n = .select s keys
    · obtain ⟨s', keys', rfl⟩ := hn
      exact ⟨[], c :: p, s', keys', rfl, .here s' keys'⟩
    · cases c with
      | skipped i => exact absurd (hp _ List.mem_cons_self) (by simp [Child.isSearched])
      | searched i =>
        rw [at?_cons, Contents.get?] at hs
        obtain ⟨m, hm, hs⟩ := Option.bind_eq_some_iff.1 hs
        obtain ⟨q, rest, s', keys', rfl, hq⟩ :=
          ih hs (List.forall_mem_cons.1 hp).2
        exact ⟨.searched i :: q, rest, s', keys', rfl,
          .searched (fun s keys heq => hn ⟨s, keys, heq⟩) hm hq⟩

theorem MeetsInside.at?_eq (h : n.MeetsInside p s keys) : n.at? p = some (.select s keys) := by
  obtain ⟨i, m, rest, rfl, hi, h⟩ := h
  rw [at?_cons, Contents.get?, hi, Option.bind_some, h.at?_eq]

theorem MeetsInside.ne_nil (h : n.MeetsInside p s keys) : p ≠ [] := by
  obtain ⟨i, m, rest, rfl, -, -⟩ := h
  exact List.cons_ne_nil _ _

theorem MeetsInside.allSearched (h : n.MeetsInside p s keys) : Child.AllSearched p := by
  obtain ⟨i, m, rest, rfl, -, h⟩ := h
  exact List.forall_mem_cons.2 ⟨rfl, h.allSearched⟩

theorem MeetsInside.eq_of_isPrefix (h : n.MeetsInside p s keys) (hq : q <+: p) (hne : q ≠ [])
    (hs : n.at? q = some (.select s' keys')) : q = p := by
  obtain ⟨i, m, rest, rfl, hi, h⟩ := h
  cases q with
  | nil => exact absurd rfl hne
  | cons c q =>
    obtain ⟨rfl, hrest⟩ := List.cons_prefix_cons.1 hq
    rw [at?_cons, Contents.get?, hi, Option.bind_some] at hs
    rw [h.eq_of_isPrefix hrest hs]

/-- Around a first select in a select there is no other than that one. -/
theorem MeetsInside.innermost {root : Node} {top : List Child} {t : Select} {ks : List Expr}
    (h : (Node.select t ks).MeetsInside p s keys) (htop : root.at? top = some (.select t ks)) :
    root.Innermost top (top ++ p) := by
  refine ⟨⟨List.prefix_append top p, ?_, t, ks, htop⟩, ?_⟩
  · intro heq
    exact h.ne_nil (List.append_cancel_left (heq.symm.trans (List.append_nil top).symm))
  · rintro r ⟨hr, hne, s', keys', hs'⟩
    rcases List.prefix_or_prefix_of_prefix hr (List.prefix_append top p) with hle | ⟨q, rfl⟩
    · exact hle
    · -- a select between the two would be met first
      have hq : q <+: p := (List.prefix_append_right_inj top).1 hr
      rw [at?_append, htop, Option.bind_some] at hs'
      by_cases hnil : q = []
      · exact ⟨[], by rw [hnil, List.append_nil, List.append_nil]⟩
      · exact absurd (by rw [h.eq_of_isPrefix hq hnil hs']) hne

theorem exists_meetsInside (hne : p ≠ []) (hs : n.at? p = some (.select s keys))
    (hp : Child.AllSearched p) :
    ∃ q rest s' keys', p = q ++ rest ∧ n.MeetsInside q s' keys' := by
  cases p with
  | nil => exact absurd rfl hne
  | cons c p =>
    cases c with
    | skipped i => exact absurd (hp _ List.mem_cons_self) (by simp [Child.isSearched])
    | searched i =>
      rw [at?_cons, Contents.get?] at hs
      obtain ⟨m, hm, hs⟩ := Option.bind_eq_some_iff.1 hs
      obtain ⟨q, rest, s', keys', rfl, hq⟩ :=
        exists_meets hs (List.forall_mem_cons.1 hp).2
      exact ⟨.searched i :: q, rest, s', keys', rfl, i, m, q, rfl, hm, hq⟩

end Node

/-- A list keeps its places in another order. -/
theorem Listed.perm {π α : Type} {A : π → α → Prop} {xs ys : List α} (h : Listed A xs)
    (hperm : xs.Perm ys) : Listed A ys := by
  obtain ⟨places, rfl, hnodup, hmem⟩ := h
  have hall : List.Forall₂ (fun x (a : π × α) => x = a.2) (places.map Prod.snd) places := by
    rw [List.forall₂_map_left_iff, List.forall₂_same]
    exact fun _ _ => rfl
  obtain ⟨places', hys, hplaces⟩ := List.perm_comp_forall₂ hperm.symm hall
  refine ⟨places', ?_, ?_, fun p x => ?_⟩
  · rw [← List.forall₂_map_right_iff, List.forall₂_eq_eq_eq] at hys
    exact hys.symm
  · exact (hplaces.map _).nodup_iff.2 hnodup
  · rw [hplaces.mem_iff, hmem]

/-- The trees in a node are those of its first selects, each place once. -/
theorem listed_inner_of_searched {n : Node}
    (h : ∀ m ∈ n.contents.searched,
      Listed (fun p t => ∃ s keys, m.Meets p s keys ∧ t = selectTree s keys) m.forest) :
    Listed (fun p t => ∃ s keys, n.MeetsInside p s keys ∧ t = selectTree s keys) n.inner := by
  have hparts := ((Listed.ofList n.contents.searched).flatMap h).rename
    (fun p => Child.searched p.1 :: p.2) fun a b heq => by
      obtain ⟨hi, hplace⟩ := List.cons.inj heq
      exact Prod.ext (Child.searched.inj hi) hplace
  refine (hparts.perm (inner_perm n).symm).congr fun p t => ?_
  constructor
  · intro hsome
    obtain ⟨⟨i, rest⟩, rfl, m, hi, s, keys, hmeets, rfl⟩ := hsome
    exact ⟨s, keys, ⟨i, m, rest, rfl, hi, hmeets⟩, rfl⟩
  · intro hsome
    obtain ⟨s, keys, ⟨i, m, rest, rfl, hi, hmeets⟩, rfl⟩ := hsome
    exact ⟨(i, rest), rfl, m, hi, s, keys, hmeets, rfl⟩

theorem listed_forest (n : Node) :
    Listed (fun p t => ∃ s keys, n.Meets p s keys ∧ t = selectTree s keys) n.forest := by
  induction n using Node.searchedInduction with
  | h n ih =>
    by_cases hn : ∃ s keys, n = .select s keys
    · obtain ⟨s, keys, rfl⟩ := hn
      refine .singleton (p := []) ⟨s, keys, .here s keys, rfl⟩ fun q t hsome => ?_
      obtain ⟨s', keys', hmeets, rfl⟩ := hsome
      cases hmeets with
      | here => exact ⟨rfl, rfl⟩
      | searched hn => exact absurd rfl (hn _ _)
    · have hn : ∀ s keys, n ≠ .select s keys := fun s keys heq => hn ⟨s, keys, heq⟩
      rw [Node.forest_eq_inner hn]
      simp only [Node.meets_iff_meetsInside hn]
      exact listed_inner_of_searched ih

theorem listed_inner (n : Node) :
    Listed (fun p t => ∃ s keys, n.MeetsInside p s keys ∧ t = selectTree s keys) n.inner :=
  listed_inner_of_searched fun m _ => listed_forest m

/-! ## Places of a list of selects -/

/-- Selects with their places in a node, listed from the number `start` on. They are the selects
at and below the places `tops`, each once. Those at the tops have the parent that is given, any
other one has the innermost select around it, listed before it. -/
structure PlacedBelow (n : Node) (tops : List (List Child)) (parent : Option Nat) (start : Nat)
    (zs : List (List Child × PlacedSelect)) : Prop where
  nodup : (zs.map Prod.fst).Nodup
  at_place : ∀ z ∈ zs, n.at? z.1 = some (.select z.2.select z.2.keys)
  below : ∀ z ∈ zs, ∃ top ∈ tops, ∃ rest, z.1 = top ++ rest ∧ Child.AllSearched rest
  parents : ∀ i z, zs[i]? = some z → (z.1 ∈ tops ∧ z.2.parent = parent) ∨
    ∃ j y, j < i ∧ zs[j]? = some y ∧ z.2.parent = some (start + j) ∧ n.Innermost y.1 z.1
  complete : ∀ top ∈ tops, ∀ rest s keys, Child.AllSearched rest →
    n.at? (top ++ rest) = some (.select s keys) → top ++ rest ∈ zs.map Prod.fst

namespace PlacedBelow

variable {n : Node} {tops tops' : List (List Child)} {parent : Option Nat} {start : Nat}
  {zs zs' : List (List Child × PlacedSelect)}

theorem nil (n : Node) (parent : Option Nat) (start : Nat) : PlacedBelow n [] parent start [] where
  nodup := List.nodup_nil
  at_place := fun z hz => absurd hz List.not_mem_nil
  below := fun z hz => absurd hz List.not_mem_nil
  parents := fun i z hz => by simp at hz
  complete := fun top htop => absurd htop List.not_mem_nil

/-- Selects below tops that are apart, one list behind the other. -/
theorem append (h : PlacedBelow n tops parent start zs)
    (h' : PlacedBelow n tops' parent (start + zs.length) zs')
    (hapart : ∀ p ∈ tops, ∀ q ∈ tops', ¬p <+: q ∧ ¬q <+: p) :
    PlacedBelow n (tops ++ tops') parent start (zs ++ zs') where
  nodup := by
    rw [List.map_append, List.nodup_append]
    refine ⟨h.nodup, h'.nodup, ?_⟩
    rintro p hp q hq rfl
    obtain ⟨z, hz, hzp⟩ := List.mem_map.1 hp
    obtain ⟨z', hz', hzq⟩ := List.mem_map.1 hq
    obtain ⟨top, htop, rest, hrest, -⟩ := h.below z hz
    obtain ⟨top', htop', rest', hrest', -⟩ := h'.below z' hz'
    -- one place would be below two tops, and so one top below the other
    have hpre : top <+: p := ⟨rest, by rw [← hrest, hzp]⟩
    have hpre' : top' <+: p := ⟨rest', by rw [← hrest', hzq]⟩
    obtain ⟨hno, hno'⟩ := hapart top htop top' htop'
    rcases List.prefix_or_prefix_of_prefix hpre hpre' with hle | hle
    · exact hno hle
    · exact hno' hle
  at_place := by
    intro z hz
    rcases List.mem_append.1 hz with hz | hz
    · exact h.at_place z hz
    · exact h'.at_place z hz
  below := by
    intro z hz
    rcases List.mem_append.1 hz with hz | hz
    · obtain ⟨top, htop, hrest⟩ := h.below z hz
      exact ⟨top, List.mem_append_left _ htop, hrest⟩
    · obtain ⟨top, htop, hrest⟩ := h'.below z hz
      exact ⟨top, List.mem_append_right _ htop, hrest⟩
  parents := by
    intro i z hz
    by_cases hi : i < zs.length
    · rw [List.getElem?_append_left hi] at hz
      rcases h.parents i z hz with ⟨htop, hparent⟩ | ⟨j, y, hj, hy, hparent, hin⟩
      · exact .inl ⟨List.mem_append_left _ htop, hparent⟩
      · refine .inr ⟨j, y, hj, ?_, hparent, hin⟩
        rw [List.getElem?_append_left (by omega), hy]
    · rw [List.getElem?_append_right (by omega)] at hz
      rcases h'.parents _ z hz with ⟨htop, hparent⟩ | ⟨j, y, hj, hy, hparent, hin⟩
      · exact .inl ⟨List.mem_append_right _ htop, hparent⟩
      · refine .inr ⟨zs.length + j, y, by omega, ?_, ?_, hin⟩
        · rw [List.getElem?_append_right (by omega), Nat.add_sub_cancel_left, hy]
        · rw [hparent, Nat.add_assoc]
  complete := by
    intro top htop rest s keys hrest hs
    rw [List.map_append, List.mem_append]
    rcases List.mem_append.1 htop with htop | htop
    · exact .inl (h.complete top htop rest s keys hrest hs)
    · exact .inr (h'.complete top htop rest s keys hrest hs)

/-- A select with those below the first selects in it. -/
theorem node {top : List Child} {s : Select} {keys : List Expr} (firsts : List (List Child))
    (hs : n.at? top = some (.select s keys))
    (hfirsts : ∀ p, p ∈ firsts ↔ ∃ s' keys', (Node.select s keys).MeetsInside p s' keys')
    (h : PlacedBelow n (firsts.map (top ++ ·)) (some start) (start + 1) zs) :
    PlacedBelow n [top] parent start ((top, ⟨parent, s, keys⟩) :: zs) where
  nodup := by
    rw [List.map_cons, List.nodup_cons]
    refine ⟨fun htop => ?_, h.nodup⟩
    obtain ⟨z, hz, hztop⟩ := List.mem_map.1 htop
    obtain ⟨first, hfirst, rest, hrest, -⟩ := h.below z hz
    obtain ⟨p, hp, rfl⟩ := List.mem_map.1 hfirst
    obtain ⟨s', keys', hmeets⟩ := (hfirsts p).1 hp
    have hlen := congrArg List.length (hrest.symm.trans hztop)
    have hpos := List.length_pos_iff.2 hmeets.ne_nil
    simp only [List.length_append] at hlen
    omega
  at_place := by
    intro z hz
    rcases List.mem_cons.1 hz with rfl | hz
    · exact hs
    · exact h.at_place z hz
  below := by
    intro z hz
    refine ⟨top, List.mem_singleton_self top, ?_⟩
    rcases List.mem_cons.1 hz with rfl | hz
    · exact ⟨[], (List.append_nil top).symm, fun c hc => absurd hc List.not_mem_nil⟩
    · obtain ⟨first, hfirst, rest, hrest, hsearched⟩ := h.below z hz
      obtain ⟨p, hp, rfl⟩ := List.mem_map.1 hfirst
      obtain ⟨s', keys', hmeets⟩ := (hfirsts p).1 hp
      exact ⟨p ++ rest, by rw [hrest, List.append_assoc],
        List.forall_mem_append.2 ⟨hmeets.allSearched, hsearched⟩⟩
  parents := by
    intro i z hz
    cases i with
    | zero =>
      obtain rfl := Option.some.inj hz
      exact .inl ⟨List.mem_singleton_self top, rfl⟩
    | succ i =>
      rw [List.getElem?_cons_succ] at hz
      right
      rcases h.parents i z hz with ⟨hfirst, hparent⟩ | ⟨j, y, hj, hy, hparent, hin⟩
      · obtain ⟨p, hp, hzp⟩ := List.mem_map.1 hfirst
        obtain ⟨s', keys', hmeets⟩ := (hfirsts p).1 hp
        refine ⟨0, _, by omega, rfl, hparent, ?_⟩
        rw [← hzp]
        exact hmeets.innermost hs
      · refine ⟨j + 1, y, by omega, ?_, ?_, hin⟩
        · rw [List.getElem?_cons_succ, hy]
        · rw [hparent]
          congr 1
          omega
  complete := by
    intro t ht rest s' keys' hrest hs'
    obtain rfl := List.mem_singleton.1 ht
    by_cases hnil : rest = []
    · rw [hnil, List.append_nil]
      exact List.mem_cons_self
    · rw [Node.at?_append, hs, Option.bind_some] at hs'
      obtain ⟨p, rest', s'', keys'', rfl, hmeets⟩ := Node.exists_meetsInside hnil hs' hrest
      refine List.mem_cons_of_mem _ ?_
      rw [← List.append_assoc]
      refine h.complete _ (List.mem_map_of_mem ((hfirsts p).2 ⟨_, _, hmeets⟩)) rest' s' keys'
        (List.forall_mem_append.1 hrest).2 ?_
      rw [List.append_assoc, Node.at?_append, hs, Option.bind_some, hs']

end PlacedBelow

/-- The first selects in a node, each place once, with the trees that are listed for them. -/
structure Firsts (n : Node) (firsts : List (List Child × SelectTree)) : Prop where
  trees : firsts.map Prod.snd = n.inner
  nodup : (firsts.map Prod.fst).Nodup
  meets : ∀ f ∈ firsts, ∃ s keys, n.MeetsInside f.1 s keys ∧ f.2 = selectTree s keys
  complete : ∀ p s keys, n.MeetsInside p s keys → p ∈ firsts.map Prod.fst

theorem exists_firsts (n : Node) : ∃ firsts, Firsts n firsts := by
  obtain ⟨firsts, htrees, hnodup, hmem⟩ := listed_inner n
  refine ⟨firsts, htrees, hnodup, fun f hf => (hmem f.1 f.2).1 hf, fun p s keys hmeets => ?_⟩
  exact List.mem_map.2 ⟨_, (hmem p _).2 ⟨s, keys, hmeets, rfl⟩, rfl⟩

theorem Firsts.mem_iff {n : Node} {firsts : List (List Child × SelectTree)} (h : Firsts n firsts)
    {p : List Child} : p ∈ firsts.map Prod.fst ↔ ∃ s keys, n.MeetsInside p s keys := by
  constructor
  · intro hp
    obtain ⟨f, hf, rfl⟩ := List.mem_map.1 hp
    obtain ⟨s, keys, hmeets, -⟩ := h.meets f hf
    exact ⟨s, keys, hmeets⟩
  · rintro ⟨s, keys, hmeets⟩
    exact h.complete p s keys hmeets

/-- No place among these is below another one. -/
def Apart (tops : List (List Child × SelectTree)) : Prop :=
  tops.Pairwise fun a b => ¬a.1 <+: b.1 ∧ ¬b.1 <+: a.1

/-- First selects in one node are apart. -/
theorem Firsts.apart {n : Node} {firsts : List (List Child × SelectTree)} (h : Firsts n firsts)
    (top : List Child) : Apart (firsts.map fun f => (top ++ f.1, f.2)) := by
  have hno : ∀ a ∈ firsts, ∀ b ∈ firsts, a.1 ≠ b.1 → ¬top ++ a.1 <+: top ++ b.1 := by
    intro a ha b hb hne hle
    obtain ⟨s, keys, hmeets, -⟩ := h.meets a ha
    obtain ⟨s', keys', hmeets', -⟩ := h.meets b hb
    exact hne (hmeets'.eq_of_isPrefix ((List.prefix_append_right_inj top).1 hle) hmeets.ne_nil
      hmeets.at?_eq)
  refine List.pairwise_map.2 ((List.pairwise_map.1 h.nodup).imp_of_mem fun {a b} ha hb hne => ?_)
  exact ⟨hno a ha b hb hne, hno b hb a ha hne.symm⟩

mutual
/-- The selects of a tree have places at and below that of its root. -/
theorem exists_placed_tree {n : Node} : (t : SelectTree) → ∀ {top s keys},
    t = selectTree s keys → n.at? top = some (.select s keys) → ∀ parent start,
    ∃ zs, zs.map Prod.snd = t.list parent start ∧ PlacedBelow n [top] parent start zs
  | .node s' keys' children, top, s, keys, heq, hs, parent, start => by
    obtain ⟨hs', hkeys', hchildren⟩ := SelectTree.node.inj heq
    obtain ⟨firsts, hfirsts⟩ := exists_firsts (.select s keys)
    have htrees : (firsts.map fun f => (top ++ f.1, f.2)).map Prod.snd = children := by
      rw [List.map_map, hchildren]
      exact hfirsts.trees
    obtain ⟨zs, hzs, hplaced⟩ := exists_placed_trees children htrees (by
      intro x hx
      obtain ⟨f, hf, rfl⟩ := List.mem_map.1 hx
      obtain ⟨s', keys', hmeets, htree⟩ := hfirsts.meets f hf
      exact ⟨s', keys', by rw [Node.at?_append, hs, Option.bind_some, hmeets.at?_eq], htree⟩)
      (hfirsts.apart top) (some start) (start + 1)
    refine ⟨(top, ⟨parent, s, keys⟩) :: zs, ?_, .node (firsts.map Prod.fst) hs (fun p => ?_) ?_⟩
    · rw [List.map_cons, hzs, SelectTree.list, hs', hkeys']
    · exact hfirsts.mem_iff
    · rw [List.map_map] at hplaced ⊢
      exact hplaced

theorem exists_placed_trees {n : Node} : (ts : List SelectTree) →
    ∀ {tops : List (List Child × SelectTree)}, tops.map Prod.snd = ts →
    (∀ x ∈ tops, ∃ s keys, n.at? x.1 = some (.select s keys) ∧ x.2 = selectTree s keys) →
    Apart tops → ∀ parent start,
    ∃ zs, zs.map Prod.snd = listTrees parent start ts ∧
      PlacedBelow n (tops.map Prod.fst) parent start zs
  | [], tops, htops, _, _, parent, start => by
    obtain rfl := List.map_eq_nil_iff.1 htops
    exact ⟨[], rfl, .nil n parent start⟩
  | t :: ts, tops, htops, hselects, hapart, parent, start => by
    obtain ⟨x, rest, rfl, hx, hrest⟩ := List.map_eq_cons_iff.1 htops
    obtain ⟨hfirst, hapart⟩ := List.pairwise_cons.1 hapart
    obtain ⟨s, keys, hs, htree⟩ := hselects x List.mem_cons_self
    obtain ⟨zs, hzs, hplaced⟩ := exists_placed_tree t (hx.symm.trans htree) hs parent start
    have hlen : (t.list parent start).length = zs.length := by rw [← hzs, List.length_map]
    obtain ⟨zs', hzs', hplaced'⟩ := exists_placed_trees ts hrest
      (fun y hy => hselects y (List.mem_cons_of_mem _ hy)) hapart parent (start + zs.length)
    refine ⟨zs ++ zs', ?_, hplaced.append hplaced' ?_⟩
    · rw [List.map_append, hzs, hzs', listTrees, hlen]
    · intro p hp q hq
      obtain rfl := List.mem_singleton.1 hp
      obtain ⟨y, hy, rfl⟩ := List.mem_map.1 hq
      exact hfirst y hy
end

/-- The selects of a statement with their places: those at searched places, each once. A select
without a parent is in no other one, and the parent of any other is the innermost select around
it, listed before it. -/
structure Placement (s : Statement) (zs : List (List Child × PlacedSelect)) : Prop where
  selects : zs.map Prod.snd = s.selects
  nodup : (zs.map Prod.fst).Nodup
  at_place : ∀ z ∈ zs, (Node.statement s).at? z.1 = some (.select z.2.select z.2.keys)
  searched : ∀ z ∈ zs, Child.AllSearched z.1
  complete : ∀ p select keys, Child.AllSearched p →
    (Node.statement s).at? p = some (.select select keys) → p ∈ zs.map Prod.fst
  parents : ∀ (i : Nat) (z : List Child × PlacedSelect), zs[i]? = some z →
    (z.2.parent = none ∧ ∀ q, ¬(Node.statement s).Encloses q z.1) ∨
      ∃ j y, j < i ∧ zs[j]? = some y ∧ z.2.parent = some j ∧
        (Node.statement s).Innermost y.1 z.1

theorem exists_placement (s : Statement) : ∃ zs, Placement s zs := by
  obtain ⟨firsts, hfirsts⟩ := exists_firsts (.statement s)
  have hapart : Apart firsts := by
    have := hfirsts.apart []
    simpa using this
  obtain ⟨zs, hzs, h⟩ := exists_placed_trees s.forest hfirsts.trees (fun f hf => by
    obtain ⟨s', keys', hmeets, htree⟩ := hfirsts.meets f hf
    exact ⟨s', keys', hmeets.at?_eq, htree⟩) hapart none 0
  refine ⟨zs, hzs, h.nodup, h.at_place, fun z hz => ?_, fun p select keys hp hs => ?_,
    fun i z hz => ?_⟩
  · obtain ⟨top, htop, rest, hrest, hsearched⟩ := h.below z hz
    obtain ⟨s', keys', hmeets⟩ := hfirsts.mem_iff.1 htop
    rw [hrest]
    exact List.forall_mem_append.2 ⟨hmeets.allSearched, hsearched⟩
  · have hne : p ≠ [] := by
      rintro rfl
      cases hs
    obtain ⟨q, rest, s', keys', rfl, hq⟩ := Node.exists_meetsInside hne hs hp
    exact h.complete q (hfirsts.complete q s' keys' hq) rest select keys
      (List.forall_mem_append.1 hp).2 hs
  · rcases h.parents i z hz with ⟨htop, hparent⟩ | ⟨j, y, hj, hy, hparent, hin⟩
    · left
      refine ⟨hparent, ?_⟩
      rintro q ⟨hq, hne, s', keys', hs'⟩
      obtain ⟨s'', keys'', hmeets⟩ := hfirsts.mem_iff.1 htop
      have hnil : q ≠ [] := by
        rintro rfl
        cases hs'
      exact hne (hmeets.eq_of_isPrefix hq hnil hs')
    · exact .inr ⟨j, y, hj, hy, by rw [hparent, Nat.zero_add], hin⟩

/-! ## Scopes -/

/-- The scope of the select at a place of a statement. -/
def Sql.Statement.ScopeAt (text : List Char) (s : Statement) (p : List Child) (scope : Scope) :
    Prop :=
  ∃ select keys, (Node.statement s).at? p = some (.select select keys) ∧
    scope = Scope.ofSelect text select keys

/-- Each select of a statement has one scope, and there are no others. -/
def OneScopeEach (text : List Char) (s : Statement) : Prop :=
  Listed (s.ScopeAt text) ((selectScopes text s).map PlacedScope.scope)

/-- No select of a statement is at a place that is skipped. -/
def NoneSkipped (s : Statement) : Prop :=
  ∀ p select keys, (Node.statement s).at? p = some (.select select keys) → Child.AllSearched p

theorem listed_scopes (text : List Char) (s : Statement) :
    Listed (fun p scope => Child.AllSearched p ∧ s.ScopeAt text p scope)
      ((selectScopes text s).map PlacedScope.scope) := by
  obtain ⟨zs, h⟩ := exists_placement s
  refine ⟨zs.map fun z => (z.1, Scope.ofSelect text z.2.select z.2.keys), ?_, ?_, fun p x => ?_⟩
  · unfold selectScopes
    rw [← h.selects]
    simp only [List.map_map]
    rfl
  · rw [List.map_map]
    exact h.nodup
  · rw [List.mem_map]
    constructor
    · intro hsome
      obtain ⟨z, hz, heq⟩ := hsome
      obtain ⟨rfl, rfl⟩ := Prod.mk.inj heq
      exact ⟨h.searched z hz, _, _, h.at_place z hz, rfl⟩
    · intro hsome
      obtain ⟨hp, select, keys, hs, rfl⟩ := hsome
      obtain ⟨z, hz, rfl⟩ := List.mem_map.1 (h.complete p select keys hp hs)
      obtain ⟨rfl, rfl⟩ := Node.select.inj (Option.some.inj (hs.symm.trans (h.at_place z hz)))
      exact ⟨z, hz, rfl⟩

namespace Listed

variable {π α β : Type} {A : π → α → Prop} {B : π → β → Prop} {xs : List α} {ys : List β}

/-- The places alone. -/
theorem exists_places (ha : Listed A xs) :
    ∃ ps : List π, ps.Nodup ∧ ps.length = xs.length ∧ ∀ p, p ∈ ps ↔ ∃ x, A p x := by
  obtain ⟨places, rfl, hnodup, hA⟩ := ha
  refine ⟨places.map Prod.fst, hnodup, by simp, fun p => ?_⟩
  simp only [List.mem_map, Prod.exists, exists_and_right, exists_eq_right, hA]

/-- A listing of fewer places is no longer. -/
theorem length_le (ha : Listed A xs) (hb : Listed B ys) (himp : ∀ p x, A p x → ∃ y, B p y) :
    xs.length ≤ ys.length := by
  obtain ⟨ps, hps, hxs, hA⟩ := ha.exists_places
  obtain ⟨qs, -, hys, hB⟩ := hb.exists_places
  have hsub : ps ⊆ qs := fun p hp => (hB p).2 (((hA p).1 hp).elim (himp p))
  rw [← hxs, ← hys]
  exact (List.subperm_of_subset hps hsub).length_le

/-- If a listing of fewer places is as long as another one, it has all places of that one. -/
theorem of_imp (ha : Listed A xs) (hb : Listed B ys) (himp : ∀ p x, A p x → ∃ y, B p y)
    (hlength : ys.length ≤ xs.length) {p : π} {y : β} (h : B p y) : ∃ x, A p x := by
  obtain ⟨ps, hps, hxs, hA⟩ := ha.exists_places
  obtain ⟨qs, -, hys, hB⟩ := hb.exists_places
  have hsub : ps ⊆ qs := fun p hp => (hB p).2 (((hA p).1 hp).elim (himp p))
  have hperm := (List.subperm_of_subset hps hsub).perm_of_length_le (by omega)
  exact (hA p).1 (hperm.mem_iff.2 ((hB p).2 ⟨y, h⟩))

end Listed

theorem oneScopeEach_iff (text : List Char) (s : Statement) :
    OneScopeEach text s ↔ NoneSkipped s := by
  have hlisted := listed_scopes text s
  constructor
  · intro h p select keys hs
    obtain ⟨scope, hall, -⟩ := hlisted.of_imp h (fun _ x hx => ⟨x, hx.2⟩) (Nat.le_refl _)
      ⟨select, keys, hs, rfl⟩
    exact hall
  · intro h
    refine hlisted.congr fun p x => ⟨fun hx => hx.2, fun hx => ⟨?_, hx⟩⟩
    obtain ⟨select, keys, hs, -⟩ := hx
    exact h p select keys hs

/-- Each select has one scope if there are as many scopes as selects in the syntax tree. -/
theorem oneScopeEach_iff_length (text : List Char) (s : Statement) :
    OneScopeEach text s ↔ (selectScopes text s).length = s.selectCount := by
  have hplaces := Node.listed_places (.statement s)
  have hat : ∀ p scope, s.ScopeAt text p scope → (Node.statement s).HasSelectAt p := by
    rintro p scope ⟨select, keys, hs, -⟩
    exact ⟨select, keys, hs⟩
  have hscopes : ((selectScopes text s).map PlacedScope.scope).length =
      (selectScopes text s).length := List.length_map _
  have hcount : (List.replicate (Node.statement s).selectCount ()).length = s.selectCount :=
    List.length_replicate
  constructor
  · intro h
    have hle := h.length_le hplaces fun p scope hscope => ⟨(), hat p scope hscope⟩
    have hge := hplaces.length_le h fun p _ ⟨select, keys, hs⟩ => ⟨_, select, keys, hs, rfl⟩
    omega
  · intro hlength
    refine (oneScopeEach_iff text s).2 fun p select keys hs => ?_
    obtain ⟨scope, hall, -⟩ := (listed_scopes text s).of_imp hplaces
      (fun p scope hscope => ⟨(), hat p scope hscope.2⟩) (by omega) (y := ()) ⟨select, keys, hs⟩
    exact hall

/-- The scopes of a statement are those of the selects at searched places, each place once; so
each select has one scope exactly when none is at a place that is skipped. Then, and only then, there
are as many scopes as selects are written in the statement. -/
theorem one_scope_for_each_searched_select (text : List Char) (s : Statement) :
    Listed (fun p scope => Child.AllSearched p ∧ s.ScopeAt text p scope)
      ((selectScopes text s).map PlacedScope.scope) ∧
    (OneScopeEach text s ↔ NoneSkipped s) ∧
    (OneScopeEach text s ↔ (selectScopes text s).length = s.selectCount) :=
  ⟨listed_scopes text s, oneScopeEach_iff text s, oneScopeEach_iff_length text s⟩

/-- Two selects united, and a select in the sort key of the union. -/
def sortedUnion : List Char :=
  "SELECT a FROM t UNION SELECT b FROM u ORDER BY (SELECT c FROM v)".toList

/-- The first sort key of the query is a query whose body is a select. -/
def keySelect : List Child := [.searched 0, .skipped 0, .searched 0, .searched 0]

/-- The statement is a query and has a select at a place. -/
def hasSelectAt (p : List Child) (s : Statement) : Bool :=
  match s, (Node.statement s).at? p with
  | .query _, some (.select ..) => true
  | _, _ => false

set_option maxRecDepth 100000 in
theorem sortedUnion_parses :
    someStatement .generic sortedUnion 0 (hasSelectAt keySelect) = true := by
  decide +kernel

/-- The select in the sort key has no scope. -/
theorem sortedUnion_lacks_scope :
    ∃ statements q, parse .generic sortedUnion = .ok statements ∧
      statements[0]? = some (.query q) ∧ ¬OneScopeEach sortedUnion (.query q) := by
  obtain ⟨statements, s, hparse, hs, hcheck⟩ := exists_of_someStatement sortedUnion_parses
  unfold hasSelectAt at hcheck
  split at hcheck
  case h_2 => cases hcheck
  rename_i q select keys hselect
  refine ⟨statements, q, hparse, hs, fun hone => ?_⟩
  have hall := (oneScopeEach_iff sortedUnion _).1 hone keySelect select keys hselect
  exact absurd (hall (.skipped 0) (by decide)) (by decide)

end ColumnLint
