import ColumnLint.Proofs.Occurrence
import Mathlib.Data.List.Perm.Basic

/-
  Where selects stand in a statement. A node is a part of a statement that may hold selects, and
  its contents are the nodes directly in it: those that are searched for selects and those that
  are skipped. A place is the way from a node into its contents, one child after the other. The
  selects in a node are those of its contents that are searched (`inner_perm`), and what holds of
  a node if it holds of these holds of every node (`searchedInduction`).
-/

namespace ColumnLint

open Text Sql

/-- A part of a statement that may hold selects. A select comes with the sort keys of the query
that it is the body of. -/
inductive Node where
  | statement (s : Statement)
  | query (q : Query)
  | body (b : Body)
  | select (s : Select) (keys : List Expr)
  | tables (t : Joined)
  | source (s : Source)
  | expr (e : Expr)

/-- The nodes directly in a node. -/
structure Contents where
  /-- Those that are searched for selects. -/
  searched : List Node
  skipped : List Node

/-! ## Contents -/

/-- The names of the fields that an access takes. -/
def Sql.Access.fields : Access → List Expr
  | .field e => [e]
  | .subscript .. => []

/-- The expressions that parts of a name are computed from. -/
def Sql.NamePart.arguments : NamePart → List Expr
  | .ident _ => []
  | .call _ arguments => arguments

def Sql.Name.arguments (n : Name) : List Expr := n.flatMap NamePart.arguments

/-- The columns of a label, if there is one. -/
def labelColumns (label : Option Alias) : List Expr := label.toList.flatMap Alias.columns

/-- What is no source in a join. -/
def Sql.Join.exprs (j : Join) : List Expr :=
  j.matching ++ j.on ++ j.shared.flatMap Name.arguments

/-- Names of fields and arguments, the bounds of sort keys and what is set aside are skipped. -/
def Sql.Expr.contents : Expr → Contents
  | .column _ | .star _ | .constant .. => ⟨[], []⟩
  | .starOf name _ => ⟨[], (Name.arguments name).map .expr⟩
  | .form _ operands => ⟨operands.map .expr, []⟩
  | .access root path =>
    ⟨.expr root :: (path.flatMap Access.operands).map .expr,
      (path.flatMap Access.fields).map .expr⟩
  | .named name _ value => ⟨[.expr value], [.expr name]⟩
  | .filled key _ bounds => ⟨[.expr key], bounds.map .expr⟩
  | .aside e => ⟨[], [.expr e]⟩
  | .query q => ⟨[.query q], []⟩
  | .join j => ⟨[], .source j.source :: j.exprs.map .expr⟩

/-- The columns in the labels of common table expressions. -/
def Sql.Query.labelColumns (q : Query) : List Expr := q.ctes.flatMap fun c => c.label.columns

/-- Sort keys belong to the select that is the body of their query; those of any other body are
skipped, as are the clauses behind the keys. -/
def Sql.Query.contents (q : Query) : Contents :=
  match q.body with
  | .select s =>
    ⟨q.ctes.map (fun c => .query c.query) ++ [.select s q.keys],
      (q.clauses ++ q.labelColumns).map .expr⟩
  | body =>
    ⟨q.ctes.map (fun c => .query c.query) ++ [.body body],
      (q.keys ++ q.clauses ++ q.labelColumns).map .expr⟩

def Sql.Body.contents : Body → Contents
  | .select s => ⟨[.select s []], []⟩
  | .query q => ⟨[.query q], []⟩
  | .operation left _ right => ⟨[.body left, .body right], []⟩
  | .values rows => ⟨[], rows.map .expr⟩
  | .table _ => ⟨[], []⟩
  | .statement s => ⟨[.statement s], []⟩

/-- Of a projection item only an expression is searched, not the prefix of a star. -/
def Sql.Item.exprs : Item → List Expr
  | .expr e _ => [e]
  | .star _ | .starOf .. | .starOfExpr .. => []

/-- The options of a star, and what is in its prefix. -/
def Sql.Item.skipped : Item → List Expr
  | .expr .. => []
  | .star options => options
  | .starOf name options => Name.arguments name ++ options
  | .starOfExpr e options => e :: options

def Sql.Select.contents (s : Select) (keys : List Expr) : Contents where
  searched := s.sources.map .tables ++ (s.projection.flatMap Item.exprs ++ s.prewhere
    ++ s.selection ++ s.groups ++ s.having ++ s.qualify ++ s.sorting
    ++ s.windows.flatMap Window.exprs ++ keys).map .expr
  skipped := (s.quantifiers ++ s.projection.flatMap Item.skipped ++ s.into ++ s.views ++ s.others
    ++ s.hierarchy).map .expr

/-- Of the conditions of a join only that of `ON` is searched. -/
def Sql.Joined.contents (t : Joined) : Contents where
  searched := .source t.source ::
    t.joins.flatMap fun j => .source j.source :: j.on.map .expr
  skipped := t.joins.flatMap fun j =>
    (j.matching ++ j.shared.flatMap Name.arguments).map .expr

/-- Of table sources only derived tables and joins in parentheses are searched. -/
def Sql.Source.contents : Source → Contents
  | .table name details label hints =>
    ⟨[], (Name.arguments name ++ details ++ labelColumns label ++ hints).map .expr⟩
  | .derived _ q label => ⟨[.query q], (labelColumns label).map .expr⟩
  | .nested tables label => ⟨[.tables tables], (labelColumns label).map .expr⟩
  | .computed e label _ => ⟨[], (e :: labelColumns label).map .expr⟩
  | .reshaped source e label => ⟨[], .source source :: (e :: labelColumns label).map .expr⟩

/-- Statements other than queries and those that store the result of one are skipped. -/
def Sql.Statement.contents : Statement → Contents
  | .query q => ⟨[.query q], []⟩
  | .insert name source others =>
    ⟨source.toList.map .query, (Name.arguments name ++ others).map .expr⟩
  | .createView name q others => ⟨[.query q], (Name.arguments name ++ others).map .expr⟩
  | .createTable name q others =>
    ⟨q.toList.map .query, (Name.arguments name ++ others).map .expr⟩
  | .explain lead s => ⟨[], .statement s :: lead.map .expr⟩
  | .other tables parts => ⟨[], tables.map .tables ++ parts.map .expr⟩

namespace Node

def contents : Node → Contents
  | statement s => s.contents
  | query q => q.contents
  | body b => b.contents
  | select s keys => s.contents keys
  | tables t => t.contents
  | source s => s.contents
  | expr e => e.contents

end Node

/-! ## Places -/

/-- One of the nodes directly in a node, by its number among those searched or skipped. -/
inductive Child where
  | searched (i : Nat)
  | skipped (i : Nat)
deriving DecidableEq, Repr

def Child.isSearched : Child → Bool
  | searched _ => true
  | skipped _ => false

/-- Every node on the way to a place is searched. -/
def Child.AllSearched (place : List Child) : Prop := ∀ c ∈ place, c.isSearched = true

def Contents.get? (c : Contents) : Child → Option Node
  | .searched i => c.searched[i]?
  | .skipped i => c.skipped[i]?

namespace Node

/-- The node at a place. -/
def at? : Node → List Child → Option Node
  | n, [] => some n
  | n, c :: place => (n.contents.get? c).bind fun m => m.at? place

/-- The place `p` is inside the select at the place `q`. -/
def Encloses (n : Node) (q p : List Child) : Prop :=
  q <+: p ∧ q ≠ p ∧ ∃ s keys, n.at? q = some (.select s keys)

/-- The innermost select around the place `p` is that at the place `q`. -/
def Innermost (n : Node) (q p : List Child) : Prop :=
  n.Encloses q p ∧ ∀ r, n.Encloses r p → r <+: q

theorem at?_cons (n : Node) (c : Child) (place : List Child) :
    n.at? (c :: place) = (n.contents.get? c).bind fun m => m.at? place := rfl

theorem at?_append (n : Node) (p q : List Child) :
    n.at? (p ++ q) = (n.at? p).bind fun m => m.at? q := by
  induction p generalizing n with
  | nil => rfl
  | cons c p ih =>
    rw [List.cons_append, at?_cons, at?_cons]
    cases n.contents.get? c with
    | none => rfl
    | some m => exact ih m

end Node

/-! ## Forests -/

/-- The tree of a select. -/
def selectTree (s : Select) (keys : List Expr) : SelectTree :=
  .node s keys (s.derivedForest ++ s.innerForest ++ listForest keys)

namespace Node

/-- The trees of the selects in a node, the node itself left out. -/
def inner : Node → List SelectTree
  | statement s => s.forest
  | query q => q.forest
  | body b => b.forest
  | select s keys => s.derivedForest ++ s.innerForest ++ listForest keys
  | tables t => t.derivedForest ++ t.conditionForest
  | source s => s.derivedForest ++ s.conditionForest
  | expr e => e.forest

/-- The trees of the selects of a node. -/
def forest : Node → List SelectTree
  | select s keys => [selectTree s keys]
  | n => n.inner

theorem forest_eq_inner {n : Node} (hn : ∀ s keys, n ≠ .select s keys) : n.forest = n.inner := by
  cases n with
  | select s keys => exact absurd rfl (hn s keys)
  | _ => rfl

end Node

theorem listForest_eq_flatMap (es : List Expr) : listForest es = es.flatMap Expr.forest := by
  induction es with
  | nil => rfl
  | cons e es ih => rw [listForest, List.flatMap_cons, ih]

theorem pathForest_eq_flatMap (path : List Access) :
    pathForest path = (path.flatMap Access.operands).flatMap Expr.forest := by
  induction path with
  | nil => rfl
  | cons a path ih =>
    rw [List.flatMap_cons, List.flatMap_append, ← ih]
    cases a with
    | field e => rfl
    | subscript words es => rw [pathForest, listForest_eq_flatMap, Access.operands]

theorem cteForest_eq_flatMap (ctes : List Cte) :
    cteForest ctes = ctes.flatMap fun c => c.query.forest := by
  induction ctes with
  | nil => rfl
  | cons c ctes ih =>
    obtain ⟨name, words, q, tail⟩ := c
    rw [cteForest, List.flatMap_cons, ih]

theorem itemsForest_eq_flatMap (items : List Item) :
    itemsForest items = (items.flatMap Item.exprs).flatMap Expr.forest := by
  induction items with
  | nil => rfl
  | cons item items ih =>
    rw [List.flatMap_cons, List.flatMap_append, ← ih]
    cases item <;> simp [itemsForest, Item.exprs]

theorem windowsForest_eq_flatMap (windows : List Window) :
    windowsForest windows = (windows.flatMap Window.exprs).flatMap Expr.forest := by
  induction windows with
  | nil => rfl
  | cons w windows ih =>
    rw [List.flatMap_cons, List.flatMap_append, ← ih]
    cases w <;> simp [windowsForest, Window.exprs]

theorem sourcesForest_eq_flatMap (tables : List Joined) :
    sourcesForest tables = tables.flatMap Joined.derivedForest := by
  induction tables with
  | nil => rfl
  | cons t tables ih => rw [sourcesForest, List.flatMap_cons, ih]

theorem conditionsForest_eq_flatMap (tables : List Joined) :
    conditionsForest tables = tables.flatMap Joined.conditionForest := by
  induction tables with
  | nil => rfl
  | cons t tables ih => rw [conditionsForest, List.flatMap_cons, ih]

theorem joinsForest_eq_flatMap (joins : List Join) :
    joinsForest joins = joins.flatMap fun j => j.source.derivedForest := by
  induction joins with
  | nil => rfl
  | cons j joins ih =>
    obtain ⟨words, source, matching, on, shared⟩ := j
    rw [joinsForest, List.flatMap_cons, ih]

theorem joinConditionForest_eq_flatMap (joins : List Join) :
    joinConditionForest joins =
      joins.flatMap fun j => j.source.conditionForest ++ listForest j.on := by
  induction joins with
  | nil => rfl
  | cons j joins ih =>
    obtain ⟨words, source, matching, on, shared⟩ := j
    rw [joinConditionForest, List.flatMap_cons, ih]

theorem flatMap_forest_exprs (es : List Expr) :
    (es.map Node.expr).flatMap Node.forest = listForest es := by
  rw [listForest_eq_flatMap, List.flatMap_map]
  rfl

theorem flatMap_forest_ctes (ctes : List Cte) :
    (ctes.map fun c => Node.query c.query).flatMap Node.forest = cteForest ctes := by
  rw [cteForest_eq_flatMap, List.flatMap_map]
  rfl

/-! The selects in a node are those of its contents that are searched. Only joined tables are gone
through twice, for their derived tables and for their conditions, so the order may differ. -/

theorem inner_query (q : Query) :
    (Node.query q).inner = (Node.query q).contents.searched.flatMap Node.forest := by
  obtain ⟨region, words, ctes, body, keys, clauses⟩ := q
  cases body <;>
    simp [Node.inner, Node.contents, Query.contents, Query.forest, List.flatMap_append,
      flatMap_forest_ctes, Node.forest, selectTree]

theorem inner_body (b : Body) :
    (Node.body b).inner = (Node.body b).contents.searched.flatMap Node.forest := by
  cases b <;>
    simp [Node.inner, Node.contents, Body.contents, Body.forest, Node.forest, selectTree,
      listForest]

theorem inner_expr (e : Expr) :
    (Node.expr e).inner = (Node.expr e).contents.searched.flatMap Node.forest := by
  cases e <;>
    simp [Node.inner, Node.contents, Expr.contents, Expr.forest, flatMap_forest_exprs,
      Node.forest, pathForest_eq_flatMap, listForest_eq_flatMap]

theorem inner_statement (s : Statement) :
    (Node.statement s).inner = (Node.statement s).contents.searched.flatMap Node.forest := by
  cases s with
  | insert name source others =>
    cases source <;>
      simp [Node.inner, Node.contents, Statement.contents, Statement.forest, optionForest,
        Node.forest]
  | createTable name q others =>
    cases q <;>
      simp [Node.inner, Node.contents, Statement.contents, Statement.forest, optionForest,
        Node.forest]
  | _ => simp [Node.inner, Node.contents, Statement.contents, Statement.forest, Node.forest]

theorem inner_source (s : Source) :
    (Node.source s).inner = (Node.source s).contents.searched.flatMap Node.forest := by
  cases s <;>
    simp [Node.inner, Node.contents, Source.contents, Source.derivedForest,
      Source.conditionForest, Node.forest]

theorem inner_tables_perm (t : Joined) :
    (Node.tables t).inner.Perm ((Node.tables t).contents.searched.flatMap Node.forest) := by
  obtain ⟨source, joins⟩ := t
  have hjoins : ((joins.flatMap fun j => Node.source j.source :: j.on.map Node.expr).flatMap
      Node.forest) = joins.flatMap fun j =>
        j.source.derivedForest ++ (j.source.conditionForest ++ listForest j.on) := by
    rw [List.flatMap_assoc]
    apply List.flatMap_congr
    intro j _
    rw [List.flatMap_cons, flatMap_forest_exprs, ← List.append_assoc]
    rfl
  show (source.derivedForest ++ joinsForest joins
    ++ (source.conditionForest ++ joinConditionForest joins)).Perm
    (source.derivedForest ++ source.conditionForest ++
      (joins.flatMap fun j => Node.source j.source :: j.on.map Node.expr).flatMap Node.forest)
  rw [hjoins, joinsForest_eq_flatMap, joinConditionForest_eq_flatMap]
  have hsplit := List.flatMap_append_perm joins (fun j => j.source.derivedForest)
    fun j => j.source.conditionForest ++ listForest j.on
  refine List.Perm.trans ?_ (hsplit.append_left _)
  simp only [List.append_assoc]
  exact (List.perm_append_comm_assoc ..).append_left _

theorem inner_select_perm (s : Select) (keys : List Expr) :
    (Node.select s keys).inner.Perm
      ((Node.select s keys).contents.searched.flatMap Node.forest) := by
  have htables : (s.sources.map Node.tables).flatMap Node.forest =
      s.sources.flatMap fun t => t.derivedForest ++ t.conditionForest := by
    rw [List.flatMap_map]
    rfl
  have hparts : s.derivedForest ++ s.innerForest ++ listForest keys =
      sourcesForest s.sources ++ (itemsForest s.projection ++ conditionsForest s.sources ++
        listForest s.prewhere ++ listForest s.selection ++ listForest s.groups ++
        listForest s.having ++ listForest s.qualify ++ listForest s.sorting ++
        windowsForest s.windows) ++ listForest keys := by
    cases s
    rw [Select.derivedForest, Select.innerForest]
  show (s.derivedForest ++ s.innerForest ++ listForest keys).Perm
    ((s.sources.map Node.tables ++ List.map Node.expr _).flatMap Node.forest)
  rw [hparts, List.flatMap_append, htables, flatMap_forest_exprs]
  simp only [listForest_eq_flatMap, itemsForest_eq_flatMap, windowsForest_eq_flatMap,
    sourcesForest_eq_flatMap, conditionsForest_eq_flatMap, List.flatMap_append, List.append_assoc]
  have hsplit := List.flatMap_append_perm s.sources Joined.derivedForest Joined.conditionForest
  refine List.Perm.trans ?_ (hsplit.append_right _)
  rw [List.append_assoc]
  exact (List.perm_append_comm_assoc ..).append_left _

/-- The selects in a node are those of its contents that are searched. -/
theorem inner_perm (n : Node) : n.inner.Perm (n.contents.searched.flatMap Node.forest) := by
  cases n with
  | statement s => rw [inner_statement]
  | query q => rw [inner_query]
  | body b => rw [inner_body]
  | select s keys => exact inner_select_perm s keys
  | tables t => exact inner_tables_perm t
  | source s => rw [inner_source]
  | expr e => rw [inner_expr]

/-! ## Induction -/

namespace Node

/-- A number that is smaller for each of the contents. A select may stand for the body that it is
and so weighs less than other nodes. -/
noncomputable def weight : Node → Nat
  | statement s => sizeOf s + 1
  | query q => sizeOf q + 1
  | body b => sizeOf b + 1
  | select s keys => sizeOf s + sizeOf keys
  | tables t => sizeOf t + 1
  | source s => sizeOf s + 1
  | expr e => sizeOf e + 1

theorem weight_expr_lt {es : List Expr} {m : Node} {k : Nat} (hm : m ∈ es.map Node.expr)
    (h : sizeOf es < k) : m.weight < k := by
  obtain ⟨e, he, rfl⟩ := List.mem_map.1 hm
  have := List.sizeOf_lt_of_mem he
  show sizeOf e + 1 < k
  omega

theorem weight_lt_expr {e : Expr} {m : Node} (h : m ∈ e.contents.searched) :
    m.weight < (Node.expr e).weight := by
  cases e with
  | form f operands =>
    refine weight_expr_lt h ?_
    simp only [weight, Expr.form.sizeOf_spec]
    omega
  | access root path =>
    rcases List.mem_cons.1 h with rfl | h
    · simp only [weight, Expr.access.sizeOf_spec]
      omega
    · obtain ⟨e, he, rfl⟩ := List.mem_map.1 h
      obtain ⟨a, ha, hea⟩ := List.mem_flatMap.1 he
      cases a with
      | field e' => cases hea
      | subscript words es =>
        have hlist := List.sizeOf_lt_of_mem ha
        have hitem := List.sizeOf_lt_of_mem (show e ∈ es from hea)
        simp only [Access.subscript.sizeOf_spec] at hlist
        simp only [weight, Expr.access.sizeOf_spec]
        omega
  | named name sign value =>
    obtain rfl := List.mem_singleton.1 h
    simp only [weight, Expr.named.sizeOf_spec]
    omega
  | filled key words bounds =>
    obtain rfl := List.mem_singleton.1 h
    simp only [weight, Expr.filled.sizeOf_spec]
    omega
  | query q =>
    obtain rfl := List.mem_singleton.1 h
    simp only [weight, Expr.query.sizeOf_spec]
    omega
  | _ => cases h

theorem weight_lt_query {q : Query} {m : Node} (h : m ∈ q.contents.searched) :
    m.weight < (Node.query q).weight := by
  obtain ⟨region, words, ctes, body, keys, clauses⟩ := q
  have hcte : ∀ c ∈ ctes, (Node.query c.query).weight < sizeOf ctes := by
    rintro ⟨name, words, q, tail⟩ hc
    have := List.sizeOf_lt_of_mem hc
    simp only [Cte.mk.sizeOf_spec] at this
    simp only [weight]
    omega
  have hbody : m ∈ ctes.map (fun c => Node.query c.query) ∨ m = .body body ∨
      ∃ s, body = .select s ∧ m = .select s keys := by
    unfold Query.contents at h
    split at h
    · rename_i s hs
      obtain rfl : body = .select s := hs
      rcases List.mem_append.1 h with h | h
      · exact .inl h
      · exact .inr (.inr ⟨s, rfl, List.mem_singleton.1 h⟩)
    · rcases List.mem_append.1 h with h | h
      · exact .inl h
      · exact .inr (.inl (List.mem_singleton.1 h))
  rcases hbody with h | rfl | ⟨s, rfl, rfl⟩
  · obtain ⟨c, hc, rfl⟩ := List.mem_map.1 h
    have := hcte c hc
    simp only [weight, Query.mk.sizeOf_spec] at this ⊢
    omega
  · simp only [weight, Query.mk.sizeOf_spec]
    omega
  · simp only [weight, Query.mk.sizeOf_spec, Body.select.sizeOf_spec]
    omega

theorem weight_lt_body {b : Body} {m : Node} (h : m ∈ b.contents.searched) :
    m.weight < (Node.body b).weight := by
  cases b with
  | select s =>
    obtain rfl := List.mem_singleton.1 h
    simp only [weight, Body.select.sizeOf_spec, List.nil.sizeOf_spec]
    omega
  | query q =>
    obtain rfl := List.mem_singleton.1 h
    simp only [weight, Body.query.sizeOf_spec]
    omega
  | operation left words right =>
    rcases List.mem_pair.1 h with rfl | rfl <;>
      simp only [weight, Body.operation.sizeOf_spec] <;> omega
  | statement s =>
    obtain rfl := List.mem_singleton.1 h
    simp only [weight, Body.statement.sizeOf_spec]
    omega
  | _ => cases h

theorem weight_item_lt {items : List Item} {m : Node}
    (h : m ∈ (items.flatMap Item.exprs).map Node.expr) : m.weight < sizeOf items := by
  obtain ⟨e, he, rfl⟩ := List.mem_map.1 h
  obtain ⟨item, hitem, he⟩ := List.mem_flatMap.1 he
  have hlist := List.sizeOf_lt_of_mem hitem
  cases item with
  | expr e' label =>
    obtain rfl := List.mem_singleton.1 he
    simp only [Item.expr.sizeOf_spec] at hlist
    simp only [weight]
    omega
  | _ => cases he

theorem weight_window_lt {windows : List Window} {m : Node}
    (h : m ∈ (windows.flatMap Window.exprs).map Node.expr) : m.weight < sizeOf windows := by
  obtain ⟨e, he, rfl⟩ := List.mem_map.1 h
  obtain ⟨w, hw, he⟩ := List.mem_flatMap.1 he
  have hlist := List.sizeOf_lt_of_mem hw
  cases w with
  | spec name e' =>
    obtain rfl := List.mem_singleton.1 he
    simp only [Window.spec.sizeOf_spec] at hlist
    simp only [weight]
    omega
  | reference name window => cases he

theorem weight_lt_select {s : Select} {keys : List Expr} {m : Node}
    (h : m ∈ (s.contents keys).searched) : m.weight < (Node.select s keys).weight := by
  have hsize : (Node.select s keys).weight = sizeOf s + sizeOf keys := rfl
  cases s
  simp only [Select.mk.sizeOf_spec] at hsize
  simp only [Select.contents, List.map_append, List.mem_append] at h
  rcases h with h | ((((((((h | h) | h) | h) | h) | h) | h) | h) | h)
  · obtain ⟨t, ht, rfl⟩ := List.mem_map.1 h
    have := List.sizeOf_lt_of_mem ht
    simp only [weight] at hsize ⊢
    omega
  · have := weight_item_lt h
    omega
  · exact weight_expr_lt h (by omega)
  · exact weight_expr_lt h (by omega)
  · exact weight_expr_lt h (by omega)
  · exact weight_expr_lt h (by omega)
  · exact weight_expr_lt h (by omega)
  · exact weight_expr_lt h (by omega)
  · have := weight_window_lt h
    omega
  · exact weight_expr_lt h (by omega)

theorem weight_lt_tables {t : Joined} {m : Node} (h : m ∈ t.contents.searched) :
    m.weight < (Node.tables t).weight := by
  obtain ⟨source, joins⟩ := t
  rcases List.mem_cons.1 h with rfl | h
  · simp only [weight, Joined.mk.sizeOf_spec]
    omega
  · obtain ⟨j, hj, hm⟩ := List.mem_flatMap.1 h
    have hlist := List.sizeOf_lt_of_mem hj
    obtain ⟨words, source', matching, on, shared⟩ := j
    simp only [Join.mk.sizeOf_spec] at hlist
    rcases List.mem_cons.1 hm with rfl | hm
    · simp only [weight, Joined.mk.sizeOf_spec]
      omega
    · refine weight_expr_lt hm ?_
      simp only [weight, Joined.mk.sizeOf_spec]
      omega

theorem weight_lt_source {s : Source} {m : Node} (h : m ∈ s.contents.searched) :
    m.weight < (Node.source s).weight := by
  cases s with
  | derived lateral q label =>
    obtain rfl := List.mem_singleton.1 h
    simp only [weight, Source.derived.sizeOf_spec]
    omega
  | nested tables label =>
    obtain rfl := List.mem_singleton.1 h
    simp only [weight, Source.nested.sizeOf_spec]
    omega
  | _ => cases h

theorem weight_lt_statement {s : Statement} {m : Node} (h : m ∈ s.contents.searched) :
    m.weight < (Node.statement s).weight := by
  cases s with
  | query q =>
    obtain rfl := List.mem_singleton.1 h
    simp only [weight, Statement.query.sizeOf_spec]
    omega
  | insert name source others =>
    cases source with
    | none => cases h
    | some q =>
      obtain rfl := List.mem_singleton.1 h
      simp only [weight, Statement.insert.sizeOf_spec, Option.some.sizeOf_spec]
      omega
  | createView name q others =>
    obtain rfl := List.mem_singleton.1 h
    simp only [weight, Statement.createView.sizeOf_spec]
    omega
  | createTable name q others =>
    cases q with
    | none => cases h
    | some q =>
      obtain rfl := List.mem_singleton.1 h
      simp only [weight, Statement.createTable.sizeOf_spec, Option.some.sizeOf_spec]
      omega
  | explain lead s => cases h
  | other tables parts => cases h

theorem weight_lt {n m : Node} (h : m ∈ n.contents.searched) : m.weight < n.weight := by
  cases n with
  | statement s => exact weight_lt_statement h
  | query q => exact weight_lt_query h
  | body b => exact weight_lt_body h
  | select s keys => exact weight_lt_select h
  | tables t => exact weight_lt_tables h
  | source s => exact weight_lt_source h
  | expr e => exact weight_lt_expr h

/-- What holds of a node if it holds of its contents that are searched, holds of every node. -/
theorem searchedInduction {P : Node → Prop}
    (h : ∀ n, (∀ m ∈ n.contents.searched, P m) → P n) (n : Node) : P n :=
  h n fun m hm =>
    have := weight_lt hm
    searchedInduction h m
termination_by n.weight

end Node

end ColumnLint
