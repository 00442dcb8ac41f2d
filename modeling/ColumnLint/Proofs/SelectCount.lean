import ColumnLint.Proofs.Nesting

/-
  How many selects are written in a statement. They are counted through the whole syntax tree,
  searched or not (`Sql.Statement.selectCount`). The contents of a node lose none of them
  (`selectCount_eq`), so selects have as many places as there are selects (`listed_places`).
-/

namespace ColumnLint

open Text Sql

/-! ## Selects in a syntax tree -/

mutual
def Sql.NamePart.selectCount : NamePart → Nat
  | .ident _ => 0
  | .call _ arguments => countExprs arguments

def countName : List NamePart → Nat
  | [] => 0
  | p :: rest => p.selectCount + countName rest

def countNames : List (List NamePart) → Nat
  | [] => 0
  | n :: rest => countName n + countNames rest

def Sql.Alias.selectCount : Alias → Nat
  | ⟨_, columns⟩ => countExprs columns

def countLabel : Option Alias → Nat
  | none => 0
  | some a => a.selectCount

def Sql.Expr.selectCount : Expr → Nat
  | .column _ => 0
  | .star _ => 0
  | .starOf name _ => countName name
  | .constant .. => 0
  | .form _ operands => countExprs operands
  | .access root path => root.selectCount + countPath path
  | .named name _ value => name.selectCount + value.selectCount
  | .filled key _ bounds => key.selectCount + countExprs bounds
  | .aside e => e.selectCount
  | .query q => q.selectCount
  | .join j => j.selectCount

def countExprs : List Expr → Nat
  | [] => 0
  | e :: es => e.selectCount + countExprs es

def countPath : List Access → Nat
  | [] => 0
  | .field e :: path => e.selectCount + countPath path
  | .subscript _ es :: path => countExprs es + countPath path

def Sql.Query.selectCount : Query → Nat
  | ⟨_, _, ctes, body, keys, clauses⟩ =>
    countCtes ctes + body.selectCount + countExprs keys + countExprs clauses

def countCtes : List Cte → Nat
  | [] => 0
  | ⟨label, _, query, _⟩ :: rest => label.selectCount + query.selectCount + countCtes rest

def Sql.Body.selectCount : Body → Nat
  | .select s => s.selectCount
  | .query q => q.selectCount
  | .operation left _ right => left.selectCount + right.selectCount
  | .values rows => countExprs rows
  | .table _ => 0
  | .statement s => s.selectCount

/-- The selects in a select, with itself. -/
def Sql.Select.selectCount : Select → Nat
  | ⟨_, quantifiers, projection, into, sources, views, prewhere, selection, groups, others,
      sorting, having, qualify, windows, _, hierarchy⟩ =>
    1 + countExprs quantifiers + countItems projection + countExprs into + countSources sources
      + countExprs views + countExprs prewhere + countExprs selection + countExprs groups
      + countExprs others + countExprs sorting + countExprs having + countExprs qualify
      + countWindows windows + countExprs hierarchy

def countWindows : List Window → Nat
  | [] => 0
  | .spec _ e :: rest => e.selectCount + countWindows rest
  | .reference .. :: rest => countWindows rest

def countItems : List Item → Nat
  | [] => 0
  | item :: rest => item.selectCount + countItems rest

def Sql.Item.selectCount : Item → Nat
  | .expr e _ => e.selectCount
  | .star options => countExprs options
  | .starOf name options => countName name + countExprs options
  | .starOfExpr e options => e.selectCount + countExprs options

def countSources : List Joined → Nat
  | [] => 0
  | t :: rest => t.selectCount + countSources rest

def Sql.Joined.selectCount : Joined → Nat
  | ⟨source, joins⟩ => source.selectCount + countJoins joins

def countJoins : List Join → Nat
  | [] => 0
  | j :: rest => j.selectCount + countJoins rest

def Sql.Join.selectCount : Join → Nat
  | ⟨_, source, matching, on, shared⟩ =>
    source.selectCount + countExprs matching + countExprs on + countNames shared

def Sql.Source.selectCount : Source → Nat
  | .table name details label hints =>
    countName name + countExprs details + countLabel label + countExprs hints
  | .derived _ q label => q.selectCount + countLabel label
  | .nested tables label => tables.selectCount + countLabel label
  | .computed e label _ => e.selectCount + countLabel label
  | .reshaped source e label => source.selectCount + e.selectCount + countLabel label

/-- The selects that are written in a statement, wherever they stand. -/
def Sql.Statement.selectCount : Statement → Nat
  | .query q => q.selectCount
  | .insert name source others => countName name + countOption source + countExprs others
  | .createView name q others => countName name + q.selectCount + countExprs others
  | .createTable name q others => countName name + countOption q + countExprs others
  | .explain lead s => countExprs lead + s.selectCount
  | .other tables parts => countSources tables + countExprs parts

def countOption : Option Query → Nat
  | none => 0
  | some q => q.selectCount
end

namespace Node

def selectCount : Node → Nat
  | statement s => s.selectCount
  | query q => q.selectCount
  | body b => b.selectCount
  | select s keys => s.selectCount + countExprs keys
  | tables t => t.selectCount
  | source s => s.selectCount
  | expr e => e.selectCount

/-- A node counts by itself if it is a select. -/
def ownCount : Node → Nat
  | select .. => 1
  | _ => 0

/-- The selects in all nodes of a list. -/
def total : List Node → Nat
  | [] => 0
  | n :: ns => n.selectCount + total ns

theorem total_nil : total [] = 0 := rfl

theorem total_cons (n : Node) (ns : List Node) : total (n :: ns) = n.selectCount + total ns := rfl

theorem total_append (ns ms : List Node) : total (ns ++ ms) = total ns + total ms := by
  induction ns with
  | nil => rw [List.nil_append, total_nil, Nat.zero_add]
  | cons n ns ih => rw [List.cons_append, total_cons, total_cons, ih, Nat.add_assoc]

theorem total_exprs (es : List Expr) : total (es.map .expr) = countExprs es := by
  induction es with
  | nil => rfl
  | cons e es ih => rw [List.map_cons, total_cons, ih, countExprs, selectCount]

end Node

/-! ## Selects in the contents of a node -/

theorem countExprs_append (es fs : List Expr) :
    countExprs (es ++ fs) = countExprs es + countExprs fs := by
  induction es with
  | nil => rw [List.nil_append, countExprs, Nat.zero_add]
  | cons e es ih => rw [List.cons_append, countExprs, ih, countExprs, Nat.add_assoc]

theorem countExprs_arguments (n : Name) : countExprs (Name.arguments n) = countName n := by
  induction n with
  | nil => rfl
  | cons p n ih =>
    have happend : Name.arguments (p :: n) = p.arguments ++ Name.arguments n := List.flatMap_cons
    rw [happend, countExprs_append, ih, countName]
    cases p <;> rfl

theorem countExprs_shared (names : List Name) :
    countExprs (names.flatMap Name.arguments) = countNames names := by
  induction names with
  | nil => rfl
  | cons n names ih =>
    rw [List.flatMap_cons, countExprs_append, ih, countExprs_arguments, countNames]

theorem countExprs_labelColumns (label : Option Alias) :
    countExprs (labelColumns label) = countLabel label := by
  rcases label with _ | ⟨name, columns⟩
  · rfl
  · have hcolumns : labelColumns (some ⟨name, columns⟩) = columns := List.flatMap_singleton ..
    rw [hcolumns, countLabel, Alias.selectCount]

theorem countPath_eq (path : List Access) :
    countPath path = countExprs (path.flatMap Access.operands)
      + countExprs (path.flatMap Access.fields) := by
  induction path with
  | nil => rfl
  | cons a path ih =>
    rw [List.flatMap_cons, List.flatMap_cons, countExprs_append, countExprs_append]
    cases a with
    | field e =>
      rw [countPath, ih, Access.operands, Access.fields, countExprs, countExprs, countExprs]
      omega
    | subscript words es =>
      rw [countPath, ih, Access.operands, Access.fields, countExprs]
      omega

theorem countItems_eq (items : List Item) :
    countItems items = countExprs (items.flatMap Item.exprs)
      + countExprs (items.flatMap Item.skipped) := by
  induction items with
  | nil => rfl
  | cons item items ih =>
    rw [List.flatMap_cons, List.flatMap_cons, countExprs_append, countExprs_append, countItems, ih]
    cases item with
    | expr e label =>
      simp only [Item.selectCount, Item.exprs, Item.skipped, countExprs]
      omega
    | star options =>
      rw [Item.selectCount, Item.exprs, Item.skipped, countExprs]
      omega
    | starOf name options =>
      rw [Item.selectCount, Item.exprs, Item.skipped, countExprs, countExprs_append,
        countExprs_arguments]
      omega
    | starOfExpr e options =>
      rw [Item.selectCount, Item.exprs, Item.skipped, countExprs, countExprs]
      omega

theorem countWindows_eq (windows : List Window) :
    countWindows windows = countExprs (windows.flatMap Window.exprs) := by
  induction windows with
  | nil => rfl
  | cons w windows ih =>
    rw [List.flatMap_cons, countExprs_append, ← ih]
    cases w with
    | spec name e => rw [countWindows, Window.exprs, countExprs, countExprs, Nat.add_zero]
    | reference name window => rw [countWindows, Window.exprs, countExprs, Nat.zero_add]

theorem countSources_eq (tables : List Joined) :
    countSources tables = Node.total (tables.map .tables) := by
  induction tables with
  | nil => rfl
  | cons t tables ih => rw [countSources, ih, List.map_cons, Node.total_cons, Node.selectCount]

theorem countCtes_eq (ctes : List Cte) :
    countCtes ctes = Node.total (ctes.map fun c => .query c.query)
      + countExprs (ctes.flatMap fun c => c.label.columns) := by
  induction ctes with
  | nil => rfl
  | cons c ctes ih =>
    obtain ⟨⟨name, columns⟩, words, q, tail⟩ := c
    rw [countCtes, ih, List.map_cons, Node.total_cons, List.flatMap_cons, countExprs_append,
      Alias.selectCount, Node.selectCount]
    dsimp only
    omega

theorem countJoins_eq (joins : List Join) :
    countJoins joins =
      Node.total (joins.flatMap fun j => .source j.source :: j.on.map .expr)
      + Node.total (joins.flatMap fun j =>
        (j.matching ++ j.shared.flatMap Name.arguments).map .expr) := by
  induction joins with
  | nil => rfl
  | cons j joins ih =>
    obtain ⟨words, source, matching, on, shared⟩ := j
    rw [countJoins, ih, List.flatMap_cons, List.flatMap_cons, Node.total_append, Node.total_append,
      Node.total_cons, Node.total_exprs, Node.total_exprs, countExprs_append, countExprs_shared,
      Join.selectCount, Node.selectCount]
    dsimp only
    omega

theorem countOption_eq (q : Option Query) : countOption q = Node.total (q.toList.map .query) := by
  cases q with
  | none => rfl
  | some q => rw [countOption, Option.toList, List.map_singleton, Node.total_cons, Node.total_nil]; rfl

namespace Node

/-! In each kind of node the counts of its contents add up. -/

theorem selectCount_expr (e : Expr) :
    e.selectCount = total e.contents.searched + total e.contents.skipped := by
  cases e with
  | column name => rfl
  | star region => rfl
  | starOf name region =>
    rw [Expr.selectCount, Expr.contents, total_exprs, countExprs_arguments, total_nil, Nat.zero_add]
  | constant text region => rfl
  | form f operands => rw [Expr.selectCount, Expr.contents, total_exprs, total_nil, Nat.add_zero]
  | access root path =>
    rw [Expr.selectCount, Expr.contents, total_cons, total_exprs, total_exprs, countPath_eq,
      selectCount, Nat.add_assoc]
  | named name sign value =>
    rw [Expr.selectCount, Expr.contents, total_cons, total_cons, total_nil, selectCount, selectCount]
    omega
  | filled key words bounds =>
    rw [Expr.selectCount, Expr.contents, total_cons, total_nil, total_exprs, selectCount]
    rfl
  | aside e => rw [Expr.selectCount, Expr.contents, total_cons, total_nil, selectCount]; omega
  | query q => rw [Expr.selectCount, Expr.contents, total_cons, total_nil, selectCount]; rfl
  | join j =>
    obtain ⟨words, source, matching, on, shared⟩ := j
    rw [Expr.selectCount, Expr.contents, total_cons, total_nil, total_exprs, Join.exprs,
      countExprs_append, countExprs_append, countExprs_shared, Join.selectCount, selectCount]
    dsimp only
    omega

theorem selectCount_query (q : Query) :
    q.selectCount = total q.contents.searched + total q.contents.skipped := by
  obtain ⟨region, words, ctes, body, keys, clauses⟩ := q
  rw [Query.selectCount, countCtes_eq]
  unfold Query.contents Query.labelColumns
  cases body <;>
    simp only [total_append, total_cons, total_nil, total_exprs, countExprs_append, selectCount,
      Body.selectCount] <;>
    omega

theorem selectCount_body (b : Body) :
    b.selectCount = total b.contents.searched + total b.contents.skipped := by
  cases b <;>
    simp [Body.selectCount, Body.contents, total_cons, total_nil, total_exprs, selectCount,
      countExprs]

theorem selectCount_select (s : Select) (keys : List Expr) :
    s.selectCount + countExprs keys =
      1 + (total (s.contents keys).searched + total (s.contents keys).skipped) := by
  cases s
  simp only [Select.selectCount, Select.contents, total_append, total_exprs, countExprs_append,
    countSources_eq, countItems_eq, countWindows_eq]
  omega

theorem selectCount_tables (t : Joined) :
    t.selectCount = total t.contents.searched + total t.contents.skipped := by
  obtain ⟨source, joins⟩ := t
  rw [Joined.selectCount, Joined.contents, total_cons, countJoins_eq, selectCount, Nat.add_assoc]

theorem selectCount_source (s : Source) :
    s.selectCount = total s.contents.searched + total s.contents.skipped := by
  cases s <;>
    simp only [Source.selectCount, Source.contents, total_cons, total_nil, total_exprs, countExprs,
      countExprs_append, countExprs_arguments, countExprs_labelColumns, selectCount] <;>
    omega

theorem selectCount_statement (s : Statement) :
    s.selectCount = total s.contents.searched + total s.contents.skipped := by
  cases s <;>
    simp only [Statement.selectCount, Statement.contents, total_append, total_cons, total_nil,
      total_exprs, countExprs_append, countExprs_arguments, countSources_eq, countOption_eq,
      selectCount] <;>
    omega

/-- The selects in a node are the node itself, if it is one, and those in its contents. -/
theorem selectCount_eq (n : Node) :
    n.selectCount = n.ownCount + (total n.contents.searched + total n.contents.skipped) := by
  cases n with
  | statement s => exact (selectCount_statement s).trans (Nat.zero_add _).symm
  | query q => exact (selectCount_query q).trans (Nat.zero_add _).symm
  | body b => exact (selectCount_body b).trans (Nat.zero_add _).symm
  | select s keys => exact selectCount_select s keys
  | tables t => exact (selectCount_tables t).trans (Nat.zero_add _).symm
  | source s => exact (selectCount_source s).trans (Nat.zero_add _).symm
  | expr e => exact (selectCount_expr e).trans (Nat.zero_add _).symm

/-! ## Places of selects -/

theorem sizeOf_lt_of_mem_arguments {n : Name} {e : Expr} (h : e ∈ Name.arguments n) :
    sizeOf e < sizeOf n := by
  obtain ⟨p, hp, he⟩ := List.mem_flatMap.1 h
  have hpart := List.sizeOf_lt_of_mem hp
  cases p with
  | ident i => cases he
  | call f arguments =>
    have hargument := List.sizeOf_lt_of_mem (show e ∈ arguments from he)
    simp only [NamePart.call.sizeOf_spec] at hpart
    omega

theorem sizeOf_lt_of_mem_shared {names : List Name} {e : Expr}
    (h : e ∈ names.flatMap Name.arguments) : sizeOf e < sizeOf names := by
  obtain ⟨n, hn, he⟩ := List.mem_flatMap.1 h
  have hname := List.sizeOf_lt_of_mem hn
  have hargument := sizeOf_lt_of_mem_arguments he
  omega

theorem sizeOf_lt_of_mem_labelColumns {label : Option Alias} {e : Expr}
    (h : e ∈ labelColumns label) : sizeOf e + 1 < sizeOf label := by
  rcases label with _ | ⟨name, columns⟩
  · cases h
  · have hcolumn : e ∈ columns := by simpa [labelColumns] using h
    have := List.sizeOf_lt_of_mem hcolumn
    simp only [Option.some.sizeOf_spec, Alias.mk.sizeOf_spec]
    omega

theorem sizeOf_lt_of_mem_fields {path : List Access} {e : Expr}
    (h : e ∈ path.flatMap Access.fields) : sizeOf e < sizeOf path := by
  obtain ⟨a, ha, he⟩ := List.mem_flatMap.1 h
  have haccess := List.sizeOf_lt_of_mem ha
  cases a with
  | field e' =>
    obtain rfl := List.mem_singleton.1 he
    simp only [Access.field.sizeOf_spec] at haccess
    omega
  | subscript words es => cases he

theorem sizeOf_lt_of_mem_skipped {items : List Item} {e : Expr}
    (h : e ∈ items.flatMap Item.skipped) : sizeOf e < sizeOf items := by
  obtain ⟨item, hitem, he⟩ := List.mem_flatMap.1 h
  have hlist := List.sizeOf_lt_of_mem hitem
  cases item with
  | expr e' label => cases he
  | star options =>
    have := List.sizeOf_lt_of_mem (show e ∈ options from he)
    simp only [Item.star.sizeOf_spec] at hlist
    omega
  | starOf name options =>
    simp only [Item.starOf.sizeOf_spec] at hlist
    rcases List.mem_append.1 he with he | he
    · have := sizeOf_lt_of_mem_arguments he
      omega
    · have := List.sizeOf_lt_of_mem he
      omega
  | starOfExpr e' options =>
    simp only [Item.starOfExpr.sizeOf_spec] at hlist
    rcases List.mem_cons.1 he with rfl | he
    · omega
    · have := List.sizeOf_lt_of_mem he
      omega

theorem sizeOf_lt_of_mem_exprs {j : Join} {e : Expr} (h : e ∈ j.exprs) : sizeOf e < sizeOf j := by
  obtain ⟨words, source, matching, on, shared⟩ := j
  simp only [Join.mk.sizeOf_spec]
  simp only [Join.exprs, List.mem_append] at h
  rcases h with (h | h) | h
  · have := List.sizeOf_lt_of_mem h
    omega
  · have := List.sizeOf_lt_of_mem h
    omega
  · have := sizeOf_lt_of_mem_shared h
    omega

theorem weight_lt_of_skipped_expr {e : Expr} {m : Node} (h : m ∈ e.contents.skipped) :
    m.weight < (Node.expr e).weight := by
  cases e with
  | starOf name region =>
    obtain ⟨e, he, rfl⟩ := List.mem_map.1 h
    have := sizeOf_lt_of_mem_arguments he
    simp only [weight, Expr.starOf.sizeOf_spec]
    omega
  | access root path =>
    obtain ⟨e, he, rfl⟩ := List.mem_map.1 h
    have := sizeOf_lt_of_mem_fields he
    simp only [weight, Expr.access.sizeOf_spec]
    omega
  | named name sign value =>
    obtain rfl := List.mem_singleton.1 h
    simp only [weight, Expr.named.sizeOf_spec]
    omega
  | filled key words bounds =>
    refine weight_expr_lt h ?_
    simp only [weight, Expr.filled.sizeOf_spec]
    omega
  | aside e =>
    obtain rfl := List.mem_singleton.1 h
    simp only [weight, Expr.aside.sizeOf_spec]
    omega
  | join j =>
    rcases List.mem_cons.1 h with rfl | h
    · obtain ⟨words, source, matching, on, shared⟩ := j
      simp only [weight, Expr.join.sizeOf_spec, Join.mk.sizeOf_spec]
      omega
    · obtain ⟨e, he, rfl⟩ := List.mem_map.1 h
      have := sizeOf_lt_of_mem_exprs he
      simp only [weight, Expr.join.sizeOf_spec]
      omega
  | _ => cases h

theorem weight_lt_of_skipped_query {q : Query} {m : Node} (h : m ∈ q.contents.skipped) :
    m.weight < (Node.query q).weight := by
  obtain ⟨region, words, ctes, body, keys, clauses⟩ := q
  have hskipped : m ∈ (keys ++ clauses ++ ctes.flatMap fun c => c.label.columns).map Node.expr := by
    unfold Query.contents Query.labelColumns at h
    split at h
    · rw [List.append_assoc, List.map_append]
      exact List.mem_append_right _ h
    · exact h
  obtain ⟨e, he, rfl⟩ := List.mem_map.1 hskipped
  simp only [List.mem_append] at he
  simp only [weight, Query.mk.sizeOf_spec]
  rcases he with (he | he) | he
  · have := List.sizeOf_lt_of_mem he
    omega
  · have := List.sizeOf_lt_of_mem he
    omega
  · obtain ⟨⟨⟨name, columns⟩, words, q, tail⟩, hc, he⟩ := List.mem_flatMap.1 he
    have hcte := List.sizeOf_lt_of_mem hc
    have hcolumn := List.sizeOf_lt_of_mem (show e ∈ columns from he)
    simp only [Cte.mk.sizeOf_spec, Alias.mk.sizeOf_spec] at hcte
    omega

theorem weight_lt_of_skipped_body {b : Body} {m : Node} (h : m ∈ b.contents.skipped) :
    m.weight < (Node.body b).weight := by
  cases b with
  | values rows =>
    refine weight_expr_lt h ?_
    simp only [weight, Body.values.sizeOf_spec]
    omega
  | _ => cases h

theorem weight_lt_of_skipped_select {s : Select} {keys : List Expr} {m : Node}
    (h : m ∈ (s.contents keys).skipped) : m.weight < (Node.select s keys).weight := by
  have hsize : (Node.select s keys).weight = sizeOf s + sizeOf keys := rfl
  cases s
  simp only [Select.mk.sizeOf_spec] at hsize
  simp only [Select.contents, List.map_append, List.mem_append] at h
  rcases h with ((((h | h) | h) | h) | h) | h
  · exact weight_expr_lt h (by omega)
  · obtain ⟨e, he, rfl⟩ := List.mem_map.1 h
    have := sizeOf_lt_of_mem_skipped he
    simp only [weight] at hsize ⊢
    omega
  · exact weight_expr_lt h (by omega)
  · exact weight_expr_lt h (by omega)
  · exact weight_expr_lt h (by omega)
  · exact weight_expr_lt h (by omega)

theorem weight_lt_of_skipped_tables {t : Joined} {m : Node} (h : m ∈ t.contents.skipped) :
    m.weight < (Node.tables t).weight := by
  obtain ⟨source, joins⟩ := t
  obtain ⟨j, hj, hm⟩ := List.mem_flatMap.1 h
  have hlist := List.sizeOf_lt_of_mem hj
  obtain ⟨words, source', matching, on, shared⟩ := j
  obtain ⟨e, he, rfl⟩ := List.mem_map.1 hm
  simp only [Join.mk.sizeOf_spec] at hlist
  simp only [weight, Joined.mk.sizeOf_spec]
  dsimp only at he
  rcases List.mem_append.1 he with he | he
  · have := List.sizeOf_lt_of_mem he
    omega
  · have := sizeOf_lt_of_mem_shared he
    omega

theorem weight_lt_of_skipped_source {s : Source} {m : Node} (h : m ∈ s.contents.skipped) :
    m.weight < (Node.source s).weight := by
  cases s with
  | table name details label hints =>
    obtain ⟨e, he, rfl⟩ := List.mem_map.1 h
    simp only [List.mem_append] at he
    simp only [weight, Source.table.sizeOf_spec]
    rcases he with ((he | he) | he) | he
    · have := sizeOf_lt_of_mem_arguments he
      omega
    · have := List.sizeOf_lt_of_mem he
      omega
    · have := sizeOf_lt_of_mem_labelColumns he
      omega
    · have := List.sizeOf_lt_of_mem he
      omega
  | derived lateral q label =>
    obtain ⟨e, he, rfl⟩ := List.mem_map.1 h
    have := sizeOf_lt_of_mem_labelColumns he
    simp only [weight, Source.derived.sizeOf_spec]
    omega
  | nested tables label =>
    obtain ⟨e, he, rfl⟩ := List.mem_map.1 h
    have := sizeOf_lt_of_mem_labelColumns he
    simp only [weight, Source.nested.sizeOf_spec]
    omega
  | computed e label tail =>
    obtain ⟨e', he, rfl⟩ := List.mem_map.1 h
    simp only [weight, Source.computed.sizeOf_spec]
    rcases List.mem_cons.1 he with rfl | he
    · omega
    · have := sizeOf_lt_of_mem_labelColumns he
      omega
  | reshaped source e label =>
    simp only [weight, Source.reshaped.sizeOf_spec]
    rcases List.mem_cons.1 h with rfl | h
    · simp only
      omega
    · obtain ⟨e', he, rfl⟩ := List.mem_map.1 h
      simp only
      rcases List.mem_cons.1 he with rfl | he
      · omega
      · have := sizeOf_lt_of_mem_labelColumns he
        omega

/-- What is skipped in a statement that stores something: its name and its other parts. -/
theorem sizeOf_lt_of_mem_name_others {name : Name} {others : List Expr} {e : Expr}
    (h : e ∈ Name.arguments name ++ others) : sizeOf e < sizeOf name + sizeOf others := by
  rcases List.mem_append.1 h with h | h
  · have := sizeOf_lt_of_mem_arguments h
    omega
  · have := List.sizeOf_lt_of_mem h
    omega

theorem weight_lt_of_skipped_statement {s : Statement} {m : Node} (h : m ∈ s.contents.skipped) :
    m.weight < (Node.statement s).weight := by
  cases s with
  | query q => cases h
  | insert name source others =>
    obtain ⟨e, he, rfl⟩ := List.mem_map.1 h
    have := sizeOf_lt_of_mem_name_others he
    simp only [weight, Statement.insert.sizeOf_spec]
    omega
  | createView name q others =>
    obtain ⟨e, he, rfl⟩ := List.mem_map.1 h
    have := sizeOf_lt_of_mem_name_others he
    simp only [weight, Statement.createView.sizeOf_spec]
    omega
  | createTable name q others =>
    obtain ⟨e, he, rfl⟩ := List.mem_map.1 h
    have := sizeOf_lt_of_mem_name_others he
    simp only [weight, Statement.createTable.sizeOf_spec]
    omega
  | explain lead s =>
    rcases List.mem_cons.1 h with rfl | h
    · simp only [weight, Statement.explain.sizeOf_spec]
      omega
    · refine weight_expr_lt h ?_
      simp only [weight, Statement.explain.sizeOf_spec]
      omega
  | other tables parts =>
    rcases List.mem_append.1 h with h | h
    · obtain ⟨t, ht, rfl⟩ := List.mem_map.1 h
      have := List.sizeOf_lt_of_mem ht
      simp only [weight, Statement.other.sizeOf_spec]
      omega
    · refine weight_expr_lt h ?_
      simp only [weight, Statement.other.sizeOf_spec]
      omega

theorem weight_lt_of_skipped {n m : Node} (h : m ∈ n.contents.skipped) : m.weight < n.weight := by
  cases n with
  | statement s => exact weight_lt_of_skipped_statement h
  | query q => exact weight_lt_of_skipped_query h
  | body b => exact weight_lt_of_skipped_body h
  | select s keys => exact weight_lt_of_skipped_select h
  | tables t => exact weight_lt_of_skipped_tables h
  | source s => exact weight_lt_of_skipped_source h
  | expr e => exact weight_lt_of_skipped_expr h

/-- A select stands at a place. -/
def HasSelectAt (n : Node) (p : List Child) : Prop :=
  ∃ s keys, n.at? p = some (.select s keys)

theorem hasSelectAt_cons {n : Node} {c : Child} {p : List Child} :
    n.HasSelectAt (c :: p) ↔ ∃ m, n.contents.get? c = some m ∧ m.HasSelectAt p := by
  unfold HasSelectAt
  simp only [at?_cons, Option.bind_eq_some_iff]
  constructor
  · rintro ⟨s, keys, m, hm, hs⟩
    exact ⟨m, hm, s, keys, hs⟩
  · rintro ⟨m, hm, s, keys, hs⟩
    exact ⟨s, keys, m, hm, hs⟩

/-- The contents of a node by their numbers. -/
theorem listed_contents (c : Contents) :
    Listed (fun child m => c.get? child = some m) (c.searched ++ c.skipped) := by
  have hsearched := (Listed.ofList c.searched).rename Child.searched fun _ _ => Child.searched.inj
  have hskipped := (Listed.ofList c.skipped).rename Child.skipped fun _ _ => Child.skipped.inj
  refine (hsearched.append hskipped ?_).congr fun child m => ?_
  · rintro child m m' ⟨i, rfl, -⟩ ⟨k, heq, -⟩
    cases heq
  · cases child <;> simp [Contents.get?]

theorem flatMap_replicate_total (ns : List Node) :
    (ns.flatMap fun n => List.replicate n.selectCount ()) = List.replicate (total ns) () := by
  induction ns with
  | nil => rfl
  | cons n ns ih => rw [List.flatMap_cons, ih, ← List.replicate_add, total_cons]

/-- Selects inside a node have as many places as there are selects in its contents. -/
theorem listed_places_inside {n : Node}
    (ih : ∀ m ∈ n.contents.searched ++ n.contents.skipped,
      Listed (fun p (_ : Unit) => m.HasSelectAt p) (List.replicate m.selectCount ())) :
    Listed (fun p (_ : Unit) => p ≠ [] ∧ n.HasSelectAt p)
      (List.replicate (total n.contents.searched + total n.contents.skipped) ()) := by
  have hinside := ((listed_contents n.contents).flatMap ih).rename (fun p => p.1 :: p.2)
    fun a b heq => by
      obtain ⟨hc, hp⟩ := List.cons.inj heq
      exact Prod.ext hc hp
  rw [flatMap_replicate_total, total_append] at hinside
  refine hinside.congr fun p _ => ?_
  constructor
  · rintro ⟨⟨c, p⟩, rfl, m, hm, hp⟩
    exact ⟨List.cons_ne_nil _ _, hasSelectAt_cons.2 ⟨m, hm, hp⟩⟩
  · rintro ⟨hne, hp⟩
    obtain ⟨c, p, rfl⟩ := List.exists_cons_of_ne_nil hne
    obtain ⟨m, hm, hp⟩ := hasSelectAt_cons.1 hp
    exact ⟨(c, p), rfl, m, hm, hp⟩

/-- Selects have as many places as there are selects in the syntax tree. -/
theorem listed_places (n : Node) :
    Listed (fun p (_ : Unit) => n.HasSelectAt p) (List.replicate n.selectCount ()) := by
  have hinside := listed_places_inside (n := n) fun m hm => by
    have : m.weight < n.weight := by
      rcases List.mem_append.1 hm with hm | hm
      · exact weight_lt hm
      · exact weight_lt_of_skipped hm
    exact listed_places m
  have hself : Listed (fun p (_ : Unit) => p = [] ∧ n.HasSelectAt p)
      (List.replicate n.ownCount ()) := by
    cases n with
    | select s keys =>
      exact .singleton ⟨rfl, s, keys, rfl⟩ fun p _ h => ⟨h.1, rfl⟩
    | _ =>
      refine .nil ?_
      rintro p _ ⟨rfl, s, keys, hs⟩
      cases hs
  rw [selectCount_eq, List.replicate_add]
  refine (hself.append hinside fun p _ _ hp hne => hne.1 hp.1).congr fun p _ => ?_
  by_cases hp : p = [] <;> simp [hp]
termination_by n.weight
decreasing_by assumption

end Node

end ColumnLint
