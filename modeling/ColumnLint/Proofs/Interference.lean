import ColumnLint.Proofs.Listing
import ColumnLint.Rule.References
import Mathlib.Data.List.Basic

/-
  Nested queries do not show in the scope of the select around them. The hollow form of a select
  has the same blank query for each query nested in it, so two selects differ only in nested
  queries when their hollow forms are equal. The exception is a name that the scope shows as it is
  written: there a query can be part of the name (`computedName_shows_nested_query`). With these
  names kept, a select and its hollow form have one scope (`ofNames_hollow`), and so have two such
  selects.
-/

namespace ColumnLint

open Text Sql

/-! ## Hollow forms -/

/-- A query that holds nothing. -/
def Sql.Query.blank : Query := ⟨none, "", [], .table "", [], []⟩

mutual
/-- The part of a name with a blank query for each query in it. -/
def Sql.NamePart.hollow (shown : Bool) : NamePart → NamePart
  | .ident i => .ident i
  | .call f arguments => .call f (hollowExprs shown arguments)

def hollowName (shown : Bool) : List NamePart → List NamePart
  | [] => []
  | p :: rest => p.hollow shown :: hollowName shown rest

def hollowNames (shown : Bool) : List (List NamePart) → List (List NamePart)
  | [] => []
  | n :: rest => hollowName shown n :: hollowNames shown rest

def Sql.Alias.hollow (shown : Bool) : Alias → Alias
  | ⟨name, columns⟩ => ⟨name, hollowExprs shown columns⟩

def hollowLabel (shown : Bool) : Option Alias → Option Alias
  | none => none
  | some a => some (a.hollow shown)

/-- The expression with a blank query for each query in it. Names that the scope of a select shows
are emptied only if `shown` says so: prefixes of stars, names of tables without an alias and shared
columns. -/
def Sql.Expr.hollow (shown : Bool) : Expr → Expr
  | .column name => .column name
  | .star region => .star region
  | .starOf name region => .starOf (if shown then hollowName shown name else name) region
  | .constant text region => .constant text region
  | .form f operands => .form f (hollowExprs shown operands)
  | .access root path => .access (root.hollow shown) (hollowPath shown path)
  | .named name sign value => .named (name.hollow shown) sign (value.hollow shown)
  | .filled key words bounds => .filled (key.hollow shown) words (hollowExprs shown bounds)
  | .aside e => .aside (e.hollow shown)
  | .query _ => .query .blank
  | .join j => .join (j.hollow shown)

def hollowExprs (shown : Bool) : List Expr → List Expr
  | [] => []
  | e :: es => e.hollow shown :: hollowExprs shown es

def hollowPath (shown : Bool) : List Access → List Access
  | [] => []
  | .field e :: path => .field (e.hollow shown) :: hollowPath shown path
  | .subscript words es :: path =>
    .subscript words (hollowExprs shown es) :: hollowPath shown path

/-- The table source with a blank query for each query in it. -/
def Sql.Source.hollow (shown : Bool) : Source → Source
  | .table name details label hints =>
    .table (if shown || label.isSome then hollowName shown name else name)
      (hollowExprs shown details) (hollowLabel shown label) (hollowExprs shown hints)
  | .derived lateral _ label => .derived lateral .blank (hollowLabel shown label)
  | .nested tables label => .nested (tables.hollow shown) (hollowLabel shown label)
  | .computed e label tail => .computed (e.hollow shown) (hollowLabel shown label) tail
  | .reshaped source e label =>
    .reshaped (source.hollow shown) (e.hollow shown) (hollowLabel shown label)

def Sql.Joined.hollow (shown : Bool) : Joined → Joined
  | ⟨source, joins⟩ => ⟨source.hollow shown, hollowJoins shown joins⟩

def hollowJoins (shown : Bool) : List Join → List Join
  | [] => []
  | j :: joins => j.hollow shown :: hollowJoins shown joins

def Sql.Join.hollow (shown : Bool) : Join → Join
  | ⟨words, source, matching, on, shared⟩ =>
    ⟨words, source.hollow shown, hollowExprs shown matching, hollowExprs shown on,
      if shown then hollowNames shown shared else shared⟩
end

def Sql.Item.hollow (shown : Bool) : Item → Item
  | .expr e label => .expr (e.hollow shown) label
  | .star options => .star (hollowExprs shown options)
  | .starOf name options =>
    .starOf (if shown then hollowName shown name else name) (hollowExprs shown options)
  | .starOfExpr e options =>
    .starOfExpr (if shown then e.hollow shown else e) (hollowExprs shown options)

def Sql.Window.hollow (shown : Bool) : Window → Window
  | .spec name e => .spec name (e.hollow shown)
  | .reference name window => .reference name window

/-- The select with a blank query for each query nested in it, those in names that its scope shows
only if `shown` says so. -/
def Sql.Select.hollow (shown : Bool) (s : Select) : Select where
  region := s.region
  quantifiers := hollowExprs shown s.quantifiers
  projection := s.projection.map (Item.hollow shown)
  into := hollowExprs shown s.into
  sources := s.sources.map (Joined.hollow shown)
  views := hollowExprs shown s.views
  prewhere := hollowExprs shown s.prewhere
  selection := hollowExprs shown s.selection
  groups := hollowExprs shown s.groups
  others := hollowExprs shown s.others
  sorting := hollowExprs shown s.sorting
  having := hollowExprs shown s.having
  qualify := hollowExprs shown s.qualify
  windows := s.windows.map (Window.hollow shown)
  windowsFirst := s.windowsFirst
  hierarchy := hollowExprs shown s.hierarchy

/-! ## Leaves -/

mutual
theorem leaves_hollow : (e : Expr) → (e.hollow false).leaves = e.leaves
  | .column _ | .star _ | .starOf .. | .constant .. | .aside _ | .query _ | .join _ => rfl
  | .form f operands => by
    rw [Expr.hollow, Expr.leaves, Expr.leaves, listLeaves_hollow operands]
  | .access root path => by
    rw [Expr.hollow, Expr.leaves, Expr.leaves, leaves_hollow root, pathLeaves_hollow path]
  | .named name sign value => by
    rw [Expr.hollow, Expr.leaves, Expr.leaves, leaves_hollow value]
  | .filled key words bounds => by
    rw [Expr.hollow, Expr.leaves, Expr.leaves, leaves_hollow key]

theorem listLeaves_hollow : (es : List Expr) → listLeaves (hollowExprs false es) = listLeaves es
  | [] => rfl
  | e :: es => by
    rw [hollowExprs, listLeaves, listLeaves, leaves_hollow e, listLeaves_hollow es]

theorem pathLeaves_hollow :
    (path : List Access) → pathLeaves (hollowPath false path) = pathLeaves path
  | [] => rfl
  | .field e :: path => by
    rw [hollowPath, pathLeaves, pathLeaves, pathLeaves_hollow path]
  | .subscript words es :: path => by
    rw [hollowPath, pathLeaves, pathLeaves, listLeaves_hollow es, pathLeaves_hollow path]
end

theorem hollowExprs_append (shown : Bool) (es fs : List Expr) :
    hollowExprs shown (es ++ fs) = hollowExprs shown es ++ hollowExprs shown fs := by
  induction es with
  | nil => rfl
  | cons e es ih => rw [List.cons_append, hollowExprs, ih, hollowExprs, List.cons_append]

theorem item_leaves_hollow (item : Item) : (item.hollow false).leaves = item.leaves := by
  cases item with
  | expr e label => exact leaves_hollow e
  | _ => rfl

theorem flatMap_exprs_hollow (shown : Bool) (windows : List Window) :
    (windows.map (Window.hollow shown)).flatMap Window.exprs =
      hollowExprs shown (windows.flatMap Window.exprs) := by
  induction windows with
  | nil => rfl
  | cons w windows ih =>
    rw [List.map_cons, List.flatMap_cons, List.flatMap_cons, hollowExprs_append, ih]
    cases w <;> rfl

theorem clauses_hollow (shown : Bool) (s : Select) (keys : List Expr) :
    (s.hollow shown).clauses (hollowExprs shown keys) = hollowExprs shown (s.clauses keys) := by
  unfold Select.clauses
  simp only [hollowExprs_append, ← flatMap_exprs_hollow]
  rfl

/-! ## Table sources -/

/-- The alias, but the span only if the source has a name. -/
def TableAlias.ofName (a : TableAlias) : TableAlias :=
  if a.name = "" ∧ a.explicit = false then { a with span := none } else a

theorem ofSource_hollow (text : List Char) (s : Source) :
    (TableAlias.ofSource text (s.hollow false)).ofName = (TableAlias.ofSource text s).ofName := by
  cases s with
  | table name details label hints => rcases label with _ | ⟨name, columns⟩ <;> rfl
  | derived lateral q label => rcases label with _ | ⟨name, columns⟩ <;> rfl
  | nested tables label => rcases label with _ | ⟨name, columns⟩ <;> rfl
  | computed e label tail => rcases label with _ | ⟨name, columns⟩ <;> rfl
  | reshaped source e label => rcases label with _ | ⟨name, columns⟩ <;> rfl

mutual
theorem source_leaves_hollow (shown : Bool) :
    (s : Source) → (s.hollow shown).leaves = s.leaves.map (Source.hollow shown)
  | .nested tables _ => joined_leaves_hollow shown tables
  | .table .. | .derived .. | .computed .. | .reshaped .. => rfl

theorem joined_leaves_hollow (shown : Bool) :
    (t : Joined) → (t.hollow shown).leaves = t.leaves.map (Source.hollow shown)
  | ⟨source, joins⟩ => by
    rw [Joined.hollow, Joined.leaves, Joined.leaves, List.map_append,
      source_leaves_hollow shown source, joinLeaves_hollow shown joins]

theorem joinLeaves_hollow (shown : Bool) : (joins : List Join) →
    joinLeaves (hollowJoins shown joins) = (joinLeaves joins).map (Source.hollow shown)
  | [] => rfl
  | ⟨words, source, matching, on, shared⟩ :: joins => by
    rw [hollowJoins, Join.hollow, joinLeaves, joinLeaves, List.map_append,
      source_leaves_hollow shown source, joinLeaves_hollow shown joins]
end

mutual
theorem source_conditions_hollow (shown : Bool) :
    (s : Source) → (s.hollow shown).conditions = hollowExprs shown s.conditions
  | .nested tables _ => joined_conditions_hollow shown tables
  | .table .. | .derived .. | .computed .. | .reshaped .. => rfl

theorem joined_conditions_hollow (shown : Bool) :
    (t : Joined) → (t.hollow shown).conditions = hollowExprs shown t.conditions
  | ⟨source, joins⟩ => by
    rw [Joined.hollow, Joined.conditions, Joined.conditions, hollowExprs_append,
      source_conditions_hollow shown source, joinConditions_hollow shown joins]

theorem joinConditions_hollow (shown : Bool) : (joins : List Join) →
    joinConditions (hollowJoins shown joins) = hollowExprs shown (joinConditions joins)
  | [] => rfl
  | ⟨words, source, matching, on, shared⟩ :: joins => by
    rw [hollowJoins, Join.hollow, joinConditions, joinConditions, hollowExprs_append,
      hollowExprs_append, source_conditions_hollow shown source, joinConditions_hollow shown joins]
end

mutual
theorem source_shared_hollow : (s : Source) → (s.hollow false).shared = s.shared
  | .nested tables _ => joined_shared_hollow tables
  | .table .. | .derived .. | .computed .. | .reshaped .. => rfl

theorem joined_shared_hollow : (t : Joined) → (t.hollow false).shared = t.shared
  | ⟨source, joins⟩ => by
    rw [Joined.hollow, Joined.shared, Joined.shared, source_shared_hollow source,
      joinShared_hollow joins]

theorem joinShared_hollow :
    (joins : List Join) → joinShared (hollowJoins false joins) = joinShared joins
  | [] => rfl
  | ⟨words, source, matching, on, shared⟩ :: joins => by
    rw [hollowJoins, Join.hollow, joinShared, joinShared, source_shared_hollow source,
      joinShared_hollow joins]
    rfl
end

/-! ## Selects -/

theorem flatMap_leaves_hollow (items : List Item) :
    (items.map (Item.hollow false)).flatMap Item.leaves = items.flatMap Item.leaves := by
  rw [List.flatMap_map]
  exact List.flatMap_congr fun item _ => item_leaves_hollow item

theorem flatMap_conditions_hollow (shown : Bool) (tables : List Joined) :
    (tables.map (Joined.hollow shown)).flatMap Joined.conditions =
      hollowExprs shown (tables.flatMap Joined.conditions) := by
  induction tables with
  | nil => rfl
  | cons t tables ih =>
    rw [List.map_cons, List.flatMap_cons, List.flatMap_cons, hollowExprs_append, ih,
      joined_conditions_hollow shown t]

theorem select_leaves_hollow (s : Select) (keys : List Expr) :
    (s.hollow false).leaves (hollowExprs false keys) = s.leaves keys := by
  unfold Select.leaves
  rw [clauses_hollow, listLeaves_hollow]
  show (s.projection.map (Item.hollow false)).flatMap Item.leaves
    ++ listLeaves ((s.sources.map (Joined.hollow false)).flatMap Joined.conditions) ++ _ = _
  rw [flatMap_leaves_hollow, flatMap_conditions_hollow, listLeaves_hollow]

theorem aliases_hollow (text : List Char) (tables : List Joined) :
    (((tables.map (Joined.hollow false)).flatMap Joined.leaves).map
        (TableAlias.ofSource text)).map TableAlias.ofName =
      ((tables.flatMap Joined.leaves).map (TableAlias.ofSource text)).map TableAlias.ofName := by
  simp only [List.map_map, List.flatMap_map, List.map_flatMap]
  apply List.flatMap_congr
  intro t _
  rw [joined_leaves_hollow, List.map_map]
  exact List.map_congr_left fun s _ => ofSource_hollow text s

theorem flatMap_shared_hollow (tables : List Joined) :
    (tables.map (Joined.hollow false)).flatMap Joined.shared = tables.flatMap Joined.shared := by
  rw [List.flatMap_map]
  exact List.flatMap_congr fun t _ => joined_shared_hollow t

theorem filterMap_alias?_hollow (shown : Bool) (items : List Item) :
    (items.map (Item.hollow shown)).filterMap Item.alias? = items.filterMap Item.alias? := by
  rw [List.filterMap_map]
  apply List.filterMap_congr
  intro item _
  cases item with
  | expr e label => cases label <;> rfl
  | _ => rfl

/-- The scope, but the span of a table only if the table has a name. -/
def Scope.ofNames (s : Scope) : Scope := { s with aliases := s.aliases.map TableAlias.ofName }

/-- A select and its hollow form have one scope. -/
theorem ofNames_hollow (text : List Char) (s : Select) (keys : List Expr) :
    (Scope.ofSelect text (s.hollow false) (hollowExprs false keys)).ofNames =
      (Scope.ofSelect text s keys).ofNames := by
  unfold Scope.ofSelect Scope.ofNames
  rw [select_leaves_hollow]
  simp only [Select.hollow, aliases_hollow, filterMap_alias?_hollow, flatMap_shared_hollow]

/-- Whether references offend does not depend on where the tables are written. -/
theorem violations?_ofNames (p : Policy) (s : Scope) : violations? p s.ofNames = violations? p s := by
  unfold violations? Scope.ofNames
  rw [List.length_map]

/-- Selects that differ only in nested queries, but not in names that the scope shows, have the same
references, column aliases and shared columns and the same table aliases, apart from the span of a
table without a name, and so the same violations of every policy. -/
theorem nested_queries_do_not_interfere {s s' : Select} {keys keys' : List Expr}
    (hs : s.hollow false = s'.hollow false) (hkeys : hollowExprs false keys = hollowExprs false keys')
    (text : List Char) :
    (Scope.ofSelect text s keys).references = (Scope.ofSelect text s' keys').references ∧
    (Scope.ofSelect text s keys).columnAliases = (Scope.ofSelect text s' keys').columnAliases ∧
    (Scope.ofSelect text s keys).sharedColumns = (Scope.ofSelect text s' keys').sharedColumns ∧
    (Scope.ofSelect text s keys).aliases.map TableAlias.ofName =
      (Scope.ofSelect text s' keys').aliases.map TableAlias.ofName ∧
    ∀ p : Policy, violations? p (Scope.ofSelect text s keys) =
      violations? p (Scope.ofSelect text s' keys') := by
  have heq : (Scope.ofSelect text s keys).ofNames = (Scope.ofSelect text s' keys').ofNames := by
    rw [← ofNames_hollow text s keys, hs, hkeys, ofNames_hollow]
  obtain ⟨haliases, hreferences, hcolumns, hshared⟩ := Scope.mk.inj heq
  refine ⟨hreferences, hcolumns, hshared, haliases, fun p => ?_⟩
  rw [← violations?_ofNames, heq, violations?_ofNames]

/-- A select that mixes references of both kinds, from a table under an alias, with a query in the
name of the table, in its condition and in its sort key. -/
def asking (q : Query) : Select where
  region := none
  quantifiers := []
  projection := [.expr (.column [⟨"a", none, none⟩]) none,
    .expr (.column [⟨"t", none, none⟩, ⟨"b", none, none⟩]) none]
  into := []
  sources := [⟨.table [.call ⟨"IDENTIFIER", none, none⟩ [.query q]] []
    (some ⟨⟨"t", none, none⟩, []⟩) [], []⟩]
  views := []
  prewhere := []
  selection := [phrase ["EXISTS (", ")"] [.query q]]
  groups := []
  others := []
  sorting := []
  having := []
  qualify := []
  windows := []
  windowsFirst := false
  hierarchy := []

/-- A query whose body is a select of its own. -/
def askedQuery : Query := ⟨none, "", [], .select (asking .blank), [], []⟩

theorem asking_ignores_nested_query :
    (asking .blank).hollow false = (asking askedQuery).hollow false ∧
      asking .blank ≠ asking askedQuery ∧
      hollowExprs false [.query .blank] = hollowExprs false [.query askedQuery] ∧
      ∀ p : Policy, violations? p (Scope.ofSelect [] (asking .blank) [.query .blank]) =
        violations? p (Scope.ofSelect [] (asking askedQuery) [.query askedQuery]) := by
  have hhollow : (asking .blank).hollow false = (asking askedQuery).hollow false := rfl
  refine ⟨hhollow, fun heq => ?_, rfl, ?_⟩
  · simp [asking, phrase, askedQuery, Query.blank] at heq
  · exact (nested_queries_do_not_interfere hhollow rfl []).2.2.2.2

/-! ## Names that show a query -/

/-- A table without an alias, under a name that a query computes. -/
def computedName : List Char := "SELECT a FROM IDENTIFIER((SELECT b FROM u))".toList

/-- The statement is a select from one table under a name that a query computes, which is not printed
as a blank query is. -/
def namesByQuery : Statement → Bool
  | .query ⟨_, _, _, .select s, _, _⟩ =>
    match s.sources with
    | [⟨.table [.call f [.query q]] [] none [], []⟩] =>
      Name.print [.call f [.query q]] != Name.print [.call f [.query .blank]]
    | _ => false
  | _ => false

set_option maxRecDepth 100000 in
theorem computedName_parses : someStatement .snowflake computedName 0 namesByQuery = true := by
  decide +kernel

/-- Two selects that differ only in the query of a computed name have different aliases. -/
theorem computedName_shows_nested_query :
    ∃ statements q s s', parse .snowflake computedName = .ok statements ∧
      statements[0]? = some (.query q) ∧ q.body = .select s ∧ s.hollow true = s'.hollow true ∧
      (Scope.ofSelect computedName s q.keys).aliases.map TableAlias.name ≠
        (Scope.ofSelect computedName s' q.keys).aliases.map TableAlias.name := by
  obtain ⟨statements, stmt, hparse, hstmt, hcheck⟩ := exists_of_someStatement computedName_parses
  unfold namesByQuery at hcheck
  split at hcheck
  case h_2 => cases hcheck
  rename_i region words ctes s keys clauses
  split at hcheck
  case h_2 => cases hcheck
  rename_i f q hsources
  refine ⟨statements, ⟨region, words, ctes, .select s, keys, clauses⟩, s,
    { s with sources := [⟨.table [.call f [.query .blank]] [] none [], []⟩] }, hparse, hstmt, rfl,
    ?_, ?_⟩
  · unfold Select.hollow
    rw [hsources]
    rfl
  · unfold Scope.ofSelect
    rw [hsources]
    intro heq
    exact (bne_iff_ne.1 hcheck) (List.head_eq_of_cons_eq heq)

end ColumnLint
