import ColumnLint.Scope.Basic

/-
  The selects of a statement as a forest, and their scopes in a text. The children of a select are
  the selects nested in it: first those of its derived tables, then those of the queries in its
  expressions.
-/

namespace ColumnLint

open Text Sql

/-- A select with the sort keys of its query, and the selects nested in it. -/
inductive SelectTree where
  | node (select : Select) (keys : List Expr) (children : List SelectTree)

mutual
/-- The selects of the queries in an expression. -/
def Sql.Expr.forest : Expr → List SelectTree
  | .form _ operands => listForest operands
  | .access root path => root.forest ++ pathForest path
  | .named _ _ value => value.forest
  | .filled key _ _ => key.forest
  | .query q => q.forest
  | .column _ | .star _ | .starOf .. | .constant .. | .aside _ | .join _ => []

def listForest : List Expr → List SelectTree
  | [] => []
  | e :: es => e.forest ++ listForest es

def pathForest : List Access → List SelectTree
  | [] => []
  | .field _ :: path => pathForest path
  | .subscript _ es :: path => listForest es ++ pathForest path

/-- The selects of a query. The sort keys of a query whose body is a select belong to the select;
other bodies leave them out. -/
def Sql.Query.forest : Query → List SelectTree
  | ⟨_, _, ctes, .select s, keys, _⟩ =>
    cteForest ctes ++ [.node s keys (s.derivedForest ++ s.innerForest ++ listForest keys)]
  | ⟨_, _, ctes, body, _, _⟩ => cteForest ctes ++ body.forest

def cteForest : List Cte → List SelectTree
  | [] => []
  | ⟨_, _, q, _⟩ :: ctes => q.forest ++ cteForest ctes

def Sql.Body.forest : Body → List SelectTree
  | .select s => [.node s [] (s.derivedForest ++ s.innerForest)]
  | .query q => q.forest
  | .operation left _ right => left.forest ++ right.forest
  | .statement s => s.forest
  | .values _ | .table _ => []

/-- The selects of the derived tables of a select. -/
def Sql.Select.derivedForest : Select → List SelectTree
  | ⟨_, _, _, _, sources, _, _, _, _, _, _, _, _, _, _, _⟩ => sourcesForest sources

/-- The selects of the queries in a select's own clauses, its query's sort keys left out. -/
def Sql.Select.innerForest : Select → List SelectTree
  | ⟨_, _, projection, _, sources, _, prewhere, selection, groups, _, sorting, having, qualify,
      windows, _, _⟩ =>
    itemsForest projection ++ conditionsForest sources ++ listForest prewhere
      ++ listForest selection ++ listForest groups ++ listForest having
      ++ listForest qualify ++ listForest sorting ++ windowsForest windows

def itemsForest : List Item → List SelectTree
  | [] => []
  | .expr e _ :: items => e.forest ++ itemsForest items
  | .star _ :: items | .starOf _ _ :: items | .starOfExpr _ _ :: items => itemsForest items

def windowsForest : List Window → List SelectTree
  | [] => []
  | .spec _ e :: windows => e.forest ++ windowsForest windows
  | .reference .. :: windows => windowsForest windows

def sourcesForest : List Joined → List SelectTree
  | [] => []
  | t :: tables => t.derivedForest ++ sourcesForest tables

def Sql.Joined.derivedForest : Joined → List SelectTree
  | ⟨source, joins⟩ => source.derivedForest ++ joinsForest joins

def joinsForest : List Join → List SelectTree
  | [] => []
  | ⟨_, source, _, _, _⟩ :: joins => source.derivedForest ++ joinsForest joins

def Sql.Source.derivedForest : Source → List SelectTree
  | .derived _ q _ => q.forest
  | .nested tables _ => tables.derivedForest
  | .table .. | .computed .. | .reshaped .. => []

def conditionsForest : List Joined → List SelectTree
  | [] => []
  | t :: tables => t.conditionForest ++ conditionsForest tables

def Sql.Joined.conditionForest : Joined → List SelectTree
  | ⟨source, joins⟩ => source.conditionForest ++ joinConditionForest joins

def joinConditionForest : List Join → List SelectTree
  | [] => []
  | ⟨_, source, _, on, _⟩ :: joins =>
    source.conditionForest ++ listForest on ++ joinConditionForest joins

def Sql.Source.conditionForest : Source → List SelectTree
  | .nested tables _ => tables.conditionForest
  | .table .. | .derived .. | .computed .. | .reshaped .. => []

/-- The selects of a statement. Only queries, and statements that store the result of one, have
some. -/
def Sql.Statement.forest : Statement → List SelectTree
  | .query q => q.forest
  | .insert _ source _ => optionForest source
  | .createView _ q _ => q.forest
  | .createTable _ q _ => optionForest q
  | .explain .. | .other .. => []

def optionForest : Option Query → List SelectTree
  | none => []
  | some q => q.forest
end

/-- A select in a list, with the place of its parent in that list. -/
structure PlacedSelect where
  parent : Option Nat
  select : Select
  /-- The sort keys of its query. -/
  keys : List Expr

mutual
/-- The selects of a tree, each before those nested in it, given the parent of the tree and its
place in the list. -/
def SelectTree.list (parent : Option Nat) (place : Nat) : SelectTree → List PlacedSelect
  | .node s keys children => ⟨parent, s, keys⟩ :: listTrees (some place) (place + 1) children

/-- The selects of trees of one parent. -/
def listTrees (parent : Option Nat) (place : Nat) : List SelectTree → List PlacedSelect
  | [] => []
  | t :: ts =>
    let selects := t.list parent place
    selects ++ listTrees parent (place + selects.length) ts
end

/-- The selects of a statement, each before those nested in it. -/
def Sql.Statement.selects (s : Statement) : List PlacedSelect := listTrees none 0 s.forest

/-- A scope in a list, with the place of its parent in that list. -/
structure PlacedScope where
  parent : Option Nat
  scope : Scope
deriving DecidableEq, Repr

/-- The scope of a select in a text. -/
def PlacedSelect.scope (text : List Char) (p : PlacedSelect) : PlacedScope :=
  ⟨p.parent, Scope.ofSelect text p.select p.keys⟩

/-- The scopes of a statement in a text, each before those nested in it. -/
def selectScopes (text : List Char) (s : Statement) : List PlacedScope :=
  s.selects.map (PlacedSelect.scope text)

end ColumnLint
