import ColumnLint.Scope.Reference

/-
  Scopes: what a select says about tables and columns, taken from its own clauses. Nested queries
  have scopes of their own.
-/

namespace ColumnLint

open Text Sql

/-- The name that a table source goes by in a select. -/
structure TableAlias where
  name : String
  /-- The name is given by an alias. -/
  explicit : Bool
  span : Option Span
deriving DecidableEq, Repr

/-- What a select says about tables and columns. -/
structure Scope where
  aliases : List TableAlias
  references : List Reference
  /-- The aliases of its projection items. -/
  columnAliases : List String
  /-- The columns that joins share. -/
  sharedColumns : List String
deriving DecidableEq, Repr

mutual
/-- The table sources of a source: itself, or those of the join in its parentheses. -/
def Sql.Source.leaves : Source → List Source
  | .nested tables _ => tables.leaves
  | s => [s]

def Sql.Joined.leaves : Joined → List Source
  | ⟨source, joins⟩ => source.leaves ++ joinLeaves joins

def joinLeaves : List Join → List Source
  | [] => []
  | ⟨_, source, _, _, _⟩ :: joins => source.leaves ++ joinLeaves joins
end

mutual
/-- The conditions of the joins in a source. -/
def Sql.Source.conditions : Source → List Expr
  | .nested tables _ => tables.conditions
  | _ => []

def Sql.Joined.conditions : Joined → List Expr
  | ⟨source, joins⟩ => source.conditions ++ joinConditions joins

def joinConditions : List Join → List Expr
  | [] => []
  | ⟨_, source, _, on, _⟩ :: joins => source.conditions ++ on ++ joinConditions joins
end

mutual
/-- The columns that the joins in a source share. -/
def Sql.Source.shared : Source → List Name
  | .nested tables _ => tables.shared
  | _ => []

def Sql.Joined.shared : Joined → List Name
  | ⟨source, joins⟩ => source.shared ++ joinShared joins

def joinShared : List Join → List Name
  | [] => []
  | ⟨_, source, _, _, names⟩ :: joins => source.shared ++ names ++ joinShared joins
end

/-- The name of a table without an alias: its last part. -/
def Sql.Name.lastPart (n : Name) : String :=
  match n.getLast? with
  | some (.ident i) => i.value
  | _ => Name.print n

/-- The alias of a table source, if it has one. -/
def Sql.Source.alias? : Source → Option Alias
  | .table _ _ a _ | .derived _ _ a | .nested _ a | .computed _ a _ | .reshaped _ _ a => a

/-- The name that a table source goes by. A source without one is known by all it covers. -/
def TableAlias.ofSource (text : List Char) (s : Source) : TableAlias :=
  match s.alias? with
  | some a => ⟨a.name.value, true, a.name.region.bind (span? text)⟩
  | none =>
    match s with
    | .table name _ _ _ => ⟨Name.lastPart name, false, (Name.extent name).bind (span? text)⟩
    | _ => ⟨"", false, s.extent.bind (span? text)⟩

/-- The columns and stars of a projection item. -/
def Sql.Item.leaves : Item → List Leaf
  | .expr e _ => e.leaves
  | .star _ => [.star]
  | .starOf name _ => [.starOf (Name.print name) (Name.extent name)]
  | .starOfExpr e _ => [.starOf e.print e.extent]

/-- The expression of a window that is specified in full. -/
def Sql.Window.exprs : Window → List Expr
  | .spec _ e => [e]
  | .reference .. => []

/-- The expressions of a select's clauses behind its table sources, with the sort keys of its
query. -/
def Sql.Select.clauses (s : Select) (keys : List Expr) : List Expr :=
  s.prewhere ++ s.selection ++ s.groups ++ s.having ++ s.qualify ++ s.sorting
    ++ s.windows.flatMap Window.exprs ++ keys

/-- The columns and stars of a select's own clauses. -/
def Sql.Select.leaves (s : Select) (keys : List Expr) : List Leaf :=
  s.projection.flatMap Item.leaves ++ listLeaves (s.sources.flatMap Joined.conditions)
    ++ listLeaves (s.clauses keys)

/-- The alias of a projection item, if it has one. -/
def Sql.Item.alias? : Item → Option String
  | .expr _ (some i) => some i.value
  | _ => none

/-- The scope of a select, given the sort keys of its query. -/
def Scope.ofSelect (text : List Char) (s : Select) (keys : List Expr) : Scope where
  aliases := (s.sources.flatMap Joined.leaves).map (TableAlias.ofSource text)
  references := ((s.leaves keys).map (Reference.ofLeaf text)).mergeSort Reference.before
  columnAliases := s.projection.filterMap Item.alias?
  sharedColumns := (s.sources.flatMap Joined.shared).map Name.print

end ColumnLint
