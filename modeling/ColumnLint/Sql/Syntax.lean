import ColumnLint.Text.Location

/-
  Syntax trees of SQL. They keep apart what decides which columns a select names: column names and
  stars, nested queries, the clauses of a select and its table sources. Every other construct of an
  expression is a form: words around operands, such as `CASE WHEN … THEN … END` or `f(…, …)`. The
  words are how the form prints. No expression is lost in the words: those in data types and in
  computed names are operands too, set aside from the others.
-/

namespace ColumnLint.Sql

open ColumnLint.Text

/-- A name's part as written: its text without quotes, its opening quote and where it stands. -/
structure Ident where
  value : String
  quote : Option Char
  region : Option Region
deriving DecidableEq, Repr, Inhabited

/-- What the grammar has to know about a form after it has been read. -/
inductive FormKind where
  | plain
  | equality
  | call
  | outerJoin
deriving DecidableEq, Repr

/-- Which text a form is taken to cover. -/
inductive Reach where
  /-- The operands. -/
  | operands
  /-- The operands and a stretch of the form's own. -/
  | marked (region : Option Region)
  /-- Nothing is known. -/
  | unknown
deriving DecidableEq, Repr

/-- Words around operands: one before each operand and one behind the last. -/
structure Form where
  kind : FormKind
  words : List String
  reach : Reach
deriving DecidableEq, Repr

mutual
/-- A part of an object's name; some dialects compute one by a call. -/
inductive NamePart where
  | ident (i : Ident)
  | call (function : Ident) (arguments : List Expr)

inductive Expr where
  /-- A column: one part, or a prefix and a name. -/
  | column (name : List Ident)
  /-- A bare star. -/
  | star (region : Option Region)
  /-- A star with a prefix. -/
  | starOf (name : List NamePart) (region : Option Region)
  /-- A literal, a placeholder or another expression that names no column. -/
  | constant (text : String) (region : Option Region)
  | form (f : Form) (operands : List Expr)
  /-- Fields and elements of a value. -/
  | access (root : Expr) (path : List Access)
  /-- An argument that is given by name. -/
  | named (name : Expr) (sign : String) (value : Expr)
  /-- A sort key and how the gaps between its values are filled: words around bounds. -/
  | filled (key : Expr) (words : List String) (bounds : List Expr)
  /-- An expression inside a data type or the name of an object. -/
  | aside (e : Expr)
  | query (q : Query)
  /-- A join that is a step behind a query. -/
  | join (j : Join)

inductive Access where
  | field (e : Expr)
  | subscript (words : List String) (operands : List Expr)

structure Query where
  /-- Where the word `WITH` stands. -/
  withRegion : Option Region
  /-- What follows the word `WITH` before the first common table expression. -/
  withWords : String
  ctes : List Cte
  body : Body
  /-- The keys of `ORDER BY`. -/
  keys : List Expr
  /-- The clauses behind the body other than the keys. -/
  clauses : List Expr

/-- An alias, with the list of columns behind it if there is one. -/
structure Alias where
  name : Ident
  columns : List Expr

structure Cte where
  label : Alias
  /-- What stands between the label and the query. -/
  words : String
  query : Query
  /-- What stands behind the query. -/
  tail : String

inductive Body where
  | select (s : Select)
  | query (q : Query)
  | operation (left : Body) (words : String) (right : Body)
  | values (rows : List Expr)
  | table (name : String)
  | statement (s : Statement)

structure Select where
  /-- Where the word that starts the select stands. -/
  region : Option Region
  /-- What stands between `SELECT` and the projection: `DISTINCT`, `TOP` and the like. -/
  quantifiers : List Expr
  projection : List Item
  /-- What stands between the projection and `FROM`. -/
  into : List Expr
  sources : List Joined
  /-- `LATERAL VIEW` clauses. -/
  views : List Expr
  prewhere : List Expr
  selection : List Expr
  /-- The expressions to group by. -/
  groups : List Expr
  /-- What else stands in the grouping, and the cluster and distribution clauses. -/
  others : List Expr
  /-- The keys of `SORT BY`. -/
  sorting : List Expr
  having : List Expr
  qualify : List Expr
  /-- Named windows. -/
  windows : List Window
  /-- The windows stand before `QUALIFY`. -/
  windowsFirst : Bool
  /-- The clauses that build a hierarchy. -/
  hierarchy : List Expr

inductive Window where
  | spec (name : Ident) (e : Expr)
  | reference (name : Ident) (window : Ident)

inductive Item where
  | expr (e : Expr) (label : Option Ident)
  | star (options : List Expr)
  | starOf (name : List NamePart) (options : List Expr)
  | starOfExpr (e : Expr) (options : List Expr)

/-- A table source. -/
inductive Source where
  /-- A table by its name, with what stands before its alias and behind it. -/
  | table (name : List NamePart) (details : List Expr) (label : Option Alias) (hints : List Expr)
  | derived (lateral : Bool) (q : Query) (label : Option Alias)
  /-- Joined tables in parentheses. -/
  | nested (tables : Joined) (label : Option Alias)
  /-- A table that a function or another expression makes, and what stands behind its alias. -/
  | computed (e : Expr) (label : Option Alias) (tail : String)
  /-- Another source that is pivoted or searched. -/
  | reshaped (source : Source) (e : Expr) (label : Option Alias)

/-- A table source and what is joined to it. -/
structure Joined where
  source : Source
  joins : List Join

structure Join where
  words : String
  source : Source
  /-- The condition of `MATCH_CONDITION`. -/
  matching : List Expr
  /-- The condition of `ON`. -/
  on : List Expr
  /-- The columns of `USING`. -/
  shared : List (List NamePart)

inductive Statement where
  | query (q : Query)
  | insert (name : List NamePart) (source : Option Query) (others : List Expr)
  /-- A view, with the expressions of its other clauses. -/
  | createView (name : List NamePart) (q : Query) (others : List Expr)
  /-- A table, with the expressions of its columns and its other clauses. -/
  | createTable (name : List NamePart) (q : Option Query) (others : List Expr)
  /-- A statement to explain, behind the words and options that ask for it. -/
  | explain (lead : List Expr) (s : Statement)
  | other (tables : List Joined) (parts : List Expr)
end

/-- The name of an object: its parts, between which periods stand. -/
abbrev Name := List NamePart

/-- A form of the usual kind. -/
def phrase (words : List String) (operands : List Expr) : Expr :=
  .form ⟨.plain, words, .operands⟩ operands

/-- A form's parts in the order they print. -/
inductive Part where
  | text (s : String)
  | operand (e : Expr)

namespace Part

/-- The words of a form with these parts, given what stands before them. -/
def words : String → List Part → List String
  | before, [] => [before]
  | before, text s :: ps => words (before ++ s) ps
  | before, operand _ :: ps => before :: words "" ps

def operands : List Part → List Expr
  | [] => []
  | text _ :: ps => operands ps
  | operand e :: ps => e :: operands ps

/-- The parts with their operands set aside. -/
def setAside : List Part → List Part
  | [] => []
  | text s :: ps => text s :: setAside ps
  | operand e :: ps => operand (.aside e) :: setAside ps

/-- Operands with a separator between them. -/
def separated (separator : String) : List Expr → List Part
  | [] => []
  | [e] => [operand e]
  | e :: es => operand e :: text separator :: separated separator es

/-- Operands between two words, with commas between them. -/
def enclosed (first : String) (es : List Expr) (last : String) : List Part :=
  text first :: separated ", " es ++ [text last]

/-- Groups of parts with a separator between them. -/
def joined (separator : String) : List (List Part) → List Part
  | [] => []
  | [ps] => ps
  | ps :: rest => ps ++ text separator :: joined separator rest

/-- Groups of parts with commas between them, in parentheses. -/
def inParentheses (groups : List (List Part)) : List Part :=
  text "(" :: joined ", " groups ++ [text ")"]

/-- The words of a form with a text before the first and another behind the last. -/
def wrapped (first : String) (ws : List String) (last : String) : List String :=
  match ws with
  | [] => [first ++ last]
  | [w] => [first ++ w ++ last]
  | w :: rest => (first ++ w) :: rest.dropLast ++ [rest.getLastD "" ++ last]

/-- A clause with its keyword before its operands, nothing if it has none. -/
def clause (lead separator : String) (es : List Expr) : List Part :=
  if es.isEmpty then [] else text lead :: separated separator es

end Part

/-- A form of a reach of its own, from its parts. -/
def assembleOver (reach : Reach) (parts : List Part) : Expr :=
  .form ⟨.plain, Part.words "" parts, reach⟩ (Part.operands parts)

/-- A form of the usual kind, from its parts. -/
def assemble (parts : List Part) : Expr := assembleOver .operands parts

end ColumnLint.Sql
