import ColumnLint.Sql.Syntax

/-
  The text that a syntax tree prints as: keywords in upper case, one space between words, names with
  the quotes they were written in.
-/

namespace ColumnLint.Sql

/-- A text between quotes `q`: a quote is written twice unless it is escaped already, by a
backslash or by a quote before it. `previous` is the character before, `paired` whether it is a
quote that escapes the next one. -/
def doubleQuotes (q : Char) : Char → Bool → List Char → List Char
  | _, _, [] => []
  | previous, paired, c :: cs =>
    if c == q then
      if paired then c :: doubleQuotes q c false cs
      else if previous == '\\' then c :: doubleQuotes q previous false cs
      else if cs.head? == some q then c :: doubleQuotes q c true cs
      else c :: c :: doubleQuotes q c false cs
    else c :: doubleQuotes q c false cs

def quotedPrint (q : Char) (s : String) : String :=
  q.toString ++ String.ofList (doubleQuotes q (Char.ofNat 0) false s.toList) ++ q.toString

def Ident.print (i : Ident) : String :=
  match i.quote with
  | none => i.value
  | some q => if q == '[' then "[" ++ i.value ++ "]" else quotedPrint q i.value

/-- A word and a space before it, unless there is no word. -/
def spaced (s : String) : String := if s == "" then "" else " " ++ s

mutual
def NamePart.print : NamePart → String
  | .ident i => i.print
  | .call f arguments => f.print ++ "(" ++ printList ", " true arguments ++ ")"

/-- The parts of a name with a period before each but the first. -/
def printName : Bool → List NamePart → String
  | _, [] => ""
  | first, p :: rest => (if first then "" else ".") ++ p.print ++ printName false rest

def printNames : Bool → List (List NamePart) → String
  | _, [] => ""
  | first, n :: rest => (if first then "" else ", ") ++ printName true n ++ printNames false rest

def Alias.print : Alias → String
  | ⟨name, columns⟩ =>
    name.print
      ++ (if columns.isEmpty then "" else " (" ++ printList ", " true columns ++ ")")

/-- A label behind what it names, if there is one. -/
def printLabel : Option Alias → String
  | none => ""
  | some a => " AS " ++ a.print

def Expr.print : Expr → String
  | .column name => ".".intercalate (name.map Ident.print)
  | .star _ => "*"
  | .starOf name _ => printName true name ++ ".*"
  | .constant text _ => text
  | .form f operands => printOperands f.words operands
  | .access root path => root.print ++ printPath path
  | .named name sign value => name.print ++ sign ++ value.print
  | .filled key words bounds => key.print ++ printOperands words bounds
  | .aside e => e.print
  | .query q => "(" ++ q.print ++ ")"
  | .join j => j.print

/-- Words and operands in turn. -/
def printOperands : List String → List Expr → String
  | ws, [] => String.join ws
  | ws, e :: es => ws.headD "" ++ e.print ++ printOperands ws.tail es

def printPath : List Access → String
  | [] => ""
  | .field e :: path => "." ++ e.print ++ printPath path
  | .subscript ws es :: path => printOperands ws es ++ printPath path

/-- Expressions with a separator before each but the first. -/
def printList (separator : String) : Bool → List Expr → String
  | _, [] => ""
  | first, e :: es =>
    (if first then "" else separator) ++ e.print ++ printList separator false es

/-- Clauses with a space before each. -/
def printClauses : List Expr → String
  | [] => ""
  | e :: es => " " ++ e.print ++ printClauses es

/-- A clause with its keyword, unless there is nothing in it. -/
def printClause (lead : String) : List Expr → String
  | [] => ""
  | e :: es => lead ++ e.print ++ printList ", " false es

def Query.print : Query → String
  | ⟨_, words, ctes, body, keys, clauses⟩ =>
    (if ctes.isEmpty then "" else "WITH " ++ words ++ printCtes true ctes ++ " ")
      ++ body.print ++ printClause " ORDER BY " keys ++ printClauses clauses

def printCtes : Bool → List Cte → String
  | _, [] => ""
  | first, ⟨label, words, query, tail⟩ :: rest =>
    (if first then "" else ", ") ++ label.print ++ words ++ "(" ++ query.print ++ ")" ++ tail
      ++ printCtes false rest

def Body.print : Body → String
  | .select s => s.print
  | .query q => "(" ++ q.print ++ ")"
  | .operation left words right => left.print ++ " " ++ words ++ " " ++ right.print
  | .values rows => "VALUES " ++ printList ", " true rows
  | .table name => "TABLE " ++ name
  | .statement s => s.print

def Select.print : Select → String
  | ⟨_, quantifiers, projection, into, sources, views, prewhere, selection, groups, others,
      sorting, having, qualify, windows, windowsFirst, hierarchy⟩ =>
    let windows := if windows.isEmpty then "" else " WINDOW " ++ printWindows true windows
    let qualify := printClause " QUALIFY " qualify
    "SELECT" ++ printClauses quantifiers ++ (if projection.isEmpty then "" else " ")
      ++ printItems true projection ++ printClauses into
      ++ (if sources.isEmpty then "" else " FROM " ++ printSources true sources)
      ++ printClauses views ++ printClause " PREWHERE " prewhere ++ printClause " WHERE " selection
      ++ printClause " GROUP BY " groups ++ printClauses others
      ++ printClause " SORT BY " sorting ++ printClause " HAVING " having
      ++ (if windowsFirst then windows ++ qualify else qualify ++ windows)
      ++ printClauses hierarchy

def printWindows : Bool → List Window → String
  | _, [] => ""
  | first, .spec name e :: rest =>
    (if first then "" else ", ") ++ name.print ++ " AS " ++ e.print ++ printWindows false rest
  | first, .reference name window :: rest =>
    (if first then "" else ", ") ++ name.print ++ " AS " ++ window.print
      ++ printWindows false rest

def printItems : Bool → List Item → String
  | _, [] => ""
  | first, item :: rest => (if first then "" else ", ") ++ item.print ++ printItems false rest

def Item.print : Item → String
  | .expr e none => e.print
  | .expr e (some label) => e.print ++ " AS " ++ label.print
  | .star options => "*" ++ printClauses options
  | .starOf name options => printName true name ++ ".*" ++ printClauses options
  | .starOfExpr e options => e.print ++ ".*" ++ printClauses options

def printSources : Bool → List Joined → String
  | _, [] => ""
  | first, t :: rest => (if first then "" else ", ") ++ t.print ++ printSources false rest

def Joined.print : Joined → String
  | ⟨source, joins⟩ => source.print ++ printJoins joins

def printJoins : List Join → String
  | [] => ""
  | j :: rest => " " ++ j.print ++ printJoins rest

def Join.print : Join → String
  | ⟨words, source, matching, on, shared⟩ =>
    words ++ " " ++ source.print ++ printClause " MATCH_CONDITION " matching
      ++ printClause " ON " on
      ++ (if shared.isEmpty then "" else " USING(" ++ printNames true shared ++ ")")

def Source.print : Source → String
  | .table name details label hints =>
    printName true name ++ printList "" true details ++ printLabel label ++ printClauses hints
  | .derived lateral q label =>
    (if lateral then "LATERAL " else "") ++ "(" ++ q.print ++ ")" ++ printLabel label
  | .nested tables label => "(" ++ tables.print ++ ")" ++ printLabel label
  | .computed e label tail => e.print ++ printLabel label ++ tail
  | .reshaped source e label => source.print ++ " " ++ e.print ++ printLabel label

def Statement.print : Statement → String
  | .query q => q.print
  | .insert name source others =>
    "INSERT INTO " ++ printName true name ++ printSource source ++ printClauses others
  | .createView name q others =>
    "CREATE VIEW " ++ printName true name ++ printClauses others ++ " AS " ++ q.print
  | .createTable name q others =>
    "CREATE TABLE " ++ printName true name ++ printClauses others ++ printSource q
  | .explain lead s => printList " " true lead ++ " " ++ s.print
  | .other tables parts => printSources true tables ++ printClauses parts

def printSource : Option Query → String
  | none => ""
  | some q => " " ++ q.print
end

def Name.print (n : Name) : String := printName true n

end ColumnLint.Sql
