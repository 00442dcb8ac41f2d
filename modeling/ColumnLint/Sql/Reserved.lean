import ColumnLint.Sql.Dialect
import ColumnLint.Sql.Keyword
import ColumnLint.Sql.Token

/-
  Which words may be aliases without `AS`. Most dialects have a list of words that may not; one
  decides by what follows the word.
-/

namespace ColumnLint.Sql.Dialect

/-- A token that gives a limit its amount. -/
def isAmount : Option Token → Bool
  | some (.number ..) | some (.placeholder _) => true
  | some (.literal .single s) => s == ""
  | some (.literal (.dollar _) s) => s == ""
  | some t => t.keyword == "NULL"
  | none => false

/-- A word of the limiting clauses is no alias if a limit follows it. -/
def startsLimit (k : String) (behind : Option Token) : Bool :=
  ((k == "LIMIT" || k == "OFFSET") && isAmount behind) ||
    (k == "FETCH" && (isAmount behind ||
      ((behind.map fun t => ["FIRST", "NEXT"].contains t.keyword).getD false)))

/-- The next token is the end of the text or the symbol. -/
def endsAt (s : String) (behind : Option Token) : Bool :=
  (behind.map fun t => t.isSymbol s).getD true

/-- Words that the dialect with lookahead never takes for a column's alias. -/
def strictColumnWords : List String :=
  ["FROM", "GROUP", "HAVING", "INTERSECT", "INTO", "MINUS", "ORDER", "SELECT", "UNION", "WHERE",
   "WITH"]

/-- Words that the dialect with lookahead never takes for a table's alias. -/
def strictTableWords : List String :=
  ["WITH", "ORDER", "SELECT", "WHERE", "GROUP", "HAVING", "LATERAL", "UNION", "INTERSECT", "MINUS",
   "ON", "JOIN", "INNER", "CROSS", "FULL", "LEFT", "RIGHT", "NATURAL", "USING", "ASOF",
   "MATCH_CONDITION", "SET", "QUALIFY", "FOR", "START", "CONNECT", "SAMPLE", "TABLESAMPLE", "FROM"]

/-- Words that start no table source behind a comma, in the dialect with lookahead. -/
def strictSourceWords : List String :=
  ["ALL", "ALTER", "AND", "ANY", "AS", "BETWEEN", "BY", "CHECK", "COLUMN", "CONNECT", "CREATE",
   "CROSS", "CURRENT", "DELETE", "DISTINCT", "DROP", "ELSE", "EXISTS", "FOLLOWING", "FOR", "FROM",
   "FULL", "GRANT", "GROUP", "HAVING", "ILIKE", "IN", "INCREMENT", "INNER", "INSERT", "INTERSECT",
   "INTO", "IS", "JOIN", "LEFT", "LIKE", "MINUS", "NATURAL", "NOT", "NULL", "OF", "ON", "OR",
   "ORDER", "QUALIFY", "REGEXP", "REVOKE", "RIGHT", "RLIKE", "ROW", "ROWS", "SAMPLE", "SELECT",
   "SET", "SOME", "START", "TABLE", "TABLESAMPLE", "THEN", "TO", "TRIGGER", "UNION", "UNIQUE",
   "UPDATE", "USING", "VALUES", "WHEN", "WHENEVER", "WHERE", "WINDOW", "WITH"]

/-- A word may start a table source behind a comma, given the token behind it. -/
def startsSource (k : String) (behind : Option Token) : Bool :=
  if k == "LIMIT" && isAmount behind then false
  else if k == "TABLE" && (behind.map fun t => t.isSymbol "(").getD false then true
  else !strictSourceWords.contains k

/-- A word may be the alias of a projection item, given the token behind it. -/
def aliasesColumn (d : Dialect) (k : String) (behind : Option Token) : Bool :=
  if d.oneOf [snowflake] then
    !(((k == "EXCEPT" || k == "RETURNING") && !endsAt "," behind)
      || startsLimit k behind || strictColumnWords.contains k)
  else if d.oneOf [bigquery] then
    ! ["WITH", "SELECT", "WHERE", "GROUP", "HAVING", "ORDER", "LATERAL", "LIMIT", "FETCH", "UNION",
      "EXCEPT", "INTERSECT", "FROM", "INTO", "END"].contains k
  else if d.oneOf [mssql] then !(Keyword.notColumnAlias.contains k || k == "IF" || k == "ELSE")
  else !Keyword.notColumnAlias.contains k

/-- A word may be the alias of a table source, given the token behind it. -/
def aliasesTable (d : Dialect) (k : String) (behind : Option Token) : Bool :=
  let nextIs (ks : List String) : Bool :=
    (behind.map fun t => ks.contains t.keyword).getD false
  if d.oneOf [snowflake] then
    !((["RETURNING", "INNER", "USING", "PIVOT", "UNPIVOT", "EXCEPT", "MATCH_RECOGNIZE"].contains k
        && !endsAt ";" behind)
      || startsLimit k behind
      || (["RIGHT", "LEFT", "SEMI", "ANTI"].contains k && nextIs ["JOIN", "OUTER"])
      || (k == "GLOBAL" && nextIs ["FULL"])
      || strictTableWords.contains k)
  else if d.oneOf [mysql] then
    !(Keyword.notTableAlias.contains k || ["USE", "IGNORE", "FORCE", "STRAIGHT_JOIN"].contains k)
  else !Keyword.notTableAlias.contains k

end ColumnLint.Sql.Dialect
