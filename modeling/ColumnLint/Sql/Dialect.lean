/-
  SQL dialects. A dialect is a name; what it accepts is told by one predicate per language
  feature, so that the lexer and the grammar ask for a feature and never list dialects by hand
  unless the rule itself is about one of them.
-/

namespace ColumnLint.Sql

inductive Dialect where
  | generic
  | ansi
  | bigquery
  | clickhouse
  | databricks
  | duckdb
  | hive
  | mssql
  | mysql
  | postgres
  | redshift
  | snowflake
  | sqlite
deriving DecidableEq, Repr, Inhabited

namespace Dialect

/-- The word that selects the dialect. -/
def word : Dialect → String
  | generic => "generic"
  | ansi => "ansi"
  | bigquery => "bigquery"
  | clickhouse => "clickhouse"
  | databricks => "databricks"
  | duckdb => "duckdb"
  | hive => "hive"
  | mssql => "mssql"
  | mysql => "mysql"
  | postgres => "postgres"
  | redshift => "redshift"
  | snowflake => "snowflake"
  | sqlite => "sqlite"

/-- The dialect's name as messages show it. -/
def label : Dialect → String
  | generic => "Generic"
  | ansi => "Ansi"
  | bigquery => "Bigquery"
  | clickhouse => "Clickhouse"
  | databricks => "Databricks"
  | duckdb => "Duckdb"
  | hive => "Hive"
  | mssql => "Mssql"
  | mysql => "Mysql"
  | postgres => "Postgres"
  | redshift => "Redshift"
  | snowflake => "Snowflake"
  | sqlite => "Sqlite"

/-- Every dialect, in the order in which they are offered. -/
def all : List Dialect :=
  [generic, ansi, bigquery, clickhouse, databricks, duckdb, hive, mssql, mysql, postgres,
   redshift, snowflake, sqlite]

/-- The dialect that a word selects; words are case-sensitive. -/
def ofWord? (s : String) : Option Dialect := all.find? fun d => d.word == s

def oneOf (d : Dialect) (ds : List Dialect) : Bool := ds.any fun e => decide (d = e)

/-! Lexical features. -/

/-- A backslash escapes the next character of a string literal. -/
def backslashEscapes (d : Dialect) : Bool :=
  d.oneOf [bigquery, clickhouse, mysql, redshift, snowflake]

/-- A backslash before `%` or `_` stays in the literal. -/
def keepsWildcardEscapes (d : Dialect) : Bool := d.oneOf [mysql]

/-- Block comments nest. -/
def nestedComments (d : Dialect) : Bool := d.oneOf [generic, mssql, postgres]

/-- `#` starts a comment that runs to the end of the line. -/
def hashComments (d : Dialect) : Bool := d.oneOf [bigquery, hive, mysql, snowflake]

/-- `//` starts a comment that runs to the end of the line. -/
def slashComments (d : Dialect) : Bool := d.oneOf [snowflake]

/-- `//` is an integer division. -/
def slashDivision (d : Dialect) : Bool := d.oneOf [generic, duckdb]

/-- `--` starts a comment only if a space follows. -/
def dashCommentNeedsSpace (d : Dialect) : Bool := d.oneOf [mysql]

/-- A line comment ends at a carriage return too. -/
def carriageReturnEndsComment (d : Dialect) : Bool := d.oneOf [postgres]

/-- Three quotes open a string that three quotes close. -/
def tripleQuotes (d : Dialect) : Bool := d.oneOf [bigquery]

/-- `B'…'` is a byte string. -/
def byteStrings (d : Dialect) : Bool := d.oneOf [generic, bigquery, mysql, postgres]

/-- `R'…'` is a raw string. -/
def rawStrings (d : Dialect) : Bool := d.oneOf [generic, bigquery]

/-- `E'…'` is a string with backslash escapes. -/
def escapeStrings (d : Dialect) : Bool := d.oneOf [generic, postgres, redshift]

/-- `U&'…'` is a string with Unicode escapes. -/
def unicodeStrings (d : Dialect) : Bool := d.oneOf [generic, postgres]

/-- `$$` is a placeholder character and quotes no string. -/
def dollarPlaceholders (d : Dialect) : Bool := d.oneOf [sqlite]

/-- A word may start with digits. -/
def digitWords (d : Dialect) : Bool := d.oneOf [hive, mysql]

/-- Digits of a number may be separated by underscores. -/
def digitSeparators (d : Dialect) : Bool := d.oneOf [clickhouse, postgres]

/-- The operators on geometric types are known. -/
def geometry (d : Dialect) : Bool := d.oneOf [postgres, redshift]

/-- `|>` chains query steps. -/
def pipes (d : Dialect) : Bool := d.oneOf [generic, bigquery]

/-! Features of expressions. -/

/-- `TRUE` and `FALSE` are literals. -/
def booleans (d : Dialect) : Bool := !d.oneOf [mssql]

/-- String literals that follow one another are one literal. -/
def joinsStrings (d : Dialect) : Bool := d.oneOf [mysql, redshift]

/-- An interval needs a unit. -/
def intervalUnits (d : Dialect) : Bool :=
  d.oneOf [ansi, bigquery, clickhouse, databricks, hive, mysql]

/-- An interval type takes fields and a precision. -/
def intervalOptions (d : Dialect) : Bool := d.oneOf [generic, postgres]

/-- `x -> e` is a function. -/
def lambdas (d : Dialect) : Bool := d.oneOf [clickhouse, databricks, duckdb]

/-- `{'k': e}` is a value. -/
def dictionaries (d : Dialect) : Bool := d.oneOf [generic, clickhouse, duckdb, snowflake]

/-- `MAP {k: e}` is a value. -/
def maps (d : Dialect) : Bool := d.oneOf [generic, duckdb]

/-- `STRUCT(…)` is a value. -/
def structs (d : Dialect) : Bool := d.oneOf [generic, bigquery, databricks]

/-- `STRUCT<…>` is a type. -/
def structTypes (d : Dialect) : Bool := d.oneOf [generic, bigquery]

/-- Brackets and paths after a value read semi-structured data. -/
def partiql (d : Dialect) : Bool := d.oneOf [redshift, snowflake]

/-- `:` after a value reads semi-structured data. -/
def colonPaths (d : Dialect) : Bool := d.oneOf [snowflake]

/-- `c(+)` marks an outer join. -/
def outerJoinMarks (d : Dialect) : Bool := d.oneOf [mssql, snowflake]

/-- `MATCH (…) AGAINST (…)` is an expression. -/
def matchAgainst (d : Dialect) : Bool := d.oneOf [generic, mysql]

/-- `TRY_CONVERT` is an expression of its own. -/
def tryConvert (d : Dialect) : Bool := d.oneOf [generic, mssql]

/-- `CONVERT` names the type first. -/
def convertTypeFirst (d : Dialect) : Bool := d.oneOf [mssql, redshift]

/-- A field of `EXTRACT` may be any word. -/
def extractWords (d : Dialect) : Bool := d.oneOf [generic, postgres, snowflake]

/-- A field of `EXTRACT` may be a string. -/
def extractStrings (d : Dialect) : Bool :=
  d.oneOf [generic, duckdb, postgres, redshift, snowflake]

/-- `EXTRACT` may separate field and value by a comma. -/
def extractCommas (d : Dialect) : Bool := d.oneOf [generic, snowflake]

/-- `TRIM` may list its characters after a comma. -/
def trimCommas (d : Dialect) : Bool := d.oneOf [generic, bigquery, duckdb, snowflake]

/-- `!` negates the expression that follows. -/
def bangNot (d : Dialect) : Bool := d.oneOf [hive]

/-- `NOTNULL` follows an expression. -/
def notNullWord (d : Dialect) : Bool := d.oneOf [duckdb, postgres, sqlite]

/-- `<<` and `>>` are operators. -/
def shifts (d : Dialect) : Bool := d.oneOf [generic, duckdb, postgres, redshift]

/-- A list after `IN` may be empty. -/
def emptyInLists (d : Dialect) : Bool := d.oneOf [sqlite]

/-- Types are followed by brackets to form arrays. -/
def bracketArrays (d : Dialect) : Bool := d.oneOf [generic, duckdb, postgres, redshift]

/-- Integer types are followed by `SIGNED`. -/
def signedTypes (d : Dialect) : Bool := d.oneOf [generic, mysql]

/-! Features of function calls. -/

/-- `FILTER (WHERE …)` follows an aggregate call. -/
def aggregateFilters (d : Dialect) : Bool :=
  d.oneOf [generic, databricks, duckdb, hive, postgres, sqlite]

/-- A call takes parameters before its arguments. -/
def parametricCalls (d : Dialect) : Bool := d.oneOf [generic, clickhouse]

/-- `IGNORE NULLS` may stand among the arguments. -/
def nullTreatmentArguments (d : Dialect) : Bool := d.oneOf [generic, bigquery, snowflake]

/-- A query may be the only argument without parentheses of its own. -/
def queryArguments (d : Dialect) : Bool := d.oneOf [snowflake]

/-- The name of a named argument may be an expression. -/
def expressionArgumentNames (d : Dialect) : Bool := d.oneOf [mssql, postgres]

/-- `=>` names an argument. -/
def arrowArguments (d : Dialect) : Bool := !d.oneOf [mssql]

/-- `=` names an argument. -/
def equalArguments (d : Dialect) : Bool := d.oneOf [duckdb]

/-- `:=` names an argument. -/
def assignArguments (d : Dialect) : Bool := d.oneOf [generic, duckdb]

/-- `:` names an argument. -/
def colonArguments (d : Dialect) : Bool := d.oneOf [mssql, postgres]

/-! Features of selects. -/

/-- A comma may end any list. -/
def trailingCommas (d : Dialect) : Bool := d.oneOf [duckdb]

/-- A comma may end the projection. -/
def projectionTrailingCommas (d : Dialect) : Bool :=
  d.trailingCommas || d.oneOf [generic, bigquery, snowflake]

/-- A comma may end a list of column definitions. -/
def columnTrailingCommas (d : Dialect) : Bool := d.trailingCommas || d.oneOf [bigquery]

/-- A comma may end the list of table sources. -/
def fromTrailingCommas (d : Dialect) : Bool := d.oneOf [snowflake]

/-- A select may have no projection. -/
def emptyProjections (d : Dialect) : Bool := d.oneOf [generic, postgres]

/-- `FROM` may come before `SELECT`. -/
def fromFirst (d : Dialect) : Bool := d.oneOf [generic, clickhouse, duckdb]

/-- `TOP` stands before `DISTINCT`. -/
def topBeforeDistinct (d : Dialect) : Bool := d.oneOf [redshift]

/-- `alias = expression` is a projection item. -/
def equalAliases (d : Dialect) : Bool := d.oneOf [mssql]

/-- `expression.*` is a projection item. -/
def expressionStars (d : Dialect) : Bool := d.oneOf [bigquery, snowflake]

/-- `* EXCEPT (…)` is a projection item. -/
def starExcept (d : Dialect) : Bool := d.oneOf [generic, bigquery, clickhouse, databricks]

/-- `* EXCLUDE …` is a projection item. -/
def starExclude (d : Dialect) : Bool := d.oneOf [generic, duckdb, redshift, snowflake]

/-- `EXCLUDE …` may follow the projection. -/
def projectionExclude (d : Dialect) : Bool := d.oneOf [redshift]

/-- `* REPLACE (…)` is a projection item. -/
def starReplace (d : Dialect) : Bool :=
  d.oneOf [generic, bigquery, clickhouse, duckdb, snowflake]

/-- `* ILIKE '…'` and `* RENAME …` are projection items. -/
def starFilters (d : Dialect) : Bool := d.oneOf [generic, snowflake]

/-- `ROLLUP`, `CUBE` and `GROUPING SETS` group. -/
def groupingForms (d : Dialect) : Bool :=
  d.oneOf [generic, bigquery, clickhouse, databricks, duckdb, postgres, snowflake]

/-- `WITH ROLLUP` and the like may follow the grouping. -/
def groupingModifiers (d : Dialect) : Bool := d.oneOf [generic, clickhouse, hive, mysql]

/-- `ORDER BY ALL` orders by all columns. -/
def orderByAll (d : Dialect) : Bool := d.oneOf [clickhouse, duckdb]

/-- A window may be named after another one. -/
def windowReferences (d : Dialect) : Bool := d.oneOf [generic, bigquery]

/-- `CONNECT BY` builds a hierarchy. -/
def connectBy (d : Dialect) : Bool := d.oneOf [generic, mssql, redshift, snowflake]

/-- `LIMIT a, b` is a limit. -/
def limitCommas (d : Dialect) : Bool := d.oneOf [generic, clickhouse, mysql, sqlite]

/-- `PREWHERE`, `SETTINGS`, `FORMAT`, `LIMIT … BY`, `WITH FILL` and `INTERPOLATE` are clauses. -/
def clickhouseClauses (d : Dialect) : Bool := d.oneOf [generic, clickhouse]

/-- `SELECT AS STRUCT` and `SELECT AS VALUE` are selects. -/
def valueTables (d : Dialect) : Bool := d.oneOf [bigquery]

/-! Features of table sources. -/

/-- A single table may stand in parentheses. -/
def parenthesizedTables (d : Dialect) : Bool := d.oneOf [generic, snowflake]

/-- `VALUES (…)` is a table source without parentheses. -/
def valuesTables (d : Dialect) : Bool := d.oneOf [generic, databricks, snowflake]

/-- `UNNEST (…)` is a table source. -/
def unnest (d : Dialect) : Bool := d.oneOf [generic, bigquery, postgres]

/-- Names of tables may contain hyphens. -/
def hyphenatedNames (d : Dialect) : Bool := d.oneOf [bigquery]

/-- `a..b` leaves out the middle of a name. -/
def doubleDots (d : Dialect) : Bool := d.oneOf [mssql, snowflake]

/-- `IDENTIFIER(…)` computes a name. -/
def computedNames (d : Dialect) : Bool := d.oneOf [snowflake]

/-- A table is read as of a time. -/
def tableVersions (d : Dialect) : Bool := d.oneOf [bigquery, mssql, snowflake]

/-- A sample stands before the alias. -/
def sampleBeforeAlias (d : Dialect) : Bool := d.oneOf [hive]

/-- A table names its partitions. -/
def tablePartitions (d : Dialect) : Bool := d.oneOf [generic, mysql]

/-- `USE INDEX` and the like follow a table. -/
def indexHints (d : Dialect) : Bool := d.oneOf [mysql]

/-- `MATCH_RECOGNIZE` follows a table. -/
def matchRecognize (d : Dialect) : Bool := d.oneOf [generic, snowflake]

/-- `SEMANTIC_VIEW` is a table source. -/
def semanticViews (d : Dialect) : Bool := d.oneOf [snowflake]

/-- A join may be nested in the one before it without parentheses. -/
def nestsJoins (d : Dialect) : Bool := d.oneOf [snowflake]

/-- `CROSS JOIN` takes a condition. -/
def crossJoinConditions (d : Dialect) : Bool := d.oneOf [mysql]

end Dialect

end ColumnLint.Sql
