import ColumnLint.Sql.Dialect
import ColumnLint.Text.Letter

/-
  The alphabet of a dialect: which characters start a word, go on with it, quote it, or belong to
  an operator that users may define.
-/

namespace ColumnLint.Sql.Dialect

open ColumnLint.Text

/-- The character starts an unquoted word. -/
def startsWord (d : Dialect) (c : Char) : Bool :=
  match d with
  | generic | mssql => isLetter c || c == '_' || c == '#' || c == '@'
  | ansi => c.isAlpha
  | bigquery => c.isAlpha || c == '_' || c == '@'
  | clickhouse | databricks | snowflake => c.isAlpha || c == '_'
  | duckdb => isLetter c || c == '_'
  | hive => c.isAlpha || c.isDigit || c == '$'
  | mysql => isLetter c || c == '_' || c == '$' || c == '@' || 0x80 ≤ c.toNat
  | postgres => isLetter c || c == '_' || 0x80 ≤ c.toNat
  | redshift => isLetter c || c == '_' || c == '#' || 0x80 ≤ c.toNat
  | sqlite => c.isAlpha || c == '_' || (0x7f ≤ c.toNat && c.toNat ≤ 0xffff)

/-- The character goes on with an unquoted word. -/
def continuesWord (d : Dialect) (c : Char) : Bool :=
  match d with
  | generic | mssql =>
    isLetter c || c.isDigit || c == '@' || c == '$' || c == '#' || c == '_'
  | ansi => c.isAlpha || c.isDigit || c == '_'
  | bigquery | clickhouse | databricks => c.isAlpha || c.isDigit || c == '_'
  | duckdb => isLetter c || c.isDigit || c == '$' || c == '_'
  | hive =>
    c.isAlpha || c.isDigit || c == '_' || c == '$' || c == '\x7b' || c == '\x7d'
  | mysql => d.startsWord c || c.isDigit
  | postgres => isLetter c || c.isDigit || c == '$' || c == '_' || 0x80 ≤ c.toNat
  | redshift =>
    isLetter c || c.isDigit || c == '$' || c == '_' || c == '#' || 0x80 ≤ c.toNat
  | snowflake => c.isAlpha || c.isDigit || c == '$' || c == '_'
  | sqlite => d.startsWord c || c.isDigit

/-- The character opens a quoted word. -/
def quotesWord (d : Dialect) (c : Char) : Bool :=
  match d with
  | bigquery | databricks | mysql => c == '\x60'
  | mssql => c == '"' || c == '['
  | postgres => c == '"'
  | sqlite => c == '\x60' || c == '"' || c == '['
  | _ => c == '"' || c == '\x60'

/-- The character may go on with an operator that users define. -/
def continuesOperator (d : Dialect) (c : Char) : Bool :=
  d.oneOf [postgres] && "+-*/<>=~!@#%^&|`?".toList.contains c

end ColumnLint.Sql.Dialect
