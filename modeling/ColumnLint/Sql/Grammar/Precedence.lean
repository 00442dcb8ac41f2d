import ColumnLint.Sql.Grammar.Basic

/-
  How tightly operators bind. An operator continues an expression if it binds tighter than the
  level that the expression is read at; level 0 takes every operator.
-/

namespace ColumnLint.Sql.Grammar

open ColumnLint.Sql.Parser

/-- The groups of operators that bind alike. -/
inductive Binding where
  | period
  | cast
  | bracket
  | collation
  | timeZone
  | product
  | sum
  | exclusiveOr
  | ampersand
  | caret
  | pipe
  | between
  | equality
  | like
  | test
  | other
  | negation
  | conjunction
  | disjunction
deriving DecidableEq, Repr

namespace Binding

/-- The levels of most dialects. -/
def usualLevel : Binding → Nat
  | period => 100
  | cast | bracket => 50
  | collation => 42
  | timeZone => 41
  | product => 40
  | sum => 30
  | exclusiveOr => 24
  | ampersand => 23
  | caret => 22
  | pipe => 21
  | between | equality => 20
  | like => 19
  | test => 17
  | other => 16
  | negation => 15
  | conjunction => 10
  | disjunction => 5

/-- The levels of the dialect in which users define operators. -/
def definableLevel : Binding → Nat
  | period => 200
  | cast => 140
  | bracket => 130
  | collation => 120
  | timeZone => 110
  | caret => 100
  | product => 90
  | sum => 80
  | exclusiveOr => 75
  | ampersand | pipe | other => 70
  | between | like => 60
  | equality => 50
  | test => 40
  | negation => 30
  | conjunction => 20
  | disjunction => 10

def level (b : Binding) (d : Dialect) : Nat :=
  if d.oneOf [.postgres] then b.definableLevel else b.usualLevel

end Binding

/-- Symbols that compare. -/
def comparisons : List String :=
  [":=", "=", "<", "<=", "<>", ">", ">=", "==", "~", "~*", "!~", "!~*", "~~", "~~*", "!~~",
   "!~~*", "<=>"]

/-- Symbols of geometric operators, and others that bind like `|`. -/
def pipeLike : List String :=
  ["|", "?-", "##", "&&", "&<", "&>", "?-|", "&<|", "|&>", "<->", "<^", ">^", "?#", "?||", "~=",
   "|>>", "<<|", "@"]

/-- Symbols of operators on documents. -/
def documentOperators : List String :=
  ["->", "->>", "#>", "#>>", "@>", "<@", "#-", "@?", "@@", "?", "?&", "?|"]

/-- Words that test against a pattern. -/
def patternWords : List String :=
  ["LIKE", "ILIKE", "RLIKE", "REGEXP", "MATCH", "SIMILAR", "MEMBER"]

/-- How tightly the operator binds that a symbol stands for. -/
def symbolBinding? (s : String) : Option Binding :=
  if s == "." then some .period
  else if comparisons.contains s then some .equality
  else if pipeLike.contains s then some .pipe
  else if ["^", "#", ">>", "<<"].contains s then some .caret
  else if s == "&" then some .ampersand
  else if s == "+" || s == "-" then some .sum
  else if ["*", "/", "//", "%", "||"].contains s then some .product
  else if ["::", "!", "[", "^@"].contains s then some .cast
  else if documentOperators.contains s then some .other
  else none

/-- How tightly the operator binds that a word stands for, given the keywords behind it. -/
def wordBinding? (d : Dialect) (mode : Mode) (k : String) (second third : String) :
    Option Binding :=
  if k == "OR" then some .disjunction
  else if k == "AND" then some .conjunction
  else if k == "XOR" then some .exclusiveOr
  else if k == "AT" then if second == "TIME" && third == "ZONE" then some .timeZone else none
  else if k == "NOT" then
    if second == "IN" || second == "BETWEEN" then some .between
    else if patternWords.contains second then some .like
    else if second == "NULL" && mode != .columnDefinition then some .test
    else none
  else if k == "NOTNULL" && d.notNullWord then some .test
  else if k == "IS" then some .test
  else if ["IN", "BETWEEN", "OVERLAPS", "OPERATOR"].contains k then some .between
  else if patternWords.contains k then some .like
  else if k == "DIV" then some .product
  else none

/-- The level of the next token as an operator between two operands, 0 if it is none. -/
def nextLevel (g : Grammar) : Parser Nat := do
  let d := g.dialect
  let level : Option Binding → Nat
    | some b => b.level d
    | none => 0
  match ← peekToken with
  | some (.word _ _ k) =>
    let second := ((← peekAt 1).map fun x => x.token.keyword).getD ""
    let third := ((← peekAt 2).map fun x => x.token.keyword).getD ""
    let m ← mode
    if d.oneOf [.postgres] && k == "COLLATE" && m != .columnDefinition then
      return level (some .collation)
    else return level (wordBinding? d m k second third)
  | some (.symbol s) =>
    if s == ":" then return if d.colonPaths then level (some .cast) else 0
    else if d.oneOf [.postgres] then
      if s == "[" then return level (some .bracket)
      else if documentOperators.contains s
          || ["!", "&&", "^@", "||", "#", ">>", "<<"].contains s then
        return level (some .other)
      else return level (symbolBinding? s)
    else return level (symbolBinding? s)
  | some (.operator _) => return level (some .other)
  | _ => return 0

end ColumnLint.Sql.Grammar
