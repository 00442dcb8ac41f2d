import ColumnLint.Sql.Grammar.Statement
import ColumnLint.Text.Search

/-
  Texts as lists of statements, and what is said about a text that is none.
-/

namespace ColumnLint.Sql

open ColumnLint.Text

/-- A report that a text is no list of statements. -/
structure ParseError where
  message : String
  /-- Where the text goes wrong, if the message says so. -/
  position : Option Location
  /-- The dialect that the text was read in. -/
  dialect : Option Dialect
deriving DecidableEq, Repr

namespace ParseError

/-- A report without a place. -/
def plain (message : String) : ParseError := ⟨message, none, none⟩

/-- A report whose place is found in its message. -/
def located (message : String) : ParseError := ⟨message, locationIn? message.toList, none⟩

def withDialect (e : ParseError) (d : Dialect) : ParseError := { e with dialect := some d }

/-- The report as one line. -/
def render (e : ParseError) : String :=
  let dialect := match e.dialect with
    | some d => " (" ++ d.label ++ ")"
    | none => ""
  let place := match e.position with
    | some p => " at line " ++ toString p.line ++ ", column " ++ toString p.column
    | none => ""
  "Parse error" ++ dialect ++ place ++ ": " ++ e.message

end ParseError

/-- The text that a message of the lexer or the grammar is reported with. -/
def faultText (message : String) : String := "sql parser error: " ++ message

/-- The statements of a text by the rules of one dialect, or what is wrong with it. -/
def readStatements (d : Dialect) (text : List Char) : Except String (List Statement) :=
  match lex d text with
  | .error e => .error e.message
  | .ok lexed =>
    match (Grammar.statements d).run ⟨lexed.lexemes, lexed.tail, .usual⟩ with
    | .error f => .error f.message
    | .ok (statements, _) => .ok statements

/-- The text has an operator that only one dialect knows. -/
def usesPostgresOperators (text : List Char) : Bool :=
  ["::", "->", "?|", "?&"].any fun s => occursIn s.toList text

/-- The statements of a text. A text that the generic dialect refuses and that has certain operators
is read again in the dialect that knows them; if that fails too, the first failure is reported. -/
def parse (d : Dialect) (text : List Char) : Except ParseError (List Statement) :=
  match readStatements d text with
  | .ok statements => .ok statements
  | .error message =>
    let failure := (ParseError.located (faultText message)).withDialect d
    if d == .generic && usesPostgresOperators text then
      match readStatements .postgres text with
      | .ok statements => .ok statements
      | .error _ => .error failure
    else .error failure

end ColumnLint.Sql
