import ColumnLint.Text.Case
import ColumnLint.Text.Location

/-
  Tokens of SQL text. A word keeps its spelling and its quote; its keyword is the upper case of an
  unquoted word, and no keyword list is consulted: the grammar compares keywords with the words it
  knows. Symbols are told apart by how they print.
-/

namespace ColumnLint.Sql

open ColumnLint.Text

/-- The ways of writing a string literal. -/
inductive Quotation where
  | single
  | double
  | tripleSingle
  | tripleDouble
  | dollar (tag : String)
  | national
  | escape
  | unicode
  | hex
  | byte (opening : String)
  | raw (opening : String)
deriving DecidableEq, Repr

inductive Token where
  | word (text : String) (quote : Option Char) (keyword : String)
  | number (digits : String) (long : Bool)
  | literal (form : Quotation) (text : String)
  | placeholder (text : String)
  | symbol (text : String)
  /-- An operator that the dialect lets users define. -/
  | operator (text : String)
deriving DecidableEq, Repr

/-- The quote that closes a quoted word. -/
def closingQuote (c : Char) : Char := if c = '[' then ']' else c

/-- How a literal prints. -/
def Quotation.wrap (form : Quotation) (s : String) : String :=
  match form with
  | single => "'" ++ s ++ "'"
  | double => "\"" ++ s ++ "\""
  | tripleSingle => "'''" ++ s ++ "'''"
  | tripleDouble => "\"\"\"" ++ s ++ "\"\"\""
  | dollar tag => "$" ++ tag ++ "$" ++ s ++ "$" ++ tag ++ "$"
  | national => "N'" ++ s ++ "'"
  | escape => "E'" ++ s ++ "'"
  | unicode => "U&'" ++ s ++ "'"
  | hex => "X'" ++ s ++ "'"
  | byte opening => "B" ++ opening ++ s ++ opening
  | raw opening => "R" ++ opening ++ s ++ opening

namespace Token

/-- How a token prints. -/
def render : Token → String
  | word s none _ => s
  | word s (some q) _ => q.toString ++ s ++ (closingQuote q).toString
  | number s long => if long then s ++ "L" else s
  | literal form s => form.wrap s
  | placeholder s => s
  | symbol s => s
  | operator s => s

/-- A word as it is written; an unquoted one may be a keyword. -/
def ofWord (cs : List Char) (quote : Option Char) : Token :=
  word (String.ofList cs) quote
    (if quote.isSome then "" else String.ofList (cs.flatMap fullUpper))

/-- The keyword of a word, and the empty text for all other tokens. -/
def keyword : Token → String
  | word _ _ k => k
  | _ => ""

def isSymbol (t : Token) (s : String) : Bool :=
  match t with
  | symbol u => u == s
  | _ => false

end Token

/-- The first blank or comment between two tokens, as it prints, and where it starts. -/
structure Gap where
  text : String
  place : Location
deriving DecidableEq, Repr

/-- A token, where it stands, and the gap before it. -/
structure Lexeme where
  token : Token
  region : Region
  gap : Option Gap
deriving DecidableEq, Repr

/-- A comment without its delimiters, and where it stands. -/
structure Comment where
  text : List Char
  region : Region
deriving DecidableEq, Repr

/-- A text cut into tokens and comments, each in the order of the text, and the gap behind the last
token. -/
structure Lexed where
  lexemes : List Lexeme
  comments : List Comment
  tail : Option Gap
deriving DecidableEq, Repr

end ColumnLint.Sql
