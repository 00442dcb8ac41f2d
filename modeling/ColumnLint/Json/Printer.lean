import ColumnLint.Json.Basic
import ColumnLint.Text.Digit

/-
  JSON values as text: on one line without blanks, or laid out with one item a line.
-/

namespace ColumnLint.Json

open Text

/-- A character inside a JSON string. -/
def escapeChar (c : Char) : List Char :=
  if c = '"' then ['\\', '"']
  else if c = '\\' then ['\\', '\\']
  else if c = '\x08' then ['\\', 'b']
  else if c = '\x0c' then ['\\', 'f']
  else if c = '\n' then ['\\', 'n']
  else if c = '\r' then ['\\', 'r']
  else if c = '\t' then ['\\', 't']
  else if c.toNat < 0x20 then
    ['\\', 'u', '0', '0', hexDigit (c.toNat / 16), hexDigit (c.toNat % 16)]
  else [c]

/-- A JSON string. -/
def printString (s : String) : List Char := '"' :: s.toList.flatMap escapeChar ++ ['"']

/-- A value without parts. -/
def printInteger (n : Int) : List Char := (toString n).toList

/-- Texts with a separator between them. -/
def separated (separator : List Char) : List (List Char) → List Char
  | [] => []
  | [x] => x
  | x :: y :: rest => x ++ separator ++ separated separator (y :: rest)

mutual
/-- A value on one line, without blanks. -/
def compact : Json → List Char
  | null => "null".toList
  | bool true => "true".toList
  | bool false => "false".toList
  | integer n => printInteger n
  | decimal m e => printInteger m ++ 'e' :: printInteger e
  | string s => printString s
  | array items => '[' :: separated [','] (compactItems items) ++ [']']
  | object fields => '\x7b' :: separated [','] (compactFields fields) ++ ['\x7d']

def compactItems : List Json → List (List Char)
  | [] => []
  | x :: rest => compact x :: compactItems rest

def compactFields : List (String × Json) → List (List Char)
  | [] => []
  | (name, x) :: rest => (printString name ++ ':' :: compact x) :: compactFields rest
end

/-- A new line at a depth. -/
def newLine (depth : Nat) : List Char := '\n' :: List.replicate (2 * depth) ' '

/-- Parts one a line between two brackets, indented by one step more than the brackets. -/
def block (depth : Nat) (opening closing : Char) (parts : List (List Char)) : List Char :=
  if parts.isEmpty then [opening, closing]
  else
    opening :: newLine (depth + 1) ++ separated (',' :: newLine (depth + 1)) parts
      ++ newLine depth ++ [closing]

mutual
/-- A value laid out over lines, at a depth. -/
def pretty (depth : Nat) : Json → List Char
  | null => "null".toList
  | bool true => "true".toList
  | bool false => "false".toList
  | integer n => printInteger n
  | decimal m e => printInteger m ++ 'e' :: printInteger e
  | string s => printString s
  | array items => block depth '[' ']' (prettyItems (depth + 1) items)
  | object fields => block depth '\x7b' '\x7d' (prettyFields (depth + 1) fields)

def prettyItems (depth : Nat) : List Json → List (List Char)
  | [] => []
  | x :: rest => pretty depth x :: prettyItems depth rest

def prettyFields (depth : Nat) : List (String × Json) → List (List Char)
  | [] => []
  | (name, x) :: rest =>
    (printString name ++ ':' :: ' ' :: pretty depth x) :: prettyFields depth rest
end

end ColumnLint.Json
