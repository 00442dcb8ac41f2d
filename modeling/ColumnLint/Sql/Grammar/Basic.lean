import ColumnLint.Sql.Dialect
import ColumnLint.Sql.Syntax
import ColumnLint.Sql.Token.Lexer

/-
  Parsers over tokens. A parser takes what is left of the tokens and gives a result with the tokens
  behind it, or fails. A failure can be taken back by `attempt`, unless the text is nested too
  deeply: that failure always ends the parse.
-/

namespace ColumnLint.Sql

open ColumnLint.Text

/-- Why tokens are no statement. -/
inductive Failure where
  /-- Something else was expected in place of a token, or of the end of the text. -/
  | expected (what : String) (found : Option Lexeme)
  /-- A rule of its own is broken, at a place if one is known. -/
  | broken (rule : String) (place : Option Location)
  /-- Expressions or queries are nested too deeply. -/
  | tooDeep
deriving DecidableEq, Repr

def Failure.message : Failure → String
  | expected what none => "Expected: " ++ what ++ ", found: EOF"
  | expected what (some x) =>
    "Expected: " ++ what ++ ", found: " ++ x.token.render ++ placeText x.region.start
  | broken rule none => rule
  | broken rule (some l) => rule ++ placeText l
  | tooDeep => "recursion limit exceeded"

/-- What words may mean at a place. -/
inductive Mode where
  | usual
  /-- Inside `CONNECT BY`, where `PRIOR` is an operator. -/
  | connectBy
  /-- Inside a column definition, where `NOT NULL` and `COLLATE` are no operators. -/
  | columnDefinition
deriving DecidableEq, Repr

/-- What is left of the tokens, the gap behind the last one, and what words mean. -/
structure Input where
  rest : List Lexeme
  tail : Option Gap
  mode : Mode
deriving DecidableEq, Repr

abbrev Parser := StateT Input (Except Failure)

namespace Parser

/-- Fails, whatever is left. -/
def fail {α : Type} (f : Failure) : Parser α := fun _ => .error f

/-- The next token, which stays. -/
def peek : Parser (Option Lexeme) := fun s => .ok (s.rest.head?, s)

/-- What the next token is. -/
def peekToken : Parser (Option Token) := fun s => .ok (s.rest.head?.map Lexeme.token, s)

/-- The token that `n` others come before, which stays. -/
def peekAt (n : Nat) : Parser (Option Lexeme) := fun s => .ok (s.rest[n]?, s)

/-- The token that `n` others come before is the symbol. -/
def atSymbolAt (n : Nat) (t : String) : Parser Bool := fun s =>
  .ok (((s.rest[n]?).map fun x => x.token.isSymbol t).getD false, s)

/-- The token that `n` others come before is one of the keywords. -/
def atOneOfAt (n : Nat) (ks : List String) : Parser Bool := fun s =>
  .ok (((s.rest[n]?).map fun x => ks.contains x.token.keyword).getD false, s)

/-- Takes the next token; at the end of the text there is none. -/
def next : Parser (Option Lexeme) := fun s => .ok (s.rest.head?, { s with rest := s.rest.tail })

/-- Takes the next token. -/
def skip : Parser Unit := fun s => .ok ((), { s with rest := s.rest.tail })

def mode : Parser Mode := fun s => .ok (s.mode, s)

/-- Runs a parser in another mode. -/
def inMode {α : Type} (m : Mode) (p : Parser α) : Parser α := fun s =>
  match p { s with mode := m } with
  | .ok (a, s') => .ok (a, { s' with mode := s.mode })
  | .error f => .error f

/-- Fails because the next token is not what is expected. -/
def expected {α : Type} (what : String) : Parser α := fun s => .error (.expected what s.rest.head?)

/-- The gap before the next token, or behind the last one. -/
def gap : Parser (Option Gap) := fun s =>
  .ok (match s.rest with
    | x :: _ => x.gap
    | [] => s.tail, s)

/-- Fails because a gap, or the next token if there is no gap, is not what is expected. -/
def expectedClose {α : Type} (what : String) : Parser α := do
  match ← gap with
  | some g => fail (.expected what (some ⟨.symbol g.text, ⟨g.place, g.place⟩, none⟩))
  | none => expected what

/-- Runs a parser and gives the tokens that it takes beside its result. -/
def taking {α : Type} (p : Parser α) : Parser (α × List Lexeme) := fun s =>
  match p s with
  | .ok (a, s') => .ok ((a, s.rest.take (s.rest.length - s'.rest.length)), s')
  | .error f => .error f

/-- Where the next token starts. -/
def place : Parser (Option Location) := fun s => .ok (s.rest.head?.map fun x => x.region.start, s)

/-- Runs a parser; if it fails, nothing is taken. -/
def attempt {α : Type} (p : Parser α) : Parser (Option α) := fun s =>
  match p s with
  | .ok (a, s') => .ok (some a, s')
  | .error .tooDeep => .error .tooDeep
  | .error _ => .ok (none, s)

/-- Repeats a step until it gives nothing, at most `n` times. -/
def repeatAtMost {α : Type} (step : α → Parser (Option α)) : Nat → α → Parser α
  | 0, a => pure a
  | n + 1, a => do
    match ← step a with
    | some a' => repeatAtMost step n a'
    | none => pure a

/-- Repeats a step that takes tokens until it gives nothing. -/
def repeatStep {α : Type} (step : α → Parser (Option α)) (a : α) : Parser α := fun s =>
  repeatAtMost step (s.rest.length + 1) a s

/-- The next token is the keyword. -/
def atWord (k : String) : Parser Bool := fun s =>
  .ok ((s.rest.head?.map fun x => x.token.keyword == k).getD false, s)

/-- The next token is one of the keywords. -/
def atOneOf (ks : List String) : Parser Bool := fun s =>
  .ok ((s.rest.head?.map fun x => ks.contains x.token.keyword).getD false, s)

/-- The next tokens are the keywords. -/
def atWords (ks : List String) : Parser Bool := fun s =>
  .ok (ks == (s.rest.take ks.length).map fun x => x.token.keyword, s)

/-- The next token is the symbol. -/
def atSymbol (t : String) : Parser Bool := fun s =>
  .ok ((s.rest.head?.map fun x => x.token.isSymbol t).getD false, s)

/-- Takes the keyword if it is next. -/
def word (k : String) : Parser Bool := do
  if ← atWord k then
    skip
    return true
  else return false

/-- Takes the keywords if they are next, all of them. -/
def words (ks : List String) : Parser Bool := do
  if ← atWords ks then
    modify fun s => { s with rest := s.rest.drop ks.length }
    return true
  else return false

/-- Runs a test where a condition holds; elsewhere it fails and nothing is taken. -/
def given (condition : Bool) (test : Parser Bool) : Parser Bool :=
  if condition then test else pure false

/-- Takes one of the keywords if it is next. -/
def oneOf (ks : List String) : Parser (Option String) := do
  match ← peek with
  | some x =>
    if x.token.keyword != "" && ks.contains x.token.keyword then
      skip
      return some x.token.keyword
    else return none
  | none => return none

/-- Takes the symbol if it is next. -/
def symbol (t : String) : Parser Bool := do
  if ← atSymbol t then
    skip
    return true
  else return false

/-- Takes the symbols if they are next, all of them. -/
def symbols (ts : List String) : Parser Bool := fun s =>
  if (s.rest.take ts.length).length == ts.length
      && ((s.rest.zip ts).all fun (x, t) => x.token.isSymbol t) then
    .ok (true, { s with rest := s.rest.drop ts.length })
  else .ok (false, s)

/-- Takes the keyword, which has to be next. -/
def expectWord (k : String) : Parser Unit := do
  if ← word k then pure () else expected k

/-- Takes the keywords one by one, which have to be next. -/
def expectWords : List String → Parser Unit
  | [] => pure ()
  | k :: ks => do
    expectWord k
    expectWords ks

/-- Takes one of the keywords, which has to be next. -/
def expectOneOf (ks : List String) : Parser String := do
  match ← oneOf ks with
  | some k => return k
  | none => expected ("one of " ++ String.intercalate " or " ks)

/-- Takes the symbol, which has to be next. -/
def expectSymbol (t : String) : Parser Unit := do
  if ← symbol t then pure () else expected t

/-- Runs a parser if the keyword is next, behind it. -/
def optional {α : Type} (k : String) (p : Parser α) : Parser (List α) := do
  if ← word k then return [← p] else return []

/-- A parser between parentheses. -/
def parenthesized {α : Type} (p : Parser α) : Parser α := do
  expectSymbol "("
  let a ← p
  expectSymbol ")"
  return a

end Parser

/-- What a production may call on: the dialect, and the parsers that count nesting. -/
structure Grammar where
  dialect : Dialect
  /-- An expression that binds tighter than a level. -/
  expr : Nat → Parser Expr
  /-- An expression without operators. -/
  operand : Parser Expr
  query : Parser Query
  statement : Parser Statement

end ColumnLint.Sql
