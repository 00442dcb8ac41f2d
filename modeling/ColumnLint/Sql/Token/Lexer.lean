import ColumnLint.Sql.Token
import ColumnLint.Sql.Token.Alphabet
import ColumnLint.Text.Blank
import ColumnLint.Text.Digit

/-
  Cutting SQL text into tokens and comments. A cursor is what is left of the text and the location
  reached; every scanner takes a cursor and gives a result with the cursor behind it, so positions
  never have to be computed again. `lex` runs until the text is used up and fails at the first
  literal, quoted word or comment that is not closed.
-/

namespace ColumnLint.Sql

open ColumnLint.Text

/-- Why a text cannot be cut into tokens. -/
inductive LexFault where
  | unclosedString
  | unclosedEscapeString
  | unclosedUnicodeString
  | unclosedDollarString
  | unclosedTaggedString
  | unclosedWord (quote : Char)
  | unclosedComment
  | missingNestedQuote (quote : Char)
  | underscoreAfterPeriod
  | unfinishedOperator (text : String)
  | unfinishedHex
  | badHexDigit (c : Char)
  | badCharacter (code : Nat)
deriving DecidableEq, Repr

structure LexError where
  fault : LexFault
  place : Location
deriving DecidableEq, Repr

def LexFault.message : LexFault → String
  | unclosedString => "Unterminated string literal"
  | unclosedEscapeString => "Unterminated encoded string literal"
  | unclosedUnicodeString => "Unterminated unicode encoded string literal"
  | unclosedDollarString => "Unterminated dollar-quoted string"
  | unclosedTaggedString => "Unterminated dollar-quoted, expected $"
  | unclosedWord q => "Expected close delimiter '" ++ q.toString ++ "' before EOF."
  | unclosedComment => "Unexpected EOF while in a multi-line comment"
  | missingNestedQuote q => "Expected nested delimiter '" ++ q.toString ++ "' before EOF."
  | underscoreAfterPeriod => "Unexpected character '_'"
  | unfinishedOperator s => "Expected a valid binary operator after '" ++ s ++ "'"
  | unfinishedHex => "Unexpected EOF while parsing hex digit in escaped unicode string."
  | badHexDigit c => "Invalid hex digit in escaped unicode string: " ++ c.toString
  | badCharacter n => "Invalid unicode character: " ++ String.ofList (Nat.toDigits 16 n)

/-- How messages name a place. -/
def placeText (l : Location) : String :=
  " at Line: " ++ toString l.line ++ ", Column: " ++ toString l.column

def LexError.message (e : LexError) : String := e.fault.message ++ placeText e.place

/-- What is left of the text, and where it starts. -/
structure Cursor where
  rest : List Char
  place : Location
deriving DecidableEq, Repr

namespace Cursor

/-- The cursor at the start of a text. -/
def start (text : List Char) : Cursor := ⟨text, Location.first⟩

/-- The cursor `n` characters on, or at the end of the text. -/
def advance (c : Cursor) : Nat → Cursor
  | 0 => c
  | n + 1 =>
    match c.rest with
    | [] => c
    | x :: xs => advance ⟨xs, c.place.after x⟩ n

/-- Takes the characters that satisfy `p`, from the text `cs` at `l`. -/
def spanFrom (p : Char → Bool) : List Char → Location → List Char × Cursor
  | [], l => ([], ⟨[], l⟩)
  | c :: cs, l =>
    if p c then
      let r := spanFrom p cs (l.after c)
      (c :: r.1, r.2)
    else ([], ⟨c :: cs, l⟩)

/-- Takes the characters that satisfy `p`. -/
def span (c : Cursor) (p : Char → Bool) : List Char × Cursor := spanFrom p c.rest c.place

/-- Takes characters as long as `p` holds of the next one and the one behind it. -/
def spanPairsFrom (p : Char → Option Char → Bool) : List Char → Location → List Char × Cursor
  | [], l => ([], ⟨[], l⟩)
  | c :: cs, l =>
    if p c cs.head? then
      let r := spanPairsFrom p cs (l.after c)
      (c :: r.1, r.2)
    else ([], ⟨c :: cs, l⟩)

/-- Takes the text before the first occurrence of `mark`, and the mark. -/
def untilMark (mark : List Char) : List Char → Location → Option (List Char × Cursor)
  | [], _ => none
  | c :: cs, l =>
    if mark.isPrefixOf (c :: cs) then some ([], advance ⟨c :: cs, l⟩ mark.length)
    else (untilMark mark cs (l.after c)).map fun r => (c :: r.1, r.2)

/-- Where the text ends. -/
def endPlace : List Char → Location → Location
  | [], l => l
  | c :: cs, l => endPlace cs (l.after c)

end Cursor

namespace Lexer

/-- The character that a backslash and `c` stand for. -/
def unescape (c : Char) : Char :=
  if c == '0' then Char.ofNat 0
  else if c == 'a' then Char.ofNat 7
  else if c == 'b' then Char.ofNat 8
  else if c == 'f' then Char.ofNat 12
  else if c == 'n' then '\n'
  else if c == 'r' then '\r'
  else if c == 't' then '\t'
  else if c == 'Z' then Char.ofNat 26
  else c

/-- The body of a literal up to its closing quote; a doubled quote is a quote. -/
def quotedBody (quote : Char) (escapes keepsWildcards : Bool) :
    List Char → Location → Option (List Char × Cursor)
  | [], _ => none
  | c :: cs, l =>
    if c == quote then
      match cs with
      | [] => some ([], ⟨[], l.after c⟩)
      | q :: cs' =>
        if q == quote then
          (quotedBody quote escapes keepsWildcards cs' ((l.after c).after q)).map
            fun r => (quote :: r.1, r.2)
        else some ([], ⟨cs, l.after c⟩)
    else if c == '\\' && escapes then
      match cs with
      | [] => none
      | n :: cs' =>
        (quotedBody quote escapes keepsWildcards cs' ((l.after c).after n)).map fun r =>
          if keepsWildcards && (n == '%' || n == '_') then (c :: n :: r.1, r.2)
          else (unescape n :: r.1, r.2)
    else
      (quotedBody quote escapes keepsWildcards cs (l.after c)).map fun r => (c :: r.1, r.2)

/-- The body of a literal that three quotes close, with two of them; `run` quotes came before. -/
def tripleBody (quote : Char) (escapes keepsWildcards : Bool) :
    Nat → List Char → Location → Option (List Char × Cursor)
  | _, [], _ => none
  | run, c :: cs, l =>
    if c == quote && run == 2 then some ([], ⟨cs, l.after c⟩)
    else if c == '\\' && escapes then
      match cs with
      | [] => none
      | n :: cs' =>
        (tripleBody quote escapes keepsWildcards 0 cs' ((l.after c).after n)).map fun r =>
          if keepsWildcards && (n == '%' || n == '_') then (c :: n :: r.1, r.2)
          else (unescape n :: r.1, r.2)
    else
      (tripleBody quote escapes keepsWildcards (if c == quote then run + 1 else 0) cs
        (l.after c)).map fun r => (c :: r.1, r.2)

/-- A literal whose opening quote is the next character. -/
def quoted (d : Dialect) (quote : Char) (escapes : Bool) (form : Quotation) (c : Cursor) :
    Except LexError (Token × Cursor) :=
  let body := c.advance 1
  match quotedBody quote escapes d.keepsWildcardEscapes body.rest body.place with
  | some (s, c') => .ok (.literal form (String.ofList s), c')
  | none => .error ⟨.unclosedString, c.place⟩

/-- A literal with one or three opening quotes. -/
def quotedOnceOrThrice (d : Dialect) (quote : Char) (escapes : Bool) (form triple : Quotation)
    (c : Cursor) : Except LexError (Token × Cursor) :=
  match c.rest with
  | _ :: b :: e :: _ =>
    if b == quote && e == quote then
      let body := c.advance 3
      match tripleBody quote escapes d.keepsWildcardEscapes 0 body.rest body.place with
      | some (s, c') => .ok (.literal triple (String.ofList s.dropLast.dropLast), c')
      | none => .error ⟨.unclosedString, body.place⟩
    else if b == quote then .ok (.literal form "", c.advance 2)
    else once
  | [_, b] => if b == quote then .ok (.literal form "", c.advance 2) else once
  | _ => once
where
  once : Except LexError (Token × Cursor) :=
    let body := c.advance 1
    match quotedBody quote escapes d.keepsWildcardEscapes body.rest body.place with
    | some (s, c') => .ok (.literal form (String.ofList s), c')
    | none => .error ⟨.unclosedString, body.place⟩

/-- A literal in a dialect that may or may not know triple quotes. -/
def stringLiteral (d : Dialect) (quote : Char) (escapes : Bool) (form triple : Quotation)
    (c : Cursor) : Except LexError (Token × Cursor) :=
  if d.tripleQuotes then quotedOnceOrThrice d quote escapes form triple c
  else quoted d quote escapes form c

/-- The value of a hexadecimal digit. -/
def hexDigit? (c : Char) : Option Nat :=
  if c.isDigit then some (c.toNat - 48)
  else if 'a' ≤ c && c ≤ 'f' then some (c.toNat - 87)
  else if 'A' ≤ c && c ≤ 'F' then some (c.toNat - 55)
  else none

def hexValue? (cs : List Char) : Option Nat :=
  cs.foldl (fun acc c => acc.bind fun n => (hexDigit? c).map (16 * n + ·)) (some 0)

/-- The value of hexadecimal digits, which may have a plus sign before them. -/
def signedHexValue? (cs : List Char) : Option Nat :=
  match cs with
  | '+' :: digits => hexValue? digits
  | _ => hexValue? cs

/-- The character with a code point, if there is one. -/
def character? (n : Nat) : Option Char := if n.isValidChar then some (Char.ofNat n) else none

/-- What a backslash in an escape string stands for, and how many characters it takes. -/
def escapeAt (cs : List Char) : Option (Char × Nat) :=
  match cs with
  | [] => none
  | c :: rest =>
    let result : Option (Char × Nat) :=
      if c == 'b' then some (Char.ofNat 8, 1)
      else if c == 'f' then some (Char.ofNat 12, 1)
      else if c == 'n' then some ('\n', 1)
      else if c == 'r' then some ('\r', 1)
      else if c == 't' then some ('\t', 1)
      else if c == 'u' then coded 4 rest
      else if c == 'U' then coded 8 rest
      else if c == 'x' then
        let digits := (rest.take 2).takeWhile fun x => (hexDigit? x).isSome
        if digits.isEmpty then some ('x', 1)
        else (hexValue? digits).bind fun n => coded7 n (1 + digits.length)
      else if '0' ≤ c && c ≤ '7' then
        let digits := c :: (rest.take 2).takeWhile fun x => '0' ≤ x && x ≤ '7'
        coded7 (digits.foldl (fun acc x => 8 * acc + (x.toNat - 48)) 0) digits.length
      else some (c, 1)
    result.bind fun r => if r.1.toNat == 0 then none else some r
where
  /-- A character by its code in `n` hexadecimal digits. -/
  coded (n : Nat) (rest : List Char) : Option (Char × Nat) :=
    if (rest.take n).length == n then
      ((signedHexValue? (rest.take n)).bind character?).map fun x => (x, n + 1)
    else none
  /-- A character by the low byte of a number, which has to be a code of seven bits. -/
  coded7 (n length : Nat) : Option (Char × Nat) :=
    if n % 256 ≤ 127 then some (Char.ofNat (n % 256), length) else none

/-- The body of an escape string, with enough `fuel` for its characters. -/
def escapeBody : Nat → Cursor → Option (List Char × Cursor)
  | 0, _ => none
  | fuel + 1, c =>
    match c.rest with
    | [] => none
    | x :: xs =>
      if x == '\'' then
        match xs with
        | y :: _ =>
          if y == '\'' then (escapeBody fuel (c.advance 2)).map fun r => ('\'' :: r.1, r.2)
          else some ([], c.advance 1)
        | [] => some ([], c.advance 1)
      else if x == '\\' then
        (escapeAt xs).bind fun (ch, n) =>
          (escapeBody fuel (c.advance (n + 1))).map fun r => (ch :: r.1, r.2)
      else (escapeBody fuel (c.advance 1)).map fun r => (x :: r.1, r.2)

/-- Reads the code of a character with `n` hexadecimal digits. -/
def codedCharacter : Nat → Nat → Cursor → Except LexError (Char × Cursor)
  | 0, acc, c =>
    match character? acc with
    | some x => .ok (x, c)
    | none => .error ⟨.badCharacter acc, c.place⟩
  | n + 1, acc, c =>
    match c.rest with
    | [] => .error ⟨.unfinishedHex, c.place⟩
    | x :: _ =>
      match hexDigit? x with
      | some v => codedCharacter n (16 * acc + v) (c.advance 1)
      | none => .error ⟨.badHexDigit x, (c.advance 1).place⟩

/-- The body of a Unicode string, with enough `fuel` for its characters. -/
def unicodeBody : Nat → Cursor → Except LexError (List Char × Cursor)
  | 0, c => .error ⟨.unclosedUnicodeString, c.place⟩
  | fuel + 1, c =>
    match c.rest with
    | [] => .error ⟨.unclosedUnicodeString, c.place⟩
    | x :: xs =>
      if x == '\'' then
        if xs.head? == some '\'' then do
          let r ← unicodeBody fuel (c.advance 2)
          return ('\'' :: r.1, r.2)
        else .ok ([], c.advance 1)
      else if x == '\\' then
        if xs.head? == some '\\' then do
          let r ← unicodeBody fuel (c.advance 2)
          return ('\\' :: r.1, r.2)
        else do
          let (ch, c') ←
            if xs.head? == some '+' then codedCharacter 6 0 (c.advance 2)
            else codedCharacter 4 0 (c.advance 1)
          let r ← unicodeBody fuel c'
          return (ch :: r.1, r.2)
      else do
        let r ← unicodeBody fuel (c.advance 1)
        return (x :: r.1, r.2)

/-- The body of a quoted word up to its closing quote; a doubled quote is a quote. -/
def wordBody (quote : Char) : List Char → Location → Option (List Char × Cursor)
  | [], _ => none
  | c :: cs, l =>
    if c == quote then
      match cs with
      | [] => some ([], ⟨[], l.after c⟩)
      | q :: cs' =>
        if q == quote then
          (wordBody quote cs' ((l.after c).after q)).map fun r => (quote :: r.1, r.2)
        else some ([], ⟨cs, l.after c⟩)
    else (wordBody quote cs (l.after c)).map fun r => (c :: r.1, r.2)

/-- A quoted word whose opening quote is the next character. -/
def quotedText (opening : Char) (c : Cursor) : Except LexError (List Char × Cursor) :=
  let body := c.advance 1
  match wordBody (closingQuote opening) body.rest body.place with
  | some r => .ok r
  | none => .error ⟨.unclosedWord (closingQuote opening), c.place⟩

def quotedWord (opening : Char) (c : Cursor) : Except LexError (Token × Cursor) := do
  let (s, c') ← quotedText opening c
  return (Token.ofWord s (some opening), c')

/-- A word in double quotes inside brackets, which keeps its quotes. -/
def nestedWord (c : Cursor) : Except LexError (Token × Cursor) := do
  let inner := ((c.advance 1).span isBlank).2
  let (s, c') ← quotedText '"' inner
  let behind := (c'.span isBlank).2
  if behind.rest.head? == some ']' then
    return (Token.ofWord ('"' :: s ++ ['"']) (some '['), behind.advance 1)
  else .error ⟨.unclosedWord ']', c.place⟩

/-- A word that starts with `head`, which has been read. -/
def plainWord (d : Dialect) (head : List Char) (c : Cursor) : Token × Cursor :=
  let r := c.span d.continuesWord
  (Token.ofWord (head ++ r.1) none, r.2)

/-- A word that starts with the next `n` characters, or a number if it has nothing but digits and
periods. -/
def wordOrNumber (d : Dialect) (n : Nat) (c : Cursor) : Token × Cursor :=
  let r := (c.advance n).span d.continuesWord
  let s := c.rest.take n ++ r.1
  if s.all fun x => x.isDigit || x == '.' then
    let more := r.2.span fun x => x.isDigit || x == '.'
    (.number (String.ofList (s ++ more.1)) false, more.2)
  else (Token.ofWord s none, r.2)

/-- The mark and digits of an exponent, if one follows. -/
def exponent (c : Cursor) : List Char × Cursor :=
  match c.rest with
  | e :: rest =>
    if e == 'e' || e == 'E' then
      let sign := (rest.take 1).takeWhile fun x => x == '+' || x == '-'
      let behind := c.advance (1 + sign.length)
      if (behind.rest.head?.map Char.isDigit).getD false then
        let digits := behind.span Char.isDigit
        (e :: sign ++ digits.1, digits.2)
      else ([], c)
    else ([], c)
  | [] => ([], c)

/-- A digit, or what may separate two digits; `next` is the character behind it. -/
def isDigitAt (d : Dialect) (digit : Char → Bool) (x : Char) (next : Option Char) : Bool :=
  digit x || (d.digitSeparators && x == '_' && (next.bind hexDigit?).isSome)

/-- The token is a word. -/
def isWord : Option Token → Bool
  | some (.word ..) => true
  | _ => false

/-- A number in hexadecimal digits, behind its `0x`. -/
def hexNumber (d : Dialect) (c : Cursor) : Token × Cursor :=
  let (digits, c') := Cursor.spanPairsFrom (isDigitAt d fun x => (hexDigit? x).isSome) c.rest c.place
  (.literal .hex (String.ofList digits), c')

/-- A number, a period, or a word that starts with digits, of which `s` has been read. Digits before
an `e` start no word, unless a period is right before them. -/
def numberFrom (d : Dialect) (previous : Option Token) (s : List Char) (c : Cursor) :
    Token × Cursor :=
  if s == ['.'] && d.digitWords && isWord previous then (.symbol ".", c)
  else
    let (fraction, c₁) := Cursor.spanPairsFrom (isDigitAt d Char.isDigit) c.rest c.place
    let s := s ++ fraction
    if s == ['.'] then (.symbol ".", c₁)
    else
      let marked := c₁.rest.head? == some 'e' || c₁.rest.head? == some 'E'
      let (power, c₂) := exponent c₁
      let s := s ++ power
      let (tail, c₃) := if d.digitWords && !marked then c₂.span d.continuesWord else ([], c₂)
      if !tail.isEmpty then (Token.ofWord (s ++ tail) none, c₃)
      else if d.digitWords && marked && previous == some (.symbol ".") then
        (Token.ofWord s none, c₂)
      else if c₂.rest.head? == some 'L' then (.number (String.ofList s) true, c₂.advance 1)
      else (.number (String.ofList s) false, c₂)

/-- A number, a period, or a word that starts with digits. `previous` is the token right before. -/
def numberOrPeriod (d : Dialect) (previous : Option Token) (c : Cursor) :
    Except LexError (Token × Cursor) :=
  if (c.rest.take 2) == ['.', '_'] then
    if isWord previous then .ok (.symbol ".", c.advance 1)
    else .error ⟨.underscoreAfterPeriod, c.place⟩
  else
    let (whole, c₁) := Cursor.spanPairsFrom (isDigitAt d Char.isDigit) c.rest c.place
    if whole == ['0'] && c₁.rest.head? == some 'x' then .ok (hexNumber d (c₁.advance 1))
    else if c₁.rest.head? == some '.' then
      .ok (numberFrom d previous (whole ++ ['.']) (c₁.advance 1))
    else .ok (numberFrom d previous whole c₁)

/-- A placeholder or a string in dollar quotes. -/
def dollar (d : Dialect) (c : Cursor) : Except LexError (Token × Cursor) :=
  let c₁ := c.advance 1
  if c₁.rest.head? == some '$' && !d.dollarPlaceholders then
    let c₂ := c₁.advance 1
    match Cursor.untilMark ['$', '$'] c₂.rest c₂.place with
    | some (s, c') => .ok (.literal (.dollar "") (String.ofList s), c')
    | none => .error ⟨.unclosedDollarString, Cursor.endPlace c₂.rest c₂.place⟩
  else
    let (tag, c₂) := c₁.span fun x =>
      isLetter x || isNumeric x || x == '_' || (d.dollarPlaceholders && x == '$')
    if c₂.rest.head? == some '$' && !d.dollarPlaceholders then
      let c₃ := c₂.advance 1
      match Cursor.untilMark ('$' :: tag ++ ['$']) c₃.rest c₃.place with
      | some (s, c') => .ok (.literal (.dollar (String.ofList tag)) (String.ofList s), c')
      | none => .error ⟨.unclosedTaggedString, Cursor.endPlace c₃.rest c₃.place⟩
    else .ok (.placeholder (String.ofList ('$' :: tag)), c₂)

/-- What the characters at the front spell: a symbol that is complete, one that operator
characters may extend, or the start of an operator that they have to extend. -/
inductive Spelling where
  | closed (length : Nat) (text : String)
  | extensible (length : Nat) (text : String)
  | unfinished (length : Nat) (text : String)

/-- The symbol at the front of a text, by longest spelling. Where `?` starts operators, a `?` that
starts none of them takes the next character with it. -/
def spelling (d : Dialect) (cs : List Char) : Option Spelling :=
  let g := d.geometry
  match cs with
  | '(' :: _ => some (.closed 1 "(")
  | ')' :: _ => some (.closed 1 ")")
  | ',' :: _ => some (.closed 1 ",")
  | ';' :: _ => some (.closed 1 ";")
  | '\\' :: _ => some (.closed 1 "\\")
  | '[' :: _ => some (.closed 1 "[")
  | ']' :: _ => some (.closed 1 "]")
  | '\x7b' :: _ => some (.closed 1 "\x7b")
  | '\x7d' :: _ => some (.closed 1 "\x7d")
  | '+' :: _ => some (.closed 1 "+")
  | '*' :: _ => some (.closed 1 "*")
  | '/' :: rest =>
    match rest with
    | '/' :: _ => if d.slashDivision then some (.closed 2 "//") else some (.closed 1 "/")
    | _ => some (.closed 1 "/")
  | '-' :: rest =>
    match rest with
    | '>' :: '>' :: _ => some (.extensible 3 "->>")
    | '>' :: _ => some (.extensible 2 "->")
    | _ => some (.extensible 1 "-")
  | '%' :: rest =>
    if (rest.head?.map isBlank).getD false then some (.closed 1 "%")
    else some (.extensible 1 "%")
  | '|' :: rest =>
    match rest with
    | '/' :: _ => some (.extensible 2 "|/")
    | '|' :: '/' :: _ => some (.extensible 3 "||/")
    | '|' :: _ => some (.extensible 2 "||")
    | '&' :: more =>
      if g then
        if more.head? == some '>' then some (.extensible 3 "|&>") else some (.unfinished 2 "|&")
      else some (.extensible 1 "|")
    | '>' :: more =>
      if g then
        if more.head? == some '>' then some (.extensible 3 "|>>") else some (.unfinished 2 "|>")
      else if d.pipes then some (.extensible 2 "|>")
      else some (.extensible 1 "|")
    | _ => some (.extensible 1 "|")
  | '=' :: rest =>
    match rest with
    | '>' :: _ => some (.closed 2 "=>")
    | '=' :: _ => some (.closed 2 "==")
    | _ => some (.closed 1 "=")
  | '!' :: rest =>
    match rest with
    | '=' :: _ => some (.closed 2 "<>")
    | '!' :: _ => some (.closed 2 "!!")
    | '~' :: '*' :: _ => some (.closed 3 "!~*")
    | '~' :: '~' :: '*' :: _ => some (.closed 4 "!~~*")
    | '~' :: '~' :: _ => some (.closed 3 "!~~")
    | '~' :: _ => some (.closed 2 "!~")
    | _ => some (.closed 1 "!")
  | '<' :: rest =>
    match rest with
    | '=' :: '>' :: _ => some (.extensible 3 "<=>")
    | '=' :: _ => some (.extensible 2 "<=")
    | '|' :: _ => if g then some (.extensible 2 "<<|") else some (.extensible 1 "<")
    | '>' :: _ => some (.extensible 2 "<>")
    | '<' :: more =>
      if g && more.head? == some '|' then some (.extensible 3 "<<|")
      else some (.extensible 2 "<<")
    | '-' :: more =>
      if g then
        if more.head? == some '>' then some (.extensible 3 "<->") else some (.unfinished 2 "<-")
      else some (.extensible 1 "<")
    | '^' :: _ => if g then some (.extensible 2 "<^") else some (.extensible 1 "<")
    | '@' :: _ => some (.extensible 2 "<@")
    | _ => some (.extensible 1 "<")
  | '>' :: rest =>
    match rest with
    | '=' :: _ => some (.extensible 2 ">=")
    | '>' :: _ => some (.extensible 2 ">>")
    | '^' :: _ => if g then some (.extensible 2 ">^") else some (.extensible 1 ">")
    | _ => some (.extensible 1 ">")
  | ':' :: rest =>
    match rest with
    | ':' :: _ => some (.closed 2 "::")
    | '=' :: _ => some (.closed 2 ":=")
    | _ => some (.closed 1 ":")
  | '&' :: rest =>
    match rest with
    | '>' :: _ => if g then some (.closed 3 "&>") else some (.extensible 1 "&")
    | '<' :: more =>
      if g then
        if more.head? == some '|' then some (.closed 3 "&<|") else some (.extensible 2 "&<")
      else some (.extensible 1 "&")
    | '&' :: _ => some (.extensible 2 "&&")
    | _ => some (.extensible 1 "&")
  | '^' :: rest =>
    match rest with
    | '@' :: _ => some (.closed 2 "^@")
    | _ => some (.closed 1 "^")
  | '~' :: rest =>
    match rest with
    | '*' :: _ => some (.extensible 2 "~*")
    | '=' :: _ => if g then some (.extensible 2 "~=") else some (.extensible 1 "~")
    | '~' :: '*' :: _ => some (.extensible 3 "~~*")
    | '~' :: _ => some (.extensible 2 "~~")
    | _ => some (.extensible 1 "~")
  | '#' :: rest =>
    match rest with
    | '-' :: _ => some (.extensible 2 "#-")
    | '>' :: '>' :: _ => some (.extensible 3 "#>>")
    | '>' :: _ => some (.extensible 2 "#>")
    | ' ' :: _ => some (.closed 1 "#")
    | '#' :: _ =>
      if g then some (.extensible 2 "##")
      else if d.startsWord '#' then none
      else some (.extensible 1 "#")
    | _ :: _ => if d.startsWord '#' then none else some (.extensible 1 "#")
    | [] => some (.extensible 1 "#")
  | '@' :: rest =>
    match rest with
    | '@' :: more =>
      if g then some (.closed 2 "@@")
      else
        match more with
        | [] => some (.closed 2 "@@")
        | ' ' :: _ => some (.closed 2 "@@")
        | _ => if d.startsWord '@' then none else some (.closed 2 "@@")
    | '-' :: more =>
      if g then
        if more.head? == some '@' then some (.closed 3 "@-@") else some (.unfinished 2 "@-")
      else if d.startsWord '@' then none
      else some (.closed 1 "@")
    | '>' :: _ => some (.closed 2 "@>")
    | '?' :: _ => some (.closed 2 "@?")
    | ' ' :: _ => some (.closed 1 "@")
    | '\'' :: _ => some (.closed 1 "@")
    | '"' :: _ => some (.closed 1 "@")
    | '\x60' :: _ => some (.closed 1 "@")
    | _ :: _ => if d.startsWord '@' then none else some (.closed 1 "@")
    | [] => some (.closed 1 "@")
  | '?' :: rest =>
    if g then
      match rest with
      | '|' :: '|' :: _ => some (.closed 3 "?||")
      | '|' :: _ => some (.closed 2 "?|")
      | '&' :: _ => some (.closed 2 "?&")
      | '-' :: '|' :: _ => some (.closed 3 "?-|")
      | '-' :: _ => some (.closed 2 "?-")
      | '#' :: _ => some (.closed 2 "?#")
      | _ => some (.closed 2 "?")
    else none
  | _ => none

/-- The symbol that a spelling gives, extended where the dialect lets users define operators. -/
def symbolOf (d : Dialect) (s : Spelling) (c : Cursor) : Except LexError (Token × Cursor) :=
  match s with
  | .closed n text => .ok (.symbol text, c.advance n)
  | .extensible n text =>
    let (more, c') := (c.advance n).span d.continuesOperator
    if more.isEmpty then .ok (.symbol text, c') else .ok (.operator (text ++ String.ofList more), c')
  | .unfinished n text =>
    let (more, c') := (c.advance n).span d.continuesOperator
    if more.isEmpty then .error ⟨.unfinishedOperator text, c'.place⟩
    else .ok (.operator (text ++ String.ofList more), c')

/-- The text of a line comment, with the character that ends its line. -/
def lineComment (d : Dialect) (c : Cursor) : List Char × Cursor :=
  let (s, c') := c.span fun x => x != '\n' && !(x == '\r' && d.carriageReturnEndsComment)
  (s ++ c'.rest.take 1, c'.advance 1)

/-- The text of a block comment that `depth + 1` ends are still to close. -/
def blockComment (nested : Bool) : Nat → List Char → Location → Except LexError (List Char × Cursor)
  | _, [], l => .error ⟨.unclosedComment, l⟩
  | depth, c :: cs, l =>
    if c == '/' && nested && cs.head? == some '*' then
      match cs with
      | [] => .error ⟨.unclosedComment, l.after c⟩
      | x :: cs' => do
        let r ← blockComment nested (depth + 1) cs' ((l.after c).after x)
        return (c :: x :: r.1, r.2)
    else if c == '*' && cs.head? == some '/' then
      match cs with
      | [] => .error ⟨.unclosedComment, l.after c⟩
      | x :: cs' =>
        match depth with
        | 0 => .ok ([], ⟨cs', (l.after c).after x⟩)
        | n + 1 => do
          let r ← blockComment nested n cs' ((l.after c).after x)
          return (c :: x :: r.1, r.2)
    else do
      let r ← blockComment nested depth cs (l.after c)
      return (c :: r.1, r.2)

/-- One piece of the text. -/
inductive Piece where
  | blank (text : String)
  /-- A comment: its text, and what opens and closes it. -/
  | comment (opening : String) (text : List Char) (closing : String)
  | token (t : Token)

/-- A comment, if one starts here. -/
def comment? (d : Dialect) (c : Cursor) : Option (Except LexError (Piece × Cursor)) :=
  let line (n : Nat) : Option (Except LexError (Piece × Cursor)) :=
    let (s, c') := lineComment d (c.advance n)
    some (.ok (.comment (String.ofList (c.rest.take n)) s "", c'))
  match c.rest with
  | '-' :: '-' :: rest =>
    if d.dashCommentNeedsSpace && rest.head? != some ' ' then none else line 2
  | '/' :: '*' :: _ =>
    let body := c.advance 2
    some do
      let (s, c') ← blockComment d.nestedComments 0 body.rest body.place
      return (.comment "/*" s "*/", c')
  | '/' :: '/' :: _ => if d.slashComments then line 2 else none
  | '#' :: _ => if d.hashComments then line 1 else none
  | _ => none

/-- A literal or word that starts with a letter of its own, if one starts here. -/
def lettered? (d : Dialect) (c : Cursor) : Option (Except LexError (Token × Cursor)) :=
  match c.rest with
  | [] => none
  | x :: rest =>
    let next := rest.head?
    let word : Except LexError (Token × Cursor) := .ok (plainWord d [x] (c.advance 1))
    if (x == 'b' || x == 'B') && d.byteStrings then
      if next == some '\'' then
        some (stringLiteral d '\'' false (.byte "'") (.byte "'''") (c.advance 1))
      else if next == some '"' then
        some (stringLiteral d '"' false (.byte "\"") (.byte "\"\"\"") (c.advance 1))
      else some word
    else if (x == 'r' || x == 'R') && d.rawStrings then
      if next == some '\'' then
        some (quotedOnceOrThrice d '\'' false (.raw "'") (.raw "'''") (c.advance 1))
      else if next == some '"' then
        some (quotedOnceOrThrice d '"' false (.raw "\"") (.raw "\"\"\"") (c.advance 1))
      else some word
    else if x == 'n' || x == 'N' then
      if next == some '\'' then some (quoted d '\'' d.backslashEscapes .national (c.advance 1))
      else some word
    else if (x == 'e' || x == 'E') && d.escapeStrings then
      if next == some '\'' then
        match escapeBody c.rest.length (c.advance 2) with
        | some (s, c') => some (.ok (.literal .escape (String.ofList s), c'))
        | none => some (.error ⟨.unclosedEscapeString, c.place⟩)
      else some word
    else if (x == 'u' || x == 'U') && d.unicodeStrings then
      if rest.take 2 == ['&', '\''] then
        some do
          let (s, c') ← unicodeBody c.rest.length (c.advance 3)
          return (.literal .unicode (String.ofList s), c')
      else some word
    else if x == 'x' || x == 'X' then
      if next == some '\'' then some (quoted d '\'' true .hex (c.advance 1)) else some word
    else none

/-- The opening bracket starts a quoted word of a dialect where brackets are subscripts too. -/
def bracketsWord (d : Dialect) (c : Cursor) : Option Bool :=
  if d.oneOf [.redshift] && c.rest.head? == some '[' then
    match (c.rest.drop 1).dropWhile isBlank with
    | [] => none
    | x :: _ => if x == '"' then some true else if d.startsWord x then some false else none
  else none

/-- A literal, a quoted word, a number or a period, or a word with a first letter that may start
a literal, if one of them starts here with `x`. `previous` is the token right before. -/
def literalLike? (d : Dialect) (previous : Option Token) (x : Char) (c : Cursor) :
    Option (Except LexError (Token × Cursor)) :=
  if let some r := lettered? d c then some r
  else if x == '\'' then some (stringLiteral d '\'' d.backslashEscapes .single .tripleSingle c)
  else if x == '"' && !d.quotesWord '"' then
    some (stringLiteral d '"' d.backslashEscapes .double .tripleDouble c)
  else if d.quotesWord x then some (quotedWord x c)
  else if let some nested := bracketsWord d c then
    some (if nested then nestedWord c else quotedWord '[' c)
  else if x.isDigit || x == '.' then some (numberOrPeriod d previous c)
  else none

/-- The piece of a token that a scanner gives. -/
def tokenPiece (r : Except LexError (Token × Cursor)) : Except LexError (Piece × Cursor) :=
  r.map fun (t, c') => (.token t, c')

/-- A word, a placeholder, a string in dollar quotes, a blank, or else the character `x` alone,
which starts the text of `c` and has `rest` behind it. -/
def wordLike (d : Dialect) (x : Char) (rest : List Char) (c : Cursor) :
    Except LexError (Piece × Cursor) :=
  if x == '#' then tokenPiece (.ok (wordOrNumber d 2 c))
  else if x == '@' then
    tokenPiece (.ok (wordOrNumber d (if rest.head? == some '@' then 3 else 2) c))
  else if x == '?' then
    let (digits, c') := (c.advance 1).span isNumeric
    tokenPiece (.ok (.placeholder (String.ofList ('?' :: digits)), c'))
  else if d.startsWord x then tokenPiece (.ok (wordOrNumber d 1 c))
  else if x == '$' then tokenPiece (dollar d c)
  else if isBlank x then .ok (.blank " ", c.advance 1)
  else tokenPiece (.ok (.symbol x.toString, c.advance 1))

/-- The piece at the front of a text that is not empty. `previous` is the token right before. -/
def piece (d : Dialect) (previous : Option Token) (c : Cursor) : Except LexError (Piece × Cursor) :=
  match c.rest with
  | [] => .ok (.blank "", c)
  | x :: rest =>
    if x == ' ' || x == '\t' || x == '\n' then .ok (.blank x.toString, c.advance 1)
    else if x == '\r' then
      .ok (.blank "\n", if rest.head? == some '\n' then c.advance 2 else c.advance 1)
    else if let some r := literalLike? d previous x c then tokenPiece r
    else if let some r := comment? d c then r
    else if let some s := spelling d c.rest then tokenPiece (symbolOf d s c)
    else wordLike d x rest c

/-- The tokens and comments of the rest of a text, with enough `fuel` for its characters.
`previous` is the token right before, `gap` the first blank or comment since the last token. -/
def run (d : Dialect) : Nat → Option Token → Option Gap → Cursor → Except LexError Lexed
  | 0, _, gap, _ => .ok ⟨[], [], gap⟩
  | fuel + 1, previous, gap, c =>
    if c.rest.isEmpty then .ok ⟨[], [], gap⟩
    else do
      let (p, c') ← piece d previous c
      let region : Region := ⟨c.place, c'.place⟩
      match p with
      | .blank text => run d fuel none (gap.or (some ⟨text, c.place⟩)) c'
      | .comment opening text closing =>
        let printed := opening ++ String.ofList text ++ closing
        let r ← run d fuel none (gap.or (some ⟨printed, c.place⟩)) c'
        return { r with comments := ⟨text, region⟩ :: r.comments }
      | .token t =>
        let r ← run d fuel (some t) none c'
        return { r with lexemes := ⟨t, region, gap⟩ :: r.lexemes }

end Lexer

/-- The tokens and comments of a text. -/
def lex (d : Dialect) (text : List Char) : Except LexError Lexed :=
  Lexer.run d text.length none none (Cursor.start text)

end ColumnLint.Sql
