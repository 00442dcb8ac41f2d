import ColumnLint.Json.Basic
import ColumnLint.Rounding
import ColumnLint.Text.Digit
import ColumnLint.Text.Location

/-
  JSON values read from text. A reader takes the text that is left and gives a value with the text
  left behind it, or a fault: what is wrong, the text left there, and how many bytes of that text
  are already looked at. Positions count lines from 1 and the bytes of a line.
-/

namespace ColumnLint.Json

open Text

/-- What may be wrong with a text that should be JSON. -/
inductive Problem where
  | endOfValue
  | endOfList
  | endOfObject
  | endOfString
  | expectedColon
  | expectedListEnd
  | expectedObjectEnd
  | expectedWord
  | expectedValue
  | badEscape
  | badNumber
  | hugeNumber
  | controlCharacter
  | keyNotString
  | loneSurrogate
  | endOfSurrogates
  | trailingComma
  | trailingText
  | tooDeep
deriving DecidableEq, Repr

def Problem.text : Problem → String
  | endOfValue => "EOF while parsing a value"
  | endOfList => "EOF while parsing a list"
  | endOfObject => "EOF while parsing an object"
  | endOfString => "EOF while parsing a string"
  | expectedColon => "expected `:`"
  | expectedListEnd => "expected `,` or `]`"
  | expectedObjectEnd => "expected `,` or `\x7d`"
  | expectedWord => "expected ident"
  | expectedValue => "expected value"
  | badEscape => "invalid escape"
  | badNumber => "invalid number"
  | hugeNumber => "number out of range"
  | controlCharacter => "control character (\\u0000-\\u001F) found while parsing a string"
  | keyNotString => "key must be a string"
  | loneSurrogate => "lone leading surrogate in hex escape"
  | endOfSurrogates => "unexpected end of hex escape"
  | trailingComma => "trailing comma"
  | trailingText => "trailing characters"
  | tooDeep => "recursion limit exceeded"

/-- A problem, the text left when it arises, and the bytes of that text up to it. -/
structure Fault where
  problem : Problem
  rest : List Char
  ahead : Nat
deriving DecidableEq, Repr

/-- A value read, with the text behind it. -/
abbrev Reading (α : Type) := Except Fault (α × List Char)

/-- The problem is with what has been read. -/
def failBehind {α : Type} (p : Problem) (rest : List Char) : Except Fault α := .error ⟨p, rest, 0⟩

/-- The problem is with what comes next. -/
def failAt {α : Type} (p : Problem) (rest : List Char) : Except Fault α := .error ⟨p, rest, 1⟩

def isSpace (c : Char) : Bool := c == ' ' || c == '\n' || c == '\t' || c == '\r'

def skipSpace (cs : List Char) : List Char := cs.dropWhile isSpace

/-! Strings. -/

/-- The value of a hexadecimal digit. -/
def hexValue? (c : Char) : Option Nat :=
  if c.isDigit then some (c.toNat - '0'.toNat)
  else if 'a' ≤ c && c ≤ 'f' then some (c.toNat - 'a'.toNat + 10)
  else if 'A' ≤ c && c ≤ 'F' then some (c.toNat - 'A'.toNat + 10)
  else none

/-- The number that the first four characters write in hexadecimal. -/
def hex4 (cs : List Char) : Except Fault Nat :=
  if byteSize cs < 4 then .error ⟨.endOfString, cs, 4⟩
  else
    match (cs.take 4).mapM hexValue? with
    | some [a, b, c, d] => .ok (((a * 16 + b) * 16 + c) * 16 + d)
    | _ => .error ⟨.badEscape, cs, 4⟩

/-- The character of an escape by number, and how many characters write it behind the `u`. A pair
of numbers writes a character beyond 16 bits. -/
def numbered (cs : List Char) : Except Fault (Char × Nat) := do
  let high ← hex4 cs
  let rest := cs.drop 4
  if 0xdc00 ≤ high && high ≤ 0xdfff then failBehind .loneSurrogate rest
  else if 0xd800 ≤ high && high ≤ 0xdbff then
    match rest with
    | [] => failBehind .endOfString rest
    | '\\' :: rest =>
      match rest with
      | [] => failBehind .endOfString rest
      | 'u' :: rest =>
        let low ← hex4 rest
        if 0xdc00 ≤ low && low ≤ 0xdfff then
          return (Char.ofNat (0x10000 + (high - 0xd800) * 0x400 + (low - 0xdc00)), 10)
        else failBehind .loneSurrogate (rest.drop 4)
      | _ => failAt .endOfSurrogates rest
    | _ => failAt .endOfSurrogates rest
  else return (Char.ofNat high, 4)

/-- The character that an escape stands for, and how many characters write it behind the
backslash. -/
def escaped (cs : List Char) : Except Fault (Char × Nat) :=
  match cs with
  | [] => failBehind .endOfString []
  | '"' :: _ => .ok ('"', 1)
  | '\\' :: _ => .ok ('\\', 1)
  | '/' :: _ => .ok ('/', 1)
  | 'b' :: _ => .ok ('\x08', 1)
  | 'f' :: _ => .ok ('\x0c', 1)
  | 'n' :: _ => .ok ('\n', 1)
  | 'r' :: _ => .ok ('\r', 1)
  | 't' :: _ => .ok ('\t', 1)
  | 'u' :: rest => (numbered rest).map fun (c, n) => (c, n + 1)
  | _ => failAt .badEscape cs

/-- The characters of a string up to its closing quote, after `skip` characters that are already
accounted for. -/
def stringBody (skip : Nat) : List Char → Reading (List Char)
  | [] => failBehind .endOfString []
  | c :: rest =>
    match skip with
    | n + 1 => stringBody n rest
    | 0 =>
      if c = '"' then .ok ([], rest)
      else if c = '\\' then
        match escaped rest with
        | .error f => .error f
        | .ok (e, n) => (stringBody n rest).map fun (cs, left) => (e :: cs, left)
      else if c.toNat < 0x20 then failBehind .controlCharacter rest
      else (stringBody 0 rest).map fun (cs, left) => (c :: cs, left)

/-- A string behind its opening quote. -/
def readString (cs : List Char) : Reading String :=
  (stringBody 0 cs).map fun (s, rest) => (String.ofList s, rest)

/-! Numbers. An integer of 64 bits is kept as it is; any other number has a significand of 64 bits,
whose further digits do not count, and may not be beyond the range of a double. -/

/-- Extends a significand by digits as long as it has 64 bits, and tells how many digits it took. -/
def extend (significand : Nat) : List Char → Nat × Nat
  | [] => (significand, 0)
  | c :: cs =>
    let next := 10 * significand + (c.toNat - '0'.toNat)
    if next < Nat.pow 2 64 then
      let (s, taken) := extend next cs
      (s, taken + 1)
    else (significand, 0)

/-- A significand scaled by a power of ten is beyond the range of a double. -/
def isHuge (significand : Nat) (exponent : Int) : Bool :=
  match exponent with
  | .ofNat e =>
    if 308 < e then significand != 0
    else
      Nat.pow 2 1024 - Nat.pow 2 970 ≤ nearestDouble significand 1 * nearestDouble (Nat.pow 10 e) 1
  | .negSucc _ => false

/-- A number that is not kept as an integer. -/
def scaled (negative : Bool) (significand : Nat) (exponent : Int) (rest : List Char) :
    Reading Json :=
  if isHuge significand exponent then failBehind .hugeNumber rest
  else .ok (.decimal (if negative then -(significand : Int) else significand) exponent, rest)

/-- The largest exponent that is read. -/
def maxExponent : Nat := Nat.pow 2 31 - 1

/-- The digits of an exponent, as far as the exponent is not too large, and what is left. -/
def exponentDigits (exponent : Nat) : List Char → Nat × List Char
  | [] => (exponent, [])
  | c :: cs =>
    if c.isDigit && exponent ≤ maxExponent then
      exponentDigits (10 * exponent + (c.toNat - '0'.toNat)) cs
    else (exponent, c :: cs)

/-- The exponent of a number, behind its letter. -/
def readExponent (negative : Bool) (significand : Nat) (start : Int) (cs : List Char) :
    Reading Json :=
  let (down, cs) := match cs with
    | '+' :: rest => (false, rest)
    | '-' :: rest => (true, rest)
    | _ => (false, cs)
  match cs with
  | [] => failBehind .endOfValue []
  | c :: _ =>
    if c.isDigit then
      let (exponent, rest) := exponentDigits 0 cs
      if exponent ≤ maxExponent then
        scaled negative significand (if down then start - exponent else start + exponent) rest
      else if significand != 0 && !down then failBehind .hugeNumber rest
      else .ok (.decimal 0 0, rest.dropWhile Char.isDigit)
    else failAt .badNumber cs

/-- The exponent of a number, if one follows. -/
def readScale (negative : Bool) (significand : Nat) (exponent : Int) (cs : List Char) :
    Reading Json :=
  match cs with
  | 'e' :: rest | 'E' :: rest => readExponent negative significand exponent rest
  | _ => scaled negative significand exponent cs

/-- The digits behind a period, and the exponent behind them. -/
def readFraction (negative : Bool) (significand : Nat) (exponent : Int) (cs : List Char) :
    Reading Json :=
  let digits := cs.takeWhile Char.isDigit
  let rest := cs.dropWhile Char.isDigit
  if digits.isEmpty then
    if rest.isEmpty then failBehind .endOfValue [] else failAt .badNumber rest
  else
    let (s, taken) := extend significand digits
    readScale negative s (exponent - taken) rest

/-- An integer, where it has 64 bits and is not zero with a sign. -/
def wholeNumber (negative : Bool) (significand : Nat) (rest : List Char) : Reading Json :=
  if !negative then .ok (.integer significand, rest)
  else if 0 < significand && significand ≤ Nat.pow 2 63 then
    .ok (.integer (-(significand : Int)), rest)
  else .ok (.decimal (-(significand : Int)) 0, rest)

/-- What follows the digits before the period. -/
def readMagnitude (negative : Bool) (digits rest : List Char) : Reading Json :=
  let (significand, taken) := extend 0 digits
  let dropped : Int := digits.length - taken
  match rest with
  | '.' :: fraction => readFraction negative significand dropped fraction
  | _ =>
    match rest with
    | 'e' :: _ | 'E' :: _ => readScale negative significand dropped rest
    | _ =>
      if taken = digits.length then wholeNumber negative significand rest
      else scaled negative significand dropped rest

/-- A number behind its sign. -/
def readNumber (negative : Bool) (cs : List Char) : Reading Json :=
  match cs with
  | [] => failBehind .endOfValue []
  | '0' :: rest =>
    match rest with
    | c :: _ => if c.isDigit then failAt .badNumber rest else readMagnitude negative ['0'] rest
    | [] => readMagnitude negative ['0'] rest
  | c :: _ =>
    if c.isDigit then
      readMagnitude negative (cs.takeWhile Char.isDigit) (cs.dropWhile Char.isDigit)
    else failAt .badNumber cs

/-! Values. -/

/-- The rest of a word that stands for a value. -/
def readWord (value : Json) : List Char → List Char → Reading Json
  | [], cs => .ok (value, cs)
  | _ :: _, [] => failBehind .endOfValue []
  | w :: ws, c :: cs => if w = c then readWord value ws cs else failAt .expectedWord (c :: cs)

/-- The items of a list up to its closing bracket. At most `fuel` of them are read; a text has no
more items than characters. -/
def readItems (read : List Char → Reading Json) :
    (fuel : Nat) → (first : Bool) → List Char → Reading (List Json)
  | 0, _, cs => failAt .endOfList cs
  | fuel + 1, first, cs =>
    let item (cs : List Char) : Except Fault (List Json × List Char) := do
      let (x, rest) ← read cs
      let (xs, rest) ← readItems read fuel false rest
      return (x :: xs, rest)
    match skipSpace cs with
    | [] => failAt .endOfList []
    | ']' :: rest => .ok ([], rest)
    | c :: rest =>
      if first then item (c :: rest)
      else if c = ',' then
        match skipSpace rest with
        | [] => failAt .endOfValue []
        | ']' :: rest => failAt .trailingComma (']' :: rest)
        | rest => item rest
      else failAt .expectedListEnd (c :: rest)

/-- A field of an object behind the opening quote of its name. -/
def readField (read : List Char → Reading Json) (cs : List Char) :
    Except Fault ((String × Json) × List Char) := do
  let (name, rest) ← readString cs
  match skipSpace rest with
  | [] => failAt .endOfObject []
  | ':' :: rest =>
    let (value, rest) ← read rest
    return ((name, value), rest)
  | rest => failAt .expectedColon rest

/-- The fields of an object up to its closing brace. At most `fuel` of them are read. -/
def readFields (read : List Char → Reading Json) :
    (fuel : Nat) → (first : Bool) → List Char → Reading (List (String × Json))
  | 0, _, cs => failAt .endOfObject cs
  | fuel + 1, first, cs =>
    let field (cs : List Char) : Except Fault (List (String × Json) × List Char) := do
      let (f, rest) ← readField read cs
      let (fs, rest) ← readFields read fuel false rest
      return (f :: fs, rest)
    match skipSpace cs with
    | [] => failAt .endOfObject []
    | '\x7d' :: rest => .ok ([], rest)
    | c :: rest =>
      if first then
        if c = '"' then field rest else failAt .keyNotString (c :: rest)
      else if c = ',' then
        match skipSpace rest with
        | [] => failAt .endOfValue []
        | '"' :: rest => field rest
        | '\x7d' :: rest => failAt .trailingComma ('\x7d' :: rest)
        | rest => failAt .keyNotString rest
      else failAt .expectedObjectEnd (c :: rest)

/-- A value, whose parts are read by `read`, unless there may be none. -/
def readValueWith (read : Option (List Char → Reading Json)) (cs : List Char) : Reading Json :=
  match skipSpace cs with
  | [] => failAt .endOfValue []
  | 'n' :: rest => readWord .null "ull".toList rest
  | 't' :: rest => readWord (.bool true) "rue".toList rest
  | 'f' :: rest => readWord (.bool false) "alse".toList rest
  | '-' :: rest => readNumber true rest
  | '"' :: rest => (readString rest).map fun (s, rest) => (.string s, rest)
  | '[' :: rest =>
    match read with
    | none => failAt .tooDeep ('[' :: rest)
    | some read => (readItems read (rest.length + 1) true rest).map fun (l, rest) => (.array l, rest)
  | '\x7b' :: rest =>
    match read with
    | none => failAt .tooDeep ('\x7b' :: rest)
    | some read =>
      (readFields read (rest.length + 1) true rest).map fun (l, rest) =>
        (.object (fieldsOf l), rest)
  | c :: rest => if c.isDigit then readNumber false (c :: rest) else failAt .expectedValue (c :: rest)

/-- A value whose lists and objects are nested no deeper than `depth`. -/
def readValue : (depth : Nat) → List Char → Reading Json
  | 0 => readValueWith none
  | depth + 1 => readValueWith (some (readValue depth))

/-- How deep lists and objects may be nested. -/
def maxDepth : Nat := 127

/-- A problem and its place: a line, and the bytes of that line up to it. -/
structure ReadError where
  problem : Problem
  line : Nat
  column : Nat
deriving DecidableEq, Repr

def ReadError.message (e : ReadError) : String :=
  e.problem.text ++ " at line " ++ toString e.line ++ " column " ++ toString e.column

/-- The line after so many bytes, and how many of them are on it, starting from a line and its
bytes so far. -/
def placeFrom (line column : Nat) : (bytes : Nat) → List Char → Nat × Nat
  | _, [] => (line, column)
  | bytes, c :: cs =>
    if bytes = 0 then (line, column)
    else if c = '\n' then placeFrom (line + 1) 0 (bytes - 1) cs
    else placeFrom line (column + min bytes c.utf8Size) (bytes - c.utf8Size) cs

/-- The place of a fault in a text. -/
def Fault.toError (f : Fault) (text : List Char) : ReadError :=
  let (line, column) := placeFrom 1 0 (byteSize text - byteSize f.rest + f.ahead) text
  ⟨f.problem, line, column⟩

/-- The value that a text writes. -/
def read (text : List Char) : Except ReadError Json :=
  match readValue maxDepth text with
  | .error f => .error (f.toError text)
  | .ok (j, rest) =>
    match skipSpace rest with
    | [] => .ok j
    | rest => .error (Fault.toError ⟨.trailingText, rest, 1⟩ text)

end ColumnLint.Json
