/-
  Letter case. ASCII letters change case one by one; a keyword is recognised in the full upper
  case of a word, where some letters beyond ASCII turn into ASCII ones.
-/

namespace ColumnLint.Text

/-- Upper case of ASCII letters, all else kept. -/
def upper (cs : List Char) : List Char := cs.map Char.toUpper

/-- Lower case of ASCII letters, all else kept. -/
def lower (cs : List Char) : List Char := cs.map Char.toLower

/-- Equality up to the case of ASCII letters. -/
def sameLetters (a b : List Char) : Bool := lower a == lower b

/-- Full upper case as far as the result is ASCII; other characters are kept. -/
def fullUpper (c : Char) : List Char :=
  if c.toNat < 0x80 then [c.toUpper]
  else if c == 'ı' then ['I']
  else if c == 'ſ' then ['S']
  else if c == 'ß' then ['S', 'S']
  else if c == 'ﬀ' then ['F', 'F']
  else if c == 'ﬁ' then ['F', 'I']
  else if c == 'ﬂ' then ['F', 'L']
  else if c == 'ﬃ' then ['F', 'F', 'I']
  else if c == 'ﬄ' then ['F', 'F', 'L']
  else if c == 'ﬅ' then ['S', 'T']
  else if c == 'ﬆ' then ['S', 'T']
  else [c]

end ColumnLint.Text
