import ColumnLint.Proofs.Cutting

/-
  Pieces that two dialects cut alike. The generic dialect and the one that a text it refuses is read
  in again differ in few pieces: how a word goes on, what may separate digits, where a line comment
  ends, and how signs are put together to operators. `Cut.alike` says of a piece of the second
  dialect that it is none of those. Here are the pieces that the generic dialect then cuts in the
  same way: literals, words, numbers (`literalLike?_generic`) and comments (`comment?_generic`).
-/

namespace ColumnLint.Sql

open ColumnLint.Text

namespace Cursor

/-! ## Spans by two predicates -/

theorem spanFrom_stops {p : Char → Bool} {cs : List Char} {l : Location} {x : Char}
    (h : (spanFrom p cs l).2.rest.head? = some x) : p x = false := by
  induction cs generalizing l with
  | nil => cases h
  | cons c cs ih =>
    unfold spanFrom at h
    split at h
    · exact ih h
    · rename_i hc
      cases h
      simpa using hc

/-- A span depends on the predicate for what it takes and for the character behind. -/
theorem spanFrom_congr {p q : Char → Bool} {cs : List Char} {l : Location}
    (htaken : ∀ x ∈ (spanFrom p cs l).1, q x = true)
    (hbehind : ∀ x, (spanFrom p cs l).2.rest.head? = some x → q x = false) :
    spanFrom q cs l = spanFrom p cs l := by
  induction cs generalizing l with
  | nil => rfl
  | cons c cs ih =>
    unfold spanFrom at htaken hbehind ⊢
    cases hp : p c with
    | true =>
      simp only [hp, if_true] at htaken hbehind ⊢
      rw [if_pos (htaken c List.mem_cons_self),
        ih (fun x hx => htaken x (List.mem_cons_of_mem c hx)) hbehind]
    | false =>
      simp only [hp, Bool.false_eq_true, if_false] at hbehind ⊢
      rw [if_neg (by simp [hbehind c rfl])]

/-- A smaller predicate that holds of all characters taken takes the same ones. -/
theorem spanPairsFrom_congr {p q : Char → Option Char → Bool} {cs : List Char} {l : Location}
    (hle : ∀ x next, q x next = true → p x next = true)
    (htaken : ∀ x ∈ (spanPairsFrom p cs l).1, ∀ next, p x next = true → q x next = true) :
    spanPairsFrom q cs l = spanPairsFrom p cs l := by
  induction cs generalizing l with
  | nil => rfl
  | cons c cs ih =>
    unfold spanPairsFrom at htaken ⊢
    cases hp : p c cs.head? with
    | true =>
      simp only [hp, if_true] at htaken ⊢
      rw [if_pos (htaken c List.mem_cons_self _ hp),
        ih fun x hx => htaken x (List.mem_cons_of_mem c hx)]
    | false =>
      simp only [Bool.false_eq_true, if_false] at htaken ⊢
      rw [if_neg fun hq => by simp [hle _ _ hq] at hp]

theorem head?_of_spanPairsFrom {p : Char → Option Char → Bool} {cs xs : List Char} {l : Location}
    {x : Char} (h : (spanPairsFrom p cs l).1 = x :: xs) : cs.head? = some x := by
  cases cs with
  | nil => cases h
  | cons c cs =>
    unfold spanPairsFrom at h
    split at h
    · cases h
      rfl
    · cases h

theorem spanFrom_of_head {p : Char → Bool} {cs : List Char} (l : Location)
    (h : ∀ x, cs.head? = some x → p x = false) : spanFrom p cs l = ([], ⟨cs, l⟩) := by
  cases cs with
  | nil => rfl
  | cons x xs =>
    unfold spanFrom
    rw [if_neg (by simp [h x rfl])]

theorem advance_append (u rest : List Char) (l : Location) :
    advance ⟨u ++ rest, l⟩ u.length = ⟨rest, l.past u⟩ := by
  induction u generalizing l with
  | nil => rfl
  | cons x xs ih => exact ih (l.after x)

end Cursor

namespace Lexer

open Cursor

/-! ## Pieces that are cut alike -/

/-- The character goes on with a word in both dialects. -/
def isSharedLetter (x : Char) : Bool := isLetter x || x.isDigit || x == '$' || x == '_'

/-- An unquoted word that goes on with nothing but shared letters, and that the text behind it
neither extends nor makes a literal of. -/
def wordAlike (word behind : List Char) : Bool :=
  word.all isSharedLetter && behind.head? != some '#' && behind.head? != some '@' &&
    !((word == ['r'] || word == ['R']) &&
      (behind.head? == some '\'' || behind.head? == some '"'))

/-- A sign that starts operators in both dialects. -/
def isPlainSign (x : Char) : Bool := "+-*/<>=~!%^&|".toList.contains x

/-- A sign that may be part of an operator. -/
def isSign (x : Char) : Bool := isPlainSign x || "@#?\x60".toList.contains x

/-- One of the usual blanks. -/
def isSpace (x : Char) : Bool := x == ' ' || x == '\t' || x == '\n'

def opensComment : List Char → Bool
  | '-' :: '-' :: _ => true
  | '/' :: '*' :: _ => true
  | _ => false

/-- Plain signs up to the text `behind` that open no comment and are followed by no sign, or by a
blank that the piece ends with. However they are cut into symbols, the last one ends with them. -/
def isSignRun (behind : List Char) : List Char → Bool
  | [] => !(behind.head?.map isSign).getD false
  | x :: xs =>
    if isSpace x then xs.isEmpty
    else isPlainSign x && !opensComment (x :: xs ++ behind) && isSignRun behind xs

/-- Behind `#` both dialects go on with the same signs. -/
def hashAlike (behind : List Char) : List Char → Bool
  | [] => behind.isEmpty || behind.head? == some ' '
  | x :: xs => (x == '-' || x == '>') && isSignRun behind xs

/-- Behind `@` both dialects go on with the same signs. -/
def atAlike (behind : List Char) : List Char → Bool
  | [] => behind.isEmpty || [' ', '\'', '"', '\x60'].any fun x => behind.head? == some x
  | ['@'] => behind.isEmpty || behind.head? == some ' '
  | xs => xs == ['>'] || xs == ['?']

/-- The characters of a symbol or operator that both dialects pass. -/
def signsAlike (behind : List Char) : List Char → Bool
  | [] => false
  | '/' :: xs => xs.isEmpty && behind.head? != some '/'
  | '#' :: xs => hashAlike behind xs
  | '@' :: xs => atAlike behind xs
  | '?' :: xs => !xs.isEmpty && isSignRun behind xs
  | '\x60' :: _ => false
  | '<' :: '@' :: xs => isSignRun behind xs
  | x :: xs => if "-%|<>&~".toList.contains x then isSignRun behind (x :: xs) else true

/-- A token with the given characters that both dialects pass. -/
def tokenAlike (chars behind : List Char) : Token → Bool
  | .word s none _ => wordAlike s.toList behind
  | .word _ (some _) _ => true
  | .number s _ => !s.toList.contains '_'
  | .literal .hex s => chars.head? != some '0' || !s.toList.contains '_'
  | .literal _ _ => true
  | .placeholder _ => true
  | .symbol _ => signsAlike behind chars
  | .operator _ => signsAlike behind chars

/-- A comment that both dialects end on the same line. -/
def commentAlike (opening : String) (text behind : List Char) : Bool :=
  opening != "--" || text.getLast? != some '\r' || behind.isEmpty || behind.head? == some '\n'

end Lexer

/-- The characters of a piece. -/
def Cut.text (k : Cut) : List Char :=
  k.start.rest.take (k.start.rest.length - k.stop.rest.length)

/-- Both dialects pass the piece. -/
def Cut.alike (k : Cut) : Bool :=
  match k.piece with
  | .blank _ => true
  | .comment opening text _ => Lexer.commentAlike opening text k.stop.rest
  | .token t => Lexer.tokenAlike k.text k.stop.rest t

namespace Lexer

open Cursor

/-! ## Words and numbers -/

theorem continuesWord_generic {x : Char} (h : Dialect.postgres.continuesWord x = false)
    (hhash : x ≠ '#') (hat : x ≠ '@') : Dialect.generic.continuesWord x = false := by
  simp only [Dialect.continuesWord, Bool.or_eq_false_iff] at h ⊢
  simp [h, hhash, hat]

theorem continuesWord_of_shared {x : Char} (h : isSharedLetter x = true) :
    Dialect.generic.continuesWord x = true := by
  simp only [isSharedLetter, Dialect.continuesWord, Bool.or_eq_true] at h ⊢
  rcases h with ((h | h) | h) | h <;> simp [h]

theorem span_continuesWord (head : List Char) {c : Cursor}
    (h : wordAlike (head ++ (c.span Dialect.postgres.continuesWord).1)
      (c.span Dialect.postgres.continuesWord).2.rest = true) :
    c.span Dialect.generic.continuesWord = c.span Dialect.postgres.continuesWord := by
  simp only [wordAlike, Bool.and_eq_true, bne_iff_ne, ne_eq, List.all_append, List.all_eq_true] at h
  obtain ⟨⟨⟨⟨-, htaken⟩, hhash⟩, hat⟩, -⟩ := h
  refine spanFrom_congr (fun x hx => continuesWord_of_shared (htaken x hx)) fun x hx => ?_
  refine continuesWord_generic (spanFrom_stops hx) ?_ ?_
  · rintro rfl
    exact hhash hx
  · rintro rfl
    exact hat hx

variable {c c' : Cursor} {t : Token} {chars : List Char}

theorem plainWord_generic {head : List Char} (h : plainWord .postgres head c = (t, c'))
    (halike : tokenAlike chars c'.rest t = true) : plainWord .generic head c = (t, c') := by
  unfold plainWord at h ⊢
  cases h
  have hspan : c.span Dialect.generic.continuesWord = c.span Dialect.postgres.continuesWord := by
    refine span_continuesWord head ?_
    simpa [tokenAlike, Token.ofWord] using halike
  rw [hspan]

theorem wordOrNumber_one {d : Dialect} {x : Char} (xs : List Char) (l : Location)
    (hx : (x.isDigit || x == '.') = false) :
    wordOrNumber d 1 ⟨x :: xs, l⟩ = plainWord d [x] ⟨xs, l.after x⟩ := by
  unfold wordOrNumber plainWord
  change (if (([x] ++ (Cursor.span ⟨xs, l.after x⟩ d.continuesWord).1).all _) = true then _ else _) = _
  rw [if_neg (by simp [hx])]
  rfl

theorem quoted_generic : quoted .generic = quoted .postgres := rfl

theorem stringLiteral_generic : stringLiteral .generic = stringLiteral .postgres := rfl

/-- Letters other than one start the same literals, and else words. -/
theorem lettered?_generic {x : Char} {xs : List Char} (hrest : c.rest = x :: xs)
    (hx : (x == 'r' || x == 'R') = false) :
    lettered? .generic c = lettered? .postgres c ∨
      lettered? .generic c = some (.ok (plainWord .generic [x] (c.advance 1))) ∧
        lettered? .postgres c = some (.ok (plainWord .postgres [x] (c.advance 1))) := by
  unfold lettered?
  rw [hrest]
  simp only [hx, show Dialect.postgres.byteStrings = true from rfl,
    show Dialect.generic.byteStrings = true from rfl,
    show Dialect.postgres.escapeStrings = true from rfl,
    show Dialect.generic.escapeStrings = true from rfl,
    show Dialect.postgres.unicodeStrings = true from rfl,
    show Dialect.generic.unicodeStrings = true from rfl,
    show Dialect.postgres.backslashEscapes = false from rfl,
    show Dialect.generic.backslashEscapes = false from rfl,
    Bool.and_true, Bool.false_and, Bool.false_eq_true, if_false, stringLiteral_generic,
    quoted_generic]
  repeat' split
  all_goals first | exact .inl rfl | exact .inr ⟨rfl, rfl⟩

theorem digits_generic (digit : Char → Bool) {cs : List Char} {l : Location}
    (h : '_' ∉ (spanPairsFrom (isDigitAt .postgres digit) cs l).1) :
    spanPairsFrom (isDigitAt .generic digit) cs l =
      spanPairsFrom (isDigitAt .postgres digit) cs l := by
  refine spanPairsFrom_congr (fun x next hx => ?_) fun x hx next hp => ?_
  · unfold isDigitAt at hx ⊢
    rw [Bool.or_eq_true] at hx ⊢
    exact hx.imp_right fun hx => by cases hx
  · have hne : (x == '_') = false := by
      rw [beq_eq_false_iff_ne]
      rintro rfl
      exact h hx
    unfold isDigitAt at hp ⊢
    simpa [hne] using hp

theorem not_mem_of_tokenAlike_number {s : List Char} {long : Bool} {behind : List Char}
    (h : tokenAlike chars behind (.number (String.ofList s) long) = true) : '_' ∉ s := by
  simpa [tokenAlike] using h

/-- The digits of a number that is cut alike have no separator. -/
theorem not_mem_of_numberFrom {previous : Option Token} {s : List Char}
    (h : numberFrom .postgres previous s c = (t, c')) (halike : tokenAlike chars c'.rest t = true) :
    '_' ∉ s ++ (spanPairsFrom (isDigitAt .postgres Char.isDigit) c.rest c.place).1 := by
  unfold numberFrom at h
  simp only [show Dialect.postgres.digitWords = false from rfl, Bool.and_false, Bool.false_and,
    Bool.false_eq_true, if_false, List.isEmpty_nil, Bool.not_true] at h
  split at h
  · rename_i hs
    rw [eq_of_beq hs]
    decide
  · split at h
    all_goals
      cases h
      intro hmem
      exact not_mem_of_tokenAlike_number halike (List.mem_append_left _ hmem)

theorem numberFrom_generic {previous previous' : Option Token} {s : List Char}
    (h : numberFrom .postgres previous s c = (t, c')) (halike : tokenAlike chars c'.rest t = true) :
    numberFrom .generic previous' s c = (t, c') := by
  have hnot := not_mem_of_numberFrom h halike
  have hdigits := digits_generic Char.isDigit fun hmem => hnot (List.mem_append_right s hmem)
  unfold numberFrom at h ⊢
  simp only [show Dialect.postgres.digitWords = false from rfl,
    show Dialect.generic.digitWords = false from rfl, Bool.and_false, Bool.false_and,
    Bool.false_eq_true, if_false] at h ⊢
  rw [hdigits]
  exact h

theorem hexNumber_generic (hzero : chars.head? = some '0')
    (h : hexNumber .postgres c = (t, c')) (halike : tokenAlike chars c'.rest t = true) :
    hexNumber .generic c = (t, c') := by
  unfold hexNumber at h ⊢
  cases h
  rw [digits_generic _ (by simpa [tokenAlike, hzero] using halike)]

theorem numberOrPeriod_generic {previous previous' : Option Token}
    (hword : isWord previous = isWord previous')
    (hchars : chars.head? = c.rest.head?) (h : numberOrPeriod .postgres previous c = .ok (t, c'))
    (halike : tokenAlike chars c'.rest t = true) :
    numberOrPeriod .generic previous' c = .ok (t, c') := by
  unfold numberOrPeriod at h ⊢
  rw [← hword]
  split at h
  · rename_i hperiod
    rw [if_pos hperiod]
    exact h
  · rename_i hperiod
    rw [if_neg hperiod]
    have hdigits : '_' ∉ (spanPairsFrom (isDigitAt .postgres Char.isDigit) c.rest c.place).1 := by
      dsimp only at h
      split at h
      · rename_i hzero
        rw [eq_of_beq (Bool.and_eq_true_iff.1 hzero).1]
        decide
      · split at h
        · have hnot := not_mem_of_numberFrom (Except.ok.inj h) halike
          intro hmem
          exact hnot (List.mem_append_left _ (List.mem_append_left _ hmem))
        · have hnot := not_mem_of_numberFrom (Except.ok.inj h) halike
          exact fun hmem => hnot (List.mem_append_left _ hmem)
    rw [digits_generic Char.isDigit hdigits]
    dsimp only at h ⊢
    split at h
    · rename_i hzero
      rw [if_pos hzero]
      have hhead := head?_of_spanPairsFrom (eq_of_beq (Bool.and_eq_true_iff.1 hzero).1)
      rw [hexNumber_generic (hchars.trans hhead) (Except.ok.inj h) halike]
    · rename_i hzero
      rw [if_neg hzero]
      split at h
      · rename_i hfraction
        rw [if_pos hfraction, numberFrom_generic (Except.ok.inj h) halike]
      · rename_i hfraction
        rw [if_neg hfraction, numberFrom_generic (Except.ok.inj h) halike]

/-! ## Literals and quoted words -/

section

variable {previous previous' : Option Token} {x : Char} {xs : List Char} {l : Location}

/-- What both dialects try behind a first letter, one quote apart. -/
theorem literalLike?_eq {d : Dialect} (hd : d = .generic ∨ d = .postgres)
    (hquote : (x == '\x60') = false) :
    literalLike? d previous x c =
      (lettered? d c).or
        (if x == '\'' then some (stringLiteral .postgres '\'' false .single .tripleSingle c)
        else if x == '"' then some (quotedWord x c)
        else if x.isDigit || x == '.' then some (numberOrPeriod d previous c)
        else none) := by
  have hdouble : (x == '"' && !d.quotesWord '"') = false := by
    rcases hd with rfl | rfl <;> simp [Dialect.quotesWord]
  have hword : d.quotesWord x = (x == '"') := by
    rcases hd with rfl | rfl <;> simp [Dialect.quotesWord, hquote]
  have hbracket : bracketsWord d c = none := by rcases hd with rfl | rfl <;> rfl
  have hsingle : stringLiteral d '\'' d.backslashEscapes .single .tripleSingle c =
      stringLiteral .postgres '\'' false .single .tripleSingle c := by
    rcases hd with rfl | rfl <;> rfl
  unfold literalLike?
  rw [hdouble, hword, hbracket, hsingle]
  cases lettered? d c <;> rfl

/-- What starts no literal of one dialect starts none of the other, three characters apart. -/
theorem literalLike?_generic_eq_none (h : literalLike? .postgres previous x ⟨x :: xs, l⟩ = none)
    (hraw : (x == 'r' || x == 'R') = false) (hquote : (x == '\x60') = false) :
    literalLike? .generic previous' x ⟨x :: xs, l⟩ = none := by
  rw [literalLike?_eq (.inr rfl) hquote, Option.or_eq_none_iff] at h
  rw [literalLike?_eq (.inl rfl) hquote, Option.or_eq_none_iff]
  constructor
  · rcases lettered?_generic (c := ⟨x :: xs, l⟩) rfl hraw with heq | ⟨-, hword⟩
    · rw [heq]
      exact h.1
    · rw [h.1] at hword
      cases hword
  · have hrest := h.2
    repeat' split at hrest
    all_goals simp_all

theorem literalLike?_generic (hword : isWord previous = isWord previous')
    (hchars : chars.head? = some x)
    (h : literalLike? .postgres previous x ⟨x :: xs, l⟩ = some (.ok (t, c')))
    (halike : tokenAlike chars c'.rest t = true) :
    literalLike? .generic previous' x ⟨x :: xs, l⟩ = some (.ok (t, c')) := by
  have hraw : (x == 'r' || x == 'R') = false := by
    rw [Bool.or_eq_false_iff, beq_eq_false_iff_ne, beq_eq_false_iff_ne]
    constructor
    all_goals
      rintro rfl
      cases h
  have hquote : (x == '\x60') = false := by
    rw [beq_eq_false_iff_ne]
    rintro rfl
    cases h
  rw [literalLike?_eq (.inr rfl) hquote] at h
  rw [literalLike?_eq (.inl rfl) hquote]
  rcases lettered?_generic (c := ⟨x :: xs, l⟩) rfl hraw with heq | ⟨hgeneric, hpostgres⟩
  · rw [heq]
    cases hletter : lettered? .postgres ⟨x :: xs, l⟩ with
    | some r =>
      rw [hletter] at h
      exact h
    | none =>
      rw [hletter, Option.none_or] at h
      rw [Option.none_or]
      split at h
      · rename_i hsingle
        rw [if_pos hsingle]
        exact h
      · rename_i hsingle
        rw [if_neg hsingle]
        split at h
        · rename_i hdouble
          rw [if_pos hdouble]
          exact h
        · rename_i hdouble
          rw [if_neg hdouble]
          split at h
          · rename_i hdigit
            rw [if_pos hdigit, numberOrPeriod_generic hword hchars (Option.some.inj h) halike]
          · cases h
  · rw [hpostgres] at h
    rw [hgeneric, plainWord_generic (Except.ok.inj (Option.some.inj h)) halike]
    rfl

end

/-! ## Comments -/

/-- A span by a weaker predicate goes on where the other one stops. -/
theorem spanFrom_of_le {p q : Char → Bool} (hle : ∀ x, p x = true → q x = true) (cs : List Char)
    (l : Location) :
    spanFrom q cs l =
      ((spanFrom p cs l).1 ++ (spanFrom q (spanFrom p cs l).2.rest (spanFrom p cs l).2.place).1,
        (spanFrom q (spanFrom p cs l).2.rest (spanFrom p cs l).2.place).2) := by
  induction cs generalizing l with
  | nil => rfl
  | cons c cs ih =>
    cases hp : p c with
    | true =>
      have hspan : spanFrom p (c :: cs) l =
          (c :: (spanFrom p cs (l.after c)).1, (spanFrom p cs (l.after c)).2) := by
        conv => lhs; unfold spanFrom
        rw [if_pos hp]
      rw [hspan]
      conv => lhs; unfold spanFrom
      rw [if_pos (hle c hp), ih (l.after c)]
      rfl
    | false =>
      have hspan : spanFrom p (c :: cs) l = ([], ⟨c :: cs, l⟩) := by
        unfold spanFrom
        rw [if_neg (by simp [hp])]
      rw [hspan]
      rfl

/-- A line comment of one dialect is one of the other, unless a carriage return ends it that does
not end the line. -/
theorem lineComment_generic {c c' : Cursor} {s : List Char} (h : lineComment .postgres c = (s, c'))
    (hreturn : s.getLast? = some '\r' → c'.rest = [] ∨ ∃ more, c'.rest = '\n' :: more) :
    lineComment .generic c = (s, c') ∨
      ∃ more, c'.rest = '\n' :: more ∧ lineComment .generic c = (s ++ ['\n'], c'.advance 1) := by
  have hreturns : Dialect.generic.carriageReturnEndsComment = false := rfl
  have hle : ∀ x, (x != '\n' && !(x == '\r' && Dialect.postgres.carriageReturnEndsComment)) = true →
      (x != '\n' && !(x == '\r' && Dialect.generic.carriageReturnEndsComment)) = true := by
    intro x hx
    rw [(Bool.and_eq_true_iff.1 hx).1]
    exact congrArg (! ·) (Bool.and_false _)
  have hstops : ∀ x, (spanFrom (fun x => x != '\n' && !(x == '\r' &&
      Dialect.postgres.carriageReturnEndsComment)) c.rest c.place).2.rest.head? = some x →
      (x != '\n' && !(x == '\r' && Dialect.postgres.carriageReturnEndsComment)) = false :=
    fun x hx => spanFrom_stops hx
  unfold lineComment Cursor.span at h ⊢
  rw [spanFrom_of_le hle]
  generalize spanFrom (fun x => x != '\n' && !(x == '\r' &&
    Dialect.postgres.carriageReturnEndsComment)) c.rest c.place = r at h hstops ⊢
  obtain ⟨body, rest, l⟩ := r
  cases rest with
  | nil =>
    cases h
    exact .inl (by simp [spanFrom, advance])
  | cons x more =>
    cases h
    by_cases hx : x = '\n'
    · subst hx
      exact .inl (by simp [spanFrom])
    · have hx : x = '\r' := by
        have := hstops x rfl
        simpa [hx, show Dialect.postgres.carriageReturnEndsComment = true from rfl] using this
      subst hx
      rcases hreturn (by simp) with hend | ⟨rest, hnewline⟩
      · obtain rfl : more = [] := hend
        exact .inl (by simp [spanFrom, advance, hreturns])
      · obtain rfl : more = '\n' :: rest := hnewline
        exact .inr ⟨rest, rfl, by simp [spanFrom, advance, hreturns]⟩

theorem trim_concat {x : Char} (hx : isBlank x = true) (cs : List Char) :
    trim (cs ++ [x]) = trim cs := by
  unfold trim stripBy
  rw [List.dropWhile_append]
  cases hcs : cs.dropWhile isBlank with
  | nil => simp [hx]
  | cons y ys => simp [hx]

theorem comment?_eq_none_iff {d : Dialect} (hd : d = .generic ∨ d = .postgres) :
    comment? d c = none ↔ opensComment c.rest = false := by
  have hdash : d.dashCommentNeedsSpace = false := by rcases hd with rfl | rfl <;> rfl
  have hslash : d.slashComments = false := by rcases hd with rfl | rfl <;> rfl
  have hhash : d.hashComments = false := by rcases hd with rfl | rfl <;> rfl
  unfold comment?
  rw [hdash, hslash, hhash]
  dsimp only
  split
  · rename_i hrest
    simp [hrest, opensComment]
  · rename_i hrest
    simp [hrest, opensComment]
  · rename_i hrest
    simp [hrest, opensComment]
  · rename_i hrest
    simp [hrest, opensComment]
  · rename_i hdashes hblock _ _
    refine iff_of_true rfl ?_
    unfold opensComment
    split
    · exact absurd ‹_› (hdashes _)
    · exact absurd ‹_› (hblock _)
    · rfl

theorem comment?_generic {opening closing : String} {text : List Char}
    (h : comment? .postgres c = some (.ok (.comment opening text closing, c')))
    (halike : commentAlike opening text c'.rest = true) :
    ∃ text' stop, comment? .generic c = some (.ok (.comment opening text' closing, stop)) ∧
      trim text' = trim text ∧ (stop = c' ∨ ∃ more, c'.rest = '\n' :: more ∧ stop = c'.advance 1) := by
  unfold comment? at h ⊢
  dsimp only at h ⊢
  split at h
  · rename_i rest hrest
    cases h
    have hreturn : (lineComment .postgres (c.advance 2)).1.getLast? = some '\r' →
        (lineComment .postgres (c.advance 2)).2.rest = [] ∨
          ∃ more, (lineComment .postgres (c.advance 2)).2.rest = '\n' :: more := by
      intro hlast
      have hopening : String.ofList (List.take 2 c.rest) = "--" := by
        rw [hrest]
        rfl
      simpa [commentAlike, hopening, hlast, List.head?_eq_some_iff] using halike
    rcases lineComment_generic rfl hreturn with heq | ⟨more, hmore, heq⟩
    · exact ⟨_, _, by rw [heq]; rfl, rfl, .inl rfl⟩
    · exact ⟨_, _, by rw [heq]; rfl, trim_concat (by decide) _, .inr ⟨more, hmore, rfl⟩⟩
  · rename_i rest hrest
    exact ⟨text, c', h, rfl, .inl rfl⟩
  · cases h
  · cases h
  · cases h

end Lexer

end ColumnLint.Sql
