import ColumnLint.Proofs.Boundary
import ColumnLint.Sql.Token.Lexer

/-
  Scanners move a cursor forward. Whatever a scanner takes is a front part of the text that is left,
  and the place of the new cursor is the place behind that part (`Moves`). One lemma per scanner
  leads to the same fact for a piece, which always takes at least one character
  (`moves_of_piece`).
-/

namespace ColumnLint.Sql

open ColumnLint.Text

namespace Cursor

/-- The second cursor is behind some characters of the text that the first one has left. -/
def Moves (c c' : Cursor) : Prop :=
  ∃ front, c.rest = front ++ c'.rest ∧ c'.place = c.place.past front

theorem Moves.refl (c : Cursor) : c.Moves c := ⟨[], rfl, rfl⟩

theorem Moves.trans {a b c : Cursor} (hab : a.Moves b) (hbc : b.Moves c) : a.Moves c := by
  obtain ⟨front, hrest, hplace⟩ := hab
  obtain ⟨front', hrest', hplace'⟩ := hbc
  refine ⟨front ++ front', by rw [hrest, hrest', List.append_assoc], ?_⟩
  rw [hplace', hplace, Location.past_append]

theorem Moves.cons {x : Char} {xs : List Char} {l : Location} {c : Cursor}
    (h : Moves ⟨xs, l.after x⟩ c) : Moves ⟨x :: xs, l⟩ c :=
  Moves.trans ⟨[x], rfl, rfl⟩ h

theorem Moves.length_le {c c' : Cursor} (h : c.Moves c') : c'.rest.length ≤ c.rest.length := by
  obtain ⟨front, hrest, -⟩ := h
  rw [hrest, List.length_append]
  omega

/-! ## Cursors -/

theorem advance_succ (c : Cursor) (n : Nat) : c.advance (n + 1) = (c.advance 1).advance n := by
  obtain ⟨rest, l⟩ := c
  cases rest with
  | nil => cases n <;> rfl
  | cons x xs => rfl

theorem moves_advance (c : Cursor) (n : Nat) : c.Moves (c.advance n) := by
  induction n generalizing c with
  | zero => exact .refl c
  | succ n ih =>
    obtain ⟨rest, l⟩ := c
    cases rest with
    | nil => exact .refl _
    | cons x xs => exact (ih ⟨xs, l.after x⟩).cons

/-- Where two characters are passed, one is passed before. -/
theorem moves_advance_one (c : Cursor) (n : Nat) : (c.advance 1).Moves (c.advance (n + 1)) := by
  rw [advance_succ c n]
  exact moves_advance (c.advance 1) n

theorem spanFrom_append (p : Char → Bool) (cs : List Char) (l : Location) :
    cs = (spanFrom p cs l).1 ++ (spanFrom p cs l).2.rest ∧
      (spanFrom p cs l).2.place = l.past (spanFrom p cs l).1 := by
  induction cs generalizing l with
  | nil => exact ⟨rfl, rfl⟩
  | cons c cs ih =>
    unfold spanFrom
    split
    · obtain ⟨hrest, hplace⟩ := ih (l.after c)
      exact ⟨congrArg (c :: ·) hrest, hplace⟩
    · exact ⟨rfl, rfl⟩

theorem moves_span (c : Cursor) (p : Char → Bool) : c.Moves (c.span p).2 :=
  ⟨_, spanFrom_append p c.rest c.place⟩

theorem moves_spanPairsFrom (p : Char → Option Char → Bool) (cs : List Char) (l : Location) :
    Moves ⟨cs, l⟩ (spanPairsFrom p cs l).2 := by
  induction cs generalizing l with
  | nil => exact .refl _
  | cons c cs ih =>
    unfold spanPairsFrom
    split
    · exact (ih (l.after c)).cons
    · exact .refl _

/-- A result that is changed and keeps its cursor. -/
theorem eq_some_of_map {α β : Type} {o : Option (α × Cursor)} {f : α × Cursor → β × Cursor}
    {b : β} {c : Cursor} (h : o.map f = some (b, c)) (hf : ∀ r, (f r).2 = r.2) :
    ∃ a, o = some (a, c) := by
  obtain ⟨⟨a, c'⟩, ho, heq⟩ := Option.map_eq_some_iff.1 h
  have hc := hf (a, c')
  rw [heq] at hc
  obtain rfl : c = c' := hc
  exact ⟨a, ho⟩

theorem moves_untilMark {mark cs s : List Char} {l : Location} {c : Cursor}
    (h : untilMark mark cs l = some (s, c)) : Moves ⟨cs, l⟩ c := by
  induction cs generalizing l s with
  | nil => cases h
  | cons x xs ih =>
    unfold untilMark at h
    split at h
    · cases h
      exact moves_advance _ _
    · obtain ⟨s', hrest⟩ := eq_some_of_map h fun _ => rfl
      exact (ih hrest).cons

end Cursor

namespace Lexer

open Cursor

/-! ## Literals -/

theorem moves_quotedBody {q : Char} {e k : Bool} {cs s : List Char} {l : Location} {c : Cursor}
    (h : quotedBody q e k cs l = some (s, c)) : Moves ⟨cs, l⟩ c := by
  fun_induction quotedBody q e k cs l generalizing s with
  | case1 => cases h
  | case2 l x hx =>
    cases h
    exact (Moves.refl _).cons
  | case3 l x hx y ys hy ih =>
    obtain ⟨s', hrest⟩ := eq_some_of_map h fun _ => rfl
    exact (ih hrest).cons.cons
  | case4 l x hx y ys hy =>
    cases h
    exact (Moves.refl _).cons
  | case5 => cases h
  | case6 l x hx hy y ys ih =>
    obtain ⟨s', hrest⟩ := eq_some_of_map h fun _ => by split <;> rfl
    exact (ih hrest).cons.cons
  | case7 l x xs hx hy ih =>
    obtain ⟨s', hrest⟩ := eq_some_of_map h fun _ => rfl
    exact (ih hrest).cons

theorem moves_tripleBody {q : Char} {e k : Bool} {run : Nat} {cs s : List Char} {l : Location}
    {c : Cursor} (h : tripleBody q e k run cs l = some (s, c)) : Moves ⟨cs, l⟩ c := by
  fun_induction tripleBody q e k run cs l generalizing s with
  | case1 => cases h
  | case2 run l x xs hx =>
    cases h
    exact (Moves.refl _).cons
  | case3 => cases h
  | case4 run l x hx hy y ys ih =>
    obtain ⟨s', hrest⟩ := eq_some_of_map h fun _ => by split <;> rfl
    exact (ih hrest).cons.cons
  | case5 run l x xs hx hy ih =>
    obtain ⟨s', hrest⟩ := eq_some_of_map h fun _ => rfl
    exact (ih hrest).cons

theorem moves_quoted {d : Dialect} {q : Char} {e : Bool} {form : Quotation} {c c' : Cursor}
    {t : Token} (h : quoted d q e form c = .ok (t, c')) : (c.advance 1).Moves c' := by
  unfold quoted at h
  dsimp only at h
  split at h
  · rename_i s b hbody
    cases h
    exact moves_quotedBody hbody
  · cases h

theorem moves_quotedOnceOrThrice {d : Dialect} {q : Char} {e : Bool} {form triple : Quotation}
    {c c' : Cursor} {t : Token} (h : quotedOnceOrThrice d q e form triple c = .ok (t, c')) :
    (c.advance 1).Moves c' := by
  have honce : quotedOnceOrThrice.once d q e form c = .ok (t, c') → (c.advance 1).Moves c' := by
    intro h
    unfold quotedOnceOrThrice.once at h
    dsimp only at h
    split at h
    · rename_i s b hbody
      cases h
      exact moves_quotedBody hbody
    · cases h
  unfold quotedOnceOrThrice at h
  dsimp only at h
  split at h
  · split at h
    · split at h
      · rename_i s b hbody
        cases h
        exact (moves_advance_one c 2).trans (moves_tripleBody hbody)
      · cases h
    · split at h
      · cases h
        exact moves_advance_one c 1
      · exact honce h
  · split at h
    · cases h
      exact moves_advance_one c 1
    · exact honce h
  · exact honce h

theorem moves_stringLiteral {d : Dialect} {q : Char} {e : Bool} {form triple : Quotation}
    {c c' : Cursor} {t : Token} (h : stringLiteral d q e form triple c = .ok (t, c')) :
    (c.advance 1).Moves c' := by
  unfold stringLiteral at h
  split at h
  · exact moves_quotedOnceOrThrice h
  · exact moves_quoted h

theorem moves_escapeBody {fuel : Nat} {c c' : Cursor} {s : List Char}
    (h : escapeBody fuel c = some (s, c')) : c.Moves c' := by
  induction fuel generalizing c s with
  | zero => cases h
  | succ fuel ih =>
    unfold escapeBody at h
    split at h
    · cases h
    · split at h
      · split at h
        · split at h
          · obtain ⟨s', hrest⟩ := eq_some_of_map h fun _ => rfl
            exact (moves_advance c 2).trans (ih hrest)
          · cases h
            exact moves_advance c 1
        · cases h
          exact moves_advance c 1
      · split at h
        · obtain ⟨⟨x, n⟩, -, h⟩ := Option.bind_eq_some_iff.1 h
          obtain ⟨s', hrest⟩ := eq_some_of_map h fun _ => rfl
          exact (moves_advance c (n + 1)).trans (ih hrest)
        · obtain ⟨s', hrest⟩ := eq_some_of_map h fun _ => rfl
          exact (moves_advance c 1).trans (ih hrest)

theorem moves_codedCharacter {n acc : Nat} {c c' : Cursor} {x : Char}
    (h : codedCharacter n acc c = .ok (x, c')) : c.Moves c' := by
  induction n generalizing acc c with
  | zero =>
    unfold codedCharacter at h
    split at h
    · cases h
      exact .refl _
    · cases h
  | succ n ih =>
    unfold codedCharacter at h
    split at h
    · cases h
    · split at h
      · exact (moves_advance c 1).trans (ih h)
      · cases h

/-- A computation in two steps that gives a result. -/
theorem exists_of_bind_eq_ok {α β : Type} {x : Except LexError α} {f : α → Except LexError β}
    {b : β} (h : x >>= f = .ok b) : ∃ a, x = .ok a ∧ f a = .ok b := by
  cases x with
  | error e => cases h
  | ok a => exact ⟨a, rfl, h⟩

theorem moves_unicodeBody {fuel : Nat} {c c' : Cursor} {s : List Char}
    (h : unicodeBody fuel c = .ok (s, c')) : c.Moves c' := by
  induction fuel generalizing c s with
  | zero => cases h
  | succ fuel ih =>
    unfold unicodeBody at h
    split at h
    · cases h
    · split at h
      · split at h
        · obtain ⟨r, hrest, heq⟩ := exists_of_bind_eq_ok h
          cases heq
          exact (moves_advance c 2).trans (ih hrest)
        · cases h
          exact moves_advance c 1
      · split at h
        · split at h
          · obtain ⟨r, hrest, heq⟩ := exists_of_bind_eq_ok h
            cases heq
            exact (moves_advance c 2).trans (ih hrest)
          · dsimp only at h
            split at h
            · obtain ⟨⟨x, b⟩, hcoded, h⟩ := exists_of_bind_eq_ok h
              obtain ⟨r, hrest, heq⟩ := exists_of_bind_eq_ok h
              cases heq
              exact ((moves_advance c 2).trans (moves_codedCharacter hcoded)).trans (ih hrest)
            · obtain ⟨⟨x, b⟩, hcoded, h⟩ := exists_of_bind_eq_ok h
              obtain ⟨r, hrest, heq⟩ := exists_of_bind_eq_ok h
              cases heq
              exact ((moves_advance c 1).trans (moves_codedCharacter hcoded)).trans (ih hrest)
        · obtain ⟨r, hrest, heq⟩ := exists_of_bind_eq_ok h
          cases heq
          exact (moves_advance c 1).trans (ih hrest)

/-! ## Words and numbers -/

theorem moves_wordBody {q : Char} {cs s : List Char} {l : Location} {c : Cursor}
    (h : wordBody q cs l = some (s, c)) : Moves ⟨cs, l⟩ c := by
  fun_induction wordBody q cs l generalizing s with
  | case1 => cases h
  | case2 =>
    cases h
    exact (Moves.refl _).cons
  | case3 _ _ _ _ _ _ ih =>
    obtain ⟨s', hrest⟩ := eq_some_of_map h fun _ => rfl
    exact (ih hrest).cons.cons
  | case4 =>
    cases h
    exact (Moves.refl _).cons
  | case5 _ _ _ _ ih =>
    obtain ⟨s', hrest⟩ := eq_some_of_map h fun _ => rfl
    exact (ih hrest).cons

theorem moves_quotedText {q : Char} {c c' : Cursor} {s : List Char}
    (h : quotedText q c = .ok (s, c')) : (c.advance 1).Moves c' := by
  unfold quotedText at h
  dsimp only at h
  split at h
  · rename_i r hbody
    cases h
    exact moves_wordBody hbody
  · cases h

theorem moves_quotedWord {q : Char} {c c' : Cursor} {t : Token}
    (h : quotedWord q c = .ok (t, c')) : (c.advance 1).Moves c' := by
  unfold quotedWord at h
  obtain ⟨⟨s, b⟩, htext, heq⟩ := exists_of_bind_eq_ok h
  cases heq
  exact moves_quotedText htext

theorem moves_nestedWord {c c' : Cursor} {t : Token} (h : nestedWord c = .ok (t, c')) :
    (c.advance 1).Moves c' := by
  unfold nestedWord at h
  obtain ⟨⟨s, b⟩, htext, h⟩ := exists_of_bind_eq_ok h
  have hinner := moves_span (c.advance 1) isBlank
  have hword := (moves_advance _ 1).trans (moves_quotedText htext)
  have hbehind := moves_span b isBlank
  dsimp only at h
  split at h
  · cases h
    exact hinner.trans (hword.trans (hbehind.trans (moves_advance _ 1)))
  · cases h

theorem moves_plainWord (d : Dialect) (head : List Char) (c : Cursor) :
    c.Moves (plainWord d head c).2 := moves_span c d.continuesWord

theorem moves_wordOrNumber (d : Dialect) (n : Nat) (c : Cursor) :
    (c.advance 1).Moves (wordOrNumber d (n + 1) c).2 := by
  have hword := (moves_advance_one c n).trans (moves_span (c.advance (n + 1)) d.continuesWord)
  unfold wordOrNumber
  dsimp only
  split
  · exact hword.trans (moves_span _ _)
  · exact hword

theorem moves_exponent (c : Cursor) : c.Moves (exponent c).2 := by
  unfold exponent
  split
  · split
    · dsimp only
      split
      · exact (moves_advance c _).trans (moves_span _ _)
      · exact .refl c
    · exact .refl c
  · exact .refl c

theorem moves_dollar {d : Dialect} {c c' : Cursor} {t : Token} (h : dollar d c = .ok (t, c')) :
    (c.advance 1).Moves c' := by
  unfold dollar at h
  dsimp only at h
  split at h
  · split at h
    · rename_i s b hmark
      cases h
      exact (moves_advance _ 1).trans (moves_untilMark hmark)
    · cases h
  · have htag := moves_span (c.advance 1) fun x =>
      isLetter x || isNumeric x || x == '_' || (d.dollarPlaceholders && x == '$')
    split at h
    · split at h
      · rename_i s b hmark
        cases h
        exact htag.trans ((moves_advance _ 1).trans (moves_untilMark hmark))
      · cases h
    · cases h
      exact htag

theorem moves_hexNumber (d : Dialect) (c : Cursor) : c.Moves (hexNumber d c).2 :=
  moves_spanPairsFrom _ _ _

theorem moves_numberFrom (d : Dialect) (previous : Option Token) (s : List Char) (c : Cursor) :
    c.Moves (numberFrom d previous s c).2 := by
  have hdigits := moves_spanPairsFrom (isDigitAt d Char.isDigit) c.rest c.place
  unfold numberFrom
  split
  · exact .refl c
  · generalize spanPairsFrom (isDigitAt d Char.isDigit) c.rest c.place = digits at hdigits
    obtain ⟨fraction, c₁⟩ := digits
    dsimp only
    split
    · exact hdigits
    · have hpower := hdigits.trans (moves_exponent c₁)
      generalize exponent c₁ = power at hpower
      obtain ⟨power, c₂⟩ := power
      obtain ⟨tail, c₃, htail, hmoves⟩ : ∃ tail c₃, (if (d.digitWords &&
          !(c₁.rest.head? == some 'e' || c₁.rest.head? == some 'E')) = true then
          c₂.span d.continuesWord else ([], c₂)) = (tail, c₃) ∧ c₂.Moves c₃ := by
        split
        · exact ⟨_, _, rfl, moves_span _ _⟩
        · exact ⟨_, _, rfl, .refl c₂⟩
      rw [htail]
      dsimp only at hpower ⊢
      split
      · exact hpower.trans hmoves
      · split
        · exact hpower
        · split
          · exact hpower.trans (moves_advance _ 1)
          · exact hpower

/-- Of digits at least the first one is passed, and so is a period. -/
theorem moves_numberOrPeriod {d : Dialect} {previous : Option Token} {x : Char} {xs : List Char}
    {l : Location} {r : Token × Cursor} (hx : (x.isDigit || x == '.') = true)
    (h : numberOrPeriod d previous ⟨x :: xs, l⟩ = .ok r) : Moves ⟨xs, l.after x⟩ r.2 := by
  unfold numberOrPeriod at h
  split at h
  · split at h
    · cases h
      exact .refl _
    · cases h
  · cases hdigit : isDigitAt d Char.isDigit x xs.head? with
    | true =>
      have hwhole := moves_spanPairsFrom (isDigitAt d Char.isDigit) xs (l.after x)
      unfold spanPairsFrom at h
      rw [if_pos hdigit] at h
      dsimp only at h
      split at h
      · rw [← Except.ok.inj h]
        exact hwhole.trans ((moves_advance _ 1).trans (moves_hexNumber d _))
      · split at h
        · rw [← Except.ok.inj h]
          exact hwhole.trans ((moves_advance _ 1).trans (moves_numberFrom ..))
        · rw [← Except.ok.inj h]
          exact hwhole.trans (moves_numberFrom ..)
    | false =>
      have hperiod : x = '.' := by
        unfold isDigitAt at hdigit
        rw [Bool.or_eq_false_iff] at hdigit
        rw [hdigit.1, Bool.false_or, beq_iff_eq] at hx
        exact hx
      subst hperiod
      unfold spanPairsFrom at h
      rw [if_neg (by simp [hdigit])] at h
      rw [← Except.ok.inj h]
      exact moves_numberFrom ..

/-! ## Symbols -/

/-- How many characters a spelling takes at least. -/
def Spelling.length : Spelling → Nat
  | closed n _ | extensible n _ | unfinished n _ => n

theorem length_spelling_pos {d : Dialect} {cs : List Char} {s : Spelling}
    (h : spelling d cs = some s) : 0 < s.length := by
  unfold spelling at h
  dsimp only at h
  split at h <;> repeat' split at h
  all_goals cases h <;> exact Nat.succ_pos _

theorem moves_symbolOf {d : Dialect} {s : Spelling} {c c' : Cursor} {t : Token}
    (hs : spelling d c.rest = some s) (h : symbolOf d s c = .ok (t, c')) :
    (c.advance 1).Moves c' := by
  have hpos := length_spelling_pos hs
  have hlength : (c.advance 1).Moves (c.advance s.length) := by
    obtain ⟨n, hn⟩ : ∃ n, s.length = n + 1 := ⟨s.length - 1, by omega⟩
    rw [hn]
    exact moves_advance_one c n
  have hmore := hlength.trans (moves_span (c.advance s.length) d.continuesOperator)
  unfold symbolOf at h
  split at h
  · cases h
    exact hlength
  · dsimp only at h
    split at h
    · cases h
      exact hmore
    · cases h
      exact hmore
  · dsimp only at h
    split at h
    · cases h
    · cases h
      exact hmore

/-! ## Comments -/

theorem moves_lineComment (d : Dialect) (c : Cursor) : c.Moves (lineComment d c).2 :=
  (moves_span c _).trans (moves_advance _ 1)

theorem moves_blockComment {nested : Bool} {depth : Nat} {cs s : List Char} {l : Location}
    {c : Cursor} (h : blockComment nested depth cs l = .ok (s, c)) : Moves ⟨cs, l⟩ c := by
  fun_induction blockComment nested depth cs l generalizing s with
  | case1 => cases h
  | case2 => cases h
  | case3 depth l x y ys hx ih =>
    obtain ⟨r, hrest, heq⟩ := exists_of_bind_eq_ok h
    cases heq
    exact (ih hrest).cons.cons
  | case4 => cases h
  | case5 l x y ys hx hy =>
    cases h
    exact (Moves.refl _).cons.cons
  | case6 l x y ys hx hy n ih =>
    obtain ⟨r, hrest, heq⟩ := exists_of_bind_eq_ok h
    cases heq
    exact (ih hrest).cons.cons
  | case7 depth l x xs hx hy ih =>
    obtain ⟨r, hrest, heq⟩ := exists_of_bind_eq_ok h
    cases heq
    exact (ih hrest).cons

theorem moves_comment? {d : Dialect} {c c' : Cursor} {p : Piece}
    (h : comment? d c = some (.ok (p, c'))) : (c.advance 1).Moves c' := by
  have hline : ∀ n, (c.advance 1).Moves (lineComment d (c.advance (n + 1))).2 := fun n =>
    (moves_advance_one c n).trans (moves_lineComment d _)
  unfold comment? at h
  dsimp only at h
  split at h
  · split at h
    · cases h
    · cases h
      exact hline 1
  · obtain ⟨⟨s, b⟩, hblock, heq⟩ := exists_of_bind_eq_ok (Option.some.inj h)
    cases heq
    exact (moves_advance_one c 1).trans (moves_blockComment hblock)
  · split at h
    · cases h
      exact hline 1
    · cases h
  · split at h
    · cases h
      exact hline 0
    · cases h
  · cases h

/-! ## Pieces -/

theorem moves_lettered? {d : Dialect} {c c' : Cursor} {t : Token}
    (h : lettered? d c = some (.ok (t, c'))) : (c.advance 1).Moves c' := by
  have hword : ∀ x, plainWord d [x] (c.advance 1) = (t, c') → (c.advance 1).Moves c' := by
    intro x heq
    have hmoves := moves_plainWord d [x] (c.advance 1)
    rw [heq] at hmoves
    exact hmoves
  have hnext : ((c.advance 1).advance 1).Moves c' → (c.advance 1).Moves c' :=
    (moves_advance (c.advance 1) 1).trans
  unfold lettered? at h
  split at h
  · cases h
  · dsimp only at h
    split at h
    · split at h
      · exact hnext (moves_stringLiteral (Option.some.inj h))
      · split at h
        · exact hnext (moves_stringLiteral (Option.some.inj h))
        · exact hword _ (Except.ok.inj (Option.some.inj h))
    · split at h
      · split at h
        · exact hnext (moves_quotedOnceOrThrice (Option.some.inj h))
        · split at h
          · exact hnext (moves_quotedOnceOrThrice (Option.some.inj h))
          · exact hword _ (Except.ok.inj (Option.some.inj h))
      · split at h
        · split at h
          · exact hnext (moves_quoted (Option.some.inj h))
          · exact hword _ (Except.ok.inj (Option.some.inj h))
        · split at h
          · split at h
            · split at h
              · rename_i s b hbody
                cases h
                exact (moves_advance_one c 1).trans (moves_escapeBody hbody)
              · cases h
            · exact hword _ (Except.ok.inj (Option.some.inj h))
          · split at h
            · split at h
              · obtain ⟨⟨s, b⟩, hbody, heq⟩ := exists_of_bind_eq_ok (Option.some.inj h)
                cases heq
                exact (moves_advance_one c 2).trans (moves_unicodeBody hbody)
              · exact hword _ (Except.ok.inj (Option.some.inj h))
            · split at h
              · split at h
                · exact hnext (moves_quoted (Option.some.inj h))
                · exact hword _ (Except.ok.inj (Option.some.inj h))
              · cases h

theorem moves_literalLike? {d : Dialect} {previous : Option Token} {x : Char} {xs : List Char}
    {l : Location} {r : Token × Cursor}
    (h : literalLike? d previous x ⟨x :: xs, l⟩ = some (.ok r)) : Moves ⟨xs, l.after x⟩ r.2 := by
  unfold literalLike? at h
  split at h
  · rename_i hlettered
    rw [Option.some.inj h] at hlettered
    exact moves_lettered? hlettered
  · split at h
    · exact moves_stringLiteral (Option.some.inj h)
    · split at h
      · exact moves_stringLiteral (Option.some.inj h)
      · split at h
        · exact moves_quotedWord (Option.some.inj h)
        · split at h
          · have hword := Option.some.inj h
            split at hword
            · exact moves_nestedWord hword
            · exact moves_quotedWord hword
          · split at h
            · rename_i hdigit
              exact moves_numberOrPeriod hdigit (Option.some.inj h)
            · cases h

/-- The piece of a token is what its scanner gives. -/
theorem exists_of_tokenPiece {r : Except LexError (Token × Cursor)} {p : Piece} {c : Cursor}
    (h : tokenPiece r = .ok (p, c)) : ∃ t, r = .ok (t, c) ∧ p = .token t := by
  cases r with
  | error e => cases h
  | ok a =>
    cases h
    exact ⟨a.1, rfl, rfl⟩

theorem moves_wordLike {d : Dialect} {x : Char} {rest : List Char} {c c' : Cursor} {p : Piece}
    (h : wordLike d x rest c = .ok (p, c')) : (c.advance 1).Moves c' := by
  have hword : ∀ n, tokenPiece (.ok (wordOrNumber d (n + 1) c)) = .ok (p, c') →
      (c.advance 1).Moves c' := by
    intro n h
    obtain ⟨t, ht, -⟩ := exists_of_tokenPiece h
    have hmoves := moves_wordOrNumber d n c
    rw [Except.ok.inj ht] at hmoves
    exact hmoves
  unfold wordLike at h
  split at h
  · exact hword 1 h
  · split at h
    · split at h
      · exact hword 2 h
      · exact hword 1 h
    · split at h
      · have hdigits := moves_span (c.advance 1) isNumeric
        cases h
        exact hdigits
      · split at h
        · exact hword 0 h
        · split at h
          · obtain ⟨t, ht, -⟩ := exists_of_tokenPiece h
            exact moves_dollar ht
          · split at h
            · cases h
              exact .refl _
            · cases h
              exact .refl _

/-- A piece takes at least one character. -/
theorem moves_of_piece {d : Dialect} {previous : Option Token} {x : Char} {xs : List Char}
    {l : Location} {c : Cursor} {p : Piece} (h : piece d previous ⟨x :: xs, l⟩ = .ok (p, c)) :
    Moves ⟨xs, l.after x⟩ c := by
  unfold piece at h
  dsimp only at h
  split at h
  · cases h
    exact .refl _
  · split at h
    · rw [← (Prod.mk.inj (Except.ok.inj h)).2]
      split
      · exact moves_advance_one ⟨x :: xs, l⟩ 1
      · exact .refl _
    · split at h
      · rename_i r hliteral
        obtain ⟨t, rfl, -⟩ := exists_of_tokenPiece h
        exact moves_literalLike? hliteral
      · split at h
        · rename_i r hcomment
          rw [h] at hcomment
          exact moves_comment? hcomment
        · split at h
          · rename_i s hspelling
            obtain ⟨t, ht, -⟩ := exists_of_tokenPiece h
            exact moves_symbolOf hspelling ht
          · exact moves_wordLike h

end Lexer

end ColumnLint.Sql
