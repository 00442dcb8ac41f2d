import ColumnLint.Proofs.Scanning
import ColumnLint.Suppression

/-
  A text as the list of its pieces, each with the cursors before and behind it (`cuts`). The lexer
  accepts a text if the text can be cut, and its comments are those among the pieces
  (`exists_cuts_of_lex`, `exists_lexed_of_cuts`). A piece takes at least one character, so that the fuel of
  the lexer never runs out and `cuts` goes on piece by piece (`cuts_of_piece`). Every comment is on
  the line of its first character (`commentLine?_of_mem_cuts`).
-/

namespace ColumnLint.Sql

open ColumnLint.Text

/-- A piece of a text, with the cursors before and behind it. -/
structure Cut where
  start : Cursor
  piece : Lexer.Piece
  stop : Cursor

/-- The comment that a piece is. -/
def Cut.comment? (k : Cut) : Option Comment :=
  match k.piece with
  | .comment _ text _ => some ⟨text, ⟨k.start.place, k.stop.place⟩⟩
  | _ => none

namespace Lexer

open Cursor

/-- The token that a piece is. -/
def Piece.token? : Piece → Option Token
  | token t => some t
  | _ => none

/-- The pieces of the rest of a text, with enough `fuel` for its characters. -/
def cutsFrom (d : Dialect) : Nat → Option Token → Cursor → Except LexError (List Cut)
  | 0, _, _ => .ok []
  | fuel + 1, previous, c =>
    if c.rest.isEmpty then .ok []
    else do
      let r ← piece d previous c
      (cutsFrom d fuel r.1.token? r.2).map (⟨c, r.1, r.2⟩ :: ·)

/-- The pieces of the rest of a text. `previous` is the token right before. -/
def cuts (d : Dialect) (previous : Option Token) (c : Cursor) : Except LexError (List Cut) :=
  cutsFrom d c.rest.length previous c

/-- A result that is changed. -/
theorem exists_of_map_eq_ok {α β : Type} {x : Except LexError α} {f : α → β} {b : β}
    (h : x.map f = .ok b) : ∃ a, x = .ok a ∧ f a = b := by
  cases x with
  | error e => cases h
  | ok a => exact ⟨a, rfl, Except.ok.inj h⟩

/-! ## Cutting piece by piece -/

variable {d : Dialect} {previous : Option Token} {c c' : Cursor} {p : Piece} {k : Cut}
  {ks : List Cut}

theorem length_lt_of_piece (hrest : c.rest ≠ []) (h : piece d previous c = .ok (p, c')) :
    c'.rest.length < c.rest.length := by
  obtain ⟨rest, l⟩ := c
  obtain ⟨x, xs, rfl⟩ := List.exists_cons_of_ne_nil hrest
  have hlength := (moves_of_piece h).length_le
  exact Nat.lt_succ_of_le hlength

theorem cutsFrom_of_rest_eq_nil (n : Nat) (h : c.rest = []) :
    cutsFrom d n previous c = .ok [] := by
  cases n with
  | zero => rfl
  | succ n =>
    unfold cutsFrom
    rw [if_pos (List.isEmpty_iff.2 h)]

theorem cutsFrom_succ (n : Nat) (h : c.rest ≠ []) :
    cutsFrom d (n + 1) previous c =
      piece d previous c >>= fun r =>
        (cutsFrom d n r.1.token? r.2).map (⟨c, r.1, r.2⟩ :: ·) := by
  conv => lhs; unfold cutsFrom
  rw [if_neg (by simpa using h)]

/-- Fuel for the characters that are left is enough. -/
theorem cutsFrom_eq_of_le {n m : Nat} (hn : c.rest.length ≤ n) (hm : c.rest.length ≤ m) :
    cutsFrom d n previous c = cutsFrom d m previous c := by
  induction n generalizing m c previous with
  | zero =>
    have hrest : c.rest = [] := List.eq_nil_of_length_eq_zero (Nat.le_zero.1 hn)
    rw [cutsFrom_of_rest_eq_nil 0 hrest, cutsFrom_of_rest_eq_nil m hrest]
  | succ n ih =>
    by_cases hrest : c.rest = []
    · rw [cutsFrom_of_rest_eq_nil _ hrest, cutsFrom_of_rest_eq_nil m hrest]
    · obtain ⟨m, rfl⟩ : ∃ m', m = m' + 1 := by
        have hpos := List.length_pos_iff.2 hrest
        exact ⟨m - 1, by omega⟩
      rw [cutsFrom_succ n hrest, cutsFrom_succ m hrest]
      cases hp : piece d previous c with
      | error e => rfl
      | ok r =>
        have hlength := length_lt_of_piece hrest hp
        exact congrArg (Except.map _) (ih (by omega) (by omega))

theorem cuts_of_rest_eq_nil (h : c.rest = []) : cuts d previous c = .ok [] :=
  cutsFrom_of_rest_eq_nil _ h

/-- The pieces of a text are its first one and those of the text behind it. -/
theorem cuts_of_rest_ne_nil (h : c.rest ≠ []) :
    cuts d previous c =
      piece d previous c >>= fun r => (cuts d r.1.token? r.2).map (⟨c, r.1, r.2⟩ :: ·) := by
  obtain ⟨n, hn⟩ : ∃ n, c.rest.length = n + 1 :=
    Nat.exists_eq_add_one.2 (List.length_pos_iff.2 h)
  unfold cuts
  rw [hn, cutsFrom_succ n h]
  cases hp : piece d previous c with
  | error e => rfl
  | ok r =>
    have hlength := length_lt_of_piece h hp
    exact congrArg (Except.map _) (cutsFrom_eq_of_le (by omega) (Nat.le_refl _))

theorem cuts_of_piece (hrest : c.rest ≠ []) (h : piece d previous c = .ok (p, c')) :
    cuts d previous c = (cuts d p.token? c').map (⟨c, p, c'⟩ :: ·) := by
  rw [cuts_of_rest_ne_nil hrest, h]
  rfl

theorem eq_of_cuts_cons (h : cuts d previous c = .ok (k :: ks)) :
    c.rest ≠ [] ∧ k.start = c ∧ piece d previous c = .ok (k.piece, k.stop) ∧
      cuts d k.piece.token? k.stop = .ok ks := by
  have hrest : c.rest ≠ [] := by
    intro hrest
    rw [cuts_of_rest_eq_nil hrest] at h
    cases h
  rw [cuts_of_rest_ne_nil hrest] at h
  obtain ⟨r, hp, h⟩ := exists_of_bind_eq_ok h
  obtain ⟨ks', hks, heq⟩ := exists_of_map_eq_ok h
  cases heq
  exact ⟨hrest, rfl, hp, hks⟩

theorem rest_eq_nil_of_cuts_nil (h : cuts d previous c = .ok []) : c.rest = [] := by
  by_cases hrest : c.rest = []
  · exact hrest
  · rw [cuts_of_rest_ne_nil hrest] at h
    obtain ⟨r, -, h⟩ := exists_of_bind_eq_ok h
    obtain ⟨ks', -, heq⟩ := exists_of_map_eq_ok h
    cases heq

/-! ## The lexer's comments -/

theorem map_comments_run (n : Nat) (gap : Option Gap) :
    (run d n previous gap c).map Lexed.comments =
      (cutsFrom d n previous c).map (List.filterMap Cut.comment?) := by
  induction n generalizing previous gap c with
  | zero => rfl
  | succ n ih =>
    by_cases hrest : c.rest.isEmpty = true
    · unfold run cutsFrom
      rw [if_pos hrest, if_pos hrest]
      rfl
    · unfold run cutsFrom
      rw [if_neg hrest, if_neg hrest]
      cases hp : piece d previous c with
      | error e => rfl
      | ok r =>
        obtain ⟨p, c'⟩ := r
        cases p with
        | blank text =>
          change (run d n none _ c').map Lexed.comments = _
          rw [ih]
          change _ = ((cutsFrom d n none c').map _).map _
          cases cutsFrom d n none c' <;> rfl
        | comment opening text closing =>
          have hrun : ∀ gap, ((run d n none gap c') >>= fun r =>
              pure { r with comments := ⟨text, ⟨c.place, c'.place⟩⟩ :: r.comments }).map
                Lexed.comments =
              ((run d n none gap c').map Lexed.comments).map (⟨text, ⟨c.place, c'.place⟩⟩ :: ·) := by
            intro gap
            cases run d n none gap c' <;> rfl
          refine (hrun _).trans ?_
          rw [ih]
          change _ = ((cutsFrom d n none c').map _).map _
          cases cutsFrom d n none c' <;> rfl
        | token t =>
          have hrun : ((run d n (some t) none c') >>= fun r =>
              pure { r with lexemes := ⟨t, ⟨c.place, c'.place⟩, gap⟩ :: r.lexemes }).map
                Lexed.comments = (run d n (some t) none c').map Lexed.comments := by
            cases run d n (some t) none c' <;> rfl
          refine hrun.trans ?_
          rw [ih]
          change _ = ((cutsFrom d n (some t) c').map _).map _
          cases cutsFrom d n (some t) c' <;> rfl

/-- The comments that the lexer gives are those among the pieces. -/
theorem map_comments_lex (text : List Char) :
    (lex d text).map Lexed.comments =
      (cuts d none (Cursor.start text)).map (List.filterMap Cut.comment?) :=
  map_comments_run text.length none

theorem exists_cuts_of_lex {text : List Char} {lexed : Lexed} (h : lex d text = .ok lexed) :
    ∃ ks, cuts d none (Cursor.start text) = .ok ks ∧
      ks.filterMap Cut.comment? = lexed.comments := by
  have hcomments := map_comments_lex (d := d) text
  rw [h] at hcomments
  exact exists_of_map_eq_ok hcomments.symm

theorem exists_lexed_of_cuts {text : List Char}
    (h : cuts d none (Cursor.start text) = .ok ks) :
    ∃ lexed, lex d text = .ok lexed ∧ lexed.comments = ks.filterMap Cut.comment? := by
  have hcomments := map_comments_lex (d := d) text
  rw [h] at hcomments
  exact exists_of_map_eq_ok hcomments

/-! ## The lines of comments -/

theorem lineAt_append (front back : List Char) :
    lineAt (front ++ back) (byteSize front) = (Location.first.past front).line := by
  rw [Location.past_line]
  induction front with
  | nil =>
    cases back with
    | nil => rfl
    | cons x xs => rfl
  | cons x xs ih =>
    have hpos := x.utf8Size_pos
    rw [List.cons_append, lineAt, byteSize_cons, if_neg (by omega), Nat.add_sub_cancel_left, ih,
      List.count_cons]
    by_cases hx : x = '\n'
    · simp [hx]
      omega
    · simp [hx]

/-- The pieces follow one another from the start of the text. -/
theorem moves_of_mem_cuts (h : cuts d previous c = .ok ks) (hk : k ∈ ks) :
    c.Moves k.start ∧ k.start.Moves k.stop := by
  induction ks generalizing c previous with
  | nil => cases hk
  | cons first ks ih =>
    obtain ⟨hrest, rfl, hpiece, hbehind⟩ := eq_of_cuts_cons h
    have hmoves : first.start.Moves first.stop := by
      obtain ⟨⟨rest, l⟩, p, stop⟩ := first
      obtain ⟨x, xs, rfl⟩ := List.exists_cons_of_ne_nil hrest
      exact (moves_of_piece hpiece).cons
    rcases List.mem_cons.1 hk with rfl | hk
    · exact ⟨.refl _, hmoves⟩
    · obtain ⟨hstart, hstop⟩ := ih hbehind hk
      exact ⟨hmoves.trans hstart, hstop⟩

/-- The span of text between two places that a text is cut at. -/
theorem span?_of_moves {text : List Char} {a b : Cursor} (ha : (Cursor.start text).Moves a)
    (hb : a.Moves b) :
    ∃ s, span? text ⟨a.place, b.place⟩ = some s ∧ lineAt text s.start = a.place.line := by
  obtain ⟨front, htext, hstart⟩ := ha
  obtain ⟨mid, hrest, hstop⟩ := hb
  change text = _ at htext
  change _ = Location.first.past front at hstart
  have hoffset : offset? text a.place = some (byteSize front) :=
    offset?_eq_some_iff.2 ⟨front, a.rest, htext, rfl, hstart.symm⟩
  have hoffset' : offset? text b.place = some (byteSize (front ++ mid)) := by
    refine offset?_eq_some_iff.2 ⟨front ++ mid, b.rest, ?_, rfl, ?_⟩
    · rw [htext, hrest, List.append_assoc]
    · rw [hstop, hstart, Location.past_append]
  refine ⟨⟨byteSize front, byteSize (front ++ mid)⟩, span?_eq_some_iff.2 ⟨hoffset, hoffset', ?_⟩, ?_⟩
  · rw [byteSize_append]
    exact Nat.le_add_right _ _
  · rw [hstart, htext]
    exact lineAt_append front a.rest

/-- Every comment of a text is on the line that it starts on. -/
theorem commentLine?_of_mem_cuts {text : List Char} {comment : Comment}
    (h : cuts d none (Cursor.start text) = .ok ks) (hk : k ∈ ks) (hc : k.comment? = some comment) :
    Suppression.commentLine? text comment = some k.start.place.line := by
  obtain ⟨hstart, hstop⟩ := moves_of_mem_cuts h hk
  obtain ⟨s, hs, hline⟩ := span?_of_moves hstart hstop
  have hregion : comment.region = ⟨k.start.place, k.stop.place⟩ := by
    unfold Cut.comment? at hc
    split at hc
    · cases hc
      rfl
    · cases hc
  unfold Suppression.commentLine?
  rw [hregion, hs, ← hline]
  rfl

end Lexer

end ColumnLint.Sql
