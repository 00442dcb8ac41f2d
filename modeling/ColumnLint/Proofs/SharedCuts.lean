import ColumnLint.Proofs.SharedSigns
import Mathlib.Data.List.Forall2

/-
  Texts that two dialects cut alike. The generic dialect passes every alike piece
  (`skips_of_alike`, `comment_of_alike`); by induction over the pieces it cuts a text of alike pieces
  to its end and sees the same comments in the same order (`exists_cuts_generic`).
-/

namespace ColumnLint.Sql

open ColumnLint.Text

theorem Cut.text_eq {u : List Char} {l : Location} {p : Lexer.Piece} {c : Cursor} :
    Cut.text ⟨⟨u ++ c.rest, l⟩, p, c⟩ = u := by
  unfold Cut.text
  rw [List.length_append, Nat.add_sub_cancel, List.take_left]

namespace Lexer

open Cursor

/-! ## Words -/

section

variable {previous previous' : Option Token} {x : Char} {xs : List Char} {l : Location}
  {c : Cursor} {t : Token} {chars : List Char}

theorem startsWord_generic_eq_false (h : Dialect.postgres.startsWord x = false) (hhash : x ≠ '#')
    (hat : x ≠ '@') : Dialect.generic.startsWord x = false := by
  simp only [Dialect.startsWord, Bool.or_eq_false_iff] at h ⊢
  simp [h, hhash, hat]

theorem not_digit_of_literalLike? (h : literalLike? .postgres previous x ⟨x :: xs, l⟩ = none)
    (hquote : (x == '\x60') = false) : (x.isDigit || x == '.') = false := by
  rw [literalLike?_eq (.inr rfl) hquote, Option.or_eq_none_iff] at h
  have hrest := h.2
  repeat' split at hrest
  all_goals simp_all

/-- The first letter of a word that is cut alike starts a word of the other dialect. -/
theorem startsWord_generic_of_alike (hstarts : Dialect.postgres.startsWord x = true)
    (hdigit : (x.isDigit || x == '.') = false)
    (hword : plainWord .postgres [x] ⟨xs, l.after x⟩ = (t, c))
    (halike : tokenAlike chars c.rest t = true) : Dialect.generic.startsWord x = true := by
  cases hword
  have hshared : isSharedLetter x = true := by
    simp only [tokenAlike, Token.ofWord, wordAlike, Bool.and_eq_true] at halike
    have hall := halike.1.1.1
    simp only [String.toList_ofList, List.singleton_append, List.all_cons, Bool.and_eq_true] at hall
    exact hall.1
  have hdollar : x ≠ '$' := by
    rintro rfl
    cases hstarts
  rw [Bool.or_eq_false_iff] at hdigit
  simp only [isSharedLetter, hdigit.1, Bool.or_eq_true, Bool.false_eq_true, or_false, beq_iff_eq,
    hdollar] at hshared
  simp only [Dialect.startsWord, Bool.or_eq_true, beq_iff_eq]
  exact .inl (.inl hshared)

/-- The letter of raw strings, not followed by a quote, is the first one of a word. -/
theorem lettered?_raw (hraw : (x == 'r' || x == 'R') = true)
    (hword : plainWord .postgres [x] ⟨xs, l.after x⟩ = (t, c))
    (halike : tokenAlike chars c.rest t = true) :
    lettered? .generic ⟨x :: xs, l⟩ = some (.ok (plainWord .generic [x] ⟨xs, l.after x⟩)) := by
  have hnext : ∀ q, q = '\'' ∨ q = '"' → (xs.head? == some q) = false := by
    intro q hq
    rw [beq_eq_false_iff_ne]
    intro hhead
    obtain ⟨ys, rfl⟩ := List.head?_eq_some_iff.1 hhead
    -- the word is the letter alone, with the quote right behind it
    have hstop : Cursor.span ⟨q :: ys, l.after x⟩ Dialect.postgres.continuesWord =
        ([], ⟨q :: ys, l.after x⟩) := by
      refine spanFrom_of_head _ ?_
      rintro y ⟨⟩
      rcases hq with rfl | rfl <;> rfl
    unfold plainWord at hword
    rw [hstop] at hword
    cases hword
    rw [Bool.or_eq_true, beq_iff_eq, beq_iff_eq] at hraw
    rcases hraw with rfl | rfl <;> rcases hq with rfl | rfl <;>
      simp [tokenAlike, Token.ofWord, wordAlike] at halike
  have hbyte : ((x == 'b' || x == 'B') && Dialect.generic.byteStrings) = false := by
    rw [Bool.or_eq_true, beq_iff_eq, beq_iff_eq] at hraw
    rcases hraw with rfl | rfl <;> rfl
  unfold lettered?
  dsimp only
  rw [hbyte, hraw, hnext '\'' (.inl rfl), hnext '"' (.inr rfl)]
  rfl

theorem wordLike_of_startsWord {d : Dialect} (hsign : "#@?".toList.contains x = false)
    (hstarts : d.startsWord x = true) : wordLike d x xs c = tokenPiece (.ok (wordOrNumber d 1 c)) := by
  simp at hsign
  obtain ⟨hhash, hat, hquestion⟩ := hsign
  unfold wordLike
  rw [beq_eq_false_iff_ne.2 hhash, beq_eq_false_iff_ne.2 hat, beq_eq_false_iff_ne.2 hquestion, hstarts]
  rfl

theorem not_sign_of_startsWord (hstarts : Dialect.postgres.startsWord x = true) :
    "#@?".toList.contains x = false := by
  simp
  refine ⟨?_, ?_, ?_⟩
  all_goals
    rintro rfl
    cases hstarts

/-- A word that is cut alike is one of the other dialect. -/
theorem piece_generic_of_word (h : StartsSymbol .postgres previous x xs l)
    (hspelling : spelling .postgres (x :: xs) = none)
    (hstarts : Dialect.postgres.startsWord x = true)
    (hword : wordOrNumber .postgres 1 ⟨x :: xs, l⟩ = (t, c))
    (halike : tokenAlike chars c.rest t = true) :
    piece .generic previous' ⟨x :: xs, l⟩ = .ok (.token t, c) := by
  have hquote : (x == '\x60') = false := by
    rw [beq_eq_false_iff_ne]
    rintro rfl
    cases hstarts
  have hdigit := not_digit_of_literalLike? h.no_literal hquote
  rw [wordOrNumber_one xs l hdigit] at hword
  have hplain := plainWord_generic hword halike
  cases hraw : (x == 'r' || x == 'R') with
  | true =>
    have hletter := lettered?_raw hraw hword halike
    have hspace := h.not_space
    unfold isSpace at hspace
    unfold piece literalLike?
    dsimp only
    rw [hspace, h.not_return, hletter, hplain]
    rfl
  | false =>
    rw [(h.generic hraw hquote previous').piece_eq (.inl rfl), spelling_generic_eq_none hspelling]
    dsimp only
    rw [wordLike_of_startsWord (not_sign_of_startsWord hstarts)
      (startsWord_generic_of_alike hstarts hdigit hword halike), wordOrNumber_one xs l hdigit, hplain]
    rfl

/-- What is neither a word nor written with the quote that one dialect knows is cut in the same
way. -/
theorem wordLike_generic (hspelling : spelling .postgres (x :: xs) = none)
    (hstarts : Dialect.postgres.startsWord x = false) :
    wordLike .generic x xs ⟨x :: xs, l⟩ = wordLike .postgres x xs ⟨x :: xs, l⟩ := by
  have hsign : ∀ y, "#@?".toList.contains y = true → (x == y) = false := by
    intro y hy
    rw [beq_eq_false_iff_ne]
    rintro rfl
    have hx : ((x :: xs).head?.map fun x => isPlainSign x || "#@?".toList.contains x).getD false =
        true := by simp only [List.head?_cons, Option.map_some, Option.getD_some, hy, Bool.or_true]
    rcases (of_spelling_eq_none hspelling hx).2 with h | h | h
    all_goals cases h
  have hgeneric : Dialect.generic.startsWord x = false :=
    startsWord_generic_eq_false hstarts (beq_eq_false_iff_ne.1 (hsign '#' rfl))
      (beq_eq_false_iff_ne.1 (hsign '@' rfl))
  unfold wordLike
  rw [hsign '#' rfl, hsign '@' rfl, hsign '?' rfl, hstarts, hgeneric]
  rfl

/-! ## One piece -/

theorem symbolOf_kind {d : Dialect} {s : Spelling} {c' : Cursor}
    (h : symbolOf d s c = .ok (t, c')) :
    isWord (some t) = false ∧ ∀ behind, tokenAlike chars behind t = signsAlike behind chars := by
  unfold symbolOf at h
  split at h
  · cases h
    exact ⟨rfl, fun _ => rfl⟩
  · dsimp only at h
    split at h
    all_goals
      cases h
      exact ⟨rfl, fun _ => rfl⟩
  · dsimp only at h
    split at h
    · cases h
    · cases h
      exact ⟨rfl, fun _ => rfl⟩

theorem comment?_isComment {d : Dialect} {p : Piece} {c' : Cursor}
    (h : comment? d c = some (.ok (p, c'))) :
    ∃ opening text closing, p = .comment opening text closing := by
  unfold comment? at h
  dsimp only at h
  split at h
  · split at h
    · cases h
    · cases h
      exact ⟨_, _, _, rfl⟩
  · obtain ⟨r, -, heq⟩ := exists_of_bind_eq_ok (Option.some.inj h)
    cases heq
    exact ⟨_, _, _, rfl⟩
  · split at h
    · cases h
      exact ⟨_, _, _, rfl⟩
    · cases h
  · split at h
    · cases h
      exact ⟨_, _, _, rfl⟩
    · cases h
  · cases h

/-- The generic dialect passes a symbol or operator that is cut alike. -/
theorem skips_symbol {s : Spelling} {behind : List Char} (previous' : Option Token)
    (h : StartsSymbol .postgres previous x (xs ++ behind) l)
    (hs : spelling .postgres (x :: (xs ++ behind)) = some s)
    (hsymbol : symbolOf .postgres s ⟨x :: (xs ++ behind), l⟩ =
      .ok (t, ⟨behind, l.past (x :: xs)⟩))
    (halike : tokenAlike (x :: xs) behind t = true) :
    ∃ last, isWord last = isWord (some t) ∧
      Skips previous' ⟨x :: (xs ++ behind), l⟩ last ⟨behind, l.past (x :: xs)⟩ := by
  have hother : ∀ y, spelling .postgres (y :: (xs ++ behind)) = none → (x == y) = false := by
    intro y hy
    rw [beq_eq_false_iff_ne]
    rintro rfl
    rw [hs] at hy
    cases hy
  have hraw : (x == 'r' || x == 'R') = false := by
    rw [hother 'r' rfl, hother 'R' rfl]
    rfl
  obtain ⟨hkind, hsigns⟩ := symbolOf_kind hsymbol
  rw [hsigns] at halike
  rw [hkind]
  exact skips_signs (h.generic hraw (hother '\x60' rfl) previous') halike hs hsymbol

/-- The generic dialect cuts a word-like piece in the same way if it is cut alike. -/
theorem piece_generic_of_wordLike {p : Piece} (previous' : Option Token)
    (h : StartsSymbol .postgres previous x xs l) (hspelling : spelling .postgres (x :: xs) = none)
    (hpiece : wordLike .postgres x xs ⟨x :: xs, l⟩ = .ok (p, c))
    (halike : Cut.alike ⟨⟨x :: xs, l⟩, p, c⟩ = true) :
    piece .generic previous' ⟨x :: xs, l⟩ = .ok (p, c) := by
  cases hstarts : Dialect.postgres.startsWord x with
  | true =>
    rw [wordLike_of_startsWord (not_sign_of_startsWord hstarts) hstarts] at hpiece
    obtain ⟨t, ht, rfl⟩ := exists_of_tokenPiece hpiece
    exact piece_generic_of_word h hspelling hstarts (Except.ok.inj ht) halike
  | false =>
    have hquote : (x == '\x60') = false := by
      rw [beq_eq_false_iff_ne]
      rintro rfl
      cases hpiece
      have htext : Cut.text ⟨⟨'\x60' :: xs, l⟩, .token (.symbol '\x60'.toString),
          Cursor.advance ⟨'\x60' :: xs, l⟩ 1⟩ = ['\x60'] :=
        Cut.text_eq (u := ['\x60']) (c := ⟨xs, l.after '\x60'⟩)
      change tokenAlike (Cut.text _) xs (.symbol "\x60") = true at halike
      rw [htext] at halike
      cases halike
    have hraw : (x == 'r' || x == 'R') = false := by
      rw [Bool.or_eq_false_iff, beq_eq_false_iff_ne, beq_eq_false_iff_ne]
      constructor
      all_goals
        rintro rfl
        cases hstarts
    rw [(h.generic hraw hquote previous').piece_eq (.inl rfl), spelling_generic_eq_none hspelling]
    exact (wordLike_generic hspelling hstarts).trans hpiece

end

/-- The generic dialect passes a piece that is cut alike and is no comment. -/
theorem skips_of_alike {previous previous' : Option Token} {k : Cut}
    (hword : isWord previous = isWord previous') (hrest : k.start.rest ≠ [])
    (h : piece .postgres previous k.start = .ok (k.piece, k.stop)) (hcomment : k.comment? = none)
    (halike : k.alike = true) :
    ∃ last, isWord last = isWord k.piece.token? ∧ Skips previous' k.start last k.stop := by
  obtain ⟨⟨rest, l⟩, p, stop⟩ := k
  obtain ⟨x, xs, rfl⟩ := List.exists_cons_of_ne_nil hrest
  obtain ⟨front, hfront, hplace⟩ := moves_of_piece h
  obtain ⟨behind, place⟩ := stop
  simp only at hfront hplace h hcomment ⊢
  subst hfront hplace
  have htext : Cut.text ⟨⟨x :: (front ++ behind), l⟩, p, ⟨behind, (l.after x).past front⟩⟩ =
      x :: front := Cut.text_eq (u := x :: front) (c := ⟨behind, (l.after x).past front⟩)
  have hsame : piece .generic previous' ⟨x :: (front ++ behind), l⟩ =
      .ok (p, ⟨behind, (l.after x).past front⟩) → ∃ last, isWord last = isWord p.token? ∧
      Skips previous' ⟨x :: (front ++ behind), l⟩ last ⟨behind, (l.after x).past front⟩ :=
    fun hpiece => ⟨_, rfl, skips_of_piece (List.cons_ne_nil x _) hpiece hcomment⟩
  cases hspace : isSpace x with
  | true =>
    unfold isSpace at hspace
    refine hsame ?_
    unfold piece at h ⊢
    dsimp only at h ⊢
    rw [hspace] at h ⊢
    exact h
  | false =>
    cases hreturn : (x == '\r') with
    | true =>
      unfold isSpace at hspace
      refine hsame ?_
      unfold piece at h ⊢
      dsimp only at h ⊢
      rw [hspace, hreturn] at h ⊢
      exact h
    | false =>
      cases hliteral : literalLike? .postgres previous x ⟨x :: (front ++ behind), l⟩ with
      | some r =>
        refine hsame ?_
        unfold isSpace at hspace
        unfold piece at h ⊢
        dsimp only at h ⊢
        rw [hspace, hreturn, hliteral] at h
        obtain ⟨t, rfl, rfl⟩ := exists_of_tokenPiece h
        change tokenAlike (Cut.text _) behind t = true at halike
        rw [htext] at halike
        rw [hspace, hreturn, literalLike?_generic hword rfl hliteral halike]
        rfl
      | none =>
        cases hopens : opensComment (x :: (front ++ behind)) with
        | true =>
          obtain ⟨r, hr⟩ : ∃ r, comment? .postgres ⟨x :: (front ++ behind), l⟩ = some r := by
            refine Option.ne_none_iff_exists'.1 fun hnone => ?_
            rw [(comment?_eq_none_iff (.inr rfl)).1 hnone] at hopens
            cases hopens
          unfold isSpace at hspace
          unfold piece at h
          dsimp only at h
          rw [hspace, hreturn, hliteral, hr] at h
          obtain rfl : r = _ := h
          obtain ⟨opening, text, closing, rfl⟩ := comment?_isComment hr
          cases hcomment
        | false =>
          have hstarts : StartsSymbol .postgres previous x (front ++ behind) l :=
            ⟨hspace, hreturn, hliteral, hopens⟩
          rw [hstarts.piece_eq (.inr rfl)] at h
          cases hs : spelling .postgres (x :: (front ++ behind)) with
          | some s =>
            rw [hs] at h
            obtain ⟨t, ht, rfl⟩ := exists_of_tokenPiece h
            change tokenAlike (Cut.text _) behind t = true at halike
            rw [htext] at halike
            exact skips_symbol previous' hstarts hs ht halike
          | none =>
            rw [hs] at h
            exact hsame (piece_generic_of_wordLike previous' hstarts hs h halike)

/-! ## Comments -/

section

variable {d : Dialect} {previous : Option Token} {c c' : Cursor} {opening closing : String}
  {text : List Char}

theorem tokenPiece_ne_comment {r : Except LexError (Token × Cursor)} :
    tokenPiece r ≠ .ok (.comment opening text closing, c) := by
  intro h
  obtain ⟨t, -, heq⟩ := exists_of_tokenPiece h
  cases heq

theorem wordLike_ne_comment {x : Char} {xs : List Char} :
    wordLike d x xs c ≠ .ok (.comment opening text closing, c') := by
  intro h
  unfold wordLike at h
  repeat' split at h
  all_goals first | exact tokenPiece_ne_comment h | cases h

/-- A comment is a piece where one starts. -/
theorem comment?_of_piece (hrest : c.rest ≠ [])
    (h : piece d previous c = .ok (.comment opening text closing, c')) :
    comment? d c = some (.ok (.comment opening text closing, c')) := by
  obtain ⟨x, xs, hx⟩ := List.exists_cons_of_ne_nil hrest
  unfold piece at h
  rw [hx] at h
  dsimp only at h
  split at h
  · cases h
  · split at h
    · cases h
    · split at h
      · exact absurd h tokenPiece_ne_comment
      · split at h
        · rename_i r hr
          rw [hr, h]
        · split at h
          · exact absurd h tokenPiece_ne_comment
          · exact absurd h wordLike_ne_comment

/-- Where a comment starts, the generic dialect cuts one. -/
theorem piece_generic_of_comment? {r : Except LexError (Piece × Cursor)}
    (h : comment? .generic c = some r) : piece .generic previous c = r := by
  obtain ⟨rest, l⟩ := c
  have hopens : opensComment rest = true := by
    cases hopens : opensComment rest with
    | true => rfl
    | false =>
      rw [(comment?_eq_none_iff (.inl rfl)).2 hopens] at h
      cases h
  unfold opensComment at hopens
  split at hopens
  · unfold piece
    rw [h]
    rfl
  · unfold piece
    rw [h]
    rfl
  · cases hopens

end

end Lexer

/-- The comments start at the same place and say the same, blanks around apart. -/
structure Comment.Agrees (a b : Comment) : Prop where
  start_eq : a.region.start = b.region.start
  trim_eq : trim a.text = trim b.text

namespace Lexer

open Cursor

/-- Where a comment that is cut alike starts, the generic dialect cuts one that agrees. It ends at
the same place, or takes the line feed too. -/
theorem comment_of_alike {previous : Option Token} (previous' : Option Token) {k : Cut}
    {comment : Comment} (hrest : k.start.rest ≠ [])
    (h : piece .postgres previous k.start = .ok (k.piece, k.stop))
    (hcomment : k.comment? = some comment) (halike : k.alike = true) :
    ∃ p stop comment', piece .generic previous' k.start = .ok (p, stop) ∧ p.token? = none ∧
      Cut.comment? ⟨k.start, p, stop⟩ = some comment' ∧ comment.Agrees comment' ∧
      (stop = k.stop ∨ ∃ more, k.stop.rest = '\n' :: more ∧ stop = k.stop.advance 1) := by
  obtain ⟨start, p, stop⟩ := k
  cases p with
  | blank text => cases hcomment
  | token t => cases hcomment
  | comment opening text closing =>
    cases hcomment
    obtain ⟨text', stop', hgeneric, htrim, hstop⟩ :=
      comment?_generic (comment?_of_piece hrest h) halike
    exact ⟨_, stop', _, piece_generic_of_comment? hgeneric, rfl, rfl, ⟨rfl, htrim.symm⟩, hstop⟩

/-! ## A whole text -/

theorem token?_of_comment? {k : Cut} {comment : Comment} (h : k.comment? = some comment) :
    k.piece.token? = none := by
  unfold Cut.comment? at h
  split at h
  · rename_i heq
    rw [heq]
    rfl
  · cases h

theorem piece_of_line_feed (d : Dialect) (previous : Option Token) {c : Cursor} {more : List Char}
    (h : c.rest = '\n' :: more) : piece d previous c = .ok (.blank "\n", c.advance 1) := by
  unfold piece
  rw [h]
  rfl

/-- The generic dialect cuts a text of alike pieces to its end, and sees the same comments. -/
theorem exists_cuts_generic {previous previous' : Option Token} {c : Cursor} {ks : List Cut}
    (hword : isWord previous = isWord previous') (h : cuts .postgres previous c = .ok ks)
    (halike : ∀ k ∈ ks, k.alike = true) :
    ∃ own, cuts .generic previous' c = .ok own ∧
      List.Forall₂ Comment.Agrees (ks.filterMap Cut.comment?) (own.filterMap Cut.comment?) := by
  -- by the number of pieces: a line feed behind a comment may be a piece of only one dialect
  generalize hn : ks.length = n
  induction n using Nat.strongRecOn generalizing ks c previous previous' with
  | _ n ih =>
    cases ks with
    | nil =>
      exact ⟨[], cuts_of_rest_eq_nil (rest_eq_nil_of_cuts_nil h), .nil⟩
    | cons k ks =>
      obtain ⟨hrest, rfl, hpiece, hbehind⟩ := eq_of_cuts_cons h
      have hk := halike k List.mem_cons_self
      have hks : ∀ k ∈ ks, k.alike = true := fun k hk => halike k (List.mem_cons_of_mem _ hk)
      rw [List.length_cons] at hn
      cases hcomment : k.comment? with
      | none =>
        obtain ⟨last, hlast, more, hmore, hcuts⟩ := skips_of_alike hword hrest hpiece hcomment hk
        obtain ⟨own, hown, hagrees⟩ := ih ks.length (by omega) hlast.symm hbehind hks rfl
        refine ⟨more ++ own, hcuts own hown, ?_⟩
        rw [List.filterMap_cons_none hcomment, List.filterMap_append,
          List.filterMap_eq_nil_iff.2 hmore]
        exact hagrees
      | some comment =>
        obtain ⟨p, stop, comment', hgeneric, hp, hcomment', hagree, hstop⟩ :=
          comment_of_alike previous' hrest hpiece hcomment hk
        -- it is left to cut the text behind the comment
        suffices hrest' : ∃ own, cuts .generic p.token? stop = .ok own ∧
            List.Forall₂ Comment.Agrees (ks.filterMap Cut.comment?)
              (own.filterMap Cut.comment?) by
          obtain ⟨own, hown, hagrees⟩ := hrest'
          refine ⟨⟨k.start, p, stop⟩ :: own, ?_, ?_⟩
          · rw [cuts_of_piece hrest hgeneric, hown]
            rfl
          · rw [List.filterMap_cons_some hcomment, List.filterMap_cons_some hcomment']
            exact .cons hagree hagrees
        have htoken := token?_of_comment? hcomment
        rw [hp]
        rcases hstop with rfl | ⟨more, hmore, rfl⟩
        · exact ih ks.length (by omega) (by rw [htoken]) hbehind hks rfl
        · cases ks with
          | nil =>
            rw [rest_eq_nil_of_cuts_nil hbehind] at hmore
            cases hmore
          | cons feed ks =>
            obtain ⟨-, -, hfeed, hbehind'⟩ := eq_of_cuts_cons hbehind
            rw [piece_of_line_feed .postgres k.piece.token? hmore] at hfeed
            obtain ⟨hblank, hstop⟩ := Prod.mk.inj (Except.ok.inj hfeed)
            rw [← hblank, ← hstop] at hbehind'
            have hnone : feed.comment? = none := by
              unfold Cut.comment?
              rw [← hblank]
            rw [List.length_cons] at hn
            rw [List.filterMap_cons_none hnone]
            exact ih ks.length (by omega) rfl hbehind'
              (fun k hk => hks k (List.mem_cons_of_mem _ hk)) rfl

end Lexer

end ColumnLint.Sql
