import ColumnLint.Proofs.SharedPieces

/-
  Signs that two dialects pass. Where one dialect takes a run of signs for one operator, the generic
  one cuts it into several symbols. It passes over the run all the same (`skips_run`), because what it
  spells are signs, and cuts no comment on the way (`Skips`). `skips_signs` puts together the signs
  that a symbol or operator may start with.
-/

namespace ColumnLint.Sql

open ColumnLint.Text

namespace Lexer

open Cursor

variable {c c' : Cursor}

/-! ## Passing pieces that are no comments -/

/-- From the first cursor, behind `previous`, the generic dialect arrives at the second one, behind
`last`, and cuts no comment on the way. -/
def Skips (previous : Option Token) (c : Cursor) (last : Option Token) (c' : Cursor) : Prop :=
  ∃ more : List Cut, (∀ k ∈ more, k.comment? = none) ∧
    ∀ ks, cuts .generic last c' = .ok ks → cuts .generic previous c = .ok (more ++ ks)

theorem Skips.refl (previous : Option Token) (c : Cursor) : Skips previous c previous c :=
  ⟨[], by simp, fun _ h => h⟩

theorem Skips.trans {a b e : Option Token} {c₁ c₂ c₃ : Cursor} (h : Skips a c₁ b c₂)
    (h' : Skips b c₂ e c₃) : Skips a c₁ e c₃ := by
  obtain ⟨more, hmore, hcuts⟩ := h
  obtain ⟨more', hmore', hcuts'⟩ := h'
  refine ⟨more ++ more', fun k hk => ?_, fun ks hks => ?_⟩
  · exact (List.mem_append.1 hk).elim (hmore k) (hmore' k)
  · rw [List.append_assoc]
    exact hcuts _ (hcuts' ks hks)

theorem skips_of_piece {previous : Option Token} {p : Piece} (hrest : c.rest ≠ [])
    (h : piece .generic previous c = .ok (p, c')) (hp : Cut.comment? ⟨c, p, c'⟩ = none) :
    Skips previous c p.token? c' := by
  refine ⟨[⟨c, p, c'⟩], fun k hk => ?_, fun ks hks => ?_⟩
  · rw [List.mem_singleton.1 hk]
    exact hp
  · rw [cuts_of_piece hrest h, hks]
    rfl

/-! ## Signs -/

def Spelling.text : Spelling → String
  | closed _ s | extensible _ s | unfinished _ s => s

/-- The spelling is a symbol as it stands. -/
def Spelling.isFinished : Spelling → Bool
  | unfinished .. => false
  | _ => true

/-- Where users define no operators, a spelling is a symbol. -/
theorem symbolOf_generic {s : Spelling} (h : s.isFinished = true) (c : Cursor) :
    symbolOf .generic s c = .ok (.symbol s.text, c.advance s.length) := by
  cases s with
  | closed n text => rfl
  | extensible n text =>
    have hspan : (c.advance n).span Dialect.generic.continuesOperator = ([], c.advance n) :=
      spanFrom_of_head _ fun x _ => rfl
    unfold symbolOf
    dsimp only
    rw [hspan]
    rfl
  | unfinished n text => cases h

section

variable {previous : Option Token} {x : Char} {xs : List Char} {l : Location}

/-- A character that starts no blank and no literal of a dialect, and no comment with the text
behind it. -/
structure StartsSymbol (d : Dialect) (previous : Option Token) (x : Char) (xs : List Char)
    (l : Location) : Prop where
  not_space : isSpace x = false
  not_return : (x == '\r') = false
  no_literal : literalLike? d previous x ⟨x :: xs, l⟩ = none
  no_comment : opensComment (x :: xs) = false

theorem StartsSymbol.piece_eq {d : Dialect} (hd : d = .generic ∨ d = .postgres)
    (h : StartsSymbol d previous x xs l) :
    piece d previous ⟨x :: xs, l⟩ =
      match spelling d (x :: xs) with
      | some s => tokenPiece (symbolOf d s ⟨x :: xs, l⟩)
      | none => wordLike d x xs ⟨x :: xs, l⟩ := by
  have hspace := h.not_space
  unfold isSpace at hspace
  have hcomment := (comment?_eq_none_iff (c := ⟨x :: xs, l⟩) hd).2 h.no_comment
  unfold piece
  dsimp only
  rw [hspace, h.not_return, h.no_literal, hcomment]
  cases spelling d (x :: xs) <;> rfl

theorem StartsSymbol.generic (h : StartsSymbol .postgres previous x xs l)
    (hraw : (x == 'r' || x == 'R') = false) (hquote : (x == '\x60') = false)
    (previous' : Option Token) : StartsSymbol .generic previous' x xs l where
  not_space := h.not_space
  not_return := h.not_return
  no_literal := literalLike?_generic_eq_none h.no_literal hraw hquote
  no_comment := h.no_comment

theorem StartsSymbol.skips {s : Spelling} (h : StartsSymbol .generic previous x xs l)
    (hs : spelling .generic (x :: xs) = some s) (hfinished : s.isFinished = true) :
    Skips previous ⟨x :: xs, l⟩ (some (.symbol s.text)) (advance ⟨x :: xs, l⟩ s.length) := by
  refine skips_of_piece (p := .token (.symbol s.text)) (List.cons_ne_nil x xs) ?_ rfl
  rw [h.piece_eq (.inl rfl), hs]
  dsimp only
  rw [symbolOf_generic hfinished]
  rfl

/-- What a check finds of every plain sign is so. -/
theorem of_isPlainSign {p : Char → Bool} (hall : "+-*/<>=~!%^&|".toList.all p = true)
    (hx : isPlainSign x = true) : p x = true :=
  List.all_eq_true.1 hall x (List.contains_iff_mem.1 hx)

theorem startsSymbol_of_sign (hx : isSign x = true) (hquote : x ≠ '\x60')
    (hcomment : opensComment (x :: xs) = false) : StartsSymbol .generic previous x xs l := by
  simp only [isSign, isPlainSign] at hx
  simp at hx
  rcases hx with (rfl | rfl | rfl | rfl | rfl | rfl | rfl | rfl | rfl | rfl | rfl | rfl | rfl) |
    rfl | rfl | rfl | rfl
  all_goals first | exact ⟨rfl, rfl, rfl, hcomment⟩ | exact absurd rfl hquote

/-- Signs spell symbols, but for three of them in a dialect that has words with them, or that knows
no operators with them. -/
theorem of_spelling_eq_none {d : Dialect} {cs : List Char} (hs : spelling d cs = none)
    (hx : (cs.head?.map fun x => isPlainSign x || "#@?".toList.contains x).getD false = true) :
    (cs.head?.map isPlainSign).getD false = false ∧
      (d.geometry = false ∨ d.startsWord '#' = true ∨ d.startsWord '@' = true) := by
  unfold spelling at hs
  dsimp only at hs
  split at hs <;> repeat' split at hs
  any_goals
    cases hs <;> refine ⟨rfl, ?_⟩ <;> simp_all
  -- no first character that has a spelling is left
  cases cs with
  | nil => cases hx
  | cons x xs =>
    simp [isPlainSign] at hx
    exfalso
    rcases hx with (rfl | rfl | rfl | rfl | rfl | rfl | rfl | rfl | rfl | rfl | rfl | rfl | rfl) |
      rfl | rfl | rfl
    all_goals solve_by_elim

theorem exists_spelling_of_sign {cs : List Char}
    (hx : (cs.head?.map isPlainSign).getD false = true) : ∃ s, spelling .generic cs = some s := by
  refine Option.ne_none_iff_exists'.1 fun hs => ?_
  cases cs with
  | nil => cases hx
  | cons x xs =>
    have hsign : isPlainSign x = true := hx
    rw [(of_spelling_eq_none hs (by simp [hsign])).1] at hx
    cases hx

/-- What a plain sign spells are signs. -/
theorem spelling_generic_of_sign {cs : List Char} {s : Spelling}
    (hx : (cs.head?.map isPlainSign).getD false = true) (hs : spelling .generic cs = some s) :
    s.isFinished = true ∧ s.length ≤ cs.length ∧ (cs.take s.length).all isSign = true := by
  unfold spelling at hs
  simp only [show Dialect.generic.geometry = false from rfl, Bool.false_eq_true, if_false,
    Bool.false_and] at hs
  split at hs <;> repeat' split at hs
  all_goals
    cases hs <;> cases hx <;> exact ⟨rfl, by simp [Spelling.length], rfl⟩

theorem not_space_of_isSign (hx : isSign x = true) : isSpace x = false := by
  rcases Bool.or_eq_true_iff.1 hx with hplain | hother
  · simpa using of_isPlainSign (p := fun x => !isSpace x) (by decide) hplain
  · simp at hother
    rcases hother with rfl | rfl | rfl | rfl
    all_goals rfl

/-- What is left of a run of signs behind some of them is a run. -/
theorem isSignRun_of_append {behind u front rest : List Char} (hu : isSignRun behind u = true)
    (h : u ++ behind = front ++ rest) (hfront : front.all isSign = true) :
    ∃ u', u = front ++ u' ∧ rest = u' ++ behind ∧ isSignRun behind u' = true := by
  induction front generalizing u with
  | nil => exact ⟨u, rfl, h.symm, hu⟩
  | cons y front ih =>
    rw [List.all_cons, Bool.and_eq_true] at hfront
    cases u with
    | nil =>
      rw [List.nil_append] at h
      simp [isSignRun, h, hfront.1] at hu
    | cons x xs =>
      obtain ⟨rfl, htail⟩ := List.cons.inj h
      unfold isSignRun at hu
      rw [not_space_of_isSign hfront.1] at hu
      simp only [Bool.false_eq_true, if_false, Bool.and_eq_true] at hu
      obtain ⟨u', rfl, hrest, hu'⟩ := ih hu.2 htail hfront.2
      exact ⟨u', rfl, hrest, hu'⟩

/-- The generic dialect passes a run of signs. -/
theorem skips_run {behind u : List Char} (hu : isSignRun behind u = true)
    (hne : u ≠ [] ∨ isWord previous = false) :
    ∃ last, isWord last = false ∧ Skips previous ⟨u ++ behind, l⟩ last ⟨behind, l.past u⟩ := by
  generalize hn : u.length = n
  induction n using Nat.strongRecOn generalizing u previous l with
  | _ n ih =>
    cases u with
    | nil => exact ⟨previous, hne.resolve_left fun h => h rfl, .refl _ _⟩
    | cons x xs =>
      by_cases hspace : isSpace x = true
      · unfold isSignRun at hu
        rw [if_pos hspace, List.isEmpty_iff] at hu
        subst hu
        refine ⟨none, rfl, ?_⟩
        refine skips_of_piece (p := .blank x.toString) (List.cons_ne_nil x _) ?_ rfl
        unfold piece
        exact if_pos hspace
      · have hrun := hu
        unfold isSignRun at hrun
        rw [if_neg hspace] at hrun
        simp only [Bool.and_eq_true, Bool.not_eq_true'] at hrun
        obtain ⟨⟨hsign, hcomment⟩, -⟩ := hrun
        have hquote : x ≠ '\x60' := by
          rintro rfl
          cases hsign
        have hstarts : StartsSymbol .generic previous x (xs ++ behind) l :=
          startsSymbol_of_sign (by simp [isSign, hsign]) hquote hcomment
        have hhead : ((x :: (xs ++ behind)).head?.map isPlainSign).getD false = true := hsign
        obtain ⟨s, hs⟩ := exists_spelling_of_sign hhead
        obtain ⟨hfinished, hlength, hall⟩ := spelling_generic_of_sign hhead hs
        have hpos := length_spelling_pos hs
        have hfirst := hstarts.skips hs hfinished
        obtain ⟨front, rest, hcut, hfront⟩ : ∃ front rest,
            x :: (xs ++ behind) = front ++ rest ∧ front.length = s.length :=
          ⟨_, _, (List.take_append_drop s.length _).symm, List.length_take_of_le hlength⟩
        rw [hcut, List.take_left' hfront] at hall
        rw [hcut, ← hfront, advance_append] at hfirst
        obtain ⟨u', hu', rfl, hrun'⟩ := isSignRun_of_append hu hcut hall
        have hshorter : u'.length < n := by
          rw [← hn, hu', List.length_append]
          omega
        obtain ⟨last, hlast, hrest⟩ : ∃ last, isWord last = false ∧
            Skips (some (.symbol s.text)) ⟨u' ++ behind, l.past front⟩ last
              ⟨behind, (l.past front).past u'⟩ := ih _ hshorter hrun' (.inr rfl) rfl
        refine ⟨last, hlast, ?_⟩
        rw [hu', List.append_assoc, Location.past_append]
        exact hfirst.trans hrest

/-- Other signs are spelled alike. -/
theorem spelling_generic_eq {cs : List Char}
    (hx : (cs.head?.map fun x => "-%|<>&~/#@?".toList.contains x).getD false = false) :
    spelling .generic cs = spelling .postgres cs := by
  unfold spelling
  dsimp only
  split
  all_goals first | rfl | cases hx

theorem closed_of_spelling {cs : List Char} {s : Spelling}
    (hx : (cs.head?.map fun x => "-%|<>&~/#@?".toList.contains x).getD false = false)
    (hs : spelling .postgres cs = some s) : s = .closed s.length s.text := by
  unfold spelling at hs
  dsimp only at hs
  split at hs <;> repeat' split at hs
  all_goals
    cases hs <;> first | rfl | cases hx

variable {behind : List Char}

/-- Behind a symbol, the generic dialect passes a run of signs. -/
theorem Skips.run {c : Cursor} {text : String} {u : List Char}
    (h : Skips previous c (some (.symbol text)) ⟨u ++ behind, l⟩) (hu : isSignRun behind u = true) :
    ∃ last, isWord last = false ∧ Skips previous c last ⟨behind, l.past u⟩ := by
  obtain ⟨last, hlast, hrun⟩ : ∃ last, isWord last = false ∧
      Skips (some (.symbol text)) ⟨u ++ behind, l⟩ last ⟨behind, l.past u⟩ := skips_run hu (.inr rfl)
  exact ⟨last, hlast, h.trans hrun⟩

theorem skips_hash (h : StartsSymbol .generic previous '#' (xs ++ behind) l)
    (halike : hashAlike behind xs = true) :
    ∃ last, isWord last = false ∧
      Skips previous ⟨'#' :: (xs ++ behind), l⟩ last ⟨behind, l.past ('#' :: xs)⟩ := by
  cases xs with
  | nil =>
    cases behind with
    | nil => exact ⟨_, rfl, h.skips (s := .extensible 1 "#") rfl rfl⟩
    | cons y ys =>
      obtain rfl : y = ' ' := by simpa [hashAlike] using halike
      exact ⟨_, rfl, h.skips (s := .closed 1 "#") rfl rfl⟩
  | cons x xs =>
    simp only [hashAlike, Bool.and_eq_true, Bool.or_eq_true, beq_iff_eq] at halike
    obtain ⟨rfl | rfl, hrun⟩ := halike
    · exact (h.skips (s := .extensible 2 "#-") rfl rfl).run hrun
    · by_cases hmore : ∃ tail, xs ++ behind = '>' :: tail
      · obtain ⟨tail, htail⟩ := hmore
        have hcut : xs ++ behind = ['>'] ++ tail := htail
        obtain ⟨u, rfl, rfl, hrun⟩ := isSignRun_of_append hrun hcut rfl
        exact (h.skips (s := .extensible 3 "#>>") rfl rfl).run hrun
      · have hs : spelling .generic ('#' :: '>' :: (xs ++ behind)) = some (.extensible 2 "#>") := by
          generalize xs ++ behind = rest at hmore
          cases rest with
          | nil => rfl
          | cons y ys =>
            have hy : y ≠ '>' := fun hy => hmore ⟨ys, by rw [hy]⟩
            simp [spelling, hy]
        exact (h.skips hs rfl).run hrun

theorem skips_at (h : StartsSymbol .generic previous '@' (xs ++ behind) l)
    (halike : atAlike behind xs = true) :
    ∃ last, isWord last = false ∧
      Skips previous ⟨'@' :: (xs ++ behind), l⟩ last ⟨behind, l.past ('@' :: xs)⟩ := by
  unfold atAlike at halike
  split at halike
  · cases behind with
    | nil => exact ⟨_, rfl, h.skips (s := .closed 1 "@") rfl rfl⟩
    | cons y ys =>
      simp at halike
      rcases halike with rfl | rfl | rfl | rfl
      all_goals exact ⟨_, rfl, h.skips (s := .closed 1 "@") rfl rfl⟩
  · cases behind with
    | nil => exact ⟨_, rfl, h.skips (s := .closed 2 "@@") rfl rfl⟩
    | cons y ys =>
      obtain rfl : y = ' ' := by simpa using halike
      exact ⟨_, rfl, h.skips (s := .closed 2 "@@") rfl rfl⟩
  · simp only [Bool.or_eq_true, beq_iff_eq] at halike
    rcases halike with rfl | rfl
    · exact ⟨_, rfl, h.skips (s := .closed 2 "@>") rfl rfl⟩
    · exact ⟨_, rfl, h.skips (s := .closed 2 "@?") rfl rfl⟩

theorem skips_question (h : StartsSymbol .generic previous '?' (xs ++ behind) l) (hxs : xs ≠ [])
    (hrun : isSignRun behind xs = true) :
    ∃ last, isWord last = false ∧
      Skips previous ⟨'?' :: (xs ++ behind), l⟩ last ⟨behind, l.past ('?' :: xs)⟩ := by
  obtain ⟨x, xs, rfl⟩ := List.exists_cons_of_ne_nil hxs
  have hnumeric : ∀ y, (x :: xs ++ behind).head? = some y → isNumeric y = false := by
    rintro y ⟨⟩
    unfold isSignRun at hrun
    split at hrun
    · rename_i hspace
      simp [isSpace] at hspace
      rcases hspace with (rfl | rfl) | rfl
      all_goals decide
    · simp only [Bool.and_eq_true] at hrun
      simpa using of_isPlainSign (p := fun y => !isNumeric y) (by decide) hrun.1.1
  have hpiece : piece .generic previous ⟨'?' :: (x :: xs ++ behind), l⟩ =
      .ok (.token (.placeholder "?"), ⟨x :: xs ++ behind, l.after '?'⟩) := by
    rw [h.piece_eq (.inl rfl)]
    have hspan : spanFrom isNumeric (x :: xs ++ behind) (l.after '?') =
        ([], ⟨x :: xs ++ behind, l.after '?'⟩) := spanFrom_of_head _ hnumeric
    change tokenPiece (.ok (.placeholder (String.ofList
      ('?' :: (spanFrom isNumeric (x :: xs ++ behind) (l.after '?')).1)),
      (spanFrom isNumeric (x :: xs ++ behind) (l.after '?')).2)) = _
    rw [hspan]
    rfl
  have hfirst := skips_of_piece (List.cons_ne_nil '?' _) hpiece rfl
  obtain ⟨last, hlast, hskips⟩ := skips_run hrun (.inl hxs)
  exact ⟨last, hlast, hfirst.trans hskips⟩

theorem skips_slash (h : StartsSymbol .generic previous '/' behind l) (hbehind : behind.head? ≠ some '/') :
    Skips previous ⟨'/' :: behind, l⟩ (some (.symbol "/")) ⟨behind, l.after '/'⟩ := by
  have hs : spelling .generic ('/' :: behind) = some (.closed 1 "/") := by
    cases behind with
    | nil => rfl
    | cons y ys =>
      have hy : y ≠ '/' := fun hy => hbehind (by rw [hy]; rfl)
      simp [spelling, hy]
  exact h.skips hs rfl

/-- A symbol that both dialects spell and that nothing may extend. -/
theorem skips_closed {s : Spelling} {t : Token} {c' : Cursor} (h : StartsSymbol .generic previous x xs l)
    (hx : ((x :: xs).head?.map fun x => "-%|<>&~/#@?".toList.contains x).getD false = false)
    (hs : spelling .postgres (x :: xs) = some s)
    (hsymbol : symbolOf .postgres s ⟨x :: xs, l⟩ = .ok (t, c')) :
    ∃ last, isWord last = false ∧ Skips previous ⟨x :: xs, l⟩ last c' := by
  have hspelling : spelling .generic (x :: xs) = some s := (spelling_generic_eq hx).trans hs
  have hclosed : s = .closed s.length s.text := closed_of_spelling hx hs
  rw [hclosed] at hsymbol
  cases hsymbol
  exact ⟨_, rfl, h.skips hspelling (by rw [hclosed]; rfl)⟩

/-- The generic dialect passes the signs of a symbol or operator that are cut alike. -/
theorem skips_signs {s : Spelling} {t : Token} (h : StartsSymbol .generic previous x (xs ++ behind) l)
    (halike : signsAlike behind (x :: xs) = true)
    (hs : spelling .postgres (x :: (xs ++ behind)) = some s)
    (hsymbol : symbolOf .postgres s ⟨x :: (xs ++ behind), l⟩ =
      .ok (t, ⟨behind, l.past (x :: xs)⟩)) :
    ∃ last, isWord last = false ∧
      Skips previous ⟨x :: (xs ++ behind), l⟩ last ⟨behind, l.past (x :: xs)⟩ := by
  unfold signsAlike at halike
  split at halike
  · cases halike
  · rename_i heq
    cases heq
    simp only [Bool.and_eq_true, List.isEmpty_iff, bne_iff_ne] at halike
    obtain ⟨rfl, hbehind⟩ := halike
    exact ⟨_, rfl, skips_slash h hbehind⟩
  · rename_i heq
    cases heq
    exact skips_hash h halike
  · rename_i heq
    cases heq
    exact skips_at h halike
  · rename_i heq
    cases heq
    simp only [Bool.and_eq_true, Bool.not_eq_true', List.isEmpty_eq_false_iff] at halike
    exact skips_question h halike.1 halike.2
  · cases halike
  · rename_i heq
    cases heq
    exact (h.skips (s := .extensible 2 "<@") rfl rfl).run halike
  · rename_i hslash hhash hat hquestion _ _ heq
    cases heq
    split at halike
    · exact skips_run halike (.inl (List.cons_ne_nil x xs))
    · rename_i hsign
      refine skips_closed h ?_ hs hsymbol
      simp at hsign
      have hother : ¬x = '/' ∧ ¬x = '#' ∧ ¬x = '@' ∧ ¬x = '?' := ⟨hslash, hhash, hat, hquestion⟩
      simpa [hsign] using hother

/-- Every sign that the dialects treat apart spells a symbol in one of them. -/
theorem spelling_generic_eq_none {cs : List Char} (hs : spelling .postgres cs = none) :
    spelling .generic cs = none := by
  rw [spelling_generic_eq, hs]
  cases hx : (cs.head?.map fun x => "-%|<>&~/#@?".toList.contains x).getD false with
  | false => rfl
  | true =>
    have hsign : (cs.head?.map fun x => isPlainSign x || "#@?".toList.contains x).getD false = true := by
      cases cs with
      | nil => cases hx
      | cons x xs =>
        simp at hx
        rcases hx with rfl | rfl | rfl | rfl | rfl | rfl | rfl | rfl | rfl | rfl | rfl
        all_goals rfl
    rcases (of_spelling_eq_none hs hsign).2 with h | h | h
    all_goals cases h

end

end Lexer

end ColumnLint.Sql
