import ColumnLint.Proofs.RuleReference
import ColumnLint.Sql.Parse

/-
  Locations in messages. A report of a failure takes its place from the text of its message, which
  ends with the location of the failure but may quote any token in front of it. The search finds the
  location that is written first (`findLocation?_eq_some_iff`) and looks at no other one, whatever its
  numbers are (`first_location_gives_place`). So the report has the place of the failure exactly when
  no other location is written before it (`position_of_located_failure_iff`).
-/

namespace ColumnLint

open Text Sql

namespace Text

/-! ## Locations as they are written -/

/-- Nothing but blanks. -/
def AllBlank (cs : List Char) : Prop := ∀ c ∈ cs, isBlank c = true

/-- Decimal digits, at least one. -/
def IsNumeral (cs : List Char) : Prop := cs ≠ [] ∧ ∀ c ∈ cs, isDecimal c = true

/-- The text goes on with something else than a decimal digit. -/
def EndsNumeral (rest : List Char) : Prop := ∀ c ∈ rest.head?, isDecimal c = false

/-- A location as messages write it, with the digits of its line and of its column. Blanks may stand
around the comma and the numbers. -/
def WritesLocation (line column written : List Char) : Prop :=
  IsNumeral line ∧ IsNumeral column ∧
    ∃ a b c d, AllBlank a ∧ AllBlank b ∧ AllBlank c ∧ AllBlank d ∧
      written = "Line:".toList ++ (a ++ (line ++ (b ++ ([','] ++ (c ++
        ("Column:".toList ++ (d ++ column)))))))

/-- A location is written somewhere in a text. -/
def HoldsLocation (text : List Char) : Prop :=
  ∃ before written behind line column, text = before ++ (written ++ behind) ∧
    WritesLocation line column written

/-- The location that is written first in a text, its column with all digits that follow. -/
def FirstLocation (text line column : List Char) : Prop :=
  ∃ before written behind, text = before ++ (written ++ behind) ∧
    WritesLocation line column written ∧ EndsNumeral behind ∧
    ∀ before' written' behind' line' column', text = before' ++ (written' ++ behind') →
      WritesLocation line' column' written' → before.length ≤ before'.length

/-- Digits of ASCII write a number. -/
def Reads (digits : List Char) (n : Nat) : Prop :=
  digits.all Char.isDigit = true ∧ numberOf digits = n

/-- The digits of a line and of a column write the numbers of a place, and both fit 64 bits. -/
structure Gives (line column : List Char) (place : Location) : Prop where
  line : Reads line place.line ∧ place.line < Nat.pow 2 64
  column : Reads column place.column ∧ place.column < Nat.pow 2 64

/-- Decimal digits that write no number of 64 bits: one of them is not ASCII, or the number is too
large. -/
def Unfit (digits : List Char) : Prop :=
  (∃ c ∈ digits, c.isDigit = false) ∨ Nat.pow 2 64 ≤ numberOf digits

/-! ## Blanks and digits -/

theorem inRanges_eq_false {table other : List (Nat × Nat)} {c : Char}
    (hapart : (table.all fun r => other.all fun s => decide (r.2 < s.1) || decide (s.2 < r.1)) = true)
    (h : inRanges table c = true) : inRanges other c = false := by
  unfold inRanges at h ⊢
  obtain ⟨r, hr, hc⟩ := List.any_eq_true.1 h
  rw [List.any_eq_false]
  intro s hs hs'
  have hrs := List.all_eq_true.1 (List.all_eq_true.1 hapart r hr) s hs
  simp only [Bool.or_eq_true, Bool.and_eq_true, decide_eq_true_eq] at hrs hc hs'
  omega

theorem toNat_of_isDigit {c : Char} (h : c.isDigit = true) : 48 ≤ c.toNat ∧ c.toNat ≤ 57 := by
  obtain ⟨hlow, hhigh⟩ := Bool.and_eq_true_iff.1 h
  exact ⟨UInt32.le_iff_toNat_le.1 (of_decide_eq_true hlow),
    UInt32.le_iff_toNat_le.1 (of_decide_eq_true hhigh)⟩

theorem isBlank_of_isDecimal {c : Char} (h : isDecimal c = true) : isBlank c = false := by
  unfold isDecimal at h
  unfold isBlank
  split at h
  · have hrange : inRanges [(48, 57)] c = true := by
      simp [inRanges, toNat_of_isDigit h]
    exact inRanges_eq_false (by decide) hrange
  · exact inRanges_eq_false (by decide) h

theorem isDecimal_of_isBlank {c : Char} (h : isBlank c = true) : isDecimal c = false := by
  rw [Bool.eq_false_iff]
  intro hdecimal
  rw [isBlank_of_isDecimal hdecimal] at h
  cases h

theorem isDecimal_of_isDigit {c : Char} (h : c.isDigit = true) : isDecimal c = true := by
  have hdigit := toNat_of_isDigit h
  unfold isDecimal
  rw [if_pos (by omega)]
  exact h

theorem dropWhile_blanks {blanks rest : List Char} (hblanks : AllBlank blanks)
    (hrest : ∀ c ∈ rest.head?, isBlank c = false) : (blanks ++ rest).dropWhile isBlank = rest := by
  rw [List.dropWhile_append_of_pos hblanks]
  cases rest with
  | nil => rfl
  | cons c rest => exact List.dropWhile_cons_of_neg (by simp [hrest c rfl])

theorem exists_blanks_append {cs rest : List Char} (h : cs.dropWhile isBlank = rest) :
    ∃ blanks, AllBlank blanks ∧ cs = blanks ++ rest := by
  refine ⟨cs.takeWhile isBlank, fun c hc => List.mem_takeWhile_imp hc, ?_⟩
  rw [← h, List.takeWhile_append_dropWhile]

theorem head?_numeral {digits rest : List Char} (h : IsNumeral digits) :
    ∀ c ∈ (digits ++ rest).head?, isBlank c = false := by
  intro c hc
  cases digits with
  | nil => exact absurd rfl h.1
  | cons d digits =>
    obtain rfl : d = c := by simpa using hc
    exact isBlank_of_isDecimal (h.2 d List.mem_cons_self)

theorem endsNumeral_dropWhile (cs : List Char) : EndsNumeral (cs.dropWhile isDecimal) := by
  intro c hc
  have hnot := List.head?_dropWhile_not isDecimal cs
  rw [Option.mem_def.1 hc] at hnot
  exact hnot

theorem endsNumeral_nil : EndsNumeral [] := fun _ hc => absurd hc (Option.not_mem_none _)

theorem EndsNumeral.append {behind rest : List Char} (h : EndsNumeral behind)
    (hrest : EndsNumeral rest) : EndsNumeral (behind ++ rest) := by
  cases behind with
  | nil => exact hrest
  | cons x behind => exact h

/-! ## What the readers find -/

theorem afterFront?_eq_some_iff {front cs rest : List Char} :
    afterFront? front cs = some rest ↔ cs = front ++ rest := by
  induction front generalizing cs with
  | nil => simp [afterFront?]
  | cons p front ih =>
    cases cs with
    | nil => simp [afterFront?]
    | cons c cs =>
      unfold afterFront?
      by_cases hpc : p = c
      · simp [hpc, ih]
      · simp [hpc, Ne.symm hpc]

theorem digitRun?_eq_some_iff {cs digits rest : List Char} :
    digitRun? cs = some (digits, rest) ↔
      cs = digits ++ rest ∧ IsNumeral digits ∧ EndsNumeral rest := by
  unfold digitRun?
  dsimp only
  constructor
  · intro h
    split at h
    · cases h
    · rename_i hsome
      cases h
      exact ⟨List.takeWhile_append_dropWhile.symm,
        ⟨by simpa using hsome, fun c hc => List.mem_takeWhile_imp hc⟩, endsNumeral_dropWhile cs⟩
  · rintro ⟨rfl, ⟨hsome, hdigits⟩, hrest⟩
    have htake : (digits ++ rest).takeWhile isDecimal = digits := by
      rw [List.takeWhile_append_of_pos hdigits]
      cases rest with
      | nil => simp
      | cons c rest => simp [hrest c rfl]
    have hdrop : (digits ++ rest).dropWhile isDecimal = rest := by
      rw [List.dropWhile_append_of_pos hdigits]
      cases rest with
      | nil => rfl
      | cons c rest => exact List.dropWhile_cons_of_neg (by simp [hrest c rfl])
    rw [htake, hdrop, if_neg (by simpa using hsome)]

/-- A location is read at the front of a text exactly if one is written there; its column has all
digits that follow. -/
theorem writtenLocation?_eq_some_iff {cs line column : List Char} :
    writtenLocation? cs = some (line, column) ↔
      ∃ written behind, cs = written ++ behind ∧ WritesLocation line column written ∧
        EndsNumeral behind := by
  constructor
  · intro h
    unfold writtenLocation? at h
    obtain ⟨cs₁, h₁, h⟩ := Option.bind_eq_some_iff.1 h
    obtain ⟨⟨line', cs₂⟩, h₂, h⟩ := Option.bind_eq_some_iff.1 h
    obtain ⟨cs₃, h₃, h⟩ := Option.bind_eq_some_iff.1 h
    obtain ⟨cs₄, h₄, h⟩ := Option.bind_eq_some_iff.1 h
    obtain ⟨⟨column', behind⟩, h₅, h⟩ := Option.bind_eq_some_iff.1 h
    obtain ⟨rfl, rfl⟩ : line' = line ∧ column' = column := by simpa using h
    rw [afterFront?_eq_some_iff] at h₁ h₃ h₄
    obtain ⟨hline, hnumeral, -⟩ := digitRun?_eq_some_iff.1 h₂
    obtain ⟨hcolumn, hnumeral', hends⟩ := digitRun?_eq_some_iff.1 h₅
    obtain ⟨a, ha, rfl⟩ := exists_blanks_append hline
    obtain ⟨b, hb, rfl⟩ := exists_blanks_append h₃
    obtain ⟨c, hc, rfl⟩ := exists_blanks_append h₄
    obtain ⟨d, hd, rfl⟩ := exists_blanks_append hcolumn
    refine ⟨_, behind, ?_, ⟨hnumeral, hnumeral', a, b, c, d, ha, hb, hc, hd, rfl⟩, hends⟩
    rw [h₁]
    simp only [List.append_assoc]
  · rintro ⟨written, behind, rfl, ⟨hline, hcolumn, a, b, c, d, ha, hb, hc, hd, rfl⟩, hends⟩
    have hcomma : EndsNumeral (b ++ ([','] ++ (c ++ ("Column:".toList ++ (d ++ (column ++ behind)))))) := by
      intro x hx
      cases b with
      | nil =>
        obtain rfl : ',' = x := by simpa using hx
        decide
      | cons y b =>
        obtain rfl : y = x := by simpa using hx
        exact isDecimal_of_isBlank (hb y List.mem_cons_self)
    unfold writtenLocation?
    simp only [List.append_assoc]
    rw [afterFront?_eq_some_iff.2 rfl]
    simp only [Option.bind_eq_bind, Option.bind_some]
    rw [dropWhile_blanks ha (head?_numeral hline), digitRun?_eq_some_iff.2 ⟨rfl, hline, hcomma⟩]
    simp only [Option.bind_some]
    rw [dropWhile_blanks hb (by simp; decide), afterFront?_eq_some_iff.2 rfl]
    simp only [Option.bind_some]
    rw [dropWhile_blanks hc (by simp; decide), afterFront?_eq_some_iff.2 rfl]
    simp only [Option.bind_some]
    rw [dropWhile_blanks hd (head?_numeral hcolumn), digitRun?_eq_some_iff.2 ⟨rfl, hcolumn, hends⟩]
    rfl

theorem WritesLocation.ne_nil {line column written : List Char}
    (h : WritesLocation line column written) : written ≠ [] := by
  obtain ⟨-, -, a, b, c, d, -, -, -, -, rfl⟩ := h
  simp

theorem WritesLocation.exists_writtenLocation? {line column written : List Char}
    (h : WritesLocation line column written) (behind : List Char) :
    ∃ found, writtenLocation? (written ++ behind) = some found := by
  obtain ⟨hline, ⟨hsome, hdigits⟩, a, b, c, d, ha, hb, hc, hd, rfl⟩ := h
  have hcolumn : IsNumeral (column ++ behind.takeWhile isDecimal) := by
    refine ⟨by simp [hsome], fun x hx => ?_⟩
    rcases List.mem_append.1 hx with hx | hx
    · exact hdigits x hx
    · exact List.mem_takeWhile_imp hx
  refine ⟨(line, _), writtenLocation?_eq_some_iff.2 ⟨_, _, ?_,
    ⟨hline, hcolumn, a, b, c, d, ha, hb, hc, hd, rfl⟩, endsNumeral_dropWhile behind⟩⟩
  simp only [List.append_assoc, List.takeWhile_append_dropWhile]

/-! ## The first location -/

theorem findLocation?_of_front {x : Char} {cs : List Char} {found : List Char × List Char}
    (h : writtenLocation? (x :: cs) = some found) : findLocation? (x :: cs) = some found := by
  unfold findLocation?
  rw [h]

theorem findLocation?_of_not_front {x : Char} {cs : List Char}
    (h : writtenLocation? (x :: cs) = none) : findLocation? (x :: cs) = findLocation? cs := by
  conv => lhs; unfold findLocation?
  rw [h]

theorem findLocation?_eq_some_iff {text line column : List Char} :
    findLocation? text = some (line, column) ↔ FirstLocation text line column := by
  induction text with
  | nil =>
    constructor
    · intro h
      cases h
    · rintro ⟨before, written, behind, htext, hwrites, -, -⟩
      have hwritten : written = [] := by simp_all
      exact absurd hwritten hwrites.ne_nil
  | cons x cs ih =>
    cases hfront : writtenLocation? (x :: cs) with
    | some found =>
      rw [findLocation?_of_front hfront]
      obtain ⟨written', behind', htext', hwrites', hends'⟩ :=
        writtenLocation?_eq_some_iff.1 hfront
      constructor
      · intro h
        cases h
        exact ⟨[], written', behind', htext', hwrites', hends', fun _ _ _ _ _ _ _ => Nat.zero_le _⟩
      · rintro ⟨before, written, behind, htext, hwrites, hends, hfirst⟩
        have hlength := hfirst [] written' behind' _ _ htext' hwrites'
        obtain rfl : before = [] := List.eq_nil_of_length_eq_zero (Nat.le_zero.1 hlength)
        rw [← hfront, writtenLocation?_eq_some_iff.2 ⟨written, behind, htext, hwrites, hends⟩]
    | none =>
      rw [findLocation?_of_not_front hfront, ih]
      -- none is written at the front, so each location of the text is one of what follows
      have hlater : ∀ {before written behind line column : List Char},
          x :: cs = before ++ (written ++ behind) → WritesLocation line column written →
          ∃ before', before = x :: before' ∧ cs = before' ++ (written ++ behind) := by
        intro before written behind line column htext hwrites
        cases before with
        | nil =>
          obtain ⟨found, hfound⟩ := hwrites.exists_writtenLocation? behind
          rw [htext, List.nil_append, hfound] at hfront
          cases hfront
        | cons y before =>
          obtain ⟨rfl, hcs⟩ := List.cons.inj htext
          exact ⟨before, rfl, hcs⟩
      constructor
      · rintro ⟨before, written, behind, rfl, hwrites, hends, hfirst⟩
        refine ⟨x :: before, written, behind, rfl, hwrites, hends, ?_⟩
        intro before' written' behind' line' column' htext' hwrites'
        obtain ⟨rest, rfl, hrest⟩ := hlater htext' hwrites'
        exact Nat.succ_le_succ (hfirst rest written' behind' line' column' hrest hwrites')
      · rintro ⟨before, written, behind, htext, hwrites, hends, hfirst⟩
        obtain ⟨before, rfl, rfl⟩ := hlater htext hwrites
        refine ⟨before, written, behind, rfl, hwrites, hends, ?_⟩
        intro before' written' behind' line' column' htext' hwrites'
        exact Nat.le_of_succ_le_succ (hfirst (x :: before') written' behind' line' column'
          (congrArg (x :: ·) htext') hwrites')

theorem exists_findLocation? {text : List Char} (h : HoldsLocation text) :
    ∃ found, findLocation? text = some found := by
  obtain ⟨before, written, behind, line, column, rfl, hwrites⟩ := h
  induction before with
  | nil =>
    obtain ⟨found, hfound⟩ := hwrites.exists_writtenLocation? behind
    obtain ⟨x, cs, hcs⟩ := List.exists_cons_of_ne_nil hwrites.ne_nil
    refine ⟨found, ?_⟩
    rw [hcs, List.cons_append] at hfound
    rw [hcs, List.nil_append, List.cons_append]
    exact findLocation?_of_front hfound
  | cons x before ih =>
    rw [List.cons_append]
    cases hfront : writtenLocation? (x :: (before ++ (written ++ behind))) with
    | some found => exact ⟨found, findLocation?_of_front hfront⟩
    | none =>
      rw [findLocation?_of_not_front hfront]
      exact ih

theorem findLocation?_eq_none_iff {text : List Char} :
    findLocation? text = none ↔ ¬HoldsLocation text := by
  constructor
  · intro h hholds
    obtain ⟨found, hfound⟩ := exists_findLocation? hholds
    rw [h] at hfound
    cases hfound
  · intro h
    cases hfound : findLocation? text with
    | none => rfl
    | some found =>
      obtain ⟨before, written, behind, htext, hwrites, -, -⟩ := findLocation?_eq_some_iff.1 hfound
      exact absurd ⟨before, written, behind, _, _, htext, hwrites⟩ h

/-! ## Locations in texts put together -/

theorem WritesLocation.eq_cons {line column written : List Char}
    (h : WritesLocation line column written) :
    ∃ rest, written = 'L' :: rest ∧
      ∀ x ∈ rest, x ∈ "ine:,Column:".toList ∨ isBlank x = true ∨ isDecimal x = true := by
  obtain ⟨⟨-, hline⟩, ⟨-, hcolumn⟩, a, b, c, d, ha, hb, hc, hd, rfl⟩ := h
  refine ⟨"ine:".toList ++ (a ++ (line ++ (b ++ ([','] ++ (c ++ ("Column:".toList ++ (d ++ column))))))),
    rfl, fun x hx => ?_⟩
  simp only [List.mem_append] at hx
  rcases hx with hx | hx | hx | hx | hx | hx | hx | hx | hx
  · exact .inl (List.mem_append_left ",Column:".toList hx)
  · exact .inr (.inl (ha x hx))
  · exact .inr (.inr (hline x hx))
  · exact .inr (.inl (hb x hx))
  · exact .inl (List.mem_append_right "ine:".toList (List.mem_append_left "Column:".toList hx))
  · exact .inr (.inl (hc x hx))
  · exact .inl (List.mem_append_right "ine:,".toList hx)
  · exact .inr (.inl (hd x hx))
  · exact .inr (.inr (hcolumn x hx))

/-- What is read at the front of a text is read there whatever follows, if no location goes beyond
the text. -/
theorem writtenLocation?_append {cs tail : List Char} (htail : EndsNumeral tail)
    (hinside : ∀ {line column written behind : List Char}, WritesLocation line column written →
      cs ++ tail = written ++ behind → ∃ rest, cs = written ++ rest ∧ behind = rest ++ tail) :
    writtenLocation? (cs ++ tail) = writtenLocation? cs := by
  apply Option.ext
  rintro ⟨line, column⟩
  rw [writtenLocation?_eq_some_iff, writtenLocation?_eq_some_iff]
  constructor
  · rintro ⟨written, behind, htext, hwrites, hends⟩
    obtain ⟨rest, rfl, rfl⟩ := hinside hwrites htext
    refine ⟨written, rest, rfl, hwrites, fun x hx => ?_⟩
    cases rest with
    | nil => cases hx
    | cons y rest => exact hends x hx
  · rintro ⟨written, behind, rfl, hwrites, hends⟩
    exact ⟨written, behind ++ tail, List.append_assoc .., hwrites, hends.append htail⟩

theorem findLocation?_append {tail : List Char}
    (h : ∀ cs, cs ≠ [] → writtenLocation? (cs ++ tail) = writtenLocation? cs) (cs : List Char) :
    findLocation? (cs ++ tail) = (findLocation? cs).or (findLocation? tail) := by
  induction cs with
  | nil => rfl
  | cons x cs ih =>
    have hfront := h (x :: cs) (List.cons_ne_nil x cs)
    rw [List.cons_append] at hfront ⊢
    cases hfound : writtenLocation? (x :: cs) with
    | some found =>
      rw [hfound] at hfront
      rw [findLocation?_of_front hfront, findLocation?_of_front hfound]
      rfl
    | none =>
      rw [hfound] at hfront
      rw [findLocation?_of_not_front hfront, findLocation?_of_not_front hfound]
      exact ih

/-- A location has its only letter `L` at its start, so none goes beyond a later one. -/
theorem WritesLocation.eq_append_of_line {line column written cs behind tail : List Char}
    (h : WritesLocation line column written) (hne : cs ≠ [])
    (heq : cs ++ 'L' :: tail = written ++ behind) :
    ∃ rest, cs = written ++ rest ∧ behind = rest ++ 'L' :: tail := by
  obtain ⟨inner, hwritten, hinner⟩ := h.eq_cons
  rcases List.append_eq_append_iff.1 heq with ⟨rest, hrest, htail⟩ | ⟨rest, hrest, hbehind⟩
  · cases rest with
    | nil => exact ⟨[], by simpa using hrest.symm, by simpa using htail.symm⟩
    | cons y rest =>
      obtain ⟨rfl, -⟩ := List.cons.inj htail
      obtain ⟨x, cs, rfl⟩ := List.exists_cons_of_ne_nil hne
      rw [hwritten, List.cons_append] at hrest
      have hmem : 'L' ∈ inner := by simp [(List.cons.inj hrest).2]
      exact absurd (hinner 'L' hmem) (by decide)
  · exact ⟨rest, hrest, hbehind⟩

theorem findLocation?_append_line (cs tail : List Char) :
    findLocation? (cs ++ 'L' :: tail) = (findLocation? cs).or (findLocation? ('L' :: tail)) := by
  refine findLocation?_append (fun cs hne => writtenLocation?_append ?_ ?_) cs
  · intro x hx
    obtain rfl : 'L' = x := by simpa using hx
    decide
  · intro line column written behind hwrites heq
    exact hwrites.eq_append_of_line hne heq

/-- A location behind a text that holds none is found, even if the text starts one. -/
theorem findLocation?_of_written {before line column written behind : List Char}
    (hnone : ¬HoldsLocation before) (hwrites : WritesLocation line column written)
    (hends : EndsNumeral behind) :
    findLocation? (before ++ (written ++ behind)) = some (line, column) := by
  obtain ⟨inner, rfl, -⟩ := hwrites.eq_cons
  rw [List.cons_append, findLocation?_append_line, findLocation?_eq_none_iff.2 hnone, Option.none_or]
  exact findLocation?_of_front (writtenLocation?_eq_some_iff.2 ⟨_, behind, rfl, hwrites, hends⟩)

theorem findLocation?_append_of_first {text line column rest : List Char}
    (h : FirstLocation text line column) (hrest : EndsNumeral rest) :
    findLocation? (text ++ rest) = some (line, column) := by
  obtain ⟨before, written, behind, rfl, hwrites, hends, hfirst⟩ := h
  have hnone : ¬HoldsLocation before := by
    rintro ⟨before', written', behind', line', column', rfl, hwrites'⟩
    have hle := hfirst before' written' (behind' ++ (written ++ behind)) line' column'
      (by simp only [List.append_assoc]) hwrites'
    have hpos := List.length_pos_of_ne_nil hwrites'.ne_nil
    simp only [List.length_append] at hle
    omega
  rw [List.append_assoc, List.append_assoc]
  exact findLocation?_of_written hnone hwrites (hends.append hrest)

/-! ## The place at the end of a message -/

/-- No location goes beyond a blank and the letter `a`: it has no such letter, and it ends with a
digit. -/
theorem WritesLocation.eq_append_of_append {line column written cs behind tail : List Char}
    (h : WritesLocation line column written)
    (heq : cs ++ ' ' :: 'a' :: tail = written ++ behind) :
    ∃ rest, cs = written ++ rest ∧ behind = rest ++ ' ' :: 'a' :: tail := by
  have hletter : 'a' ∉ written := by
    obtain ⟨inner, rfl, hinner⟩ := h.eq_cons
    intro hmem
    exact absurd (hinner 'a' (List.mem_of_ne_of_mem (by decide) hmem)) (by decide)
  obtain ⟨-, ⟨hsome, hcolumn⟩, a, b, c, d, -, -, -, -, hwritten⟩ := h
  have hlast : ∀ front : List Char, written ≠ front ++ [' '] := by
    intro front hfront
    obtain ⟨digits, digit, rfl⟩ := (List.eq_nil_or_concat' column).resolve_left hsome
    rw [hwritten] at hfront
    simp only [← List.append_assoc] at hfront
    obtain rfl : digit = ' ' := List.singleton_inj.1 (List.append_inj_right' hfront rfl)
    exact absurd (hcolumn ' ' (by simp)) (by decide)
  rcases List.append_eq_append_iff.1 heq with ⟨rest, hrest, htail⟩ | ⟨rest, hrest, hbehind⟩
  · match rest with
    | [] => exact ⟨[], by simpa using hrest.symm, by simpa using htail.symm⟩
    | [y] =>
      obtain ⟨rfl, -⟩ := List.cons.inj htail
      exact absurd hrest (hlast cs)
    | y :: z :: rest =>
      obtain ⟨-, htail⟩ := List.cons.inj htail
      obtain ⟨rfl, -⟩ := List.cons.inj htail
      exact absurd (by simp [hrest]) hletter
  · exact ⟨rest, hrest, hbehind⟩

/-- A place behind a text is found if no location is written in the text. -/
theorem findLocation?_append_place (cs tail : List Char) :
    findLocation? (cs ++ ' ' :: 'a' :: tail) = (findLocation? cs).or (findLocation? tail) := by
  have hplace : findLocation? (' ' :: 'a' :: tail) = findLocation? tail := by
    rw [findLocation?_of_not_front, findLocation?_of_not_front]
    · rfl
    · rfl
  rw [← hplace]
  refine findLocation?_append (fun cs _ => writtenLocation?_append ?_ ?_) cs
  · intro x hx
    obtain rfl : ' ' = x := by simpa using hx
    decide
  · intro line column written behind hwrites heq
    exact hwrites.eq_append_of_append heq

/-- A text without the letter `L` holds no location. -/
theorem findLocation?_append_of_not_mem {front : List Char} (h : 'L' ∉ front) (cs : List Char) :
    findLocation? (front ++ cs) = findLocation? cs := by
  induction front with
  | nil => rfl
  | cons x front ih =>
    have hx : ('L' : Char) ≠ x := fun heq => h (heq ▸ List.mem_cons_self)
    rw [List.cons_append, findLocation?_of_not_front]
    · exact ih fun hmem => h (List.mem_cons_of_mem _ hmem)
    · show (afterFront? ('L' :: _) (x :: _)).bind _ = none
      unfold afterFront?
      rw [if_neg hx]
      rfl

/-! ## Numbers -/

theorem isNumeral_toDigits (n : Nat) : IsNumeral (Nat.toDigits 10 n) :=
  ⟨Nat.toDigits_ne_nil, fun _ hc =>
    isDecimal_of_isDigit (Nat.isDigit_of_mem_toDigits (by decide) (by decide) hc)⟩

theorem reads_toDigits (n : Nat) : Reads (Nat.toDigits 10 n) n :=
  ⟨List.all_eq_true.2 fun _ hc => Nat.isDigit_of_mem_toDigits (by decide) (by decide) hc,
    Nat.ofDigitChars_toDigits (by decide) (by decide)⟩

theorem numberBelow?_eq_some_iff {bound n : Nat} {digits : List Char} :
    numberBelow? bound digits = some n ↔ Reads digits n ∧ n < bound := by
  constructor
  · intro h
    obtain ⟨hdigits, hbound, rfl⟩ := Rule.eq_of_numberBelow? h
    exact ⟨⟨hdigits, rfl⟩, hbound⟩
  · rintro ⟨⟨hdigits, rfl⟩, hbound⟩
    unfold numberBelow?
    rw [hdigits, decide_eq_true hbound]
    rfl

theorem locationIn?_of_findLocation? {message line column : List Char}
    (h : findLocation? message = some (line, column)) {place : Location} :
    locationIn? message = some place ↔ Gives line column place := by
  unfold locationIn?
  rw [h]
  simp only [Option.bind_eq_bind, Option.bind_some, Option.bind_eq_some_iff, numberBelow?_eq_some_iff]
  constructor
  · rintro ⟨l, hl, c, hc, hplace⟩
    cases hplace
    exact ⟨hl, hc⟩
  · rintro ⟨hl, hc⟩
    exact ⟨place.line, hl, place.column, hc, rfl⟩

theorem not_reads_of_unfit {digits : List Char} (h : Unfit digits) (n : Nat) :
    ¬(Reads digits n ∧ n < Nat.pow 2 64) := by
  rintro ⟨⟨hdigits, rfl⟩, hbound⟩
  rcases h with ⟨c, hc, hdigit⟩ | hlarge
  · rw [List.all_eq_true.1 hdigits c hc] at hdigit
    cases hdigit
  · exact absurd hbound (Nat.not_lt.2 hlarge)

/-- A message gives the place that is written first in it, if the digits there are ASCII and their
numbers fit 64 bits. If they do not, it gives none, whatever is written behind. A text that only
starts a location, or starts it again and again, does not hide one that is written behind it. -/
theorem first_location_gives_place (message : List Char) :
    (∀ place, locationIn? message = some place ↔
      ∃ line column, FirstLocation message line column ∧ Gives line column place) ∧
    (∀ line column rest, FirstLocation message line column → Unfit line ∨ Unfit column →
      EndsNumeral rest → locationIn? (message ++ rest) = none) ∧
    (¬HoldsLocation message → ∀ line column written rest, WritesLocation line column written →
      EndsNumeral rest →
        ∀ place, locationIn? (message ++ (written ++ rest)) = some place ↔
          Gives line column place) := by
  refine ⟨fun place => ⟨fun h => ?_, ?_⟩, ?_, ?_⟩
  · cases hfound : findLocation? message with
    | none =>
      unfold locationIn? at h
      rw [hfound] at h
      cases h
    | some found =>
      exact ⟨found.1, found.2, findLocation?_eq_some_iff.1 hfound,
        (locationIn?_of_findLocation? hfound).1 h⟩
  · rintro ⟨line, column, hfirst, hgives⟩
    exact (locationIn?_of_findLocation? (findLocation?_eq_some_iff.2 hfirst)).2 hgives
  · intro line column rest hfirst hunfit hrest
    have hfound := findLocation?_append_of_first hfirst hrest
    rw [Option.eq_none_iff_forall_ne_some]
    intro place hplace
    obtain ⟨hline, hcolumn⟩ := (locationIn?_of_findLocation? hfound).1 hplace
    rcases hunfit with hunfit | hunfit
    · exact not_reads_of_unfit hunfit _ hline
    · exact not_reads_of_unfit hunfit _ hcolumn
  · intro hnone line column written rest hwrites hrest place
    exact locationIn?_of_findLocation? (findLocation?_of_written hnone hwrites hrest)

/-- A start that is cut short, and a first location with a digit that is not ASCII. -/
theorem broken_start_and_foreign_digit :
    locationIn? "Line: Line: 1, Column: 2".toList = some ⟨1, 2⟩ ∧
      locationIn? "Line: ٣, Column: 4 at Line: 5, Column: 6".toList = none := by
  have hblank : AllBlank [' '] := List.forall_mem_singleton.2 (by decide)
  have hnumeral : ∀ {c : Char}, isDecimal c = true → IsNumeral [c] :=
    fun hc => ⟨List.cons_ne_nil _ _, List.forall_mem_singleton.2 hc⟩
  have hwrites : ∀ {l c : Char}, isDecimal l = true → isDecimal c = true →
      WritesLocation [l] [c] ("Line: ".toList ++ (l :: ", Column: ".toList ++ [c])) :=
    fun hl hc => ⟨hnumeral hl, hnumeral hc, [' '], [], [' '], [' '], hblank,
      List.forall_mem_nil _, hblank, hblank, rfl⟩
  have hnone : ¬HoldsLocation "Line: ".toList := findLocation?_eq_none_iff.1 (by decide)
  have hfirst : FirstLocation "Line: ٣, Column: 4".toList ['٣'] ['4'] :=
    ⟨[], _, [], rfl, hwrites (by decide) (by decide), endsNumeral_nil,
      fun _ _ _ _ _ _ _ => Nat.zero_le _⟩
  have hrestart : "Line: Line: 1, Column: 2".toList =
      "Line: ".toList ++ (("Line: ".toList ++ ('1' :: ", Column: ".toList ++ ['2'])) ++ []) := by decide
  have hlater : "Line: ٣, Column: 4 at Line: 5, Column: 6".toList =
      "Line: ٣, Column: 4".toList ++ " at Line: 5, Column: 6".toList := by decide
  refine ⟨?_, ?_⟩
  · rw [hrestart]
    exact ((first_location_gives_place "Line: ".toList).2.2 hnone ['1'] ['2'] _ []
      (hwrites (by decide) (by decide)) endsNumeral_nil ⟨1, 2⟩).2
      ⟨⟨⟨rfl, rfl⟩, by decide⟩, ⟨rfl, rfl⟩, by decide⟩
  · rw [hlater]
    exact (first_location_gives_place "Line: ٣, Column: 4".toList).2.1 ['٣'] ['4']
      " at Line: 5, Column: 6".toList hfirst (.inl (.inl ⟨'٣', List.mem_cons_self, by decide⟩))
      (by simp [EndsNumeral]; decide)

theorem findLocation?_place (line column : Nat) :
    findLocation? ("t Line: ".toList ++ Nat.toDigits 10 line ++
      (", Column: ".toList ++ Nat.toDigits 10 column)) =
      some (Nat.toDigits 10 line, Nat.toDigits 10 column) := by
  have hblank : AllBlank [' '] := by
    intro c hc
    obtain rfl := List.mem_singleton.1 hc
    decide
  have hwrites : writtenLocation? ("Line: ".toList ++ Nat.toDigits 10 line ++
      (", Column: ".toList ++ Nat.toDigits 10 column)) =
      some (Nat.toDigits 10 line, Nat.toDigits 10 column) := by
    refine writtenLocation?_eq_some_iff.2 ⟨_, [], (List.append_nil _).symm,
      ⟨isNumeral_toDigits line, isNumeral_toDigits column, [' '], [], [' '], [' '], hblank,
        fun _ hc => absurd hc (List.not_mem_nil), hblank, hblank, ?_⟩, endsNumeral_nil⟩
    simp
  have hskip : 'L' ∉ ['t', ' '] := by decide
  exact (findLocation?_append_of_not_mem hskip _).trans (findLocation?_of_front hwrites)

end Text

/-! ## Reports of failures -/

theorem findLocation?_faultText (m : String) (place : Location) :
    findLocation? (faultText (m ++ placeText place)).toList =
      (findLocation? m.toList).or
        (some (Nat.toDigits 10 place.line, Nat.toDigits 10 place.column)) := by
  have htext : (faultText (m ++ placeText place)).toList = "sql parser error: ".toList ++
      (m.toList ++ ' ' :: 'a' :: ("t Line: ".toList ++ Nat.toDigits 10 place.line ++
        (", Column: ".toList ++ Nat.toDigits 10 place.column))) := by
    have hat : " at Line: ".toList = ' ' :: 'a' :: "t Line: ".toList := by decide
    unfold faultText placeText
    iterate 5 rw [String.toList_append]
    rw [Nat.toString_eq_repr, Nat.toString_eq_repr, Nat.toList_repr, Nat.toList_repr, hat]
    simp only [List.append_assoc, List.cons_append]
  have hlead : 'L' ∉ "sql parser error: ".toList := by decide
  rw [htext, findLocation?_append_of_not_mem hlead, findLocation?_append_place, findLocation?_place]

/-- A report whose message ends with a place has that place exactly if no location is written in the
message before, or if the first one that is gives the same numbers. -/
theorem position_of_located_failure_iff (m : String) {place : Location}
    (hline : place.line < Nat.pow 2 64) (hcolumn : place.column < Nat.pow 2 64) :
    (ParseError.located (faultText (m ++ placeText place))).position = some place ↔
      ¬HoldsLocation m.toList ∨ ∃ line column, FirstLocation m.toList line column ∧
        Reads line place.line ∧ Reads column place.column := by
  show locationIn? (faultText (m ++ placeText place)).toList = some place ↔ _
  unfold locationIn?
  rw [findLocation?_faultText]
  cases hfound : findLocation? m.toList with
  | none =>
    have hbelow : ∀ {n : Nat}, n < Nat.pow 2 64 →
        numberBelow? (Nat.pow 2 64) (Nat.toDigits 10 n) = some n :=
      fun hn => numberBelow?_eq_some_iff.2 ⟨reads_toDigits _, hn⟩
    simp only [Option.none_or, Option.bind_eq_bind, Option.bind_some, hbelow hline, hbelow hcolumn]
    exact ⟨fun _ => .inl (findLocation?_eq_none_iff.1 hfound), fun _ => rfl⟩
  | some found =>
    have hfirst := findLocation?_eq_some_iff.1 hfound
    have hholds : HoldsLocation m.toList := by
      by_contra hnone
      rw [findLocation?_eq_none_iff.2 hnone] at hfound
      cases hfound
    simp only [Option.some_or, Option.bind_eq_bind, Option.bind_some, Option.bind_eq_some_iff,
      numberBelow?_eq_some_iff]
    constructor
    · rintro ⟨line, ⟨hreads, -⟩, column, ⟨hreads', -⟩, hplace⟩
      cases hplace
      exact .inr ⟨found.1, found.2, hfirst, hreads, hreads'⟩
    · rintro (hnone | ⟨line, column, hfirst', hreads, hreads'⟩)
      · exact absurd hholds hnone
      · rw [findLocation?_eq_some_iff.2 hfirst'] at hfound
        cases hfound
        exact ⟨place.line, ⟨hreads, hline⟩, place.column, ⟨hreads', hcolumn⟩, rfl⟩

/-- A message that quotes half of a location keeps the place at its end. -/
theorem position_behind_half_location :
    (1 < Nat.pow 2 64 ∧ 19 < Nat.pow 2 64) ∧
      ¬HoldsLocation "Expected: end of statement, found: \"Line: 7, Column: \"".toList ∧
      (ParseError.located (faultText ("Expected: end of statement, found: \"Line: 7, Column: \"" ++
        placeText ⟨1, 19⟩))).position = some ⟨1, 19⟩ := by
  have hbounds : 1 < Nat.pow 2 64 ∧ 19 < Nat.pow 2 64 := by decide
  have hnone : ¬HoldsLocation
      "Expected: end of statement, found: \"Line: 7, Column: \"".toList :=
    findLocation?_eq_none_iff.1 (by decide +kernel)
  exact ⟨hbounds, hnone, (position_of_located_failure_iff _ hbounds.1 hbounds.2).2 (.inl hnone)⟩

/-- A text that goes on behind its only statement with a word that looks like a location. -/
def strayLocation : List Char := "SELECT a FROM t u \"Line: 7, Column: 9\"".toList

/-- The report on a text, if it cannot be parsed. -/
def reportOn? (d : Dialect) (text : List Char) : Option ParseError :=
  match parse d text with
  | .ok _ => none
  | .error e => some e

set_option maxRecDepth 100000 in
/-- The word that is quoted in the message hides the place of the failure. -/
theorem strayLocation_hides_place :
    reportOn? .generic strayLocation = some
      ⟨faultText ("Expected: end of statement, found: \"Line: 7, Column: 9\"" ++ placeText ⟨1, 19⟩),
        some ⟨7, 9⟩, some .generic⟩ := by
  decide +kernel

end ColumnLint
