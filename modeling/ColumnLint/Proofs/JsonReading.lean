import ColumnLint.Proofs.Boundary
import ColumnLint.Proofs.JsonText

/-
  The reader reads what is written. Each reader gives back the value and the text behind it, as long
  as that text does not go on with a number (`EndsValue`). Lists and objects are read alike
  (`ReadsList`), from what is known of the reader of their parts (`ReadsParts`), so one induction on
  the depth gives the values of all depths, and with them `read_of_written`: a text that writes a
  value reads as that value.
-/

namespace ColumnLint.Json

open Text

/-! ## Blanks and ends -/

/-- What may stand behind a value: nothing that a number could go on with. -/
def EndsValue (rest : List Char) : Prop :=
  ∀ c ∈ rest.head?, c.isDigit = false ∧ c ≠ '.' ∧ c ≠ 'e' ∧ c ≠ 'E'

theorem endsValue_nil : EndsValue [] := fun c hc => by cases hc

theorem endsValue_cons {c : Char} (h : c.isDigit = false ∧ c ≠ '.' ∧ c ≠ 'e' ∧ c ≠ 'E')
    (rest : List Char) : EndsValue (c :: rest) := by
  intro d hd
  cases hd
  exact h

theorem endsValue_of_isSpace {c : Char} (h : isSpace c = true) (rest : List Char) :
    EndsValue (c :: rest) := by
  refine endsValue_cons ?_ rest
  simp only [isSpace, Bool.or_eq_true, beq_iff_eq] at h
  rcases h with ((rfl | rfl) | rfl) | rfl <;> decide

theorem isSpace_of_isDigit {c : Char} (h : c.isDigit = true) : isSpace c = false := by
  refine Bool.eq_false_iff.2 fun hspace => ?_
  rw [(endsValue_of_isSpace hspace [] c rfl).1] at h
  cases h

theorem EndsValue.behind_gap {gap rest : List Char} (hgap : IsGap gap) (h : EndsValue rest) :
    EndsValue (gap ++ rest) := by
  cases gap with
  | nil => exact h
  | cons c gap => exact endsValue_of_isSpace (hgap c List.mem_cons_self) _

theorem skipSpace_gap {gap : List Char} (h : IsGap gap) (cs : List Char) :
    skipSpace (gap ++ cs) = skipSpace cs :=
  List.dropWhile_append_of_pos h

theorem skipSpace_cons {c : Char} (h : isSpace c = false) (cs : List Char) :
    skipSpace (c :: cs) = c :: cs :=
  List.dropWhile_cons_of_neg (by simp [h])

/-! ## Strings -/

theorem stringBody_skipped (skipped more : List Char) :
    stringBody skipped.length (skipped ++ more) = stringBody 0 more := by
  induction skipped with
  | nil => rfl
  | cons c skipped ih => exact ih

theorem escaped_short {letter c : Char} (h : (letter, c) ∈ shortEscapes) (more : List Char) :
    escaped (letter :: more) = .ok (c, 1) := by
  simp only [shortEscapes, List.mem_cons, Prod.mk.injEq, List.not_mem_nil, or_false] at h
  rcases h with ⟨rfl, rfl⟩ | ⟨rfl, rfl⟩ | ⟨rfl, rfl⟩ | ⟨rfl, rfl⟩ | ⟨rfl, rfl⟩ | ⟨rfl, rfl⟩ |
    ⟨rfl, rfl⟩ | ⟨rfl, rfl⟩ <;> rfl

section Numbered

variable {x₁ x₂ x₃ x₄ : Char} {n₁ n₂ n₃ n₄ : Nat} (h₁ : hexValue? x₁ = some n₁)
  (h₂ : hexValue? x₂ = some n₂) (h₃ : hexValue? x₃ = some n₃) (h₄ : hexValue? x₄ = some n₄)
include h₁ h₂ h₃ h₄

theorem hex4_digits (more : List Char) :
    hex4 (x₁ :: x₂ :: x₃ :: x₄ :: more) = .ok (((n₁ * 16 + n₂) * 16 + n₃) * 16 + n₄) := by
  have hsize : ¬ byteSize (x₁ :: x₂ :: x₃ :: x₄ :: more) < 4 := by
    have hx₁ := x₁.utf8Size_pos
    have hx₂ := x₂.utf8Size_pos
    have hx₃ := x₃.utf8Size_pos
    have hx₄ := x₄.utf8Size_pos
    simp only [byteSize_cons]
    omega
  unfold hex4
  rw [if_neg hsize]
  simp [h₁, h₂, h₃, h₄]

/-- No character is numbered as half of a pair, so four digits that write its number are enough. -/
theorem escaped_numbered {c : Char} (h : c.toNat = ((n₁ * 16 + n₂) * 16 + n₃) * 16 + n₄)
    (more : List Char) : escaped ('u' :: x₁ :: x₂ :: x₃ :: x₄ :: more) = .ok (c, 5) := by
  have hvalid : c.toNat < 0xd800 ∨ 0xdfff < c.toNat := by
    rcases c.valid with hlow | ⟨hhigh, -⟩
    · exact .inl hlow
    · exact .inr hhigh
  have hnumbered : numbered (x₁ :: x₂ :: x₃ :: x₄ :: more) = .ok (c, 4) := by
    unfold numbered
    rw [hex4_digits h₁ h₂ h₃ h₄, ← h]
    simp only [bind, Except.bind, Bool.and_eq_true, decide_eq_true_eq]
    rw [if_neg (by omega), if_neg (by omega), Char.ofNat_toNat]
    rfl
  show (numbered (x₁ :: x₂ :: x₃ :: x₄ :: more)).map _ = _
  rw [hnumbered]
  rfl

end Numbered

theorem stringBody_escape {c : Char} (skipped : List Char) {more cs rest : List Char}
    (hescaped : escaped (skipped ++ more) = .ok (c, skipped.length))
    (h : stringBody 0 more = .ok (cs, rest)) :
    stringBody 0 ('\\' :: (skipped ++ more)) = .ok (c :: cs, rest) := by
  rw [stringBody, if_neg (by decide), if_pos rfl, hescaped]
  show (stringBody skipped.length (skipped ++ more)).map _ = _
  rw [stringBody_skipped, h]
  rfl

theorem stringBody_charWritten {c : Char} {written more cs rest : List Char}
    (hc : CharWritten c written) (h : stringBody 0 more = .ok (cs, rest)) :
    stringBody 0 (written ++ more) = .ok (c :: cs, rest) := by
  cases hc with
  | plain hquote hslash hcontrol =>
    rw [List.cons_append, List.nil_append, stringBody, if_neg hquote, if_neg hslash,
      if_neg (by omega), h]
    rfl
  | @short letter _ hletter => exact stringBody_escape [letter] (escaped_short hletter more) h
  | @numbered _ x₁ x₂ x₃ x₄ _ _ _ _ h₁ h₂ h₃ h₄ hnumber =>
    have hescaped := escaped_numbered h₁ h₂ h₃ h₄ hnumber more
    exact stringBody_escape ['u', x₁, x₂, x₃, x₄] hescaped h

theorem stringBody_written {cs : List Char} {parts : List (List Char)}
    (h : List.Forall₂ CharWritten cs parts) (rest : List Char) :
    stringBody 0 (parts.flatten ++ '"' :: rest) = .ok (cs, rest) := by
  induction h with
  | nil => rfl
  | cons hc _ ih =>
    rw [List.flatten_cons, List.append_assoc]
    exact stringBody_charWritten hc ih

/-- A written string is a quote and what `readString` reads behind it. -/
theorem StringWritten.exists_body {s : String} {text : List Char} (h : StringWritten s text) :
    ∃ body, text = '"' :: body ∧ ∀ rest, readString (body ++ rest) = .ok (s, rest) := by
  obtain ⟨parts, hparts, rfl⟩ := h
  refine ⟨parts.flatten ++ ['"'], rfl, fun rest => ?_⟩
  unfold readString
  rw [List.append_assoc, List.singleton_append, stringBody_written hparts]
  show Except.ok (String.ofList s.toList, rest) = _
  rw [String.ofList_toList]

/-! ## Whole numbers -/

theorem le_ofDigitChars (digits : List Char) (k : Nat) : k ≤ Nat.ofDigitChars 10 digits k := by
  induction digits generalizing k with
  | nil => exact Nat.le_refl k
  | cons c digits ih =>
    have hnext := ih (10 * k + (c.toNat - '0'.toNat))
    exact Nat.le_trans (by omega) hnext

/-- The significand takes every digit of a number of 64 bits. -/
theorem extend_eq {digits : List Char} {k : Nat} (h : Nat.ofDigitChars 10 digits k < Nat.pow 2 64) :
    extend k digits = (Nat.ofDigitChars 10 digits k, digits.length) := by
  induction digits generalizing k with
  | nil => rfl
  | cons c digits ih =>
    have hnext : 10 * k + (c.toNat - '0'.toNat) < Nat.pow 2 64 :=
      Nat.lt_of_le_of_lt (le_ofDigitChars digits _) h
    simp only [extend, if_pos hnext]
    rw [ih h]
    rfl

theorem readMagnitude_digits {digits rest : List Char} {n : Nat}
    (hnumber : Nat.ofDigitChars 10 digits 0 = n) (hn : n < Nat.pow 2 64) (hrest : EndsValue rest) :
    readMagnitude false digits rest = .ok (.ofNat n, rest) := by
  have hextend : extend 0 digits = (n, digits.length) := by
    rw [extend_eq (by rw [hnumber]; exact hn), hnumber]
  unfold readMagnitude
  rw [hextend]
  cases rest with
  | nil => simp [wholeNumber, ofNat]
  | cons c rest =>
    obtain ⟨-, hperiod, he, hE⟩ := hrest c rfl
    simp [hperiod, he, hE, wholeNumber, ofNat]

theorem exists_digit_toDigits (n : Nat) :
    ∃ d digits, Nat.toDigits 10 n = d :: digits ∧ d.isDigit = true := by
  obtain ⟨d, digits, heq⟩ := List.exists_cons_of_ne_nil (Nat.toDigits_ne_nil (n := n) (b := 10))
  have hmem : d ∈ Nat.toDigits 10 n := by
    rw [heq]
    exact List.mem_cons_self
  exact ⟨d, digits, heq, Nat.isDigit_of_mem_toDigits (by decide) (by decide) hmem⟩

/-- Only zero is written with a leading zero. -/
theorem head?_toDigits_ne_zero {n : Nat} (h : 0 < n) : (Nat.toDigits 10 n).head? ≠ some '0' := by
  have hdigit : ∀ m < 10, 0 < m → Nat.digitChar m ≠ '0' := by decide
  induction n using Nat.strongRecOn with
  | ind n ih =>
    by_cases hn : n < 10
    · rw [Nat.toDigits_of_lt_base hn, List.head?_singleton]
      exact fun heq => hdigit n hn h (Option.some.inj heq)
    · rw [Nat.toDigits_of_base_le (by decide) (by omega), List.head?_append_of_ne_nil _
        Nat.toDigits_ne_nil]
      exact ih (n / 10) (by omega) (by omega)

theorem takeWhile_isDigit {digits rest : List Char} (hdigits : ∀ c ∈ digits, c.isDigit = true)
    (hrest : EndsValue rest) : (digits ++ rest).takeWhile Char.isDigit = digits ∧
      (digits ++ rest).dropWhile Char.isDigit = rest := by
  rw [List.takeWhile_append_of_pos hdigits, List.dropWhile_append_of_pos hdigits]
  cases rest with
  | nil => simp
  | cons c rest => simp [(hrest c rfl).1]

theorem readNumber_cons {d : Char} (hd : d.isDigit = true) (hzero : d ≠ '0') (cs : List Char) :
    readNumber false (d :: cs) = readMagnitude false ((d :: cs).takeWhile Char.isDigit)
      ((d :: cs).dropWhile Char.isDigit) := by
  unfold readNumber
  split
  · contradiction
  · rename_i heq
    exact absurd (List.cons.inj heq).1 hzero
  · rename_i heq
    obtain ⟨rfl, -⟩ := List.cons.inj heq
    rw [if_pos hd]

theorem readNumber_toDigits {n : Nat} (hn : n < Nat.pow 2 64) {rest : List Char}
    (hrest : EndsValue rest) :
    readNumber false (Nat.toDigits 10 n ++ rest) = .ok (.ofNat n, rest) := by
  have hnumber : Nat.ofDigitChars 10 (Nat.toDigits 10 n) 0 = n :=
    Nat.ofDigitChars_toDigits (by decide) (by decide)
  rcases Nat.eq_zero_or_pos n with rfl | hpos
  · have hzero : readMagnitude false ['0'] rest = .ok (.ofNat 0, rest) :=
      readMagnitude_digits hnumber hn hrest
    rw [Nat.toDigits_of_lt_base (by decide)]
    cases rest with
    | nil => exact hzero
    | cons c rest =>
      show (if c.isDigit = true then _ else readMagnitude false ['0'] (c :: rest)) = _
      rw [if_neg (by simp [(hrest c rfl).1]), hzero]
  · have hdigits : ∀ c ∈ Nat.toDigits 10 n, c.isDigit = true :=
      fun c hc => Nat.isDigit_of_mem_toDigits (by decide) (by decide) hc
    obtain ⟨htake, hdrop⟩ := takeWhile_isDigit hdigits hrest
    have hmagnitude := readMagnitude_digits hnumber hn hrest
    obtain ⟨d, digits, heq, hd⟩ := exists_digit_toDigits n
    have hzero : d ≠ '0' := by
      rintro rfl
      exact head?_toDigits_ne_zero hpos (by rw [heq]; rfl)
    rw [heq] at htake hdrop hmagnitude ⊢
    rw [List.cons_append] at htake hdrop ⊢
    rw [readNumber_cons hd hzero, htake, hdrop, hmagnitude]

/-! ## Values without parts -/

theorem readValueWith_gap (read : Option (List Char → Reading Json)) {gap : List Char}
    (hgap : IsGap gap) (cs : List Char) :
    readValueWith read (gap ++ cs) = readValueWith read cs := by
  unfold readValueWith
  rw [skipSpace_gap hgap]

theorem readValueWith_digit (read : Option (List Char → Reading Json)) {d : Char}
    (hd : d.isDigit = true) (cs : List Char) :
    readValueWith read (d :: cs) = readNumber false (d :: cs) := by
  unfold readValueWith
  rw [skipSpace_cons (isSpace_of_isDigit hd)]
  split
  · contradiction
  -- a digit is none of the seven characters that start other values
  iterate 7
    · rename_i heq
      obtain ⟨rfl, -⟩ := List.cons.inj heq
      cases hd
  · rename_i heq
    obtain ⟨rfl, rfl⟩ := List.cons.inj heq
    rw [if_pos hd]

theorem readValueWith_scalar (read : Option (List Char → Reading Json)) {j : Json}
    {text rest : List Char} (h : ScalarWritten j text) (hrest : EndsValue rest) :
    readValueWith read (text ++ rest) = .ok (j, rest) := by
  cases h with
  | null => rfl
  | yes => rfl
  | no => rfl
  | @natural n hn =>
    obtain ⟨d, digits, heq, hd⟩ := exists_digit_toDigits n
    have hnumber := readNumber_toDigits hn hrest
    rw [heq, List.cons_append] at hnumber ⊢
    rw [readValueWith_digit read hd, hnumber]
  | string hs =>
    obtain ⟨body, rfl, hbody⟩ := hs.exists_body
    show (readString (body ++ rest)).map _ = _
    rw [hbody]
    rfl

/-! ## Lists and objects -/

/-- A reader of parts reads each part behind blanks, and a part shows by its first character that it
is neither blank nor the end of a list. -/
structure ReadsParts (read : List Char → Reading Json) (part : Json → List Char → Prop) :
    Prop where
  reads {gap text rest : List Char} {x : Json} : IsGap gap → part x text → EndsValue rest →
    read (gap ++ (text ++ rest)) = .ok (x, rest)
  starts {text : List Char} {x : Json} : part x text →
    ∃ c cs, text = c :: cs ∧ isSpace c = false ∧ c ≠ ']'

/-- Behind a part stand a comma and the other parts, or what closes them all. -/
theorem endsValue_parts {closing : List Char} (hclosing : EndsValue closing)
    (texts : List (List Char)) : EndsValue (texts.flatMap ([','] ++ ·) ++ closing) := by
  cases texts with
  | nil => exact hclosing
  | cons text texts => exact endsValue_cons (by decide) _

theorem length_le_separated (texts : List (List Char)) :
    texts.length ≤ (separated [','] texts).length + 1 := by
  cases texts with
  | nil => exact Nat.zero_le _
  | cons text texts =>
    have hcommas : texts.length ≤ (texts.flatMap ([','] ++ ·)).length := by
      induction texts with
      | nil => exact Nat.zero_le _
      | cons next texts ih =>
        rw [List.flatMap_cons, List.length_append, List.length_append, List.length_cons,
          List.length_singleton]
        omega
    rw [separated_cons, List.length_append, List.length_cons]
    omega

section Lists

variable {α : Type} {run : Nat → Bool → List Char → Reading (List α)}
  {written : α → List Char → Prop} {closing : Char}

/-- A reader of parts between brackets stops at the closing bracket. At the start or behind a comma
it takes a part, and leaves the blanks behind the part to its next round. -/
structure ReadsList (run : Nat → Bool → List Char → Reading (List α))
    (written : α → List Char → Prop) (closing : Char) : Prop where
  ends : closing.isDigit = false ∧ closing ≠ '.' ∧ closing ≠ 'e' ∧ closing ≠ 'E'
  close {fuel : Nat} {gap : List Char} (first : Bool) (rest : List Char) : IsGap gap →
    run (fuel + 1) first (gap ++ closing :: rest) = .ok ([], rest)
  part {x : α} {text tail : List Char} : written x text → EndsValue tail →
    ∃ behind, IsGap behind ∧ ∀ {fuel : Nat} {xs : List α} {rest : List Char},
      run fuel false (behind ++ tail) = .ok (xs, rest) →
      run (fuel + 1) true (text ++ tail) = .ok (x :: xs, rest) ∧
      ∀ gap, IsGap gap → run (fuel + 1) false (gap ++ ',' :: (text ++ tail)) = .ok (x :: xs, rest)

theorem ReadsList.behind (h : ReadsList run written closing) {xs : List α}
    {texts : List (List Char)} (hxs : List.Forall₂ written xs texts) {fuel : Nat}
    (hfuel : xs.length < fuel) {gap : List Char} (hgap : IsGap gap) (rest : List Char) :
    run fuel false (gap ++ (texts.flatMap ([','] ++ ·) ++ closing :: rest)) = .ok (xs, rest) := by
  induction hxs generalizing fuel gap with
  | nil =>
    obtain ⟨fuel, rfl⟩ := Nat.exists_eq_add_one_of_ne_zero (Nat.ne_zero_of_lt hfuel)
    exact h.close false rest hgap
  | @cons x text xs texts hx _ ih =>
    obtain ⟨fuel, rfl⟩ := Nat.exists_eq_add_one_of_ne_zero (Nat.ne_zero_of_lt hfuel)
    have hend := endsValue_parts (endsValue_cons h.ends rest) texts
    obtain ⟨behind, hbehind, hstep⟩ := h.part hx hend
    have hrest := ih (Nat.lt_of_succ_lt_succ hfuel) hbehind
    rw [List.flatMap_cons, List.append_assoc, List.append_assoc, List.singleton_append]
    exact (hstep hrest).2 gap hgap

/-- The parts are read with as much fuel as there are characters and one more. -/
theorem ReadsList.all (h : ReadsList run written closing) {xs : List α} {texts : List (List Char)}
    (hxs : List.Forall₂ written xs texts) (rest : List Char) :
    run ((separated [','] texts ++ closing :: rest).length + 1) true
      (separated [','] texts ++ closing :: rest) = .ok (xs, rest) := by
  have hfuel : xs.length ≤ (separated [','] texts ++ closing :: rest).length := by
    have hlength := length_le_separated texts
    rw [hxs.length_eq, List.length_append, List.length_cons]
    omega
  generalize (separated [','] texts ++ closing :: rest).length = fuel at hfuel
  cases hxs with
  | nil => exact h.close true rest isGap_nil
  | @cons x text xs texts hx hxs =>
    have hend := endsValue_parts (endsValue_cons h.ends rest) texts
    obtain ⟨behind, hbehind, hstep⟩ := h.part hx hend
    have hrest := h.behind hxs hfuel hbehind rest
    rw [separated_cons, List.append_assoc]
    exact (hstep hrest).1

end Lists

section Items

variable {read : List Char → Reading Json} {fuel : Nat} {gap more left rest : List Char}
  {x : Json} {xs : List Json}

theorem readItems_close (hgap : IsGap gap) (first : Bool) (rest : List Char) :
    readItems read (fuel + 1) first (gap ++ ']' :: rest) = .ok ([], rest) := by
  rw [readItems, skipSpace_gap hgap, skipSpace_cons (by decide)]
  rfl

theorem readItems_first {c : Char} {cs : List Char} (hmore : skipSpace more = c :: cs)
    (hc : c ≠ ']') (hx : read (c :: cs) = .ok (x, left))
    (hxs : readItems read fuel false left = .ok (xs, rest)) :
    readItems read (fuel + 1) true more = .ok (x :: xs, rest) := by
  rw [readItems, hmore]
  simp [hx, hxs, bind, Except.bind, pure, Except.pure]

theorem readItems_comma {c : Char} {cs : List Char} (hgap : IsGap gap)
    (hmore : skipSpace more = c :: cs)
    (hc : c ≠ ']') (hx : read (c :: cs) = .ok (x, left))
    (hxs : readItems read fuel false left = .ok (xs, rest)) :
    readItems read (fuel + 1) false (gap ++ ',' :: more) = .ok (x :: xs, rest) := by
  rw [readItems, skipSpace_gap hgap, skipSpace_cons (by decide)]
  simp [hmore, hc, hx, hxs, bind, Except.bind, pure, Except.pure]

end Items

section Fields

variable {read : List Char → Reading Json} {fuel : Nat} {gap more left rest cs : List Char}
  {f : String × Json} {fs : List (String × Json)}

theorem readFields_close (hgap : IsGap gap) (first : Bool) (rest : List Char) :
    readFields read (fuel + 1) first (gap ++ '\x7d' :: rest) = .ok ([], rest) := by
  rw [readFields, skipSpace_gap hgap, skipSpace_cons (by decide)]
  rfl

theorem readFields_first (hmore : skipSpace more = '"' :: cs)
    (hf : readField read cs = .ok (f, left))
    (hfs : readFields read fuel false left = .ok (fs, rest)) :
    readFields read (fuel + 1) true more = .ok (f :: fs, rest) := by
  rw [readFields, hmore]
  simp [hf, hfs, bind, Except.bind, pure, Except.pure]

theorem readFields_comma (hgap : IsGap gap) (hmore : skipSpace more = '"' :: cs)
    (hf : readField read cs = .ok (f, left))
    (hfs : readFields read fuel false left = .ok (fs, rest)) :
    readFields read (fuel + 1) false (gap ++ ',' :: more) = .ok (f :: fs, rest) := by
  rw [readFields, skipSpace_gap hgap, skipSpace_cons (by decide)]
  simp [hmore, hf, hfs, bind, Except.bind, pure, Except.pure]

end Fields

section Parts

variable {read : List Char → Reading Json} {part : Json → List Char → Prop}

theorem ReadsParts.item (h : ReadsParts read part) {x : Json} {text tail : List Char}
    (hx : ItemWritten part x text) (htail : EndsValue tail) :
    ∃ c cs behind, skipSpace (text ++ tail) = c :: cs ∧ c ≠ ']' ∧ IsGap behind ∧
      read (c :: cs) = .ok (x, behind ++ tail) := by
  obtain ⟨before, written, behind, hbefore, hpart, hbehind, rfl⟩ := hx
  obtain ⟨c, cs, rfl, hspace, hc⟩ := h.starts hpart
  refine ⟨c, cs ++ (behind ++ tail), behind, ?_, hc, hbehind, ?_⟩
  · rw [List.append_assoc, skipSpace_gap hbefore, List.append_assoc, List.cons_append,
      skipSpace_cons hspace]
  · exact h.reads isGap_nil hpart (htail.behind_gap hbehind)

theorem ReadsParts.field (h : ReadsParts read part) {f : String × Json} {text tail : List Char}
    (hf : FieldWritten part f text) (htail : EndsValue tail) :
    ∃ cs behind, skipSpace (text ++ tail) = '"' :: cs ∧ IsGap behind ∧
      readField read cs = .ok (f, behind ++ tail) := by
  obtain ⟨before, name, gap, _, hbefore, hname, hgap, hvalue, rfl⟩ := hf
  obtain ⟨blanks, written, behind, hblanks, hpart, hbehind, rfl⟩ := hvalue
  obtain ⟨body, rfl, hbody⟩ := hname.exists_body
  have hread := h.reads hblanks hpart (htail.behind_gap hbehind)
  refine ⟨body ++ (gap ++ ':' :: (blanks ++ (written ++ (behind ++ tail)))), behind, ?_, hbehind, ?_⟩
  · rw [List.append_assoc, skipSpace_gap hbefore]
    simp only [List.cons_append, List.append_assoc]
    rw [skipSpace_cons (by decide)]
  · unfold readField
    simp only [hbody, bind, Except.bind]
    rw [skipSpace_gap hgap, skipSpace_cons (by decide)]
    simp [hread, pure, Except.pure]

theorem ReadsParts.readsItems (h : ReadsParts read part) :
    ReadsList (readItems read) (ItemWritten part) ']' where
  ends := by decide
  close first rest hgap := readItems_close hgap first rest
  part hx htail := by
    obtain ⟨c, cs, behind, hskip, hc, hbehind, hread⟩ := h.item hx htail
    exact ⟨behind, hbehind, fun hxs => ⟨readItems_first hskip hc hread hxs,
      fun gap hgap => readItems_comma hgap hskip hc hread hxs⟩⟩

theorem ReadsParts.readsFields (h : ReadsParts read part) :
    ReadsList (readFields read) (FieldWritten part) '\x7d' where
  ends := by decide
  close first rest hgap := readFields_close hgap first rest
  part hf htail := by
    obtain ⟨cs, behind, hskip, hbehind, hread⟩ := h.field hf htail
    exact ⟨behind, hbehind, fun hfs => ⟨readFields_first hskip hread hfs,
      fun gap hgap => readFields_comma hgap hskip hread hfs⟩⟩

theorem setField_of_not_mem {name : String} {fields : List (String × Json)}
    (h : name ∉ fields.map Prod.fst) (value : Json) :
    setField name value fields = fields ++ [(name, value)] := by
  induction fields with
  | nil => rfl
  | cons f fields ih =>
    rw [List.map_cons, List.mem_cons, not_or] at h
    rw [setField, if_neg (Ne.symm h.1), ih h.2, List.cons_append]

/-- Fields of distinct names stay as they are written. -/
theorem fieldsOf_of_nodup {fields : List (String × Json)} (h : (fields.map Prod.fst).Nodup) :
    fieldsOf fields = fields := by
  have hfold : ∀ before, ((before ++ fields).map Prod.fst).Nodup →
      fields.foldl (fun fields f => setField f.1 f.2 fields) before = before ++ fields := by
    clear h
    induction fields with
    | nil => exact fun before _ => (List.append_nil before).symm
    | cons f fields ih =>
      intro before hnames
      have hnew : f.1 ∉ before.map Prod.fst := by
        rw [List.map_append, List.map_cons, List.nodup_append] at hnames
        exact fun hmem => hnames.2.2 f.1 hmem f.1 List.mem_cons_self rfl
      rw [List.foldl_cons, setField_of_not_mem hnew, ih _ (by simpa using hnames)]
      simp
  exact hfold [] h

theorem ReadsParts.compound (h : ReadsParts read part) {j : Json} {text : List Char}
    (hj : CompoundWritten part j text) (rest : List Char) :
    readValueWith (some read) (text ++ rest) = .ok (j, rest) := by
  cases hj with
  | array hitems =>
    rw [List.cons_append, List.append_assoc, List.singleton_append]
    show (readItems read _ true _).map _ = _
    rw [h.readsItems.all hitems rest]
    rfl
  | @object fields _ hnames hfields =>
    rw [List.cons_append, List.append_assoc, List.singleton_append]
    show (readFields read _ true _).map _ = _
    rw [h.readsFields.all hfields rest]
    show Except.ok (object (fieldsOf fields), rest) = _
    rw [fieldsOf_of_nodup hnames]

end Parts

/-! ## Values -/

theorem ScalarWritten.starts {j : Json} {text : List Char} (h : ScalarWritten j text) :
    ∃ c cs, text = c :: cs ∧ isSpace c = false ∧ c ≠ ']' := by
  cases h with
  | null => exact ⟨'n', "ull".toList, rfl, by decide, by decide⟩
  | yes => exact ⟨'t', "rue".toList, rfl, by decide, by decide⟩
  | no => exact ⟨'f', "alse".toList, rfl, by decide, by decide⟩
  | @natural n _ =>
    obtain ⟨d, digits, heq, hd⟩ := exists_digit_toDigits n
    refine ⟨d, digits, heq, isSpace_of_isDigit hd, ?_⟩
    rintro rfl
    cases hd
  | string hs =>
    obtain ⟨body, rfl, -⟩ := hs.exists_body
    exact ⟨'"', body, rfl, by decide, by decide⟩

theorem Written.starts {depth : Nat} {j : Json} {text : List Char} (h : Written depth j text) :
    ∃ c cs, text = c :: cs ∧ isSpace c = false ∧ c ≠ ']' := by
  cases depth with
  | zero => exact ScalarWritten.starts h
  | succ depth =>
    rcases h with hscalar | hcompound
    · exact hscalar.starts
    · cases hcompound with
      | array => exact ⟨'[', _, rfl, by decide, by decide⟩
      | object => exact ⟨'\x7b', _, rfl, by decide, by decide⟩

/-- The reader of each depth reads what is written within that depth. -/
theorem readsParts_readValue (depth : Nat) : ReadsParts (readValue depth) (Written depth) := by
  induction depth with
  | zero =>
    refine ⟨fun hgap hwritten hrest => ?_, Written.starts⟩
    rw [readValue, readValueWith_gap none hgap]
    exact readValueWith_scalar none hwritten hrest
  | succ depth ih =>
    refine ⟨fun hgap hwritten hrest => ?_, Written.starts⟩
    rw [readValue, readValueWith_gap _ hgap]
    rcases hwritten with hscalar | hcompound
    · exact readValueWith_scalar _ hscalar hrest
    · exact ih.compound hcompound _

theorem read_of_written {j : Json} {text : List Char} (h : Written maxDepth j text) :
    read text = .ok j := by
  have hread := (readsParts_readValue maxDepth).reads isGap_nil h endsValue_nil
  rw [List.nil_append, List.append_nil] at hread
  unfold read
  rw [hread]
  rfl

end ColumnLint.Json
