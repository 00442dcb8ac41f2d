import ColumnLint.Proofs.RuleReference
import ColumnLint.Proofs.WrittenLocation
import Mathlib.Computability.RegularExpressions

/-
  The texts that refer to a rule, as a language. A name is looked up in several ways: as it is
  listed, and by its family and number. Together they accept a text exactly if, without blanks
  around it, it is one of the two names without a family in any letter case, or matches
  `(LINT)?RF0*3` once its underscores are left out and its letters are capitals
  (`names_are_exact_language`). Leading zeros do not count, however many there are; a number is
  never taken modulo a power of two.
-/

namespace ColumnLint

open Text

/-! ## Blanks around a text -/

namespace Text

/-- A text without the blanks around it. -/
structure Stripped (text core : List Char) : Prop where
  around : ∃ front back, text = front ++ core ++ back ∧ (∀ c ∈ front, isBlank c = true) ∧
    ∀ c ∈ back, isBlank c = true
  first : ∀ c, core.head? = some c → isBlank c = false
  last : ∀ c, core.getLast? = some c → isBlank c = false

theorem isBlank_of_head?_dropWhile {cs : List Char} {c : Char}
    (h : (cs.dropWhile isBlank).head? = some c) : isBlank c = false := by
  have hfirst := List.head?_dropWhile_not isBlank cs
  rw [h] at hfirst
  exact hfirst

theorem stripped_trim (cs : List Char) : Stripped cs (trim cs) where
  around := by
    obtain ⟨front, back, hfront, hback, hcs⟩ := exists_blanks_append_trim cs
    exact ⟨front, back, hcs, hfront, hback⟩
  first := by
    intro c hc
    obtain ⟨back, hback⟩ : trim cs <+: cs.dropWhile isBlank := List.rdropWhile_prefix _ _
    have hhead : (cs.dropWhile isBlank).head? = some c := by
      rw [← hback, List.head?_append, hc]
      rfl
    exact isBlank_of_head?_dropWhile hhead
  last := by
    intro c hc
    unfold trim stripBy at hc
    rw [List.getLast?_reverse] at hc
    exact isBlank_of_head?_dropWhile hc

/-! ## Letters and digits -/

theorem toUpper_toLower (c : Char) : c.toLower.toUpper = c.toUpper := by
  apply Char.toNat_inj.1
  rw [toNat_toUpper, toNat_toUpper, toNat_toLower]
  by_cases hcapital : 65 ≤ c.toNat ∧ c.toNat ≤ 90
  · rw [if_pos hcapital, if_pos (by omega), if_neg (by omega), Nat.add_sub_cancel]
  · rw [if_neg hcapital]

theorem upper_of_lower_eq {a b : List Char} (h : lower a = lower b) : upper a = upper b := by
  have hupper : ∀ cs : List Char, upper cs = upper (lower cs) := by
    intro cs
    unfold upper lower
    rw [List.map_map]
    exact List.map_congr_left fun c _ => (toUpper_toLower c).symm
  rw [hupper a, h, ← hupper b]

theorem toUpper_eq_underscore_iff {c : Char} : c.toUpper = '_' ↔ c = '_' := by
  rw [← Char.toNat_inj, ← Char.toNat_inj, toNat_toUpper]
  show (if 97 ≤ c.toNat ∧ c.toNat ≤ 122 then c.toNat - 32 else c.toNat) = 95 ↔ c.toNat = 95
  split <;> omega

/-- Underscores may be left out before letters are made capitals or after. -/
theorem filter_upper (cs : List Char) :
    (upper cs).filter (· ≠ '_') = upper (cs.filter (· ≠ '_')) := by
  unfold upper
  rw [List.filter_map]
  congr 1
  refine List.filter_congr fun c _ => ?_
  simp [toUpper_eq_underscore_iff]

theorem numberOf_concat (cs : List Char) (c : Char) :
    numberOf (cs ++ [c]) = 10 * numberOf cs + (c.toNat - 48) := by
  unfold numberOf
  rw [List.foldl_append]
  rfl

theorem numberOf_zeros (k : Nat) : numberOf (List.replicate k '0') = 0 := by
  induction k with
  | zero => rfl
  | succ k ih => rw [List.replicate_succ', numberOf_concat, ih]; rfl

theorem numberOf_zeros_append (k : Nat) (cs : List Char) :
    numberOf (List.replicate k '0' ++ cs) = numberOf cs := by
  have hzeros := numberOf_zeros k
  unfold numberOf at hzeros ⊢
  rw [List.foldl_append, hzeros]

theorem exists_zeros_of_numberOf {cs : List Char} (hdigits : cs.all Char.isDigit = true)
    (h : numberOf cs = 0) : ∃ k, cs = List.replicate k '0' := by
  induction cs using List.reverseRecOn with
  | nil => exact ⟨0, rfl⟩
  | append_singleton cs c ih =>
    rw [List.all_append, Bool.and_eq_true] at hdigits
    rw [numberOf_concat] at h
    obtain ⟨k, rfl⟩ := ih hdigits.1 (by omega)
    have hc := toNat_of_isDigit (List.all_eq_true.1 hdigits.2 c List.mem_cons_self)
    have hzero : c.toNat = '0'.toNat := by
      show c.toNat = 48
      omega
    exact ⟨k + 1, by rw [List.replicate_succ', Char.toNat_inj.1 hzero]⟩

/-- A number of one digit is written as zeros and that digit. -/
theorem exists_zeros_concat_of_numberOf {cs : List Char} {d : Char}
    (hdigits : cs.all Char.isDigit = true) (hd : 48 < d.toNat ∧ d.toNat ≤ 57)
    (h : numberOf cs = d.toNat - 48) : ∃ k, cs = List.replicate k '0' ++ [d] := by
  rcases List.eq_nil_or_concat cs with rfl | ⟨front, c, rfl⟩
  · have hzero : numberOf [] = 0 := rfl
    omega
  · rw [List.concat_eq_append, List.all_append, Bool.and_eq_true] at hdigits
    rw [List.concat_eq_append, numberOf_concat] at h
    have hc := toNat_of_isDigit (List.all_eq_true.1 hdigits.2 c List.mem_cons_self)
    obtain ⟨k, rfl⟩ := exists_zeros_of_numberOf hdigits.1 (by omega)
    rw [numberOf_zeros] at h
    have heq : c.toNat = d.toNat := by omega
    exact ⟨k, by rw [List.concat_eq_append, Char.toNat_inj.1 heq]⟩

end Text

/-! ## Numbered names -/

namespace Rule

/-- The expression that matches one word. -/
def exactly (word : String) : RegularExpression Char := (word.toList.map .char).foldr (· * ·) 1

/-- `(LINT)?RF0*3` -/
def numberedName : RegularExpression Char :=
  (1 + exactly "LINT") * exactly "RF" * (RegularExpression.char '0').star * .char '3'

theorem mem_exactly_iff {word : String} {cs : List Char} :
    cs ∈ (exactly word).matches' ↔ cs = word.toList := by
  unfold exactly
  generalize word.toList = letters
  induction letters generalizing cs with
  | nil => exact Language.mem_one cs
  | cons c letters ih =>
    rw [List.map_cons, List.foldr_cons, RegularExpression.matches'_mul, Language.mem_mul]
    constructor
    · rintro ⟨_, rfl, rest, hrest, rfl⟩
      rw [ih.1 hrest]
      rfl
    · rintro rfl
      exact ⟨[c], rfl, letters, ih.2 rfl, rfl⟩

theorem mem_star_char_iff {c : Char} {cs : List Char} :
    cs ∈ (RegularExpression.char c).star.matches' ↔ ∃ k, cs = List.replicate k c := by
  rw [RegularExpression.matches'_star, Language.mem_kstar]
  constructor
  · rintro ⟨pieces, rfl, hpieces⟩
    refine ⟨pieces.length, ?_⟩
    rw [List.eq_replicate_of_mem hpieces]
    simp
  · rintro ⟨k, rfl⟩
    refine ⟨List.replicate k [c], by simp, fun piece hpiece => List.eq_of_mem_replicate hpiece⟩

theorem mem_numberedName_iff {cs : List Char} :
    cs ∈ numberedName.matches' ↔
      ∃ lead k, (lead = [] ∨ lead = "LINT".toList) ∧
        cs = lead ++ ("RF".toList ++ (List.replicate k '0' ++ ['3'])) := by
  unfold numberedName
  simp only [RegularExpression.matches'_mul, RegularExpression.matches'_add, Language.mem_mul,
    Language.mem_add, mem_exactly_iff, mem_star_char_iff]
  constructor
  · rintro ⟨_, ⟨_, ⟨lead, hlead, _, rfl, rfl⟩, _, ⟨k, rfl⟩, rfl⟩, _, rfl, rfl⟩
    exact ⟨lead, k, hlead, by simp⟩
  · rintro ⟨lead, k, hlead, rfl⟩
    exact ⟨_, ⟨_, ⟨lead, hlead, _, rfl, rfl⟩, _, ⟨k, rfl⟩, rfl⟩, _, rfl, by simp⟩

theorem numberOf_padded (n : Nat) : numberOf (padded n).toList = n := by
  unfold padded
  rw [String.toList_append, String.toList_ofList, numberOf_zeros_append]
  show numberOf (String.ofList (Nat.toDigits 10 n)).toList = n
  rw [String.toList_ofList]
  exact (reads_toDigits n).2

/-- Only the family `RF` and the number 3 give the code of the rule. -/
theorem eq_of_numbered_code {family : List Char} {n : Nat} (hlength : family.length = 2)
    (h : "LINT_" ++ String.ofList family ++ "_" ++ padded n = "LINT_RF_003") :
    family = "RF".toList ∧ n = 3 := by
  have hletters : "LINT_".toList ++ (family ++ '_' :: (padded n).toList) =
      "LINT_".toList ++ ("RF".toList ++ '_' :: "003".toList) := by
    have hlists := congrArg String.toList h
    simpa using hlists
  obtain ⟨hfamily, hrest⟩ := List.append_inj (List.append_cancel_left hletters) hlength
  refine ⟨hfamily, ?_⟩
  rw [← numberOf_padded n, (List.cons.inj hrest).2]
  rfl

/-- Any number of zeros before the 3 gives the code. -/
theorem codeOfNumbered?_of_compact {name lead : List Char} {k : Nat}
    (hlead : lead = [] ∨ lead = "LINT".toList)
    (h : (upper name).filter (· ≠ '_') =
      lead ++ ("RF".toList ++ (List.replicate k '0' ++ ['3']))) :
    codeOfNumbered? name = some "LINT_RF_003" := by
  have hdigits : (List.replicate k '0' ++ ['3']).all Char.isDigit = true := by
    rw [List.all_append, List.all_replicate]
    split <;> rfl
  have hnumber : numberBelow? (Nat.pow 2 32) (List.replicate k '0' ++ ['3']) = some 3 := by
    rw [numberBelow?_eq_some_iff]
    exact ⟨⟨hdigits, numberOf_zeros_append k ['3']⟩, by decide⟩
  obtain ⟨d, digits, hcons⟩ := List.exists_cons_of_ne_nil
    (List.append_ne_nil_of_right_ne_nil (List.replicate k '0') (List.cons_ne_nil '3' []))
  have hd : d.isDigit = true := by
    rw [hcons] at hdigits
    exact List.all_eq_true.1 hdigits d List.mem_cons_self
  rw [hcons] at h hnumber
  have hrest : (if "LINT".toList.isPrefixOf (lead ++ ("RF".toList ++ d :: digits)) = true
      then (lead ++ ("RF".toList ++ d :: digits)).drop 4
      else lead ++ ("RF".toList ++ d :: digits)) = "RF".toList ++ d :: digits := by
    rcases hlead with rfl | rfl <;> rfl
  have hfamily : ("RF".toList ++ d :: digits).takeWhile (fun c => !c.isDigit) = "RF".toList := by
    show 'R' :: 'F' :: (d :: digits).takeWhile (fun c => !c.isDigit) = _
    rw [List.takeWhile_cons, hd]
    rfl
  have hbehind : ("RF".toList ++ d :: digits).dropWhile (fun c => !c.isDigit) = d :: digits := by
    show (d :: digits).dropWhile (fun c => !c.isDigit) = _
    rw [List.dropWhile_cons, hd]
    rfl
  unfold codeOfNumbered?
  rw [h]
  dsimp only
  rw [hrest, hfamily, hbehind, hnumber]
  rfl

theorem codeOfNumbered?_eq_some_iff {name : List Char} :
    codeOfNumbered? name = some "LINT_RF_003" ↔
      upper (name.filter (· ≠ '_')) ∈ numberedName.matches' := by
  rw [mem_numberedName_iff, ← filter_upper]
  constructor
  · intro h
    obtain ⟨lead, family, number, hcompact, hlead, hlength, -, hdigits, hcode⟩ :=
      exists_of_codeOfNumbered? h
    obtain ⟨rfl, hnumber⟩ := eq_of_numbered_code hlength hcode.symm
    obtain ⟨k, rfl⟩ := exists_zeros_concat_of_numberOf (d := '3') hdigits (by decide) hnumber
    exact ⟨lead, k, hlead, hcompact⟩
  · rintro ⟨lead, k, hlead, hcompact⟩
    exact codeOfNumbered?_of_compact hlead hcompact

/-! ## All names -/

/-- The names that refer to the rule. -/
def IsName (name : List Char) : Prop :=
  sameLetters name "L028".toList = true ∨ sameLetters name "references.consistent".toList = true ∨
    upper (name.filter (· ≠ '_')) ∈ numberedName.matches'

/-- The listed names with a family match the expression, in any letter case. -/
theorem mem_numberedName_of_lower_eq {name listed : List Char} (h : lower listed = lower name)
    {lead : List Char} {k : Nat} (hlead : lead = [] ∨ lead = "LINT".toList)
    (hlisted : (upper listed).filter (· ≠ '_') =
      lead ++ ("RF".toList ++ (List.replicate k '0' ++ ['3']))) :
    upper (name.filter (· ≠ '_')) ∈ numberedName.matches' := by
  rw [mem_numberedName_iff, ← filter_upper, ← upper_of_lower_eq h]
  exact ⟨lead, k, hlead, hlisted⟩

theorem isName_of_isNamed {name : List Char}
    (h : isNamed name consistentReferences = true) : IsName name := by
  obtain ⟨listed, hmem, hsame⟩ := List.any_eq_true.1 h
  rw [sameLetters_iff] at hsame
  have hcases : listed = "LINT_RF_003" ∨ listed = "references.consistent" ∨ listed = "RF03" ∨
      listed = "L028" := by
    simpa [names, RuleNames.list] using hmem
  rcases hcases with rfl | rfl | rfl | rfl
  · exact .inr (.inr (mem_numberedName_of_lower_eq hsame (k := 2) (.inr rfl) (by decide)))
  · exact .inr (.inl (sameLetters_iff.2 hsame.symm))
  · exact .inr (.inr (mem_numberedName_of_lower_eq hsame (k := 1) (.inl rfl) (by decide)))
  · exact .inl (sameLetters_iff.2 hsame.symm)

theorem isNamed_of_sameLetters {name : List Char} {listed : String}
    (hlisted : listed ∈ consistentReferences.names.list)
    (h : sameLetters name listed.toList = true) : isNamed name consistentReferences = true := by
  refine List.any_eq_true.2 ⟨listed, hlisted, ?_⟩
  rw [sameLetters_iff] at h ⊢
  exact h.symm

theorem ofName?_eq_some_iff {raw : String} :
    ofName? raw = some consistentReferences ↔ IsName (trim raw.toList) := by
  unfold ofName?
  dsimp only
  generalize trim raw.toList = name
  cases hnamed : isNamed name consistentReferences with
  | true =>
    have hfind : all.find? (isNamed name) = some consistentReferences :=
      List.find?_cons_of_pos hnamed
    rw [hfind]
    exact ⟨fun _ => isName_of_isNamed hnamed, fun _ => rfl⟩
  | false =>
    have hfind : all.find? (isNamed name) = none :=
      List.find?_cons_of_neg (by simp [hnamed])
    rw [hfind]
    dsimp only
    have hcode : ((codeOfNumbered? name).bind fun code => all.find? fun r => r.code == code) =
        some consistentReferences ↔ codeOfNumbered? name = some "LINT_RF_003" := by
      rw [Option.bind_eq_some_iff]
      constructor
      · rintro ⟨code, hcode, hfound⟩
        have hbeq := List.find?_some (p := fun r : Rule => r.code == code) hfound
        rw [hcode, ← eq_of_beq hbeq]
        rfl
      · intro hcode
        exact ⟨_, hcode, rfl⟩
    rw [hcode, codeOfNumbered?_eq_some_iff]
    constructor
    · exact fun hnumbered => .inr (.inr hnumbered)
    · rintro (hlegacy | hdotted | hnumbered)
      · rw [isNamed_of_sameLetters (by decide) hlegacy] at hnamed
        cases hnamed
      · rw [isNamed_of_sameLetters (by decide) hdotted] at hnamed
        cases hnamed
      · exact hnumbered

/-- A text refers to the rule exactly if it is one of the rule's names with blanks around it, and to
nothing otherwise. -/
theorem names_are_exact_language (raw : String) :
    ∃ name, Stripped raw.toList name ∧
      ((ofName? raw).map code = some "LINT_RF_003" ↔ IsName name) ∧
      ((ofName? raw).map code = none ↔ ¬IsName name) := by
  refine ⟨trim raw.toList, stripped_trim raw.toList, ?_, ?_⟩
  · rw [← ofName?_eq_some_iff, Option.map_eq_some_iff]
    constructor
    · rintro ⟨⟨⟩, hname, -⟩
      exact hname
    · intro hname
      exact ⟨consistentReferences, hname, rfl⟩
  · rw [← ofName?_eq_some_iff, Option.map_eq_none_iff]
    cases ofName? raw with
    | none => simp
    | some r => cases r; simp

-- zeros and underscores do not count; what is 3 only modulo a power of two is another number
example : ["__l_iNt_rF_000000000003\t", "RF4294967299", "RF03a", "ＲＦ03", "RF０3"].map ofName? =
    [some consistentReferences, none, none, none, none] := by
  decide

end Rule

end ColumnLint
