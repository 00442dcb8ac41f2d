import ColumnLint.Proofs.QuotedText

/-
  Tables with and without colours. A coloured text is the plain one with pieces of it between a
  switch to a colour and the switch back (`Colours`), and both tables of a report are in this relation
  (`colours_table`). So the plain table is what is left when the switches are taken out
  (`Colours.uncoloured_eq`), and no colour runs into the next one or over the end of a line
  (`Colours.closes`).
-/

namespace ColumnLint

open Text

/-! ## Switches taken out -/

/-- What follows a switch of colours at the front of a text: an escape, a bracket, digits and the
letter `m`. -/
def afterSwitch? (cs : List Char) : Option (List Char) := do
  let cs ← afterFront? ['\x1b', '['] cs
  if cs.takeWhile Char.isDigit = [] then none
  else afterFront? ['m'] (cs.dropWhile Char.isDigit)

theorem takeWhile_digits {digits : List Char} (h : ∀ c ∈ digits, c.isDigit = true)
    (rest : List Char) : (digits ++ 'm' :: rest).takeWhile Char.isDigit = digits := by
  rw [List.takeWhile_append_of_pos h, List.takeWhile_cons_of_neg (by decide), List.append_nil]

theorem dropWhile_digits {digits : List Char} (h : ∀ c ∈ digits, c.isDigit = true)
    (rest : List Char) : (digits ++ 'm' :: rest).dropWhile Char.isDigit = 'm' :: rest := by
  rw [List.dropWhile_append_of_pos h, List.dropWhile_cons_of_neg (by decide)]

theorem colourSwitch_append (digits rest : List Char) :
    colourSwitch digits ++ rest = '\x1b' :: '[' :: (digits ++ 'm' :: rest) := by
  simp [colourSwitch]

theorem afterSwitch?_eq_some_iff {cs rest : List Char} :
    afterSwitch? cs = some rest ↔
      ∃ digits, digits ≠ [] ∧ (∀ c ∈ digits, c.isDigit = true) ∧
        cs = colourSwitch digits ++ rest := by
  unfold afterSwitch?
  constructor
  · intro h
    obtain ⟨inner, hinner, h⟩ := Option.bind_eq_some_iff.1 h
    rw [afterFront?_eq_some_iff] at hinner
    split at h
    · cases h
    · rename_i hsome
      rw [afterFront?_eq_some_iff] at h
      have hsplit := List.takeWhile_append_dropWhile (p := Char.isDigit) (l := inner)
      rw [h] at hsplit
      refine ⟨inner.takeWhile Char.isDigit, hsome, fun c hc => List.mem_takeWhile_imp hc, ?_⟩
      rw [colourSwitch_append, hinner]
      exact congrArg (['\x1b', '['] ++ ·) hsplit.symm
  · rintro ⟨digits, hsome, hdigits, rfl⟩
    refine Option.bind_eq_some_iff.2 ⟨digits ++ 'm' :: rest, ?_, ?_⟩
    · rw [afterFront?_eq_some_iff, colourSwitch_append]
      rfl
    · rw [takeWhile_digits hdigits, dropWhile_digits hdigits, if_neg hsome, afterFront?_eq_some_iff]
      rfl

theorem length_lt_of_afterSwitch? {cs rest : List Char} (h : afterSwitch? cs = some rest) :
    rest.length < cs.length := by
  obtain ⟨digits, -, -, rfl⟩ := afterSwitch?_eq_some_iff.1 h
  simp only [colourSwitch, List.length_append, List.length_cons]
  omega

/-- A text without its switches of colours. -/
def uncoloured : List Char → List Char
  | [] => []
  | c :: cs =>
    match h : afterSwitch? (c :: cs) with
    | some rest =>
      have := length_lt_of_afterSwitch? h
      uncoloured rest
    | none => c :: uncoloured cs
termination_by cs => cs.length
decreasing_by
  · exact this
  · exact Nat.lt_succ_self cs.length

theorem uncoloured_switch {digits : List Char} (hsome : digits ≠ [])
    (hdigits : ∀ c ∈ digits, c.isDigit = true) (rest : List Char) :
    uncoloured (colourSwitch digits ++ rest) = uncoloured rest := by
  have hafter : afterSwitch? (colourSwitch digits ++ rest) = some rest :=
    afterSwitch?_eq_some_iff.2 ⟨digits, hsome, hdigits, rfl⟩
  unfold colourSwitch at hafter ⊢
  rw [List.cons_append, List.cons_append] at hafter ⊢
  rw [uncoloured]
  split
  · rename_i rest' h
    rw [hafter] at h
    cases h
    rfl
  · rename_i h
    rw [hafter] at h
    cases h

theorem uncoloured_append {plain : List Char} (h : '\x1b' ∉ plain) (rest : List Char) :
    uncoloured (plain ++ rest) = plain ++ uncoloured rest := by
  induction plain with
  | nil => rfl
  | cons c plain ih =>
    have hc : '\x1b' ≠ c := fun heq => h (heq ▸ List.mem_cons_self)
    have hnone : afterSwitch? (c :: (plain ++ rest)) = none := by
      rw [Option.eq_none_iff_forall_ne_some]
      intro rest' hrest
      obtain ⟨digits, -, -, heq⟩ := afterSwitch?_eq_some_iff.1 hrest
      exact hc (List.cons.inj heq).1.symm
    rw [List.cons_append, List.cons_append, uncoloured]
    split
    · rename_i rest' hrest
      rw [hnone] at hrest
      cases hrest
    · rw [ih fun hmem => h (List.mem_cons_of_mem c hmem)]

/-! ## Coloured texts -/

/-- A text, and the same text with colours: pieces of it stand between the switch to a colour and the
switch back. Of each piece `p` holds. -/
inductive Colours (p : List Char → Prop) : List Char → List Char → Prop where
  | nil : Colours p [] []
  | plain {c : Char} {plain coloured : List Char} (hc : c ≠ '\x1b') (h : Colours p plain coloured) :
      Colours p (c :: plain) (c :: coloured)
  | piece (c : Colour) {text plain coloured : List Char} (htext : p text)
      (h : Colours p plain coloured) :
      Colours p (text ++ plain) (paint true c text ++ coloured)

/-- Each switch to a colour is followed by the switch back, with no other switch and no end of line
between them. -/
def ClosesColours (text : List Char) : Prop :=
  ∀ before digits behind, text = before ++ (colourSwitch digits ++ behind) →
    (∀ c ∈ digits, c.isDigit = true) → digits ≠ "39".toList →
    ∃ inside rest, behind = inside ++ (colourSwitch "39".toList ++ rest) ∧
      '\x1b' ∉ inside ∧ '\n' ∉ inside

theorem Colour.isDigit_of_mem_digits (c : Colour) : ∀ d ∈ c.digits, d.isDigit = true := by
  have hall : c.digits.all Char.isDigit = true := by cases c <;> rfl
  exact List.all_eq_true.1 hall

theorem isDigit_of_mem_back : ∀ d ∈ "39".toList, d.isDigit = true := by
  have hall : "39".toList.all Char.isDigit = true := rfl
  exact List.all_eq_true.1 hall

theorem Colour.digits_ne_nil (c : Colour) : c.digits ≠ [] := by
  cases c <;> decide

/-- A text before an escape holds all that has none. -/
theorem exists_eq_append_of_escape {plain rest before behind : List Char} (h : '\x1b' ∉ plain)
    (heq : plain ++ rest = before ++ '\x1b' :: behind) :
    ∃ before', before = plain ++ before' ∧ rest = before' ++ '\x1b' :: behind := by
  rcases List.append_eq_append_iff.1 heq with ⟨middle, hbefore, hrest⟩ | ⟨middle, hplain, hrest⟩
  · exact ⟨middle, hbefore, hrest⟩
  · cases middle with
    | nil => exact ⟨[], by simpa using hplain.symm, hrest.symm⟩
    | cons x middle =>
      obtain ⟨rfl, -⟩ := List.cons.inj hrest
      exact absurd (by simp [hplain]) h

/-- A switch has one reading: its digits end at the letter `m`. -/
theorem eq_of_colourSwitch_append {digits others rest behind : List Char}
    (hdigits : ∀ c ∈ digits, c.isDigit = true) (hothers : ∀ c ∈ others, c.isDigit = true)
    (heq : colourSwitch digits ++ rest = colourSwitch others ++ behind) :
    digits = others ∧ rest = behind := by
  rw [colourSwitch_append, colourSwitch_append] at heq
  have hinner := (List.cons.inj (List.cons.inj heq).2).2
  have htake := congrArg (List.takeWhile Char.isDigit) hinner
  have hdrop := congrArg (List.dropWhile Char.isDigit) hinner
  rw [takeWhile_digits hdigits, takeWhile_digits hothers] at htake
  rw [dropWhile_digits hdigits, dropWhile_digits hothers] at hdrop
  exact ⟨htake, (List.cons.inj hdrop).2⟩

/-- Behind the escape of a switch the next escape is behind the whole switch. -/
theorem exists_of_colourSwitch_append {digits rest before behind : List Char} {x : Char}
    (hdigits : ∀ c ∈ digits, c.isDigit = true)
    (heq : colourSwitch digits ++ rest = x :: before ++ '\x1b' :: behind) :
    ∃ later, rest = later ++ '\x1b' :: behind := by
  have hplain : '\x1b' ∉ '[' :: (digits ++ ['m']) := by
    have hmem : '\x1b' ∉ digits := fun hmem => absurd (hdigits _ hmem) (by decide)
    simp [hmem]
  have hinner : '[' :: (digits ++ ['m']) ++ rest = before ++ '\x1b' :: behind := by
    simpa [colourSwitch] using (List.cons.inj heq).2
  obtain ⟨later, -, hlater⟩ := exists_eq_append_of_escape hplain hinner
  exact ⟨later, hlater⟩

namespace Colours

variable {p : List Char → Prop} {plain coloured more moreColoured : List Char}

theorem append (h : Colours p plain coloured) (h' : Colours p more moreColoured) :
    Colours p (plain ++ more) (coloured ++ moreColoured) := by
  induction h with
  | nil => exact h'
  | plain hc _ ih => exact .plain hc ih
  | piece c htext _ ih =>
    rw [List.append_assoc, List.append_assoc]
    exact .piece c htext ih

theorem refl (h : '\x1b' ∉ plain) : Colours p plain plain := by
  induction plain with
  | nil => exact .nil
  | cons c plain ih =>
    exact .plain (fun heq => h (heq ▸ List.mem_cons_self))
      (ih fun hmem => h (List.mem_cons_of_mem c hmem))

theorem paint (c : Colour) (h : p plain) :
    Colours p (ColumnLint.paint false c plain) (ColumnLint.paint true c plain) := by
  have hpiece := piece c h .nil
  rwa [List.append_nil, List.append_nil] at hpiece

theorem flatMap {α : Type} {items : List α} {f g : α → List Char}
    (h : ∀ x ∈ items, Colours p (f x) (g x)) : Colours p (items.flatMap f) (items.flatMap g) := by
  induction items with
  | nil => exact .nil
  | cons x items ih =>
    rw [List.flatMap_cons, List.flatMap_cons]
    exact (h x List.mem_cons_self).append (ih fun y hy => h y (List.mem_cons_of_mem x hy))

/-- The plain text is what is left of the coloured one without its switches. -/
theorem uncoloured_eq (h : Colours p plain coloured) (hp : ∀ text, p text → '\x1b' ∉ text) :
    uncoloured coloured = plain := by
  induction h with
  | nil => rw [uncoloured]
  | @plain c plain coloured hc _ ih =>
    have hplain : '\x1b' ∉ [c] := by simpa using hc.symm
    rw [← List.singleton_append, uncoloured_append hplain, ih, List.singleton_append]
  | @piece c text plain coloured htext _ ih =>
    rw [ColumnLint.paint, if_pos rfl, List.append_assoc, List.append_assoc,
      uncoloured_switch c.digits_ne_nil c.isDigit_of_mem_digits, uncoloured_append (hp text htext),
      uncoloured_switch (by decide) isDigit_of_mem_back, ih]

/-- Every colour is switched back before the next one and before the end of its line. -/
theorem closes (h : Colours p plain coloured) (hp : ∀ text, p text → '\x1b' ∉ text ∧ '\n' ∉ text) :
    ClosesColours coloured := by
  induction h with
  | nil =>
    intro before digits behind heq
    cases before <;> cases heq
  | plain hc _ ih =>
    intro before digits behind heq
    cases before with
    | nil => exact absurd (List.cons.inj heq).1 hc
    | cons x before => exact ih before digits behind (List.cons.inj heq).2
  | @piece c text plain coloured htext _ ih =>
    intro before digits behind heq hdigits hback
    obtain ⟨hescape, hline⟩ := hp text htext
    rw [ColumnLint.paint, if_pos rfl, List.append_assoc, List.append_assoc] at heq
    cases before with
    | nil =>
      obtain ⟨-, hbehind⟩ := eq_of_colourSwitch_append c.isDigit_of_mem_digits hdigits heq
      exact ⟨text, coloured, hbehind.symm, hescape, hline⟩
    | cons x before =>
      -- the next escape is that of the switch back, and all others are in what follows it
      obtain ⟨later, hlater⟩ := exists_of_colourSwitch_append c.isDigit_of_mem_digits heq
      obtain ⟨before, rfl, heq⟩ := exists_eq_append_of_escape hescape hlater
      cases before with
      | nil =>
        obtain ⟨heq, -⟩ := eq_of_colourSwitch_append isDigit_of_mem_back hdigits heq
        exact absurd heq.symm hback
      | cons y before =>
        obtain ⟨later, hlater⟩ := exists_of_colourSwitch_append isDigit_of_mem_back heq
        exact ih later digits behind hlater hdigits hback

end Colours

/-! ## Both tables of a report -/

theorem isControl_fileCount {n : Nat} {c : Char} (h : c ∈ fileCount n) : isControl c = false := by
  rcases List.mem_append.1 h with h | h
  · exact isControl_toString h
  · split at h
    · exact isControl_of_all (by decide) c h
    · exact isControl_of_all (by decide) c h

theorem isControl_hundredths {n : Nat} {c : Char} (h : c ∈ hundredths n) : isControl c = false := by
  rcases List.mem_append.1 h with h | h
  · rcases List.mem_append.1 h with h | h
    · exact isControl_toString h
    · rcases List.mem_cons.1 h with rfl | h
      · decide
      · rw [List.eq_of_mem_replicate h]
        decide
  · exact isControl_toString h

theorem isControl_elapsed {nanos : Nat} {c : Char} (h : c ∈ elapsed nanos) :
    isControl c = false := by
  unfold elapsed at h
  split at h
  · rcases List.mem_append.1 h with h | h
    · exact isControl_hundredths h
    · exact isControl_of_all (by decide) c h
  · split at h
    · rcases List.mem_append.1 h with h | h
      · exact isControl_toString h
      · exact isControl_of_all (by decide) c h
    · rcases List.mem_append.1 h with h | h
      · exact isControl_toString h
      · exact isControl_of_all (by decide) c h

/-- A text without control characters has no escape. -/
theorem escape_not_mem {cs : List Char} (h : ∀ c ∈ cs, isControl c = false) : '\x1b' ∉ cs := by
  intro hmem
  exact absurd (h _ hmem) (by decide)

section Tables

variable {p : List Char → Prop}

theorem colours_row {r : Row} (hcode : p r.code.toList) (hmessage : '\x1b' ∉ r.message.toList) :
    Colours p (r.print false) (r.print true) := by
  have hplaces : ∀ n, '\x1b' ∉ inPlaces n := fun n => escape_not_mem fun _ => isControl_inPlaces
  have hlead : '\x1b' ∉ "L:".toList ++ inPlaces r.line ++ " | P:".toList ++ inPlaces r.column ++
      " | ".toList := by simp [hplaces]
  unfold Row.print
  exact ((((Colours.refl hlead).append (.paint _ hcode)).append (.refl (by decide))).append
    (.refl hmessage)).append (.refl (by decide))

theorem colours_section {f : FileReport} (hplain : ∀ text, (∀ c ∈ text, isControl c = false) → p text)
    (hname : '\x1b' ∉ f.name.toList)
    (hrows : ∀ r ∈ f.rows, p r.code.toList ∧ '\x1b' ∉ r.message.toList) :
    Colours p (f.print false) (f.print true) := by
  have hlead : '\x1b' ∉ "== [".toList ++ f.name.toList ++ "] ".toList := by simp [hname]
  have hlines : Colours p ((f.rows.mergeSort Row.notAfter).flatMap (Row.print false))
      ((f.rows.mergeSort Row.notAfter).flatMap (Row.print true)) := by
    refine .flatMap fun r hr => ?_
    obtain ⟨hcode, hmessage⟩ := hrows r (List.mem_mergeSort.1 hr)
    exact colours_row hcode hmessage
  unfold FileReport.print
  dsimp only
  refine (((Colours.refl hlead).append ?_).append (.refl (by decide))).append hlines
  split
  · exact .paint _ (hplain _ (isControl_of_all (by decide)))
  · exact .paint _ (hplain _ (isControl_of_all (by decide)))

theorem colours_table {files : List FileReport}
    (hplain : ∀ text, (∀ c ∈ text, isControl c = false) → p text)
    (hnames : ∀ f ∈ files, '\x1b' ∉ f.name.toList)
    (hrows : ∀ f ∈ files, ∀ r ∈ f.rows, p r.code.toList ∧ '\x1b' ∉ r.message.toList) (nanos : Nat) :
    Colours p (table false nanos files) (table true nanos files) := by
  have hsections : Colours p (files.flatMap (FileReport.print false))
      (files.flatMap (FileReport.print true)) :=
    .flatMap fun f hf => colours_section hplain (hnames f hf) (hrows f hf)
  have hcount : ∀ (c : Colour) (n : Nat),
      Colours p (paint false c (fileCount n)) (paint true c (fileCount n)) :=
    fun c n => .paint c (hplain _ fun _ => isControl_fileCount)
  have hnumber : ∀ n : Nat, '\x1b' ∉ (toString n).toList :=
    fun n => escape_not_mem fun _ => isControl_toString
  have htime : '\x1b' ∉ elapsed nanos := escape_not_mem fun _ => isControl_elapsed
  unfold table
  dsimp only
  exact ((((((((hsections.append (.refl (by decide))).append (.refl htime)).append
    (.refl (by decide))).append (hcount _ _)).append (.refl (by decide))).append (hcount _ _)).append
    (.refl (by decide))).append (.refl (hnumber _))).append (.refl (by decide))

end Tables

/-- Colours change nothing but colours: without its switches a coloured table is the plain one. Each
colour is switched back before the next one and before the end of its line, if no code of a row holds
a line break. -/
theorem colours_change_nothing_else {files : List FileReport}
    (h : ∀ f ∈ files, '\x1b' ∉ f.name.toList ∧
      ∀ r ∈ f.rows, '\x1b' ∉ r.code.toList ∧ '\x1b' ∉ r.message.toList) (nanos : Nat) :
    uncoloured (table true nanos files) = table false nanos files ∧
      ((∀ f ∈ files, ∀ r ∈ f.rows, '\n' ∉ r.code.toList) →
        ClosesColours (table true nanos files)) := by
  refine ⟨?_, fun hlines => ?_⟩
  · have hcolours := colours_table (p := fun text => '\x1b' ∉ text) (fun _ => escape_not_mem)
      (fun f hf => (h f hf).1) (fun f hf => (h f hf).2) nanos
    exact hcolours.uncoloured_eq fun _ => id
  · have hplain : ∀ text : List Char, (∀ c ∈ text, isControl c = false) →
        '\x1b' ∉ text ∧ '\n' ∉ text :=
      fun text htext => ⟨escape_not_mem htext, fun hmem => absurd (htext _ hmem) (by decide)⟩
    have hcolours := colours_table (p := fun text => '\x1b' ∉ text ∧ '\n' ∉ text) hplain
      (fun f hf => (h f hf).1) (fun f hf r hr => ⟨⟨((h f hf).2 r hr).1, hlines f hf r hr⟩,
        ((h f hf).2 r hr).2⟩) nanos
    exact hcolours.closes fun _ => id

/-- A text that passes and one with an error, under a name with a bracket as in a switch. -/
def mixedReports : List FileReport :=
  [⟨"a.sql", []⟩, ⟨"[31m.sql", [⟨2, 7, "PARSE_ERROR", "a\n[39m", .error⟩]⟩]

theorem mixedReports_colours :
    '\x1b' ∈ table true 0 mixedReports ∧
      uncoloured (table true 0 mixedReports) = table false 0 mixedReports ∧
      ClosesColours (table true 0 mixedReports) := by
  have hplain : ∀ f ∈ mixedReports, '\x1b' ∉ f.name.toList ∧
      ∀ r ∈ f.rows, '\x1b' ∉ r.code.toList ∧ '\x1b' ∉ r.message.toList := by
    simp [mixedReports]
  have hlines : ∀ f ∈ mixedReports, ∀ r ∈ f.rows, '\n' ∉ r.code.toList := by
    simp [mixedReports]
  obtain ⟨hsame, hcloses⟩ := colours_change_nothing_else hplain 0
  refine ⟨?_, hsame, hcloses hlines⟩
  simp [table, paint, colourSwitch]

end ColumnLint
