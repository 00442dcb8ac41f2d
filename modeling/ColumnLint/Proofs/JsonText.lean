import ColumnLint.Json.Printer
import ColumnLint.Json.Reader
import Mathlib.Data.List.Forall2

/-
  Texts that write JSON values: the words for null and truth, decimal numbers, strings with escapes,
  and lists and objects with commas between their parts and blanks around them (`Written`). Both
  printers write a value of 64-bit whole numbers and distinct field names by these rules
  (`written_compact`, `written_pretty`).
-/

namespace ColumnLint.Json

open Text

/-! ## The rules -/

/-- Blanks, as they may stand between the parts of a text. -/
def IsGap (cs : List Char) : Prop := ∀ c ∈ cs, isSpace c = true

/-- Letters behind a backslash, each with the character that it stands for. -/
def shortEscapes : List (Char × Char) :=
  [('"', '"'), ('\\', '\\'), ('/', '/'), ('b', '\x08'), ('f', '\x0c'), ('n', '\n'), ('r', '\r'),
    ('t', '\t')]

/-- A character of a string is written as itself or by an escape. Quotes, backslashes and control
characters need one. -/
inductive CharWritten : Char → List Char → Prop where
  | plain {c : Char} (hquote : c ≠ '"') (hslash : c ≠ '\\') (hcontrol : 0x20 ≤ c.toNat) :
    CharWritten c [c]
  | short {letter c : Char} (h : (letter, c) ∈ shortEscapes) : CharWritten c ['\\', letter]
  | numbered {c x₁ x₂ x₃ x₄ : Char} {n₁ n₂ n₃ n₄ : Nat} (h₁ : hexValue? x₁ = some n₁)
    (h₂ : hexValue? x₂ = some n₂) (h₃ : hexValue? x₃ = some n₃) (h₄ : hexValue? x₄ = some n₄)
    (h : c.toNat = ((n₁ * 16 + n₂) * 16 + n₃) * 16 + n₄) :
    CharWritten c ['\\', 'u', x₁, x₂, x₃, x₄]

/-- A string is written character by character between quotes. -/
def StringWritten (s : String) (text : List Char) : Prop :=
  ∃ parts, List.Forall₂ CharWritten s.toList parts ∧ text = '"' :: (parts.flatten ++ ['"'])

/-- Values without parts. Whole numbers are written without leading zeros. -/
inductive ScalarWritten : Json → List Char → Prop where
  | null : ScalarWritten .null "null".toList
  | yes : ScalarWritten (.bool true) "true".toList
  | no : ScalarWritten (.bool false) "false".toList
  | natural {n : Nat} (h : n < Nat.pow 2 64) : ScalarWritten (.ofNat n) (Nat.toDigits 10 n)
  | string {s : String} {text : List Char} (h : StringWritten s text) :
    ScalarWritten (.string s) text

section Parts

variable (part : Json → List Char → Prop)

/-- A part with blanks around it. -/
def ItemWritten (x : Json) (text : List Char) : Prop :=
  ∃ before written behind, IsGap before ∧ part x written ∧ IsGap behind ∧
    text = before ++ (written ++ behind)

/-- A name, a colon and a part, with blanks around each. -/
def FieldWritten (field : String × Json) (text : List Char) : Prop :=
  ∃ before name gap value, IsGap before ∧ StringWritten field.1 name ∧ IsGap gap ∧
    ItemWritten part field.2 value ∧ text = before ++ (name ++ (gap ++ ':' :: value))

/-- Values of parts, with commas between them. -/
inductive CompoundWritten : Json → List Char → Prop where
  | array {items : List Json} {texts : List (List Char)}
    (h : List.Forall₂ (ItemWritten part) items texts) :
    CompoundWritten (.array items) ('[' :: (separated [','] texts ++ [']']))
  | object {fields : List (String × Json)} {texts : List (List Char)}
    (hnames : (fields.map Prod.fst).Nodup) (h : List.Forall₂ (FieldWritten part) fields texts) :
    CompoundWritten (.object fields) ('\x7b' :: (separated [','] texts ++ ['\x7d']))

end Parts

/-- A text writes a value whose lists and objects are nested no deeper than `depth`. -/
def Written : (depth : Nat) → Json → List Char → Prop
  | 0, j, text => ScalarWritten j text
  | depth + 1, j, text => ScalarWritten j text ∨ CompoundWritten (Written depth) j text

/-! ## Values that are printed -/

/-- A value without parts, which is a whole number of 64 bits if it is a number. -/
inductive Scalar : Json → Prop where
  | null : Scalar .null
  | bool (b : Bool) : Scalar (.bool b)
  | natural {n : Nat} (h : n < Nat.pow 2 64) : Scalar (.ofNat n)
  | string (s : String) : Scalar (.string s)

/-- A value of scalars in lists and objects, nested no deeper than `depth`, whose objects have each
name once. -/
def Plain : (depth : Nat) → Json → Prop
  | depth + 1, .array items => ∀ x ∈ items, Plain depth x
  | depth + 1, .object fields => (fields.map Prod.fst).Nodup ∧ ∀ f ∈ fields, Plain depth f.2
  | _, j => Scalar j

theorem plain_of_scalar {j : Json} (h : Scalar j) (depth : Nat) : Plain depth j := by
  cases depth <;> cases h <;> constructor <;> assumption

/-! ## Strings and numbers as printed -/

theorem hexValue?_hexDigit {n : Nat} (h : n < 16) : hexValue? (hexDigit n) = some n := by
  have hall : ∀ n < 16, hexValue? (hexDigit n) = some n := by decide
  exact hall n h

theorem charWritten_escapeChar (c : Char) : CharWritten c (escapeChar c) := by
  unfold escapeChar
  -- seven characters have a letter of their own
  iterate 7
    split
    · rename_i h
      exact .short (by rw [h]; decide)
  split
  · rename_i h
    have hzero : hexValue? '0' = some 0 := by decide
    exact .numbered hzero hzero (hexValue?_hexDigit (by omega)) (hexValue?_hexDigit (by omega))
      (by omega)
  · rename_i hquote hslash _ _ _ _ _ hcontrol
    exact .plain hquote hslash (by omega)

theorem stringWritten_printString (s : String) : StringWritten s (printString s) := by
  refine ⟨s.toList.map escapeChar, ?_, ?_⟩
  · rw [List.forall₂_map_right_iff]
    exact List.forall₂_same.2 fun c _ => charWritten_escapeChar c
  · unfold printString
    rw [List.flatMap_def, List.cons_append]

theorem printInteger_ofNat (n : Nat) : printInteger (n : Int) = Nat.toDigits 10 n := by
  show (String.ofList (Nat.toDigits 10 n)).toList = _
  rw [String.toList_ofList]

theorem scalarWritten_compact {j : Json} (h : Scalar j) : ScalarWritten j j.compact := by
  cases h with
  | null => exact .null
  | bool b => cases b with
    | true => exact .yes
    | false => exact .no
  | natural h =>
    unfold ofNat compact
    rw [printInteger_ofNat]
    exact .natural h
  | string s => exact .string (stringWritten_printString s)

theorem pretty_of_scalar {j : Json} (h : Scalar j) (indent : Nat) : j.pretty indent = j.compact := by
  cases h with
  | bool b => cases b <;> rfl
  | _ => rfl

/-! ## Lists and objects as printed -/

theorem compactItems_eq_map (items : List Json) : compactItems items = items.map compact := by
  induction items with
  | nil => rfl
  | cons x items ih => rw [compactItems, ih, List.map_cons]

theorem prettyItems_eq_map (indent : Nat) (items : List Json) :
    prettyItems indent items = items.map (pretty indent) := by
  induction items with
  | nil => rfl
  | cons x items ih => rw [prettyItems, ih, List.map_cons]

theorem compactFields_eq_map (fields : List (String × Json)) :
    compactFields fields = fields.map fun f => printString f.1 ++ ':' :: compact f.2 := by
  induction fields with
  | nil => rfl
  | cons f fields ih => rw [compactFields, ih, List.map_cons]

theorem prettyFields_eq_map (indent : Nat) (fields : List (String × Json)) :
    prettyFields indent fields =
      fields.map fun f => printString f.1 ++ ':' :: ' ' :: pretty indent f.2 := by
  induction fields with
  | nil => rfl
  | cons f fields ih => rw [prettyFields, ih, List.map_cons]

theorem compact_array (items : List Json) :
    compact (.array items) = '[' :: separated [','] (items.map compact) ++ [']'] := by
  rw [← compactItems_eq_map]
  rfl

theorem compact_object (fields : List (String × Json)) :
    compact (.object fields) = '\x7b' ::
      separated [','] (fields.map fun f => printString f.1 ++ ':' :: compact f.2) ++ ['\x7d'] := by
  rw [← compactFields_eq_map]
  rfl

theorem pretty_array (indent : Nat) (items : List Json) :
    pretty indent (.array items) = block indent '[' ']' (items.map (pretty (indent + 1))) := by
  rw [← prettyItems_eq_map]
  rfl

theorem pretty_object (indent : Nat) (fields : List (String × Json)) :
    pretty indent (.object fields) = block indent '\x7b' '\x7d'
      (fields.map fun f => printString f.1 ++ ':' :: ' ' :: pretty (indent + 1) f.2) := by
  rw [← prettyFields_eq_map]
  rfl

theorem separated_cons (separator text : List Char) (texts : List (List Char)) :
    separated separator (text :: texts) = text ++ texts.flatMap (separator ++ ·) := by
  induction texts generalizing text with
  | nil => simp [separated]
  | cons next texts ih =>
    rw [separated, ih, List.flatMap_cons, List.append_assoc, List.append_assoc]

theorem isGap_nil : IsGap [] := fun c hc => by cases hc

theorem IsGap.append {a b : List Char} (ha : IsGap a) (hb : IsGap b) : IsGap (a ++ b) := by
  intro c hc
  rcases List.mem_append.1 hc with hc | hc
  · exact ha c hc
  · exact hb c hc

theorem isGap_newLine (depth : Nat) : IsGap (newLine depth) := by
  intro c hc
  rcases List.mem_cons.1 hc with rfl | hc
  · rfl
  · rw [List.eq_of_mem_replicate hc]
    rfl

section Blocks

variable {α : Type} {R : α → List Char → Prop}

/-- Blanks behind a list of parts are blanks behind its last part. -/
theorem exists_separated_append (hback : ∀ x text gap, IsGap gap → R x text → R x (text ++ gap))
    {gap : List Char} (hgap : IsGap gap) {x : α} {xs : List α} {text : List Char}
    {texts : List (List Char)} (hx : R x text) (h : List.Forall₂ R xs texts) :
    ∃ texts', List.Forall₂ R (x :: xs) texts' ∧
      separated [','] (text :: texts) ++ gap = separated [','] texts' := by
  induction h generalizing x text with
  | nil => exact ⟨[text ++ gap], .cons (hback x text gap hgap hx) .nil, rfl⟩
  | cons hy _ ih =>
    obtain ⟨texts', htexts', heq⟩ := ih hy
    obtain ⟨next, rest, rfl⟩ : ∃ next rest, texts' = next :: rest := by
      cases htexts' with
      | cons => exact ⟨_, _, rfl⟩
    refine ⟨text :: next :: rest, .cons hx htexts', ?_⟩
    rw [separated, List.append_assoc, heq, separated]

/-- Parts laid out one a line are parts with blanks around them. -/
theorem exists_separated_of_block
    (hfront : ∀ x text gap, IsGap gap → R x text → R x (gap ++ text))
    (hback : ∀ x text gap, IsGap gap → R x text → R x (text ++ gap)) (depth : Nat)
    (opening closing : Char) {xs : List α} {texts : List (List Char)}
    (h : List.Forall₂ R xs texts) :
    ∃ texts', List.Forall₂ R xs texts' ∧
      block depth opening closing texts = opening :: (separated [','] texts' ++ [closing]) := by
  cases h with
  | nil => exact ⟨[], .nil, rfl⟩
  | @cons x text xs texts hx hrest =>
    have hgap := isGap_newLine (depth + 1)
    have hindented : List.Forall₂ R xs (texts.map (newLine (depth + 1) ++ ·)) := by
      rw [List.forall₂_map_right_iff]
      exact hrest.imp fun y next hy => hfront y next _ hgap hy
    obtain ⟨texts', htexts', heq⟩ := exists_separated_append hback (isGap_newLine depth)
      (hfront x text _ hgap hx) hindented
    refine ⟨texts', htexts', ?_⟩
    rw [← heq, separated_cons, List.flatMap_map]
    unfold block
    rw [List.isEmpty_cons, if_neg (by decide), separated_cons]
    simp

end Blocks

section Parts

variable {part : Json → List Char → Prop}

theorem itemWritten_of_part {x : Json} {text : List Char} (h : part x text) :
    ItemWritten part x text :=
  ⟨[], text, [], isGap_nil, h, isGap_nil, by simp⟩

theorem ItemWritten.front (x : Json) (text gap : List Char) (hgap : IsGap gap)
    (h : ItemWritten part x text) : ItemWritten part x (gap ++ text) := by
  obtain ⟨before, written, behind, hbefore, hpart, hbehind, rfl⟩ := h
  exact ⟨gap ++ before, written, behind, hgap.append hbefore, hpart, hbehind, by simp⟩

theorem ItemWritten.back (x : Json) (text gap : List Char) (hgap : IsGap gap)
    (h : ItemWritten part x text) : ItemWritten part x (text ++ gap) := by
  obtain ⟨before, written, behind, hbefore, hpart, hbehind, rfl⟩ := h
  exact ⟨before, written, behind ++ gap, hbefore, hpart, hbehind.append hgap, by simp⟩

theorem fieldWritten_of_item {field : String × Json} {value : List Char}
    (h : ItemWritten part field.2 value) :
    FieldWritten part field (printString field.1 ++ ':' :: value) :=
  ⟨[], _, [], value, isGap_nil, stringWritten_printString _, isGap_nil, h, rfl⟩

theorem FieldWritten.front (field : String × Json) (text gap : List Char) (hgap : IsGap gap)
    (h : FieldWritten part field text) : FieldWritten part field (gap ++ text) := by
  obtain ⟨before, name, between, value, hbefore, hname, hbetween, hvalue, rfl⟩ := h
  exact ⟨gap ++ before, name, between, value, hgap.append hbefore, hname, hbetween, hvalue, by simp⟩

theorem FieldWritten.back (field : String × Json) (text gap : List Char) (hgap : IsGap gap)
    (h : FieldWritten part field text) : FieldWritten part field (text ++ gap) := by
  obtain ⟨before, name, between, value, hbefore, hname, hbetween, hvalue, rfl⟩ := h
  exact ⟨before, name, between, value ++ gap, hbefore, hname, hbetween, hvalue.back _ _ _ hgap,
    by simp⟩

end Parts

/-! ## Printed values -/

theorem written_compact {depth : Nat} {j : Json} (h : Plain depth j) : Written depth j j.compact := by
  induction depth generalizing j with
  | zero => exact scalarWritten_compact h
  | succ depth ih =>
    cases j with
    | array items =>
      refine .inr ?_
      rw [compact_array]
      refine .array ?_
      rw [List.forall₂_map_right_iff]
      exact List.forall₂_same.2 fun x hx => itemWritten_of_part (ih (h x hx))
    | object fields =>
      refine .inr ?_
      rw [compact_object]
      refine .object h.1 ?_
      rw [List.forall₂_map_right_iff]
      exact List.forall₂_same.2 fun f hf =>
        fieldWritten_of_item (itemWritten_of_part (ih (h.2 f hf)))
    | _ => exact .inl (scalarWritten_compact h)

theorem written_pretty {depth : Nat} {j : Json} (h : Plain depth j) (indent : Nat) :
    Written depth j (j.pretty indent) := by
  induction depth generalizing j indent with
  | zero =>
    rw [pretty_of_scalar h]
    exact scalarWritten_compact h
  | succ depth ih =>
    cases j with
    | array items =>
      have hitems : List.Forall₂ (ItemWritten (Written depth)) items
          (items.map (pretty (indent + 1))) := by
        rw [List.forall₂_map_right_iff]
        exact List.forall₂_same.2 fun x hx => itemWritten_of_part (ih (h x hx) _)
      obtain ⟨texts, htexts, heq⟩ := exists_separated_of_block ItemWritten.front ItemWritten.back
        indent '[' ']' hitems
      rw [pretty_array, heq]
      exact .inr (.array htexts)
    | object fields =>
      have hspace : IsGap [' '] := List.forall_mem_singleton.2 rfl
      have hfields : List.Forall₂ (FieldWritten (Written depth)) fields
          (fields.map fun f => printString f.1 ++ ':' :: ' ' :: pretty (indent + 1) f.2) := by
        rw [List.forall₂_map_right_iff]
        exact List.forall₂_same.2 fun f hf => fieldWritten_of_item
          ((itemWritten_of_part (ih (h.2 f hf) _)).front _ _ _ hspace)
      obtain ⟨texts, htexts, heq⟩ := exists_separated_of_block FieldWritten.front FieldWritten.back
        indent '\x7b' '\x7d' hfields
      rw [pretty_object, heq]
      exact .inr (.object h.1 htexts)
    | _ =>
      rw [pretty_of_scalar h]
      exact .inl (scalarWritten_compact h)

/-! ## One line -/

theorem newline_not_mem_escapeChar (c : Char) : '\n' ∉ escapeChar c := by
  have hhex : ∀ n < 16, hexDigit n ≠ '\n' := by decide
  unfold escapeChar
  iterate 7
    split
    · decide
  split
  · rename_i h
    have hhigh := hhex (c.toNat / 16) (by omega)
    have hlow := hhex (c.toNat % 16) (by omega)
    simp [hhigh.symm, hlow.symm]
  · rename_i hnewline _ _ _
    exact fun h => hnewline (List.mem_singleton.1 h).symm

theorem newline_not_mem_printString (s : String) : '\n' ∉ printString s := by
  unfold printString
  rw [List.cons_append, List.mem_cons, List.mem_append, List.mem_flatMap]
  rintro (h | ⟨c, -, h⟩ | h)
  · cases h
  · exact newline_not_mem_escapeChar c h
  · cases List.mem_singleton.1 h

theorem mem_separated {separator : List Char} {texts : List (List Char)} {c : Char}
    (h : c ∈ separated separator texts) : c ∈ separator ∨ ∃ text ∈ texts, c ∈ text := by
  cases texts with
  | nil => cases h
  | cons text texts =>
    rw [separated_cons, List.mem_append, List.mem_flatMap] at h
    rcases h with h | ⟨next, hnext, h⟩
    · exact .inr ⟨text, List.mem_cons_self, h⟩
    · rcases List.mem_append.1 h with h | h
      · exact .inl h
      · exact .inr ⟨next, List.mem_cons_of_mem _ hnext, h⟩

/-- Between brackets on one line there is a new line only inside a part. -/
theorem newline_not_mem_brackets {opening closing : Char} {texts : List (List Char)}
    (hopening : opening ≠ '\n') (hclosing : closing ≠ '\n') (h : ∀ text ∈ texts, '\n' ∉ text) :
    '\n' ∉ opening :: separated [','] texts ++ [closing] := by
  rw [List.cons_append, List.mem_cons, List.mem_append, List.mem_singleton]
  rintro (heq | hmem | heq)
  · exact hopening heq.symm
  · rcases mem_separated hmem with hcomma | ⟨text, htext, hmem⟩
    · cases List.mem_singleton.1 hcomma
    · exact h text htext hmem
  · exact hclosing heq.symm

theorem newline_not_mem_compact {depth : Nat} {j : Json} (h : Plain depth j) : '\n' ∉ j.compact := by
  have hscalar : ∀ {j : Json}, Scalar j → '\n' ∉ j.compact := by
    intro j hj
    cases hj with
    | null => decide
    | bool b => cases b <;> decide
    | natural _ =>
      unfold ofNat compact
      rw [printInteger_ofNat]
      intro hmem
      cases Nat.isDigit_of_mem_toDigits (by decide) (by decide) hmem
    | string s => exact newline_not_mem_printString s
  induction depth generalizing j with
  | zero => exact hscalar h
  | succ depth ih =>
    cases j with
    | array items =>
      rw [compact_array]
      refine newline_not_mem_brackets (by decide) (by decide) fun text htext => ?_
      obtain ⟨x, hx, rfl⟩ := List.mem_map.1 htext
      exact ih (h x hx)
    | object fields =>
      rw [compact_object]
      refine newline_not_mem_brackets (by decide) (by decide) fun text htext => ?_
      obtain ⟨f, hf, rfl⟩ := List.mem_map.1 htext
      rw [List.mem_append, List.mem_cons]
      rintro (hmem | heq | hmem)
      · exact newline_not_mem_printString f.1 hmem
      · cases heq
      · exact ih (h.2 f hf) hmem
    | _ => exact hscalar h

end ColumnLint.Json
