import ColumnLint.Proofs.ExactViolations
import ColumnLint.Proofs.JsonText
import ColumnLint.Proofs.WrittenLocation
import ColumnLint.Report
import Mathlib.Algebra.Ring.Parity
import Mathlib.Data.List.DropRight

/-
  Quoted text in messages. The closing quote is the first one that no backslash takes the meaning
  from (`quoted_eq_enclosed`), and a reader that goes up to it gets the text back, whatever stands
  behind the quote (`unquote_quoted`). So a message tells which references were asked for, the kind
  and the text of its reference (`quoted_text_is_unambiguous`), and its row is one line.
-/

namespace ColumnLint

open Text

namespace Text

/-! ## Reading quoted text -/

/-- What a character behind a backslash stands for. -/
def meant (c : Char) : Char :=
  if c = 'n' then '\n' else if c = 'r' then '\r' else if c = 't' then '\t' else c

/-- The text before the first quote that is not escaped, and what stands behind it. -/
def upTo (quote : Char) : List Char → Option (List Char × List Char)
  | [] => none
  | '\\' :: 'x' :: high :: low :: rest =>
    (Json.hexValue? high).bind fun h => (Json.hexValue? low).bind fun l =>
      (upTo quote rest).map (Prod.map (Char.ofNat (16 * h + l) :: ·) id)
  | '\\' :: c :: rest => (upTo quote rest).map (Prod.map (meant c :: ·) id)
  | c :: rest =>
    if c = quote then some ([], rest) else (upTo quote rest).map (Prod.map (c :: ·) id)

/-- The text between a quote and the next one that is not escaped, and what stands behind it. -/
def unquote : List Char → Option (List Char × List Char)
  | [] => none
  | quote :: rest => upTo quote rest

variable {quote c : Char}

theorem quoteFor_cases (cs : List Char) : quoteFor cs = '"' ∨ quoteFor cs = '\'' := by
  unfold quoteFor
  split
  · exact .inl rfl
  · exact .inr rfl

theorem upTo_plain (hslash : c ≠ '\\') (hquote : c ≠ quote) (rest : List Char) :
    upTo quote (c :: rest) = (upTo quote rest).map (Prod.map (c :: ·) id) := by
  rw [upTo, if_neg hquote]
  · exact fun high low rest' h => absurd h hslash
  · exact fun c' rest' h => absurd h hslash

theorem upTo_quote (hquote : quote ≠ '\\') (rest : List Char) :
    upTo quote (quote :: rest) = some ([], rest) := by
  rw [upTo, if_pos rfl]
  · exact fun high low rest' h => absurd h hquote
  · exact fun c' rest' h => absurd h hquote

theorem upTo_numbered (quote : Char) {n : Nat} (h : n < 256) (rest : List Char) :
    upTo quote ('\\' :: 'x' :: hexDigit (n / 16) :: hexDigit (n % 16) :: rest) =
      (upTo quote rest).map (Prod.map (Char.ofNat n :: ·) id) := by
  rw [upTo, Json.hexValue?_hexDigit (by omega), Json.hexValue?_hexDigit (by omega),
    Option.bind_some, Option.bind_some, Nat.div_add_mod]

theorem toNat_lt_of_isControl (h : isControl c = true) : c.toNat < 256 := by
  simp only [isControl, Bool.or_eq_true, decide_eq_true_eq, beq_iff_eq] at h
  omega

/-- Each character is read back from what is written for it. -/
theorem upTo_escapeIn (hquote : quote = '"' ∨ quote = '\'') (c : Char) (rest : List Char) :
    upTo quote (escapeIn quote c ++ rest) = (upTo quote rest).map (Prod.map (c :: ·) id) := by
  unfold escapeIn
  split_ifs with hslash hfeed hreturn htab hquoted hcontrol
  · subst hslash; rfl
  · subst hfeed; rfl
  · subst hreturn; rfl
  · subst htab; rfl
  · rw [← hquoted] at hquote
    rcases hquote with rfl | rfl <;> rfl
  · have h := upTo_numbered quote (toNat_lt_of_isControl hcontrol) rest
    rw [Char.ofNat_toNat] at h
    exact h
  · exact upTo_plain hslash hquoted rest

theorem upTo_flatMap (hquote : quote = '"' ∨ quote = '\'') (cs rest : List Char) :
    upTo quote (cs.flatMap (escapeIn quote) ++ quote :: rest) = some (cs, rest) := by
  induction cs with
  | nil =>
    rcases hquote with rfl | rfl <;> exact upTo_quote (by decide) rest
  | cons c cs ih =>
    rw [List.flatMap_cons, List.append_assoc, upTo_escapeIn hquote, ih]
    rfl

/-- A text is read back from its quoted form, whatever stands behind that. -/
theorem unquote_quoted (cs rest : List Char) : unquote (quoted cs ++ rest) = some (cs, rest) := by
  have h := upTo_flatMap (quoteFor_cases cs) cs rest
  unfold quoted
  simp only [List.cons_append, List.append_assoc]
  exact h

theorem quoted_injective : Function.Injective quoted := by
  intro a b h
  have ha := unquote_quoted a []
  rw [h, unquote_quoted b []] at ha
  exact (Prod.mk.inj (Option.some.inj ha)).1.symm

/-! ## Quotes that are escaped -/

/-- What stands behind a text is escaped if the text ends in an odd number of backslashes. -/
def Escapes (front : List Char) : Prop := Odd (front.rtakeWhile (· == '\\')).length

theorem escapes_concat_slash {front : List Char} :
    Escapes (front ++ ['\\']) ↔ ¬Escapes front := by
  unfold Escapes
  rw [List.rtakeWhile_concat_pos _ _ _ rfl, List.length_append, List.length_singleton,
    Nat.odd_add_one]

theorem not_escapes_concat {front : List Char} (h : c ≠ '\\') : ¬Escapes (front ++ [c]) := by
  unfold Escapes
  rw [List.rtakeWhile_concat_neg _ _ _ (by simpa using h)]
  simp

/-- A character is written as itself, by a backslash and one character, or by its number. -/
theorem escapeIn_cases (quote c : Char) :
    (escapeIn quote c = [c] ∧ c ≠ '\\' ∧ c ≠ quote ∧ isControl c = false) ∨
      (∃ d, escapeIn quote c = ['\\', d] ∧ (d = quote ∨ d ∈ ['\\', 'n', 'r', 't'])) ∨
      ∃ m n, m < 16 ∧ n < 16 ∧ escapeIn quote c = ['\\', 'x', hexDigit m, hexDigit n] := by
  generalize hw : escapeIn quote c = written
  unfold escapeIn at hw
  split_ifs at hw with hslash hfeed hreturn htab hquoted hcontrol <;> subst hw
  · exact .inr (.inl ⟨'\\', rfl, .inr (by decide)⟩)
  · exact .inr (.inl ⟨'n', rfl, .inr (by decide)⟩)
  · exact .inr (.inl ⟨'r', rfl, .inr (by decide)⟩)
  · exact .inr (.inl ⟨'t', rfl, .inr (by decide)⟩)
  · exact .inr (.inl ⟨c, rfl, .inl hquoted⟩)
  · have hsmall := toNat_lt_of_isControl hcontrol
    exact .inr (.inr ⟨c.toNat / 16, c.toNat % 16, by omega, by omega, rfl⟩)
  · exact .inl ⟨rfl, hslash, hquoted, by simpa using hcontrol⟩

theorem hexDigit_ne {n : Nat} (h : n < 16) : hexDigit n ∉ ['"', '\'', '\\'] := by
  have hall : ∀ n < 16, hexDigit n ∉ ['"', '\'', '\\'] := by decide
  exact hall n h

/-- Where a backslash comes first, a quote can only be the character that it escapes. -/
theorem eq_slash_of_append {d : Char} {tail a b : List Char} (hquote : quote ≠ '\\')
    (htail : quote ∉ tail) (h : '\\' :: d :: tail = a ++ quote :: b) : a = ['\\'] := by
  match a with
  | [] => exact absurd (List.cons.inj h).1.symm hquote
  | [x] => rw [← (List.cons.inj h).1]
  | x :: y :: a =>
    have hrest : tail = a ++ quote :: b := (List.cons.inj (List.cons.inj h).2).2
    exact absurd (hrest ▸ List.mem_append_right a List.mem_cons_self) htail

/-- What is written for a character leaves no escape open, and a quote in it is escaped. -/
theorem escapes_escapeIn (hquote : quote = '"' ∨ quote = '\'') {front : List Char}
    (hfront : ¬Escapes front) (c : Char) :
    ¬Escapes (front ++ escapeIn quote c) ∧
      ∀ a b, escapeIn quote c = a ++ quote :: b → Escapes (front ++ a) := by
  have hslash : quote ≠ '\\' := by
    rcases hquote with rfl | rfl <;> decide
  have hopened : Escapes (front ++ ['\\']) := escapes_concat_slash.2 hfront
  rcases escapeIn_cases quote c with ⟨hwritten, hc, hne, -⟩ | ⟨d, hwritten, -⟩ |
    ⟨m, n, hm, hn, hwritten⟩
  · rw [hwritten]
    refine ⟨not_escapes_concat hc, fun a b h => ?_⟩
    have hmem : quote ∈ [c] := h ▸ List.mem_append_right a List.mem_cons_self
    exact absurd (List.mem_singleton.1 hmem).symm hne
  · rw [hwritten]
    constructor
    · rw [← List.singleton_append, ← List.append_assoc]
      by_cases hd : d = '\\'
      · rw [hd, escapes_concat_slash, not_not]
        exact hopened
      · exact not_escapes_concat hd
    · intro a b h
      rw [eq_slash_of_append hslash List.not_mem_nil h]
      exact hopened
  · have hmx := hexDigit_ne hm
    have hnx := hexDigit_ne hn
    rw [hwritten]
    constructor
    · have hlast : front ++ ['\\', 'x', hexDigit m, hexDigit n] =
          (front ++ ['\\', 'x', hexDigit m]) ++ [hexDigit n] := by simp
      rw [hlast]
      refine not_escapes_concat fun heq => hnx ?_
      rw [heq]
      decide
    · intro a b h
      have htail : quote ∉ [hexDigit m, hexDigit n] := by
        have hspecial : quote ∈ ['"', '\'', '\\'] := by
          rcases hquote with rfl | rfl <;> decide
        intro hmem
        rcases List.mem_cons.1 hmem with heq | hmem
        · exact hmx (heq ▸ hspecial)
        · exact hnx (List.mem_singleton.1 hmem ▸ hspecial)
      rw [eq_slash_of_append hslash htail h]
      exact hopened

theorem escapes_flatMap (hquote : quote = '"' ∨ quote = '\'') (cs : List Char)
    {front : List Char} (hfront : ¬Escapes front) :
    ¬Escapes (front ++ cs.flatMap (escapeIn quote)) ∧
      ∀ a b, cs.flatMap (escapeIn quote) = a ++ quote :: b → Escapes (front ++ a) := by
  induction cs generalizing front with
  | nil =>
    rw [List.flatMap_nil, List.append_nil]
    exact ⟨hfront, fun a b h => absurd h.symm (by simp)⟩
  | cons c cs ih =>
    obtain ⟨hclosed, hescaped⟩ := escapes_escapeIn hquote hfront c
    obtain ⟨hend, hrest⟩ := ih hclosed
    rw [List.flatMap_cons, ← List.append_assoc]
    refine ⟨hend, fun a b h => ?_⟩
    -- the quote is one of those behind the first character, or in what is written for that
    rcases List.append_eq_append_iff.1 h with ⟨a', rfl, htail⟩ | ⟨piece, hpiece, htail⟩
    · rw [← List.append_assoc]
      exact hrest a' b htail
    · cases piece with
      | nil =>
        rw [List.append_nil] at hpiece
        rw [← hpiece, ← List.append_nil (front ++ escapeIn quote c)]
        exact hrest [] b htail.symm
      | cons q piece =>
        obtain ⟨rfl, -⟩ := List.cons.inj htail
        exact hescaped a piece hpiece

/-- A quoted text ends at the first quote behind the opening one that is not escaped. -/
theorem quoted_eq_enclosed (cs : List Char) :
    ∃ quote inside, (quote = '"' ∨ quote = '\'') ∧ quoted cs = quote :: (inside ++ [quote]) ∧
      ¬Escapes inside ∧ ∀ front back, inside = front ++ quote :: back → Escapes front := by
  have hempty : ¬Escapes [] := by
    unfold Escapes
    simp
  obtain ⟨hend, hescaped⟩ := escapes_flatMap (quoteFor_cases cs) cs hempty
  exact ⟨quoteFor cs, cs.flatMap (escapeIn (quoteFor cs)), quoteFor_cases cs, rfl, hend, hescaped⟩

/-! ## Control characters -/

theorem isControl_of_all {cs : List Char} (h : (cs.all fun c => !isControl c) = true) :
    ∀ c ∈ cs, isControl c = false := by
  intro c hc
  simpa using List.all_eq_true.1 h c hc

theorem isControl_escapeIn (hquote : quote = '"' ∨ quote = '\'') {d : Char}
    (h : d ∈ escapeIn quote c) : isControl d = false := by
  rcases escapeIn_cases quote c with ⟨hwritten, -, -, hcontrol⟩ | ⟨x, hwritten, hx⟩ |
    ⟨m, n, hm, hn, hwritten⟩
  · rw [hwritten] at h
    rw [List.mem_singleton.1 h]
    exact hcontrol
  · have hletter : isControl x = false := by
      rcases hx with rfl | hx
      · rcases hquote with rfl | rfl <;> decide
      · exact isControl_of_all (by decide) x hx
    rw [hwritten] at h
    rcases List.mem_cons.1 h with rfl | h
    · decide
    · rw [List.mem_singleton.1 h]
      exact hletter
  · have hdigit : ∀ n < 16, isControl (hexDigit n) = false := by decide
    rw [hwritten] at h
    simp only [List.mem_cons, List.not_mem_nil, or_false] at h
    rcases h with rfl | rfl | rfl | rfl
    · decide
    · decide
    · exact hdigit m hm
    · exact hdigit n hn

theorem isControl_quoted {cs : List Char} {d : Char} (h : d ∈ quoted cs) : isControl d = false := by
  have hquote : isControl (quoteFor cs) = false := by
    rcases quoteFor_cases cs with heq | heq <;> rw [heq] <;> decide
  rcases List.mem_append.1 h with h | h
  · rcases List.mem_cons.1 h with rfl | h
    · exact hquote
    · obtain ⟨c, -, hc⟩ := List.mem_flatMap.1 h
      exact isControl_escapeIn (quoteFor_cases cs) hc
  · rw [List.mem_singleton.1 h]
    exact hquote

end Text

/-! ## Messages -/

/-- The words for the kinds differ in their first letters. -/
theorem Qualification.eq_of_capitalized_append {a b : Qualification} {xs ys : List Char}
    (h : a.capitalized.toList ++ xs = b.capitalized.toList ++ ys) : a = b := by
  cases a <;> cases b
  · rfl
  · exact absurd (List.cons.inj h).1 (by decide)
  · exact absurd (List.cons.inj h).1 (by decide)
  · rfl

namespace Policy

theorem toList_message (p : Policy) (r : Reference) :
    (p.message r).toList = r.kind.capitalized.toList ++ (" reference ".toList ++
      (quoted r.text.toList ++ p.complaint.toList)) := by
  unfold message
  simp only [String.toList_append, String.toList_ofList, List.append_assoc]

theorem complaint_eq_iff {p q : Policy} :
    p.complaint = q.complaint ↔ (p = consistent ↔ q = consistent) := by
  cases p <;> cases q <;> decide

/-- Equal messages are about references of one kind and text, and were asked for in one mode. -/
theorem eq_of_message_eq {p q : Policy} {r s : Reference} (h : p.message r = q.message s) :
    (p = consistent ↔ q = consistent) ∧ r.kind = s.kind ∧ r.text = s.text := by
  have hlists := congrArg String.toList h
  rw [toList_message, toList_message] at hlists
  have hkind : r.kind = s.kind := Qualification.eq_of_capitalized_append hlists
  rw [hkind] at hlists
  have hquoted := List.append_cancel_left (List.append_cancel_left hlists)
  have hread := unquote_quoted r.text.toList p.complaint.toList
  rw [hquoted, unquote_quoted] at hread
  obtain ⟨htext, hcomplaint⟩ := Prod.mk.inj (Option.some.inj hread)
  exact ⟨complaint_eq_iff.1 (String.toList_inj.1 hcomplaint.symm), hkind,
    String.toList_inj.1 htext.symm⟩

theorem isControl_message {p : Policy} {r : Reference} {c : Char}
    (h : c ∈ (p.message r).toList) : isControl c = false := by
  have hkind : (r.kind.capitalized.toList.all fun c => !isControl c) = true := by
    cases r.kind <;> decide
  have hcomplaint : (p.complaint.toList.all fun c => !isControl c) = true := by
    cases p <;> decide
  rw [toList_message] at h
  simp only [List.mem_append] at h
  rcases h with h | h | h | h
  · exact isControl_of_all hkind c h
  · exact isControl_of_all (by decide) c h
  · exact isControl_quoted h
  · exact isControl_of_all hcomplaint c h

end Policy

theorem message_of_mem_violations? {p : Policy} {s : Scope} {v : Violation}
    (h : v ∈ (violations? p s).getD []) : v.message = p.message v.reference := by
  unfold violations? at h
  split at h
  · cases h
  · split at h
    · cases h
    · obtain ⟨r, -, rfl⟩ := List.mem_map.1 h
      rfl

/-! ## Rows -/

theorem isControl_of_isDigit {c : Char} (h : c.isDigit = true) : isControl c = false := by
  have hrange := toNat_of_isDigit h
  simp only [isControl, Bool.or_eq_false_iff, decide_eq_false_iff_not, beq_eq_false_iff_ne]
  omega

theorem isControl_toString {n : Nat} {c : Char} (h : c ∈ (toString n).toList) :
    isControl c = false := by
  rw [Nat.toString_eq_repr, Nat.toList_repr] at h
  exact isControl_of_isDigit (Nat.isDigit_of_mem_toDigits (by decide) (by decide) h)

theorem isControl_inPlaces {n : Nat} {c : Char} (h : c ∈ inPlaces n) : isControl c = false := by
  rcases List.mem_append.1 h with h | h
  · rw [List.eq_of_mem_replicate h]
    rfl
  · exact isControl_toString h

/-- Colours are switched by escape characters, the only control characters that they add. -/
theorem mem_paint {colored : Bool} {colour : Colour} {text : List Char} {c : Char}
    (h : c ∈ paint colored colour text) (hcontrol : isControl c = true) :
    c ∈ text ∨ colored = true ∧ c = '\x1b' := by
  cases colored with
  | false => exact .inl h
  | true =>
    have hswitches : (colourSwitch colour.digits ++ colourSwitch "39".toList).all
        (fun c => !isControl c || c == '\x1b') = true := by
      cases colour <;> decide
    have hswitch : c ∈ colourSwitch colour.digits ++ colourSwitch "39".toList → c = '\x1b' := by
      intro hmem
      simpa [hcontrol] using List.all_eq_true.1 hswitches c hmem
    rcases List.mem_append.1 h with h | h
    · rcases List.mem_append.1 h with h | h
      · exact .inr ⟨rfl, hswitch (List.mem_append_left _ h)⟩
      · exact .inl h
    · exact .inr ⟨rfl, hswitch (List.mem_append_right _ h)⟩

/-- A row is one line if its code and its message have no control characters. -/
theorem Row.print_eq_line {r : Row} (hcode : ∀ c ∈ r.code.toList, isControl c = false)
    (hmessage : ∀ c ∈ r.message.toList, isControl c = false) (colored : Bool) :
    ∃ line, r.print colored = line ++ ['\n'] ∧
      ∀ c ∈ line, isControl c = true → colored = true ∧ c = '\x1b' := by
  refine ⟨_, rfl, fun c hc hcontrol => ?_⟩
  have hplain : ∀ {cs : List Char}, (∀ c ∈ cs, isControl c = false) → c ∉ cs := by
    intro cs hcs hmem
    rw [hcs c hmem] at hcontrol
    cases hcontrol
  have hwords : ∀ {cs : List Char}, (cs.all fun c => !isControl c) = true → c ∉ cs := by
    intro cs hcs
    exact hplain (isControl_of_all hcs)
  simp only [List.mem_append] at hc
  rcases hc with ((((((h | h) | h) | h) | h) | h) | h) | h
  · exact absurd h (hwords (by decide))
  · exact absurd h (hplain fun _ => isControl_inPlaces)
  · exact absurd h (hwords (by decide))
  · exact absurd h (hplain fun _ => isControl_inPlaces)
  · exact absurd h (hwords (by decide))
  · rcases mem_paint h hcontrol with h | h
    · exact absurd h (hplain hcode)
    · exact h
  · exact absurd h (hwords (by decide))
  · exact absurd h (hplain hmessage)

/-! ## Unambiguous messages -/

/-- A quoted text begins with a quote and ends at the next one that is not escaped, has no control
characters, and is read back; so no two texts are quoted alike. Equal messages are about references
of one kind and text, found in one mode, and the row of a violation is one line. -/
theorem quoted_text_is_unambiguous :
    (∀ cs : List Char,
      (∃ quote inside, (quote = '"' ∨ quote = '\'') ∧ quoted cs = quote :: (inside ++ [quote]) ∧
        ¬Escapes inside ∧ ∀ front back, inside = front ++ quote :: back → Escapes front) ∧
      (∀ c ∈ quoted cs, isControl c = false) ∧
      ∀ rest, unquote (quoted cs ++ rest) = some (cs, rest)) ∧
    Function.Injective quoted ∧
    (∀ p q s t v w, v ∈ (violations? p s).getD [] → w ∈ (violations? q t).getD [] →
      v.message = w.message →
      (p = .consistent ↔ q = .consistent) ∧ v.reference.kind = w.reference.kind ∧
        v.reference.text = w.reference.text) ∧
    ∀ p s v, v ∈ (violations? p s).getD [] → ∀ text index colored,
      ∃ line, (Row.ofIssue text (v.issue index)).print colored = line ++ ['\n'] ∧
        ∀ c ∈ line, isControl c = true → colored = true ∧ c = '\x1b' := by
  refine ⟨fun cs => ⟨quoted_eq_enclosed cs, fun c => isControl_quoted, unquote_quoted cs⟩,
    quoted_injective, fun p q s t v w hv hw h => ?_, fun p s v hv text index colored => ?_⟩
  · rw [message_of_mem_violations? hv, message_of_mem_violations? hw] at h
    exact Policy.eq_of_message_eq h
  · have hcode : (Rule.consistentReferences.code.toList.all fun c => !isControl c) = true := by
      decide
    apply Row.print_eq_line
    · exact isControl_of_all hcode
    · intro c hc
      have hmessage : c ∈ v.message.toList := hc
      rw [message_of_mem_violations? hv] at hmessage
      exact Policy.isControl_message hmessage

/-- A select of one table with a column whose name has both quotes, a backslash and a line feed. -/
def spikedName : Scope where
  aliases := [⟨"t", false, none⟩]
  references := [⟨"a", .unqualified, false, none⟩, ⟨"t.\"it's\\\n\"", .qualified, false, none⟩]
  columnAliases := []
  sharedColumns := []

/-- Its message is told apart from that of a policy that asks for no prefix, and is on one line. -/
theorem spikedName_on_one_line :
    ∃ v ∈ (violations? .consistent spikedName).getD [],
      ∃ w ∈ (violations? .unqualified spikedName).getD [],
      v.reference = w.reference ∧ '\n' ∈ v.reference.text.toList ∧ v.message ≠ w.message ∧
      ∃ line, (Row.ofIssue [] (v.issue 0)).print false = line ++ ['\n'] ∧ '\n' ∉ line := by
  obtain ⟨-, -, hequal, hrow⟩ := quoted_text_is_unambiguous
  have hv : ⟨⟨"t.\"it's\\\n\"", .qualified, false, none⟩, _⟩ ∈
      (violations? .consistent spikedName).getD [] := List.mem_cons_self
  have hw : ⟨⟨"t.\"it's\\\n\"", .qualified, false, none⟩, _⟩ ∈
      (violations? .unqualified spikedName).getD [] := List.mem_cons_self
  obtain ⟨line, hline, hplain⟩ := hrow _ _ _ hv [] 0 false
  refine ⟨_, hv, _, hw, rfl, by decide, fun h => ?_, line, hline, fun hmem => ?_⟩
  · have hmode := (hequal _ _ _ _ _ _ hv hw h).1.1 rfl
    cases hmode
  · cases (hplain '\n' hmem (by decide)).1

end ColumnLint
