import ColumnLint.Proofs.Coordinates
import ColumnLint.Proofs.DirectiveMeaning

/-
  The line on which comments are looked up and the line that is shown. The first is counted by the
  line feeds among the bytes of a text, the second by walking over its characters. No byte of another
  character is that of a line feed (`lineFeed_mem_utf8EncodeChar_iff`), so up to any offset both counts
  are that of the covering part of the text.
-/

namespace ColumnLint

open Text Sql

namespace Text

/-! ## Line feeds among bytes -/

/-- The bytes of a text. -/
def utf8 (text : List Char) : List UInt8 := (String.ofList text).toUTF8.data.toList

/-- The byte of a line feed. -/
def lineFeed : UInt8 := 10

theorem utf8_eq_flatMap (text : List Char) : utf8 text = text.flatMap String.utf8EncodeChar := by
  unfold utf8
  rw [String.toUTF8_eq_toByteArray, String.toByteArray_ofList, List.utf8Encode,
    List.toList_data_toByteArray]

@[simp] theorem utf8_nil : utf8 [] = [] := utf8_eq_flatMap []

@[simp] theorem utf8_cons (c : Char) (cs : List Char) :
    utf8 (c :: cs) = String.utf8EncodeChar c ++ utf8 cs := by
  simp [utf8_eq_flatMap]

theorem length_utf8 (text : List Char) : (utf8 text).length = byteSize text := by
  induction text with
  | nil => simp
  | cons c cs ih => simp [ih]

theorem utf8EncodeChar_of_lt {c : Char} (h : c.toNat < 128) :
    String.utf8EncodeChar c = [UInt8.ofNat c.toNat] := if_pos (Nat.le_of_lt_succ h)

/-- The bytes of a character that has several are all 128 or more. -/
theorem le_toNat_of_mem_utf8EncodeChar {c : Char} (h : 128 ≤ c.toNat) {b : UInt8}
    (hb : b ∈ String.utf8EncodeChar c) : 128 ≤ b.toNat := by
  have hsize : ¬c.val.toNat ≤ 127 := Nat.not_le_of_lt h
  unfold String.utf8EncodeChar at hb
  dsimp only at hb
  rw [if_neg hsize] at hb
  split at hb
  · simp only [List.mem_cons, List.not_mem_nil, or_false] at hb
    rcases hb with rfl | rfl <;> rw [UInt8.toNat_ofNat'] <;> omega
  · split at hb
    · simp only [List.mem_cons, List.not_mem_nil, or_false] at hb
      rcases hb with rfl | rfl | rfl <;> rw [UInt8.toNat_ofNat'] <;> omega
    · simp only [List.mem_cons, List.not_mem_nil, or_false] at hb
      rcases hb with rfl | rfl | rfl | rfl <;> rw [UInt8.toNat_ofNat'] <;> omega

theorem lineFeed_mem_utf8EncodeChar_iff {c : Char} :
    lineFeed ∈ String.utf8EncodeChar c ↔ c = '\n' := by
  constructor
  · intro h
    rcases Nat.lt_or_ge c.toNat 128 with hc | hc
    · rw [utf8EncodeChar_of_lt hc, List.mem_singleton, ← UInt8.toNat_inj, UInt8.toNat_ofNat'] at h
      have hnewline : c.toNat = 10 := by
        change 10 = c.toNat % 256 at h
        omega
      exact Char.toNat_inj.1 hnewline
    · have hbyte : 128 ≤ lineFeed.toNat := le_toNat_of_mem_utf8EncodeChar hc h
      exact absurd hbyte (by decide)
  · rintro rfl
    decide

/-- A front part of a character's bytes that is not empty tells whether it is a line feed. -/
theorem count_take_utf8EncodeChar (c : Char) {n : Nat} (h : 0 < n) :
    ((String.utf8EncodeChar c).take n).count lineFeed = if c = '\n' then 1 else 0 := by
  split
  · rename_i hc
    obtain ⟨m, rfl⟩ : ∃ m, n = m + 1 := ⟨n - 1, by omega⟩
    rw [hc, utf8EncodeChar_of_lt (by decide), List.take_succ_cons, List.take_nil]
    decide
  · rename_i hc
    rw [List.count_eq_zero]
    exact fun hmem => hc (lineFeed_mem_utf8EncodeChar_iff.1 (List.mem_of_mem_take hmem))

theorem count_covering_cons (c : Char) (cs : List Char) {n : Nat} (h : 0 < n) :
    (covering (c :: cs) n).count '\n' =
      (if c = '\n' then 1 else 0) + (covering cs (n - c.utf8Size)).count '\n' := by
  rw [covering_cons_pos h, List.count_cons, Nat.add_comm]
  simp only [beq_iff_eq]

/-- Up to any offset, also one inside a character, the bytes of line feeds are the line feeds of the
covering part. -/
theorem count_take_utf8 (text : List Char) (n : Nat) :
    ((utf8 text).take n).count lineFeed = (covering text n).count '\n' := by
  induction text generalizing n with
  | nil => simp [covering]
  | cons c cs ih =>
    rcases Nat.eq_zero_or_pos n with rfl | hn
    · simp
    · rw [count_covering_cons c cs hn, utf8_cons, List.take_append, List.count_append,
        count_take_utf8EncodeChar c hn, String.length_utf8EncodeChar, ih]

theorem lineAt_eq_count_covering (text : List Char) (n : Nat) :
    lineAt text n = 1 + (covering text n).count '\n' := by
  induction text generalizing n with
  | nil => rfl
  | cons c cs ih =>
    rcases Nat.eq_zero_or_pos n with rfl | hn
    · simp [lineAt]
    · rw [count_covering_cons c cs hn, lineAt, if_neg (by omega), ih]
      omega

theorem lineAt_eq_count_utf8 (text : List Char) (n : Nat) :
    lineAt text n = 1 + ((utf8 text).take (min n (byteSize text))).count lineFeed := by
  rw [lineAt_eq_count_covering, ← count_take_utf8, ← length_utf8, ← List.take_eq_take_min]

theorem line_locationAt (text : List Char) (n : Nat) :
    (locationAt text n).line = lineAt text n := by
  rw [locationAt_eq_past, Location.past_line, lineAt_eq_count_covering]
  rfl

end Text

/-! ## Comments on the line that is shown -/

theorem Document.lineOf?_eq_line_ofIssue (doc : Document) {i : Issue} {span : Span}
    (h : i.span = some span) : doc.lineOf? i = some (Row.ofIssue doc.text i).line := by
  have hline : (Row.ofIssue doc.text i).line = (locationAt doc.text span.start).line :=
    congrArg Location.line (Row.place_ofIssue h)
  rw [hline, line_locationAt]
  unfold Document.lineOf?
  rw [h]

theorem Document.suppresses_eq_line_ofIssue (doc : Document) {i : Issue} {span : Span}
    (h : i.span = some span) :
    doc.suppresses i = doc.suppression.suppresses (Row.ofIssue doc.text i).line i.code := by
  unfold Document.suppresses
  rw [doc.lineOf?_eq_line_ofIssue h]

theorem Suppression.suppresses_ofText_iff {d : Dialect} {text : List Char} {lexed : Lexed}
    (h : lex d text = .ok lexed) {line : Nat} {code : String} :
    (ofText d text).suppresses line code = true ↔
      ∃ c ∈ lexed.comments, c.region.start.line = line ∧ Directive.Asks c.text code := by
  rw [ofText_of_lex h, suppresses_ofComments_iff]
  constructor
  · intro hsome
    obtain ⟨comment, hmem, hasks⟩ := hsome
    obtain ⟨c, hc, heq⟩ := List.mem_map.1 hmem
    obtain ⟨rfl, rfl⟩ := Prod.mk.inj heq
    exact ⟨c, hc, rfl, hasks⟩
  · intro hsome
    obtain ⟨c, hc, rfl, hasks⟩ := hsome
    exact ⟨c.text, List.mem_map.2 ⟨c, hc, rfl⟩, hasks⟩

/-- The line on which comments are looked up, counted by bytes, is the line of the location, counted
by characters. So an issue with a place is left out exactly if a comment that starts on the line
where the issue would be shown asks for it. -/
theorem comments_count_on_line_shown (text : List Char) :
    (∀ n, lineAt text n = 1 + ((utf8 text).take (min n (byteSize text))).count lineFeed ∧
      lineAt text n = (locationAt text n).line) ∧
    (∀ (doc : Document) i span, doc.text = text → i.span = some span →
      doc.lineOf? i = some (Row.ofIssue text i).line ∧
      doc.suppresses i = doc.suppression.suppresses (Row.ofIssue text i).line i.code) ∧
    ∀ (l : Linter) (d : Dialect) statements lexed, l.config.enabled = true →
      parse d text = .ok statements → lex d text = .ok lexed →
      ∀ i ∈ l.raised (Document.ofText d text (entriesOf text statements)), ∀ span,
        i.span = some span →
        (i ∉ (l.lint d text).issues ↔
          ∃ c ∈ lexed.comments, c.region.start.line = (Row.ofIssue text i).line ∧
            Directive.Asks c.text i.code) := by
  refine ⟨fun n => ⟨lineAt_eq_count_utf8 text n, (line_locationAt text n).symm⟩,
    fun doc i span hdoc hspan => ?_,
    fun l d statements lexed henabled hparse hlex i hi span hspan => ?_⟩
  · subst hdoc
    exact ⟨doc.lineOf?_eq_line_ofIssue hspan, doc.suppresses_eq_line_ofIssue hspan⟩
  · rw [← Suppression.suppresses_ofText_iff hlex, Linter.lint_issues_of_parse hparse,
      Linter.mem_checkDocument_iff, Document.suppresses_eq_line_ofIssue _ hspan]
    simp only [henabled, hi, true_and, Bool.not_eq_false]
    rfl

/-- Offset 49 lies inside a letter of two bytes, offset 100 behind the text. -/
theorem annotatedPair_suppressed :
    (lineAt annotatedPair 49 = (locationAt annotatedPair 49).line ∧ lineAt annotatedPair 49 = 3) ∧
      lineAt annotatedPair 100 = (locationAt annotatedPair 100).line ∧
      (Row.ofIssue annotatedPair
        (Policy.consistent.issueOf 0 ⟨"b", .unqualified, false, some ⟨20, 21⟩⟩)).line = 2 ∧
      Policy.consistent.issueOf 0 ⟨"b", .unqualified, false, some ⟨20, 21⟩⟩ ∉
        (Linter.lint ⟨{}, .consistent⟩ .generic annotatedPair).issues := by
  obtain ⟨hfirst, -, hlexes, -⟩ := annotatedPair_parses
  obtain ⟨statements, s, p, hparse, hs, hp, hmeets⟩ := exists_of_someSelect hfirst
  obtain ⟨lexed, hlex, hcomments⟩ := Lexer.exists_of_map_eq_ok hlexes
  have hbreaks : Policy.consistent.Breaks
      [⟨"f.a", .qualified, false, some ⟨13, 16⟩⟩, ⟨"b", .unqualified, false, some ⟨20, 21⟩⟩]
      ⟨"b", .unqualified, false, some ⟨20, 21⟩⟩ := by
    show firstSwitch (counted _) = _
    decide
  have hraised := Linter.mem_raised_of_meets (Suppression.ofText .generic annotatedPair) hs hp hmeets
    (by decide) hbreaks
  have hspace : AllBlank [' '] := List.forall_mem_singleton.2 (by decide)
  have hbreak : AllBlank ['\n'] := List.forall_mem_singleton.2 (by decide)
  have hasks : Directive.Asks " noqa\n".toList Rule.consistentReferences.code :=
    .inl (.inl ⟨[' '], "noqa".toList, ['\n'], rfl, hspace, by decide, hbreak⟩)
  have hcomment : (⟨" noqa\n".toList, ⟨⟨2, 12⟩, ⟨3, 1⟩⟩⟩ : Comment) ∈ lexed.comments := by
    rw [hcomments]
    exact List.mem_singleton_self _
  obtain ⟨hlines, -, hleft⟩ := comments_count_on_line_shown annotatedPair
  refine ⟨⟨(hlines 49).2, by decide⟩, (hlines 100).2, by decide, ?_⟩
  exact (hleft ⟨{}, .consistent⟩ .generic statements lexed rfl hparse hlex _ hraised _ rfl).2
    ⟨_, hcomment, by decide, hasks⟩

end ColumnLint
