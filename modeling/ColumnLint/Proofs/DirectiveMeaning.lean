import ColumnLint.Proofs.Fallback
import ColumnLint.Proofs.WrittenLocation

/-
  What comments suppress, said of their texts. A comment that is `noqa` alone asks for all issues of
  its line, one with a list for those of the rules that the list names (`Directive.Asks`). Issues are
  suppressed exactly where a comment of their line asks for it (`suppresses_ofComments_iff`), so the
  order of the comments does not count. A table that keeps one directive for each line, and merges
  those of one line, gives the same answers (`any_covers_byLine`).
-/

namespace ColumnLint

open Text Sql

/-! ## Blanks around a word -/

namespace Text

theorem isBlank_of_letter {c : Char} (h : 65 ≤ c.toNat ∧ c.toNat ≤ 122) : isBlank c = false := by
  have hrange : inRanges [(65, 122)] c = true := by
    simp [inRanges, h]
  exact inRanges_eq_false (by decide) hrange

theorem isBlank_toLower (c : Char) : isBlank c.toLower = isBlank c := by
  have hlower := toNat_toLower c
  split at hlower
  · rw [isBlank_of_letter (c := c) (by omega), isBlank_of_letter (by omega)]
  · rw [Char.toNat_inj.1 hlower]

/-- A text that is, up to letter case, one without blanks has no blanks. -/
theorem isBlank_of_sameLetters {word letters : List Char} (h : sameLetters word letters = true)
    (hletters : letters.all (fun c => !isBlank c) = true) : ∀ c ∈ word, isBlank c = false := by
  intro c hc
  have hmem : c.toLower ∈ lower letters := by
    rw [← sameLetters_iff.1 h]
    exact List.mem_map_of_mem hc
  obtain ⟨x, hx, hxc⟩ := List.mem_map.1 hmem
  rw [← isBlank_toLower, ← hxc, isBlank_toLower]
  simpa using List.all_eq_true.1 hletters x hx

theorem trim_rdropWhile (cs : List Char) : trim (cs.rdropWhile isBlank) = trim cs := by
  have hblanks : ∀ c ∈ cs.rtakeWhile isBlank, isBlank c = true := fun c => List.mem_rtakeWhile_imp
  rw [← trim_append_blanks (cs.rdropWhile isBlank) hblanks, List.rdropWhile_append_rtakeWhile]

/-- Behind a word without blanks, only those at the end are trimmed. -/
theorem trim_word_append {word : List Char} (hne : word ≠ []) (h : ∀ c ∈ word, isBlank c = false)
    (cs : List Char) : trim (word ++ cs) = word ++ cs.rdropWhile isBlank := by
  obtain ⟨front, last, rfl⟩ := (List.eq_nil_or_concat word).resolve_left hne
  have hdrop : (front.concat last ++ cs).dropWhile isBlank = front.concat last ++ cs := by
    obtain ⟨c, word, hword⟩ := List.exists_cons_of_ne_nil hne
    rw [hword] at h ⊢
    exact List.dropWhile_cons_of_neg (by simp [h c List.mem_cons_self])
  show ((front.concat last ++ cs).dropWhile isBlank).rdropWhile isBlank = _
  rw [hdrop, List.concat_eq_append, List.append_assoc, List.append_assoc]
  exact rdropWhile_append_cons (h last (by simp)) front cs

theorem allBlank_of_trim_eq_nil {cs : List Char} (h : trim cs = []) : AllBlank cs := by
  obtain ⟨front, back, hfront, hback, hcs⟩ := exists_blanks_append_trim cs
  rw [hcs, h]
  intro c hc
  rcases List.mem_append.1 hc with hc | hc
  · exact hfront c (by simpa using hc)
  · exact hback c hc

theorem trim_eq_nil_of_allBlank {cs : List Char} (h : AllBlank cs) : trim cs = [] := by
  rw [← List.append_nil cs, trim_blanks_append h]
  rfl

end Text

namespace Directive

/-! ## Comments that are directives -/

/-- A comment is the word `noqa`, in any letter case, and `tail` behind it. Blanks may stand in front
of the word and behind it. -/
def Announces (comment tail : List Char) : Prop :=
  ∃ front word gap, comment = front ++ (word ++ (gap ++ tail)) ∧ AllBlank front ∧
    sameLetters word "noqa".toList = true ∧ AllBlank gap

/-- A comment has nothing behind the word, or a colon and blanks. -/
def IsBlanket (comment : List Char) : Prop :=
  Announces comment [] ∨ ∃ blanks, AllBlank blanks ∧ Announces comment (':' :: blanks)

/-- A comment has a colon and a list behind the word, and the list has this item between commas. -/
def HasItem (comment item : List Char) : Prop :=
  ∃ list, Announces comment (':' :: list) ∧ item ∈ list.splitOn ','

/-- The name in an item, without the blanks around it and then without quotes and semicolons. -/
def itemName (item : List Char) : String := String.ofList (stripBy isWrapping (trim item))

/-- A comment asks for the issues of a code to be suppressed: it is for all of them, or it lists a
name of the rule that the code refers to. -/
def Asks (comment : List Char) (code : String) : Prop :=
  IsBlanket comment ∨ ∃ item r, HasItem comment item ∧ Rule.ofName? (itemName item) = some r ∧
    Rule.ofName? code = some r

/-- A comment is not for all issues, and no item of its list is the name of a rule. -/
def NamesNoRule (comment : List Char) : Prop :=
  ¬IsBlanket comment ∧ ∀ item, HasItem comment item → Rule.ofName? (itemName item) = none

theorem Announces.trim_eq {comment tail : List Char} (h : Announces comment tail) :
    sameLetters ((trim comment).take 4) "noqa".toList = true ∧
      trim ((trim comment).drop 4) = trim tail := by
  obtain ⟨front, word, gap, rfl, hfront, hword, hgap⟩ := h
  have hlength : word.length = 4 := by
    simpa [lower] using congrArg List.length (sameLetters_iff.1 hword)
  have hne : word ≠ [] := by
    rintro rfl
    cases hlength
  rw [trim_blanks_append hfront, trim_word_append hne (isBlank_of_sameLetters hword (by decide)),
    List.take_left' hlength, List.drop_left' hlength, trim_rdropWhile, trim_blanks_append hgap]
  exact ⟨hword, rfl⟩

theorem exists_announces {comment : List Char}
    (h : sameLetters ((trim comment).take 4) "noqa".toList = true) :
    ∃ tail, Announces comment tail ∧ trim ((trim comment).drop 4) = trim tail := by
  obtain ⟨front, back, hfront, hback, hcomment⟩ := exists_blanks_append_trim comment
  have hannounces : Announces comment ((trim comment).drop 4 ++ back) := by
    refine ⟨front, (trim comment).take 4, [], ?_, hfront, h, fun c hc => by cases hc⟩
    calc comment = front ++ trim comment ++ back := hcomment
      _ = front ++ ((trim comment).take 4 ++ (trim comment).drop 4) ++ back := by
        rw [List.take_append_drop]
      _ = _ := by simp only [List.append_assoc, List.nil_append]
  exact ⟨_, hannounces, hannounces.trim_eq.2⟩

/-- Blanks behind the word may be left to it. -/
theorem Announces.of_allBlank {comment blanks tail : List Char}
    (h : Announces comment (blanks ++ tail)) (hblanks : AllBlank blanks) :
    Announces comment tail := by
  obtain ⟨front, word, gap, rfl, hfront, hword, hgap⟩ := h
  refine ⟨front, word, gap ++ blanks, by simp, hfront, hword, fun c hc => ?_⟩
  rcases List.mem_append.1 hc with hc | hc
  · exact hgap c hc
  · exact hblanks c hc

/-- The rules that the items of a list name. -/
def listed (list : List Char) : List Rule := (cutAt ',' (trim list)).filterMap itemRule?

theorem ofComment?_of_announces_nil {comment : List Char} (h : Announces comment []) :
    ofComment? comment = some .all := by
  obtain ⟨hword, htail⟩ := h.trim_eq
  unfold ofComment?
  simp only [hword, htail]
  rfl

theorem ofComment?_of_announces_colon {comment list : List Char}
    (h : Announces comment (':' :: list)) :
    ofComment? comment = if trim list = [] then some .all
      else if listed list = [] then none else some (.rules (listed list)) := by
  obtain ⟨hword, htail⟩ := h.trim_eq
  have hcolon : trim (':' :: list) = ':' :: list.rdropWhile isBlank :=
    trim_word_append (by simp) (List.forall_mem_singleton.2 (by decide)) list
  rw [hcolon] at htail
  unfold ofComment? listed
  simp only [hword, htail, trim_rdropWhile, List.isEmpty_iff]
  rw [if_neg (by decide)]
  split
  · rfl
  · cases (cutAt ',' (trim list)).filterMap itemRule? with
    | nil => rfl
    | cons r rest => rfl

/-- A directive has the word, and behind it nothing or a colon. -/
theorem announces_of_ofComment? {comment : List Char} {d : Directive}
    (h : ofComment? comment = some d) :
    Announces comment [] ∨ ∃ list, Announces comment (':' :: list) := by
  unfold ofComment? at h
  dsimp only at h
  split at h
  · cases h
  · rename_i hword
    rw [Bool.not_eq_true', Bool.not_eq_false] at hword
    obtain ⟨tail, hannounces, htail⟩ := exists_announces hword
    obtain ⟨front, back, hfront, hback, heq⟩ := exists_blanks_append_trim tail
    rw [← htail] at heq
    split at h
    · rename_i hnil
      rw [← List.append_nil tail] at hannounces
      exact .inl (hannounces.of_allBlank (allBlank_of_trim_eq_nil (htail ▸ hnil)))
    · rename_i list hcolon
      rw [hcolon] at heq
      rw [heq, List.append_assoc] at hannounces
      exact .inr ⟨_, hannounces.of_allBlank hfront⟩
    · cases h

/-- An item stands for a rule whether or not the blanks around the list are cut off first. -/
theorem mem_listed_iff {list : List Char} {r : Rule} :
    r ∈ listed list ↔ ∃ item ∈ list.splitOn ',', Rule.ofName? (itemName item) = some r := by
  have hitems : ∀ {a b : List (List Char)}, a.map trim = b.map trim →
      ∀ piece ∈ a, itemRule? piece = some r → ∃ item ∈ b, Rule.ofName? (itemName item) = some r := by
    intro a b hab piece hpiece hrule
    have hmem : trim piece ∈ b.map trim := hab ▸ List.mem_map_of_mem hpiece
    obtain ⟨item, hitem, htrim⟩ := List.mem_map.1 hmem
    refine ⟨item, hitem, ?_⟩
    unfold itemName
    rw [htrim]
    exact hrule
  have htrim : ((trim list).splitOn ',').map trim = (list.splitOn ',').map trim :=
    map_trim_splitOn_trim (by decide) list
  unfold listed
  rw [List.mem_filterMap, cutAt_eq_splitOn]
  constructor
  · rintro ⟨piece, hpiece, hrule⟩
    exact hitems htrim piece hpiece hrule
  · rintro ⟨item, hitem, hrule⟩
    exact hitems htrim.symm item hitem hrule

/-- What a directive covers is what its comment asks for. -/
theorem exists_covers_iff {comment : List Char} {code : String} :
    (∃ d, ofComment? comment = some d ∧ d.covers code = true) ↔ Asks comment code := by
  constructor
  · rintro ⟨d, hd, hcovers⟩
    rcases announces_of_ofComment? hd with hannounces | ⟨list, hannounces⟩
    · exact .inl (.inl hannounces)
    · rw [ofComment?_of_announces_colon hannounces] at hd
      split at hd
      · rename_i hblank
        exact .inl (.inr ⟨list, allBlank_of_trim_eq_nil hblank, hannounces⟩)
      · split at hd
        · cases hd
        · cases hd
          obtain ⟨r, hr, hcode⟩ := List.any_eq_true.1 hcovers
          obtain ⟨item, hitem, hrule⟩ := mem_listed_iff.1 hr
          exact .inr ⟨item, r, ⟨list, hannounces, hitem⟩, hrule, eq_of_beq hcode⟩
  · rintro ((hannounces | ⟨blanks, hblanks, hannounces⟩) |
      ⟨item, r, ⟨list, hannounces, hitem⟩, hrule, hcode⟩)
    · exact ⟨.all, ofComment?_of_announces_nil hannounces, rfl⟩
    · refine ⟨.all, ?_, rfl⟩
      rw [ofComment?_of_announces_colon hannounces, if_pos (trim_eq_nil_of_allBlank hblanks)]
    · have hr : r ∈ listed list := mem_listed_iff.2 ⟨item, hitem, hrule⟩
      rw [ofComment?_of_announces_colon hannounces]
      split
      · exact ⟨.all, rfl, rfl⟩
      · rw [if_neg (List.ne_nil_of_mem hr)]
        exact ⟨_, rfl, List.any_eq_true.2 ⟨r, hr, by simp [hcode]⟩⟩

/-- Two directives of one line in one. One for all rules takes in any other. -/
def merge : Directive → Directive → Directive
  | rules list, rules more => rules (list ++ more)
  | _, _ => all

theorem covers_merge (d e : Directive) (code : String) :
    (d.merge e).covers code = (d.covers code || e.covers code) := by
  cases d with
  | all => rfl
  | rules list =>
    cases e with
    | all => exact (Bool.or_true _).symm
    | rules more => exact List.any_append

end Directive

namespace Suppression

/-! ## One directive for each line -/

/-- A table of directives by line, after one more comment. -/
def note (table : Nat → Option Directive) (c : Nat × List Char) : Nat → Option Directive :=
  match Directive.ofComment? c.2 with
  | none => table
  | some d => Function.update table c.1 (some ((table c.1).elim d fun before => before.merge d))

/-- The table of comments that are read one behind the other. -/
def byLine (comments : List (Nat × List Char)) : Nat → Option Directive :=
  comments.foldl note fun _ => none

/-- A comment asks for what its directive covers, in addition to what is in the table. -/
theorem any_covers_note (table : Nat → Option Directive) (c : Nat × List Char) (line : Nat)
    (code : String) :
    (note table c line).any (Directive.covers code) =
      ((table line).any (Directive.covers code) ||
        (c.1 == line && (Directive.ofComment? c.2).any (Directive.covers code))) := by
  unfold note
  cases Directive.ofComment? c.2 with
  | none => simp
  | some d =>
    dsimp only
    by_cases hline : c.1 = line
    · subst hline
      rw [Function.update_self]
      cases table c.1 with
      | none => simp
      | some before => simp [Directive.covers_merge]
    · rw [Function.update_of_ne (Ne.symm hline)]
      simp [hline]

theorem suppresses_ofComments (comments : List (Nat × List Char)) (line : Nat) (code : String) :
    (ofComments comments).suppresses line code = comments.any fun c =>
      c.1 == line && (Directive.ofComment? c.2).any (Directive.covers code) := by
  unfold ofComments suppresses
  rw [List.any_filterMap]
  refine congrArg _ (funext fun c => ?_)
  cases Directive.ofComment? c.2 <;> simp

theorem any_covers_byLine (comments : List (Nat × List Char)) (line : Nat) (code : String) :
    (byLine comments line).any (Directive.covers code) =
      (ofComments comments).suppresses line code := by
  -- what the table holds so far is kept, and each comment adds its own
  suffices hrun : ∀ table, (comments.foldl note table line).any (Directive.covers code) =
      ((table line).any (Directive.covers code) ||
        (ofComments comments).suppresses line code) by
    exact hrun _
  simp only [suppresses_ofComments]
  induction comments with
  | nil => simp
  | cons c comments ih =>
    intro table
    rw [List.foldl_cons, ih, any_covers_note, List.any_cons, Bool.or_assoc]

/-! ## What is suppressed -/

theorem any_covers_ofComment?_iff {comment : List Char} {code : String} :
    (Directive.ofComment? comment).any (Directive.covers code) = true ↔
      Directive.Asks comment code := by
  rw [← Directive.exists_covers_iff, Option.any_eq_true]

theorem suppresses_ofComments_iff {comments : List (Nat × List Char)} {line : Nat} {code : String} :
    (ofComments comments).suppresses line code = true ↔
      ∃ comment, (line, comment) ∈ comments ∧ Directive.Asks comment code := by
  rw [suppresses_ofComments, List.any_eq_true]
  simp only [Bool.and_eq_true, beq_iff_eq, any_covers_ofComment?_iff]
  constructor
  · rintro ⟨⟨_, comment⟩, hmem, rfl, hasks⟩
    exact ⟨comment, hmem, hasks⟩
  · rintro ⟨comment, hmem, hasks⟩
    exact ⟨(line, comment), hmem, rfl, hasks⟩

theorem not_asks_of_namesNoRule {comment : List Char} (h : Directive.NamesNoRule comment)
    (code : String) : ¬Directive.Asks comment code := by
  rintro (hblanket | ⟨item, r, hitem, hrule, -⟩)
  · exact h.1 hblanket
  · rw [h.2 item hitem] at hrule
    cases hrule

theorem namesNoRule_of_ofComment? {comment : List Char}
    (h : Directive.ofComment? comment = none) : Directive.NamesNoRule comment := by
  have hasks : ∀ code, ¬Directive.Asks comment code := by
    intro code hcode
    obtain ⟨d, hd, -⟩ := Directive.exists_covers_iff.2 hcode
    rw [h] at hd
    cases hd
  refine ⟨fun hblanket => hasks "" (.inl hblanket), fun item hitem => ?_⟩
  rw [Option.eq_none_iff_forall_ne_some]
  intro r hrule
  exact hasks _ (.inr ⟨item, r, hitem, hrule, hrule⟩)

/-- The comments of a text count on the lines where they start. -/
theorem ofText_of_lex {d : Dialect} {text : List Char} {lexed : Lexed} (h : lex d text = .ok lexed) :
    ofText d text = ofComments (lexed.comments.map fun c => (c.region.start.line, c.text)) := by
  obtain ⟨ks, hks, hcomments⟩ := Lexer.exists_cuts_of_lex h
  have hlines : lexed.comments.filterMap (fun c =>
      (commentLine? text c).map fun line => (line, c.text)) =
      lexed.comments.map fun c => (c.region.start.line, c.text) := by
    rw [← List.filterMap_eq_map]
    refine List.filterMap_congr fun c hc => ?_
    rw [← hcomments] at hc
    obtain ⟨k, hk, hcomment⟩ := List.mem_filterMap.1 hc
    rw [commentLine?_of_comment? hks hk hcomment]
    rfl
  unfold ofText
  rw [h]
  exact congrArg ofComments hlines

/-- Issues of a code are suppressed on a line exactly if a comment that starts there asks for it. -/
theorem comments_suppress_what_they_ask (comments : List (Nat × List Char)) :
    (∀ line code, (ofComments comments).suppresses line code = true ↔
      ∃ comment, (line, comment) ∈ comments ∧ Directive.Asks comment code) ∧
    (∀ line code, (byLine comments line).any (Directive.covers code) =
      (ofComments comments).suppresses line code) ∧
    (∀ others, comments.Perm others → ∀ line code,
      (ofComments others).suppresses line code = (ofComments comments).suppresses line code) ∧
    (∀ line comment, (line, comment) ∈ comments → Directive.IsBlanket comment → ∀ code,
      (ofComments comments).suppresses line code = true) ∧
    (∀ front c back, comments = front ++ c :: back → Directive.NamesNoRule c.2 → ∀ line code,
      (ofComments comments).suppresses line code =
        (ofComments (front ++ back)).suppresses line code) ∧
    ∀ d text lexed, lex d text = .ok lexed →
      comments = lexed.comments.map (fun c => (c.region.start.line, c.text)) →
      ofText d text = ofComments comments := by
  refine ⟨fun line code => suppresses_ofComments_iff, any_covers_byLine comments,
    fun others hperm line code => ?_, fun line comment hmem hblanket code => ?_,
    fun front c back hsplit hnames line code => ?_, fun d text lexed hlex hcomments => ?_⟩
  · rw [suppresses_ofComments, suppresses_ofComments, hperm.any_eq]
  · exact suppresses_ofComments_iff.2 ⟨comment, hmem, .inl hblanket⟩
  · have hnone : (Directive.ofComment? c.2).any (Directive.covers code) = false := by
      rw [Bool.eq_false_iff, Ne, any_covers_ofComment?_iff]
      exact not_asks_of_namesNoRule hnames code
    rw [hsplit, suppresses_ofComments, suppresses_ofComments, List.any_append, List.any_append,
      List.any_cons, hnone, Bool.and_false, Bool.false_or]
  · rw [hcomments]
    exact ofText_of_lex hlex

/-- Comments of three lines: a list that names no rule, one that names a rule in quotes, and on the
third line such a list behind a comment for all issues. -/
def mixedComments : List (Nat × List Char) :=
  [(2, " NoQA : AL01, 'rf_03'; ".toList), (3, "noqa:".toList), (3, "noqa: XX99".toList),
    (1, "noqa: XX99".toList)]

theorem mixedComments_suppress :
    (ofComments mixedComments).suppresses 2 "L028" = true ∧
      (ofComments mixedComments).suppresses 3 "AL01" = true ∧
      (byLine mixedComments 3).any (Directive.covers "AL01") = true ∧
      (ofComments mixedComments.reverse).suppresses 3 "AL01" = true ∧
      (ofComments mixedComments).suppresses 1 "L028" =
        (ofComments (mixedComments.take 3)).suppresses 1 "L028" := by
  have hblank : AllBlank [' '] := List.forall_mem_singleton.2 (by decide)
  have hnone : AllBlank [] := fun c hc => by cases hc
  have hlists : Directive.Asks " NoQA : AL01, 'rf_03'; ".toList "L028" :=
    .inr ⟨" 'rf_03'; ".toList, .consistentReferences,
      ⟨" AL01, 'rf_03'; ".toList, ⟨[' '], "NoQA".toList, [' '], rfl, hblank, by decide, hblank⟩,
        by decide⟩, by decide +kernel, by decide +kernel⟩
  have hblanket : Directive.IsBlanket "noqa:".toList :=
    .inr ⟨[], hnone, [], "noqa".toList, [], rfl, hnone, by decide, hnone⟩
  have hunknown : Directive.NamesNoRule "noqa: XX99".toList :=
    namesNoRule_of_ofComment? (by decide +kernel)
  obtain ⟨hmeaning, htable, hperm, hall, hdrop, -⟩ := comments_suppress_what_they_ask mixedComments
  have hthird := hall 3 "noqa:".toList (by decide) hblanket "AL01"
  refine ⟨(hmeaning 2 "L028").2 ⟨_, by decide, hlists⟩, hthird, (htable 3 "AL01").trans hthird, ?_, ?_⟩
  · rw [hperm _ (List.reverse_perm _).symm]
    exact hthird
  · exact hdrop (mixedComments.take 3) (1, "noqa: XX99".toList) [] rfl hunknown 1 "L028"

end Suppression

end ColumnLint
