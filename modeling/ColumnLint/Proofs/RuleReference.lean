import ColumnLint.Proofs.PolicyChoice
import ColumnLint.Proofs.SharedPieces
import Mathlib.Data.List.DropRight

/-
  Names of rules where they are used: to turn a rule off, to suppress its issues by a comment, and to
  give it options. A name that is accepted works in the first two places however it is written
  (`exists_directive_of_lists`). Options are found only under a name as it is listed, up to the case
  of its letters (`policyOption?_of_only`), so those under another accepted spelling do nothing.
-/

namespace ColumnLint

open Text Sql

/-! ## Blanks around a text -/

namespace Text

theorem trim_append_blanks (cs : List Char) {blanks : List Char}
    (h : ∀ c ∈ blanks, isBlank c = true) : trim (cs ++ blanks) = trim cs := by
  induction blanks using List.reverseRecOn with
  | nil => rw [List.append_nil]
  | append_singleton blanks c ih =>
    rw [← List.append_assoc, Lexer.trim_concat (h c (by simp))]
    exact ih fun x hx => h x (by simp [hx])

theorem trim_blanks_append {blanks : List Char} (h : ∀ c ∈ blanks, isBlank c = true)
    (cs : List Char) : trim (blanks ++ cs) = trim cs := by
  unfold trim stripBy
  rw [List.dropWhile_append_of_pos h]

theorem exists_blanks_append_trim (cs : List Char) :
    ∃ front back, (∀ c ∈ front, isBlank c = true) ∧ (∀ c ∈ back, isBlank c = true) ∧
      cs = front ++ trim cs ++ back := by
  refine ⟨cs.takeWhile isBlank, (cs.dropWhile isBlank).rtakeWhile isBlank,
    fun c => List.mem_takeWhile_imp, fun c => List.mem_rtakeWhile_imp, ?_⟩
  show cs = cs.takeWhile isBlank ++ (cs.dropWhile isBlank).rdropWhile isBlank ++ _
  rw [List.append_assoc, List.rdropWhile_append_rtakeWhile, List.takeWhile_append_dropWhile]

theorem trim_trim (cs : List Char) : trim (trim cs) = trim cs := by
  obtain ⟨front, back, hfront, hback, hcs⟩ := exists_blanks_append_trim cs
  calc trim (trim cs) = trim (front ++ trim cs ++ back) := by
        rw [trim_append_blanks _ hback, trim_blanks_append hfront]
    _ = trim cs := by rw [← hcs]

theorem stripBy_eq_self {p : Char → Bool} {cs : List Char} (h : ∀ c ∈ cs, p c = false) :
    stripBy p cs = cs := by
  have hdrop : ∀ {l : List Char}, (∀ c ∈ l, p c = false) → l.dropWhile p = l := by
    intro l hl
    rw [List.dropWhile_eq_self_iff]
    intro hpos hfirst
    rw [hl _ (List.getElem_mem hpos)] at hfirst
    cases hfirst
  unfold stripBy
  rw [hdrop h, hdrop (fun c hc => h c (List.mem_reverse.1 hc)), List.reverse_reverse]

theorem rdropWhile_append_cons {p : Char → Bool} {c : Char} (hc : p c = false)
    (front back : List Char) :
    (front ++ c :: back).rdropWhile p = front ++ c :: back.rdropWhile p := by
  induction back using List.reverseRecOn with
  | nil =>
    rw [List.rdropWhile_concat]
    simp [hc]
  | append_singleton back x ih =>
    rw [← List.cons_append, ← List.append_assoc, List.rdropWhile_concat, List.rdropWhile_concat]
    split
    · exact ih
    · simp

/-! ## Items between commas -/

theorem cutAt_eq_splitOn (separator : Char) (cs : List Char) :
    cutAt separator cs = cs.splitOn separator := by
  induction cs with
  | nil => rw [cutAt, List.splitOn_nil]
  | cons c cs ih =>
    rw [cutAt, ih, List.splitOn_cons_eq_if_modifyHead]
    by_cases hc : c = separator
    · simp [hc]
    · obtain ⟨item, items, hitems⟩ := List.exists_cons_of_ne_nil
        (List.splitOnP_ne_nil (fun x => x == separator) cs)
      rw [List.splitOn_eq_splitOnP, hitems]
      simp [hc]

/-- What has no separator in it extends the last item. -/
theorem exists_splitOn_append {separator : Char} {more : List Char} (h : separator ∉ more)
    (cs : List Char) :
    ∃ items last, cs.splitOn separator = items ++ [last] ∧
      (cs ++ more).splitOn separator = items ++ [last ++ more] := by
  induction cs with
  | nil =>
    refine ⟨[], [], List.splitOn_nil _, ?_⟩
    rw [List.splitOn_eq_splitOnP, List.nil_append, List.splitOnP_eq_singleton]
    · rfl
    · intro x hx
      rw [beq_eq_false_iff_ne]
      rintro rfl
      exact h hx
  | cons c cs ih =>
    obtain ⟨items, last, hcs, hmore⟩ := ih
    rw [List.cons_append, List.splitOn_cons_eq_if_modifyHead, List.splitOn_cons_eq_if_modifyHead,
      hcs, hmore]
    by_cases hc : (c == separator) = true
    · refine ⟨[] :: items, last, ?_, ?_⟩ <;> simp [hc]
    · cases items with
      | nil => exact ⟨[], c :: last, by simp [hc], by simp [hc]⟩
      | cons item items => exact ⟨(c :: item) :: items, last, by simp [hc], by simp [hc]⟩

/-- What has no separator in it extends the first item. -/
theorem exists_splitOn_prepend {separator : Char} {more : List Char} (h : separator ∉ more)
    (cs : List Char) :
    ∃ first items, cs.splitOn separator = first :: items ∧
      (more ++ cs).splitOn separator = (more ++ first) :: items := by
  obtain ⟨first, items, hcs⟩ := List.exists_cons_of_ne_nil
    (List.splitOnP_ne_nil (fun x => x == separator) cs)
  refine ⟨first, items, hcs, ?_⟩
  induction more with
  | nil => exact hcs
  | cons c more ih =>
    have hc : (c == separator) = false := by
      rw [beq_eq_false_iff_ne]
      rintro rfl
      exact h List.mem_cons_self
    rw [List.cons_append, List.splitOn_cons_eq_if_modifyHead, hc,
      ih fun hmem => h (List.mem_cons_of_mem _ hmem)]
    rfl

/-- Blanks around a text do not count for its items, which are read without blanks around them. -/
theorem map_trim_splitOn_trim {separator : Char} (hseparator : isBlank separator = false)
    (cs : List Char) :
    ((trim cs).splitOn separator).map trim = (cs.splitOn separator).map trim := by
  obtain ⟨front, back, hfront, hback, hcs⟩ := exists_blanks_append_trim cs
  have hno : ∀ {blanks : List Char}, (∀ c ∈ blanks, isBlank c = true) → separator ∉ blanks := by
    intro blanks hblanks hmem
    rw [hblanks _ hmem] at hseparator
    cases hseparator
  obtain ⟨first, items, htrim, hprepend⟩ := exists_splitOn_prepend (hno hfront) (trim cs)
  obtain ⟨items', last, hsplit, happend⟩ := exists_splitOn_append (hno hback) (front ++ trim cs)
  have hlast : ((front ++ trim cs ++ back).splitOn separator).map trim =
      ((front ++ trim cs).splitOn separator).map trim := by
    rw [happend, hsplit, List.map_append, List.map_append, List.map_singleton, List.map_singleton,
      trim_append_blanks last hback]
  have hfirst : ((front ++ trim cs).splitOn separator).map trim =
      ((trim cs).splitOn separator).map trim := by
    rw [hprepend, htrim, List.map_cons, List.map_cons, trim_blanks_append hfront]
  rw [← hfirst, ← hlast, ← hcs]

end Text

/-! ## Characters of names -/

namespace Rule

/-- The characters that names of rules are written with. -/
def isNameCharacter (c : Char) : Bool := c.isAlphanum || c == '_' || c == '.'

theorem toLower_of_not_isNameCharacter {c : Char} (h : isNameCharacter c = false) :
    c.toLower = c := by
  have hrange : ¬(65 ≤ c.toNat ∧ c.toNat ≤ 90) := by
    intro hletter
    have hupper : c.isUpper = true :=
      decide_eq_true ⟨UInt32.le_iff_toNat_le.2 hletter.1, UInt32.le_iff_toNat_le.2 hletter.2⟩
    change ((((c.isUpper || c.isLower) || c.isDigit) || c == '_') || c == '.') = false at h
    rw [hupper] at h
    cases h
  apply Char.toNat_inj.1
  rw [toNat_toLower, if_neg hrange]

theorem toUpper_of_not_isNameCharacter {c : Char} (h : isNameCharacter c = false) :
    c.toUpper = c := by
  have hrange : ¬(97 ≤ c.toNat ∧ c.toNat ≤ 122) := by
    intro hletter
    have hlower : c.isLower = true :=
      Bool.and_eq_true_iff.2 ⟨decide_eq_true (UInt32.le_iff_toNat_le.2 hletter.1),
        decide_eq_true (UInt32.le_iff_toNat_le.2 hletter.2)⟩
    change ((((c.isUpper || c.isLower) || c.isDigit) || c == '_') || c == '.') = false at h
    rw [hlower, Bool.or_true] at h
    cases h
  apply Char.toNat_inj.1
  rw [toNat_toUpper, if_neg hrange]

theorem isNameCharacter_of_isNamed {r : Rule} {name : List Char} (h : r.isNamed name = true)
    {c : Char} (hc : c ∈ name) : isNameCharacter c = true := by
  by_contra hother
  rw [Bool.not_eq_true] at hother
  have hlisted : (r.names.list.all fun n => (lower n.toList).all isNameCharacter) = true := by
    cases r
    decide
  obtain ⟨n, hn, hsame⟩ := List.any_eq_true.1 h
  rw [sameLetters_iff] at hsame
  have hmem : c ∈ lower n.toList := by
    rw [hsame]
    exact List.mem_map.2 ⟨c, hc, toLower_of_not_isNameCharacter hother⟩
  rw [List.all_eq_true.1 (List.all_eq_true.1 hlisted n hn) c hmem] at hother
  cases hother

theorem eq_of_numberBelow? {bound n : Nat} {cs : List Char} (h : numberBelow? bound cs = some n) :
    cs.all Char.isDigit = true ∧ n < bound ∧ n = numberOf cs := by
  unfold numberBelow? at h
  split at h
  · rename_i hdigits
    rw [Bool.and_eq_true, decide_eq_true_eq] at hdigits
    cases h
    exact ⟨hdigits.1, hdigits.2, rfl⟩
  · cases h

/-- A numbered name without its underscores is two letters and a number, with or without `LINT` in
front. -/
theorem exists_of_codeOfNumbered? {name : List Char} {code : String}
    (h : codeOfNumbered? name = some code) :
    ∃ lead family number, (upper name).filter (· ≠ '_') = lead ++ (family ++ number) ∧
      (lead = [] ∨ lead = "LINT".toList) ∧ family.length = 2 ∧ family.all Char.isAlpha = true ∧
      number.all Char.isDigit = true ∧
      code = "LINT_" ++ String.ofList family ++ "_" ++ padded (numberOf number) := by
  unfold codeOfNumbered? at h
  dsimp only at h
  generalize (upper name).filter (· ≠ '_') = compact at h ⊢
  generalize hrest : (if "LINT".toList.isPrefixOf compact = true then compact.drop 4
    else compact) = rest at h
  have hlead : ∃ lead, compact = lead ++ rest ∧ (lead = [] ∨ lead = "LINT".toList) := by
    split at hrest
    · rename_i hfront
      obtain ⟨behind, hbehind⟩ := List.isPrefixOf_iff_prefix.1 hfront
      refine ⟨"LINT".toList, ?_, .inr rfl⟩
      rw [← hrest, ← hbehind]
      rfl
    · exact ⟨[], hrest, .inl rfl⟩
  obtain ⟨lead, hcompact, hlead⟩ := hlead
  split at h
  · cases h
  · rename_i hshape
    simp only [Bool.or_eq_true, not_or, Bool.not_eq_true, decide_eq_true_eq, Decidable.not_not,
      Bool.not_eq_false'] at hshape
    cases hnumber : numberBelow? (Nat.pow 2 32) (rest.dropWhile fun c => !c.isDigit) with
    | none =>
      rw [hnumber] at h
      cases h
    | some n =>
      rw [hnumber] at h
      obtain ⟨hdigits, -, rfl⟩ := eq_of_numberBelow? hnumber
      refine ⟨lead, rest.takeWhile fun c => !c.isDigit, rest.dropWhile fun c => !c.isDigit, ?_,
        hlead, hshape.1.2, ?_, hdigits, (Option.some.inj h).symm⟩
      · rw [List.takeWhile_append_dropWhile]
        exact hcompact
      · simpa using hshape.2

theorem isNameCharacter_of_codeOfNumbered? {name : List Char} {code : String}
    (h : codeOfNumbered? name = some code) {c : Char} (hc : c ∈ name) :
    isNameCharacter c = true := by
  by_contra hother
  rw [Bool.not_eq_true] at hother
  obtain ⟨lead, family, number, hcompact, hlead, -, hfamily, hnumber, -⟩ :=
    exists_of_codeOfNumbered? h
  have hmem : c ∈ lead ++ (family ++ number) := by
    rw [← hcompact, List.mem_filter, decide_eq_true_eq]
    refine ⟨List.mem_map.2 ⟨c, hc, toUpper_of_not_isNameCharacter hother⟩, ?_⟩
    rintro rfl
    cases hother
  simp only [isNameCharacter, Char.isAlphanum, Bool.or_eq_false_iff] at hother
  rcases List.mem_append.1 hmem with hmem | hmem
  · rcases hlead with rfl | rfl
    · cases hmem
    · have hletters : "LINT".toList.all Char.isAlpha = true := by decide
      rw [List.all_eq_true.1 hletters c hmem] at hother
      cases hother.1.1.1
  · rcases List.mem_append.1 hmem with hmem | hmem
    · rw [List.all_eq_true.1 hfamily c hmem] at hother
      cases hother.1.1.1
    · rw [List.all_eq_true.1 hnumber c hmem] at hother
      cases hother.1.1.2

theorem isNameCharacter_of_ofName? {raw : String} {r : Rule} (h : ofName? raw = some r) {c : Char}
    (hc : c ∈ trim raw.toList) : isNameCharacter c = true := by
  unfold ofName? at h
  dsimp only at h
  split at h
  · rename_i named hfind
    exact isNameCharacter_of_isNamed (List.find?_some hfind) hc
  · obtain ⟨code, hcode, -⟩ := Option.bind_eq_some_iff.1 h
    exact isNameCharacter_of_codeOfNumbered? hcode hc

/-- Blanks around a name do not count. -/
theorem ofName?_congr {a b : String} (h : trim a.toList = trim b.toList) :
    ofName? a = ofName? b := by
  unfold ofName?
  rw [h]

end Rule

/-! ## Names in comments -/

namespace Directive

/-- A comment has an item in its list: it is `noqa`, a colon, and items between commas. Blanks may
stand around each of these. -/
def Lists (comment item : List Char) : Prop :=
  ∃ front word gap list, comment = front ++ (word ++ (gap ++ ':' :: list)) ∧
    (∀ c ∈ front, isBlank c = true) ∧ sameLetters word "noqa".toList = true ∧
    (∀ c ∈ gap, isBlank c = true) ∧ ∃ piece ∈ list.splitOn ',', trim piece = trim item

/-- An item that is a name stands for the rule of that name. -/
theorem itemRule?_of_trim_eq {piece : List Char} {name : String} {r : Rule}
    (hname : Rule.ofName? name = some r) (h : trim piece = trim name.toList) :
    itemRule? piece = some r := by
  -- quotes and the like are taken off an item, but no accepted name has any
  have hbare : stripBy isWrapping (trim name.toList) = trim name.toList := by
    apply stripBy_eq_self
    intro c hc
    have hcharacter := Rule.isNameCharacter_of_ofName? hname hc
    rw [Bool.eq_false_iff]
    intro hwrapping
    simp only [isWrapping, Bool.or_eq_true, beq_iff_eq] at hwrapping
    rcases hwrapping with ((rfl | rfl) | rfl) | rfl <;> cases hcharacter
  unfold itemRule?
  rw [h, hbare, ← hname]
  apply Rule.ofName?_congr
  rw [String.toList_ofList, trim_trim]

/-- A list with an item that stands for a rule is a directive for that rule. -/
theorem exists_rules_of_item {comment list piece : List Char} {r : Rule}
    (hword : sameLetters ((trim comment).take 4) "noqa".toList = true)
    (hlist : trim ((trim comment).drop 4) = ':' :: list) (hpiece : piece ∈ cutAt ',' (trim list))
    (hrule : itemRule? piece = some r) :
    ∃ found, ofComment? comment = some (.rules found) ∧ r ∈ found := by
  have hmem : r ∈ (cutAt ',' (trim list)).filterMap itemRule? :=
    List.mem_filterMap.2 ⟨piece, hpiece, hrule⟩
  have hitems : (trim list).isEmpty = false := by
    rw [Bool.eq_false_iff]
    intro hempty
    rw [List.isEmpty_iff.1 hempty] at hpiece
    obtain rfl := List.mem_singleton.1 hpiece
    have hnone : itemRule? [] = none := rfl
    rw [hnone] at hrule
    cases hrule
  refine ⟨(cutAt ',' (trim list)).filterMap itemRule?, ?_, hmem⟩
  unfold ofComment?
  simp only [hword, hlist, hitems]
  cases hfound : (cutAt ',' (trim list)).filterMap itemRule? with
  | nil =>
    rw [hfound] at hmem
    cases hmem
  | cons first rest => simp

theorem covers_rules {found : List Rule} {r : Rule} (h : r ∈ found) :
    (Directive.rules found).covers r.code = true := by
  cases r
  exact List.any_eq_true.2 ⟨_, h, by rw [ofName?_code]; decide⟩

theorem isBlank_of_toLower_eq {c : Char} (h : c.toLower = 'n') : isBlank c = false := by
  have hlower : c.toLower.toNat = 110 := by rw [h]; rfl
  rw [toNat_toLower] at hlower
  have hletter : c = 'n' ∨ c = 'N' := by
    rw [← Char.toNat_inj, ← Char.toNat_inj]
    show c.toNat = 110 ∨ c.toNat = 78
    split at hlower <;> omega
  rcases hletter with rfl | rfl <;> decide

/-- Without its blanks, a comment with a list begins with `noqa` and a colon. -/
theorem trim_of_word {front word : List Char} (hfront : ∀ c ∈ front, isBlank c = true)
    (hword : sameLetters word "noqa".toList = true) (gap list : List Char) :
    trim (front ++ (word ++ (gap ++ ':' :: list))) =
      word ++ (gap ++ ':' :: list.rdropWhile isBlank) := by
  have hlower : lower word = "noqa".toList := sameLetters_iff.1 hword
  cases word with
  | nil => cases hlower
  | cons c word =>
    have hc : isBlank c = false := isBlank_of_toLower_eq (List.cons.inj hlower).1
    rw [trim_blanks_append hfront]
    show ((c :: (word ++ (gap ++ ':' :: list))).dropWhile isBlank).rdropWhile isBlank = _
    rw [List.dropWhile_cons_of_neg (by simp [hc]), ← List.cons_append, ← List.append_assoc,
      rdropWhile_append_cons (by decide)]
    simp

/-- A rule that is listed by an accepted name is one that the directive is for. -/
theorem exists_directive_of_lists {comment : List Char} {name : String} {r : Rule}
    (hname : Rule.ofName? name = some r) (h : Lists comment name.toList) :
    ∃ found, ofComment? comment = some (.rules found) ∧ r ∈ found := by
  obtain ⟨front, word, gap, list, rfl, hfront, hword, hgap, piece, hpiece, hitem⟩ := h
  have hlength : word.length = 4 := by
    have hlower : lower word = "noqa".toList := sameLetters_iff.1 hword
    simpa [lower] using congrArg List.length hlower
  have htrim : trim (list.rdropWhile isBlank) = trim list := by
    have hblanks : ∀ c ∈ list.rtakeWhile isBlank, isBlank c = true :=
      fun c => List.mem_rtakeWhile_imp
    rw [← trim_append_blanks (list.rdropWhile isBlank) hblanks, List.rdropWhile_append_rtakeWhile]
  have hcolon : trim (gap ++ ':' :: list.rdropWhile isBlank) =
      ':' :: list.rdropWhile isBlank := by
    rw [trim_blanks_append hgap]
    show ((':' :: list.rdropWhile isBlank).dropWhile isBlank).rdropWhile isBlank = _
    rw [List.dropWhile_cons_of_neg (by decide), ← List.nil_append (':' :: _),
      rdropWhile_append_cons (by decide), List.rdropWhile_idempotent]
  -- the list is cut after its blanks are dropped, which may change its first and last item
  have hmem : trim name.toList ∈ ((trim list).splitOn ',').map trim := by
    rw [map_trim_splitOn_trim (by decide), ← hitem]
    exact List.mem_map_of_mem hpiece
  obtain ⟨piece', hpiece', hitem'⟩ := List.mem_map.1 hmem
  rw [← cutAt_eq_splitOn, ← htrim] at hpiece'
  have hcomment := trim_of_word hfront hword gap list
  refine exists_rules_of_item ?_ ?_ hpiece' (itemRule?_of_trim_eq hname hitem')
  · rw [hcomment, List.take_left' hlength]
    exact hword
  · rw [hcomment, List.drop_left' hlength]
    exact hcolon

end Directive

theorem Suppression.suppresses_of_mem {comments : List (Nat × List Char)} {line : Nat}
    {comment : List Char} {d : Directive} {code : String} (hmem : (line, comment) ∈ comments)
    (hdirective : Directive.ofComment? comment = some d) (hcovers : d.covers code = true) :
    (ofComments comments).suppresses line code = true := by
  refine List.any_eq_true.2 ⟨(line, d), ?_, by simp [hcovers]⟩
  exact List.mem_filterMap.2 ⟨(line, comment), hmem, by rw [hdirective]; rfl⟩

/-! ## Names in configurations -/

/-- Options under one name are found if that is, up to letter case, a name that the rule has. -/
theorem Config.policyOption?_of_only {c : Config} {name word : String}
    (h : c.ruleConfigs = .ofList [(name, .object [(Policy.optionName, .string word)])]) :
    c.policyOption? = if Rule.consistentReferences.isNamed name.toList then some (.string word)
      else none := by
  have hunder : ∀ n, c.optionUnder? Policy.optionName n =
      if sameLetters n.toList name.toList then some (.string word) else none := by
    intro n
    have hsymm : sameLetters name.toList n.toList = sameLetters n.toList name.toList :=
      BEq.comm
    unfold Config.optionUnder?
    rw [h]
    show (((List.find? _ [(name, Json.object _)]).map Prod.snd).bind Json.asObject?).bind _ = _
    rw [List.find?_cons]
    dsimp only
    rw [hsymm]
    cases sameLetters n.toList name.toList <;> rfl
  unfold Config.policyOption? Rule.isNamed
  rw [Config.option?_eq_findSome? c ofName?_code]
  induction Rule.consistentReferences.names.list with
  | nil => rfl
  | cons n names ih =>
    rw [List.findSome?_cons, hunder, List.any_cons, ih]
    cases sameLetters n.toList name.toList <;> rfl

/-- A name that is accepted turns the rule off and suppresses its issues. Options under it choose the
policy if it is, up to letter case, a name that the rule has; else they do nothing. -/
theorem accepted_name_configures_if_listed {name : String}
    (hname : Rule.ofName? name = some .consistentReferences) :
    (∀ c : Config, name ∈ c.disabledRules →
      c.applies Rule.consistentReferences.code = false) ∧
    (∀ comments line comment, (line, comment) ∈ comments → Directive.Lists comment name.toList →
      (Suppression.ofComments comments).suppresses line Rule.consistentReferences.code = true) ∧
    ∀ (c : Config) word p,
      c.ruleConfigs = .ofList [(name, .object [(Policy.optionName, .string word)])] →
      Policy.ofWord word = .ok p →
      Policy.ofConfig c = .ok (if Rule.consistentReferences.isNamed name.toList then p
        else .consistent) := by
  refine ⟨fun c hdisabled => ?_, fun comments line comment hmem hlists => ?_,
    fun c word p honly hword => ?_⟩
  · rw [Bool.eq_false_iff, Ne, applies_code_iff]
    intro hchecks
    exact hchecks.2 name hdisabled hname
  · obtain ⟨found, hdirective, hfound⟩ := Directive.exists_directive_of_lists hname hlists
    exact Suppression.suppresses_of_mem hmem hdirective (Directive.covers_rules hfound)
  · have hoption := Config.policyOption?_of_only honly
    split at hoption
    · rename_i hnamed
      rw [Policy.ofConfig_of_string hoption, hword, if_pos hnamed]
    · rename_i hnamed
      rw [Policy.ofConfig_of_none hoption, if_neg hnamed]

/-- A configuration that sets nothing but a word for the policy, under a name. -/
def onlyPolicy (name word : String) : Config where
  ruleConfigs := .ofList [(name, .object [("single_table_references", .string word)])]

theorem listed_name_configures :
    Rule.ofName? "rF03" = some .consistentReferences ∧
      Config.applies { disabledRules := ["AL01", "rF03"] } Rule.consistentReferences.code = false ∧
      (Suppression.ofComments [(3, " NoQA : AL01, rF03 ".toList)]).suppresses 3
        Rule.consistentReferences.code = true ∧
      Policy.ofWord " Qualified" = .ok .qualified ∧
      Policy.ofConfig (onlyPolicy "rF03" " Qualified") = .ok .qualified := by
  have hname : Rule.ofName? "rF03" = some .consistentReferences := by decide +kernel
  have hword : Policy.ofWord " Qualified" = .ok .qualified := by decide +kernel
  have hblank : ∀ c ∈ [' '], isBlank c = true := List.all_eq_true.1 (by decide)
  have hlists : Directive.Lists " NoQA : AL01, rF03 ".toList "rF03".toList :=
    ⟨[' '], "NoQA".toList, [' '], " AL01, rF03 ".toList, rfl, hblank, by decide, hblank,
      " rF03 ".toList, by decide, by decide⟩
  obtain ⟨hdisables, hsuppresses, hconfigures⟩ := accepted_name_configures_if_listed hname
  exact ⟨hname, hdisables _ (by decide), hsuppresses _ 3 _ (by simp) hlists, hword,
    hconfigures _ " Qualified" .qualified rfl hword⟩

/-- A name with one more zero is accepted and turns the rule off, but options under it do nothing. -/
theorem zero_padded_name_configures_nothing :
    Rule.ofName? "RF003" = some .consistentReferences ∧
      Config.applies { disabledRules := ["RF003"] } Rule.consistentReferences.code = false ∧
      Policy.ofConfig (onlyPolicy "RF003" "qualified") = .ok .consistent ∧
      Policy.consistent ≠ .qualified := by
  decide +kernel

end ColumnLint
