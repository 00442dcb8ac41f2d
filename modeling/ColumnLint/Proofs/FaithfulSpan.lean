import ColumnLint.Proofs.Boundary
import ColumnLint.Proofs.Verdict

/-
  Places that references and issues carry. A star behind a prefix has a place exactly when the
  text goes on behind the prefix with a period and a star and nothing but blanks between them
  (`starSpan_eq_some_iff`). Whatever regions a syntax tree carries, the place of a reference is a
  range that the text can be cut by, and what it cuts out is the text of the reference
  (`slice?_of_ofLeaf`); issues and their messages inherit that.
-/

namespace ColumnLint

open Text Sql

/-! ## Stars behind a prefix -/

/-- The text is `lead`, a period and a star, with nothing but blanks between them. -/
def IsStarBehind (lead cs : List Char) : Prop :=
  ∃ blanks blanks', (∀ c ∈ blanks, isBlank c = true) ∧ (∀ c ∈ blanks', isBlank c = true) ∧
    cs = lead ++ (blanks ++ '.' :: (blanks' ++ ['*']))

theorem dropWhile_isBlank_eq_cons_iff {cs rest : List Char} {c : Char} (hc : isBlank c = false) :
    cs.dropWhile isBlank = c :: rest ↔
      ∃ blanks, (∀ b ∈ blanks, isBlank b = true) ∧ cs = blanks ++ c :: rest := by
  constructor
  · intro h
    refine ⟨cs.takeWhile isBlank, List.all_eq_true.1 List.all_takeWhile, ?_⟩
    rw [← h, List.takeWhile_append_dropWhile]
  · intro hsome
    obtain ⟨blanks, hblanks, rfl⟩ := hsome
    rw [List.dropWhile_append_of_pos hblanks, List.dropWhile_cons_of_neg (by simp [hc])]

theorem isBlank_period : isBlank '.' = false := by decide

theorem isBlank_asterisk : isBlank '*' = false := by decide

/-- What `starSpan` looks for behind the prefix. -/
theorem starSpan_eq_some_iff_rest {text : List Char} {extent : Option Region} {s : Span} :
    starSpan text extent = some s ↔
      ∃ region t rest blanks blanks' after, extent = some region ∧ span? text region = some t ∧
        dropBytes text t.stop = some rest ∧ (∀ c ∈ blanks, isBlank c = true) ∧
        (∀ c ∈ blanks', isBlank c = true) ∧
        rest = blanks ++ '.' :: (blanks' ++ '*' :: after) ∧
        s = ⟨t.start, byteSize text - byteSize after⟩ := by
  constructor
  · intro h
    unfold starSpan at h
    obtain ⟨region, hregion, h⟩ := Option.bind_eq_some_iff.1 h
    obtain ⟨t, ht, h⟩ := Option.bind_eq_some_iff.1 h
    obtain ⟨rest, hrest, h⟩ := Option.bind_eq_some_iff.1 h
    split at h
    · rename_i rest' hperiod
      split at h
      · rename_i after hstar
        obtain ⟨blanks, hblanks, hrest'⟩ :=
          (dropWhile_isBlank_eq_cons_iff isBlank_period).1 hperiod
        obtain ⟨blanks', hblanks', rfl⟩ :=
          (dropWhile_isBlank_eq_cons_iff isBlank_asterisk).1 hstar
        exact ⟨region, t, rest, blanks, blanks', after, hregion, ht, hrest, hblanks, hblanks',
          hrest', (Option.some.inj h).symm⟩
      · cases h
    · cases h
  · intro hsome
    obtain ⟨region, t, rest, blanks, blanks', after, rfl, ht, hrest, hblanks, hblanks', rfl,
      rfl⟩ := hsome
    have hperiod : (blanks ++ '.' :: (blanks' ++ '*' :: after)).dropWhile isBlank =
        '.' :: (blanks' ++ '*' :: after) :=
      (dropWhile_isBlank_eq_cons_iff isBlank_period).2 ⟨blanks, hblanks, rfl⟩
    have hstar : (blanks' ++ '*' :: after).dropWhile isBlank = '*' :: after :=
      (dropWhile_isBlank_eq_cons_iff isBlank_asterisk).2 ⟨blanks', hblanks', rfl⟩
    unfold starSpan
    simp only [Option.bind_eq_bind, Option.bind_some, ht, hrest, hperiod, hstar]
    rfl

/-- A star behind a prefix has a place exactly when the text under the prefix goes on with a
period and a star; the place then covers all three. -/
theorem starSpan_eq_some_iff {text : List Char} {extent : Option Region} {s : Span} :
    starSpan text extent = some s ↔
      ∃ region t lead cs, extent = some region ∧ span? text region = some t ∧
        slice? text t = some lead ∧ IsStarBehind lead cs ∧ slice? text s = some cs ∧
        t.start = s.start := by
  rw [starSpan_eq_some_iff_rest]
  constructor
  · intro hsome
    obtain ⟨region, t, rest, blanks, blanks', after, hregion, ht, hrest, hblanks, hblanks', rfl,
      rfl⟩ := hsome
    obtain ⟨lead, hlead⟩ := exists_slice?_of_span? ht
    obtain ⟨before, rest', htext, hstart, hstop⟩ := slice?_eq_some_iff.1 hlead
    -- the rest behind the slice is the rest that was looked at
    have hsame : rest' = blanks ++ '.' :: (blanks' ++ '*' :: after) := by
      have hfront := dropBytes_append (before ++ lead) rest'
      rw [byteSize_append, hstart, hstop, List.append_assoc, ← htext, hrest] at hfront
      exact (Option.some.inj hfront).symm
    subst hsame
    refine ⟨region, t, lead, _, hregion, ht, hlead, ⟨blanks, blanks', hblanks, hblanks', rfl⟩, ?_,
      rfl⟩
    refine slice?_eq_some_iff.2 ⟨before, after, by simp [htext], hstart, ?_⟩
    rw [htext]
    simp only [byteSize_append, byteSize_cons, byteSize_nil]
    omega
  · intro hsome
    obtain ⟨region, t, lead, cs, hregion, ht, hlead, ⟨blanks, blanks', hblanks, hblanks', rfl⟩,
      hs, hstart⟩ := hsome
    obtain ⟨before, after, htext, hbefore, hstop⟩ := slice?_eq_some_iff.1 hs
    obtain ⟨-, -, -, -, hleadstop⟩ := slice?_eq_some_iff.1 hlead
    refine ⟨region, t, _, blanks, blanks', after, hregion, ht, ?_, hblanks, hblanks', rfl, ?_⟩
    · have hfront := dropBytes_append (before ++ lead) (blanks ++ '.' :: (blanks' ++ '*' :: after))
      have hsize : byteSize (before ++ lead) = t.stop := by
        rw [byteSize_append]
        omega
      rw [hsize] at hfront
      rw [htext]
      simpa using hfront
    · obtain ⟨start, stop⟩ := s
      have hsize : stop = byteSize text - byteSize after := by
        rw [htext]
        simp only [byteSize_append] at hbefore hstop ⊢
        omega
      rw [hsize, hstart]

/-! ## References -/

theorem textUnder_of_slice? {text cs : List Char} {s : Span} (h : slice? text s = some cs)
    (otherwise : String) : textUnder text (some s) otherwise = String.ofList cs := by
  unfold textUnder
  rw [Option.bind_some, h]

/-- A reference with a place is the text at that place. -/
theorem slice?_of_ofLeaf {text : List Char} {leaf : Leaf} {s : Span}
    (h : (Reference.ofLeaf text leaf).span = some s) :
    slice? text s = some (Reference.ofLeaf text leaf).text.toList := by
  have hcut : ∃ cs, slice? text s = some cs := by
    cases leaf with
    | column name =>
      obtain ⟨region, -, hspan⟩ := Option.bind_eq_some_iff.1 h
      exact exists_slice?_of_span? hspan
    | star => cases h
    | starOf printed extent =>
      obtain ⟨-, -, -, cs, -, -, -, -, hs, -⟩ := starSpan_eq_some_iff.1 h
      exact ⟨cs, hs⟩
  obtain ⟨cs, hs⟩ := hcut
  have htext : (Reference.ofLeaf text leaf).text = String.ofList cs := by
    cases leaf with
    | column name =>
      change (identsExtent name).bind (span? text) = some s at h
      simp only [Reference.ofLeaf, h]
      exact textUnder_of_slice? hs _
    | star => cases h
    | starOf printed extent =>
      change starSpan text extent = some s at h
      simp only [Reference.ofLeaf, h]
      exact textUnder_of_slice? hs _
  rw [htext, String.toList_ofList, hs]

/-- The text of a star with a place starts with the text of its prefix and goes on with a period
and a star. -/
theorem starBehind_of_ofLeaf {text : List Char} {leaf : Leaf} {s : Span}
    (h : (Reference.ofLeaf text leaf).span = some s)
    (hstar : (Reference.ofLeaf text leaf).wildcard = true) :
    ∃ printed region t lead, leaf = .starOf printed (some region) ∧ span? text region = some t ∧
      t.start = s.start ∧ slice? text t = some lead ∧
      IsStarBehind lead (Reference.ofLeaf text leaf).text.toList := by
  have hs := slice?_of_ofLeaf h
  cases leaf with
  | column name => cases hstar
  | star => cases h
  | starOf printed extent =>
    obtain ⟨region, t, lead, cs, rfl, ht, hlead, hbehind, hcs, hstart⟩ := starSpan_eq_some_iff.1 h
    rw [hcs] at hs
    rw [← Option.some.inj hs]
    exact ⟨printed, region, t, lead, rfl, ht, hstart, hlead, hbehind⟩

/-! ## Issues -/

namespace Linter

/-- The issues of a text are those that tell of its references, or the one that it cannot be
parsed. -/
theorem mem_lint_issues {l : Linter} {d : Dialect} {text : List Char} {i : Issue}
    (h : i ∈ (l.lint d text).issues) :
    (∃ s : Statement, ∃ p ∈ s.selects, ∃ leaf ∈ p.select.leaves p.keys, ∃ n,
      i = l.policy.issueOf n (Reference.ofLeaf text leaf)) ∨ ∃ e, i = parseIssue text e := by
  cases hparse : parse d text with
  | ok statements =>
    rw [lint_issues_of_parse hparse, mem_checkDocument_iff] at h
    obtain ⟨e, -, placed, hplaced, -, r, hr, rfl⟩ := exists_breaks_of_mem_raised h.2.1
    obtain ⟨p, hp, rfl⟩ := mem_selectScopes.1 hplaced
    obtain ⟨leaf, hleaf, rfl⟩ := Scope.mem_references.1 (mem_counted.1 hr.mem_counted).1
    exact .inl ⟨e.statement, p, hp, leaf, hleaf, e.index, rfl⟩
  | error e =>
    unfold lint at h
    rw [hparse] at h
    exact .inr ⟨e, List.mem_singleton.1 h⟩

theorem fits_of_parseIssue {text : List Char} {e : ParseError} {s : Span}
    (h : (parseIssue text e).span = some s) : s.Fits text ∧ s.start = s.stop := by
  obtain ⟨o, ho, rfl⟩ := Option.map_eq_some_iff.1 h
  obtain ⟨location, -, hoffset⟩ := Option.bind_eq_some_iff.1 ho
  have hboundary := isBoundary_of_offset? hoffset
  exact ⟨⟨Nat.le_refl o, hboundary.le_byteSize, hboundary, hboundary⟩, rfl⟩

end Linter

/-- Places of references and issues can be cut out of the text, and references and messages quote
what is cut out. -/
theorem places_are_faithful (text : List Char) :
    (∀ s : Statement, ∀ p ∈ s.selects, ∀ r ∈ (p.scope text).scope.references,
      ∀ span, r.span = some span →
        span.Fits text ∧ slice? text span = some r.text.toList ∧
        (r.wildcard = true →
          ∃ printed region t lead, Leaf.starOf printed (some region) ∈ p.select.leaves p.keys ∧
            r = Reference.ofLeaf text (.starOf printed (some region)) ∧
            span? text region = some t ∧ t.start = span.start ∧ slice? text t = some lead ∧
            IsStarBehind lead r.text.toList)) ∧
    (∀ (l : Linter) (d : Dialect), ∀ i ∈ (l.lint d text).issues, ∀ span, i.span = some span →
      span.Fits text ∧
      (i.code = parseErrorCode → span.start = span.stop) ∧
      (i.code = Rule.consistentReferences.code →
        ∃ kind cs, slice? text span = some cs ∧
          i.message = Qualification.capitalized kind ++ " reference " ++
            String.ofList (quoted cs) ++ l.policy.complaint)) := by
  constructor
  · intro s p hp r hr span hspan
    obtain ⟨leaf, hleaf, rfl⟩ := Scope.mem_references.1 hr
    have hcut := slice?_of_ofLeaf hspan
    refine ⟨fits_of_slice? hcut, hcut, fun hstar => ?_⟩
    obtain ⟨printed, region, t, lead, rfl, ht, hstart, hlead, hbehind⟩ :=
      starBehind_of_ofLeaf hspan hstar
    exact ⟨printed, region, t, lead, hleaf, rfl, ht, hstart, hlead, hbehind⟩
  · intro l d i hi span hspan
    rcases Linter.mem_lint_issues hi with ⟨s, p, -, leaf, -, n, rfl⟩ | ⟨e, rfl⟩
    · have hcut := slice?_of_ofLeaf hspan
      refine ⟨fits_of_slice? hcut, fun hcode => ?_, fun _ => ⟨_, _, hcut, rfl⟩⟩
      exact absurd hcode (by decide : Rule.consistentReferences.code ≠ parseErrorCode)
    · obtain ⟨hfits, hempty⟩ := Linter.fits_of_parseIssue hspan
      refine ⟨hfits, fun _ => hempty, fun hcode => ?_⟩
      exact absurd hcode (by decide : parseErrorCode ≠ Rule.consistentReferences.code)

/-- A star with blanks around the period, behind a letter of two bytes. -/
def spacedStar : List Char := "SELECT é . *, a FROM é".toList

set_option maxRecDepth 100000 in
theorem spacedStar_parses :
    someSelect .generic spacedStar 0 (PlacedSelect.meets spacedStar
      [⟨"é . *", .qualified, true, some ⟨7, 13⟩⟩,
        ⟨"a", .unqualified, false, some ⟨15, 16⟩⟩]) = true := by
  decide +kernel

theorem places_are_faithful_spacedStar :
    Span.Fits spacedStar ⟨7, 13⟩ ∧ slice? spacedStar ⟨7, 13⟩ = some "é . *".toList ∧
      (∃ t lead, t.start = 7 ∧ slice? spacedStar t = some lead ∧
        IsStarBehind lead "é . *".toList) ∧
      Policy.consistent.issueOf 0 ⟨"a", .unqualified, false, some ⟨15, 16⟩⟩ ∈
        (Linter.lint ⟨{}, .consistent⟩ .generic spacedStar).issues ∧
      Span.Fits spacedStar ⟨15, 16⟩ := by
  obtain ⟨statements, s, p, hparse, hs, hp, hmeets⟩ := exists_of_someSelect spacedStar_parses
  obtain ⟨hone, hrefs⟩ := p.scope_of_meets hmeets (by decide)
  have hstar : ⟨"é . *", .qualified, true, some ⟨7, 13⟩⟩ ∈ (p.scope spacedStar).scope.references :=
    by rw [hrefs]; decide
  have hissue : Policy.consistent.issueOf 0 ⟨"a", .unqualified, false, some ⟨15, 16⟩⟩ ∈
      (Linter.lint ⟨{}, .consistent⟩ .generic spacedStar).issues := by
    refine (Linter.mem_lint_issues_iff hparse (by decide)).2
      ⟨0, s, hs, p.scope spacedStar, mem_selectScopes.2 ⟨p, hp, rfl⟩, hone, _, ?_, rfl, ?_⟩
    · rw [hrefs]
      show firstSwitch (counted _) = _
      decide
    · show (Suppression.ofText .generic spacedStar).suppresses (lineAt spacedStar 15) _ = false
      decide +kernel
  obtain ⟨hfits, hcut, hbehind⟩ := (places_are_faithful spacedStar).1 s p hp _ hstar ⟨7, 13⟩ rfl
  obtain ⟨-, -, t, lead, -, -, -, hstart, hlead, hlead'⟩ := hbehind rfl
  exact ⟨hfits, hcut, ⟨t, lead, hstart, hlead, hlead'⟩, hissue,
    ((places_are_faithful spacedStar).2 _ _ _ hissue _ rfl).1⟩

end ColumnLint
