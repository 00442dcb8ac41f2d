import ColumnLint.Proofs.Canonical
import ColumnLint.Proofs.SharedCuts

/-
  Directives in texts that are read twice. A text that the generic dialect refuses may be accepted by
  another one, but the directives in its comments are always looked for in the dialect that was asked
  for (`Accepts`). That reading sees a comment exactly where it arrives at it (`sees_iff_arrives`).
  It arrives at every comment if no other dialect was needed, or if the two dialects cut the text
  alike; then every directive works. Otherwise it may not arrive at a comment, and the directive is
  lost.
-/

namespace ColumnLint

open Text Sql Lexer Suppression

/-- What `d` makes of a text is what `d'` reads, which is `d` unless the generic dialect refused. -/
structure Accepts (d d' : Dialect) (text : List Char) (statements : List Statement) : Prop where
  reads : readStatements d' text = .ok statements
  own_or_retried : d' = d ∨
    d = .generic ∧ d' = .postgres ∧ ∃ message, readStatements .generic text = .error message

/-- The text can be cut in the dialect, and a piece starts at the place. -/
def Arrives (d : Dialect) (text : List Char) (place : Location) : Prop :=
  ∃ ks, cuts d none (Cursor.start text) = .ok ks ∧ ∃ k ∈ ks, k.start.place = place

/-- The text can be cut in the dialect, and one of its comments is the given one: it starts at the
same place, on the same line, and says the same. -/
def Sees (d : Dialect) (text : List Char) (c : Comment) : Prop :=
  ∃ own, lex d text = .ok own ∧
    ∃ c' ∈ own.comments, c.Agrees c' ∧ commentLine? text c' = commentLine? text c

variable {d d' : Dialect} {text : List Char} {statements : List Statement}

theorem exists_accepts (h : parse d text = .ok statements) : ∃ d', Accepts d d' text statements := by
  unfold parse at h
  split at h
  · rename_i hreads
    cases h
    exact ⟨d, hreads, .inl rfl⟩
  · rename_i message hfails
    dsimp only at h
    split at h
    · rename_i hretry
      have hgeneric : d = .generic := eq_of_beq (Bool.and_eq_true_iff.1 hretry).1
      split at h
      · rename_i hreads
        cases h
        exact ⟨.postgres, hreads, .inr ⟨hgeneric, rfl, message, hgeneric ▸ hfails⟩⟩
      · cases h
    · cases h

theorem Accepts.eq_postgres {message : String} (h : Accepts .generic d' text statements)
    (hfails : readStatements .generic text = .error message) : d' = .postgres := by
  rcases h.own_or_retried with rfl | ⟨-, hretried, -⟩
  · cases hfails.symm.trans h.reads
  · exact hretried

theorem Accepts.exists_cuts (h : Accepts d d' text statements) :
    ∃ ks, cuts d' none (Cursor.start text) = .ok ks := by
  have hreads := h.reads
  unfold readStatements at hreads
  split at hreads
  · cases hreads
  · rename_i lexed hlex
    obtain ⟨ks, hks, -⟩ := exists_cuts_of_lex hlex
    exact ⟨ks, hks⟩

/-! ## Where comments are seen -/

/-- Two cursors of a text at one place are the same. -/
theorem eq_of_place_eq {a b : Cursor} (ha : (Cursor.start text).Moves a)
    (hb : (Cursor.start text).Moves b) (h : a.place = b.place) : a = b := by
  obtain ⟨front, hfront, hplace⟩ := ha
  obtain ⟨front', hfront', hplace'⟩ := hb
  change text = _ at hfront hfront'
  have hoffset : offset? text a.place = some (byteSize front) :=
    offset?_eq_some_iff.2 ⟨front, a.rest, hfront, rfl, hplace.symm⟩
  have hoffset' : offset? text b.place = some (byteSize front') :=
    offset?_eq_some_iff.2 ⟨front', b.rest, hfront', rfl, hplace'.symm⟩
  rw [h, hoffset'] at hoffset
  have hsize := Option.some.inj hoffset
  obtain ⟨mid, hmid, hrest⟩ := exists_append_of_byteSize_le (hfront.symm.trans hfront') (by omega)
  rw [hmid, byteSize_append] at hsize
  obtain rfl : mid = [] := eq_nil_of_byteSize_eq_zero (by omega)
  obtain ⟨rest, place⟩ := a
  obtain ⟨rest', place'⟩ := b
  exact congr (congrArg Cursor.mk hrest) h

theorem piece_of_mem_cuts {previous : Option Token} {c : Cursor} {ks : List Cut} {k : Cut}
    (h : cuts d previous c = .ok ks) (hk : k ∈ ks) :
    k.start.rest ≠ [] ∧ ∃ before, piece d before k.start = .ok (k.piece, k.stop) := by
  induction ks generalizing c previous with
  | nil => cases hk
  | cons first ks ih =>
    obtain ⟨hrest, rfl, hpiece, hbehind⟩ := eq_of_cuts_cons h
    rcases List.mem_cons.1 hk with rfl | hk
    · exact ⟨hrest, previous, hpiece⟩
    · exact ih hbehind hk

theorem start_of_comment? {k : Cut} {c : Comment} (h : k.comment? = some c) :
    c.region.start = k.start.place := by
  unfold Cut.comment? at h
  split at h
  · cases h
    rfl
  · cases h

/-- A comment stands on the line where it starts. -/
theorem commentLine?_of_comment? {ks : List Cut} {k : Cut} {c : Comment}
    (h : cuts d none (Cursor.start text) = .ok ks) (hk : k ∈ ks) (hc : k.comment? = some c) :
    commentLine? text c = some c.region.start.line := by
  rw [commentLine?_of_mem_cuts h hk hc, start_of_comment? hc]

/-- A comment among the pieces of a dialect is seen by it. -/
theorem sees_of_mem_cuts {ks : List Cut} {k : Cut} {c c' : Comment}
    (h : cuts d none (Cursor.start text) = .ok ks) (hk : k ∈ ks) (hc : k.comment? = some c')
    (hagrees : c.Agrees c') (hline : commentLine? text c = some c.region.start.line) :
    Sees d text c := by
  obtain ⟨own, hown, hcomments⟩ := exists_lexed_of_cuts h
  refine ⟨own, hown, c', ?_, hagrees, ?_⟩
  · rw [hcomments]
    exact List.mem_filterMap.2 ⟨k, hk, hc⟩
  · rw [commentLine?_of_comment? h hk hc, hline, hagrees.start_eq]

/-- A comment of the dialect that accepts a text is seen by the dialect that was asked for exactly
where that one arrives at it. -/
theorem Accepts.sees_iff_arrives {ks : List Cut} {k : Cut} {c : Comment}
    (h : Accepts d d' text statements) (hks : cuts d' none (Cursor.start text) = .ok ks)
    (hk : k ∈ ks) (hc : k.comment? = some c) (halike : d' = d ∨ k.alike = true) :
    Sees d text c ↔ Arrives d text c.region.start := by
  have hline := commentLine?_of_comment? hks hk hc
  constructor
  · rintro ⟨own, hown, c', hc', hagrees, -⟩
    obtain ⟨ks', hks', hcomments⟩ := exists_cuts_of_lex hown
    rw [← hcomments] at hc'
    obtain ⟨k', hk', heq⟩ := List.mem_filterMap.1 hc'
    exact ⟨ks', hks', k', hk', by rw [hagrees.start_eq, start_of_comment? heq]⟩
  · rintro ⟨ks', hks', k', hk', hplace⟩
    rcases h.own_or_retried with rfl | ⟨rfl, rfl, -⟩
    · exact sees_of_mem_cuts hks hk hc ⟨rfl, rfl⟩ hline
    · have halike : k.alike = true := halike.resolve_left (by decide)
      have hstart : k'.start = k.start :=
        eq_of_place_eq (moves_of_mem_cuts hks' hk').1 (moves_of_mem_cuts hks hk).1
          (hplace.trans (start_of_comment? hc))
      obtain ⟨hrest, before, hpiece⟩ := piece_of_mem_cuts hks hk
      obtain ⟨-, before', hpiece'⟩ := piece_of_mem_cuts hks' hk'
      obtain ⟨p, stop, c', hgeneric, -, hc', hagrees, -⟩ :=
        comment_of_alike before' hrest hpiece hc halike
      rw [hstart, hgeneric] at hpiece'
      obtain ⟨start, p', stop'⟩ := k'
      cases hpiece'
      cases hstart
      exact sees_of_mem_cuts hks' hk' hc' hagrees hline

/-- If no other dialect was needed or the pieces are cut alike, the dialect that was asked for gives
the same comments. -/
theorem Accepts.exists_comments {ks : List Cut} (h : Accepts d d' text statements)
    (hks : cuts d' none (Cursor.start text) = .ok ks)
    (halike : d' = d ∨ ∀ k ∈ ks, k.alike = true) :
    ∃ own, cuts d none (Cursor.start text) = .ok own ∧
      List.Forall₂ Comment.Agrees (ks.filterMap Cut.comment?) (own.filterMap Cut.comment?) := by
  rcases h.own_or_retried with rfl | ⟨rfl, rfl, -⟩
  · exact ⟨ks, hks, List.forall₂_same.2 fun c _ => ⟨rfl, rfl⟩⟩
  · exact exists_cuts_generic rfl hks (halike.resolve_left (by decide))

theorem exists_agrees_of_mem {cs cs' : List Comment} {c : Comment}
    (h : List.Forall₂ Comment.Agrees cs cs') (hc : c ∈ cs) : ∃ c' ∈ cs', c.Agrees c' := by
  induction h with
  | nil => cases hc
  | @cons first first' cs cs' hagrees _ ih =>
    rcases List.mem_cons.1 hc with rfl | hc
    · exact ⟨first', List.mem_cons_self, hagrees⟩
    · obtain ⟨c', hc', hagrees'⟩ := ih hc
      exact ⟨c', List.mem_cons_of_mem _ hc', hagrees'⟩

theorem Accepts.sees_of_alike {ks : List Cut} {k : Cut} {c : Comment}
    (h : Accepts d d' text statements) (hks : cuts d' none (Cursor.start text) = .ok ks)
    (halike : d' = d ∨ ∀ k ∈ ks, k.alike = true) (hk : k ∈ ks) (hc : k.comment? = some c) :
    Sees d text c := by
  obtain ⟨own, hown, hsame⟩ := h.exists_comments hks halike
  obtain ⟨c', hc', hagrees⟩ := exists_agrees_of_mem hsame (List.mem_filterMap.2 ⟨k, hk, hc⟩)
  obtain ⟨k', hk', heq⟩ := List.mem_filterMap.1 hc'
  exact sees_of_mem_cuts hown hk' heq hagrees (commentLine?_of_comment? hks hk hc)

/-! ## What is suppressed -/

theorem ofComment?_congr {a b : List Char} (h : trim a = trim b) :
    Directive.ofComment? a = Directive.ofComment? b := by
  unfold Directive.ofComment?
  rw [h]

theorem Document.lineOf?_of_isLineOf {doc : Document} {i : Issue} {line : Nat}
    (h : doc.IsLineOf i line) : doc.lineOf? i = some line := by
  unfold Document.IsLineOf at h
  unfold Document.lineOf?
  split at h
  · rename_i s hs
    rw [hs, h]
  · rename_i hs
    obtain ⟨n, e, hn, he, rfl⟩ := h
    rw [hs, hn]
    dsimp only
    rw [he]
    rfl

/-- A directive that is seen covers no issue of its line. -/
theorem covers_eq_false_of_sees {l : Linter} {i : Issue} {line : Nat} {c : Comment}
    {directive : Directive} (hparse : parse d text = .ok statements) (hsees : Sees d text c)
    (hc : commentLine? text c = some line) (hdirective : Directive.ofComment? c.text = some directive)
    (hi : i ∈ (l.lint d text).issues)
    (hline : (Document.ofText d text (entriesOf text statements)).IsLineOf i line) :
    directive.covers i.code = false := by
  obtain ⟨own, hown, c', hc', hagrees, hline'⟩ := hsees
  rw [Linter.lint_issues_of_parse hparse] at hi
  have hsuppresses := (Linter.mem_checkDocument_iff.1 hi).2.2
  unfold Document.suppresses at hsuppresses
  rw [Document.lineOf?_of_isLineOf hline] at hsuppresses
  have hlisted : (line, directive) ∈ (Suppression.ofText d text).directives := by
    unfold Suppression.ofText Suppression.ofComments
    rw [hown]
    refine List.mem_filterMap.2 ⟨(line, c'.text), List.mem_filterMap.2 ⟨c', hc', ?_⟩, ?_⟩
    · rw [hline', hc]
      rfl
    · rw [← ofComment?_congr hagrees.trim_eq, hdirective]
      rfl
  have hnone := List.any_eq_false.1 hsuppresses _ hlisted
  simpa using hnone

/-- A directive works where the dialect that was asked for arrives at its comment, which it does
wherever it accepts the text or cuts its pieces alike. -/
theorem directives_work_where_arrived (l : Linter) {d : Dialect} {text : List Char}
    {statements : List Statement} (h : parse d text = .ok statements) :
    ∃ d' ks, Accepts d d' text statements ∧ cuts d' none (Cursor.start text) = .ok ks ∧
      (lex d' text).map Lexed.comments = .ok (ks.filterMap Cut.comment?) ∧
      ((d' = d ∨ ∀ k ∈ ks, k.alike = true) → ∃ own, lex d text = .ok own ∧
        List.Forall₂ Comment.Agrees (ks.filterMap Cut.comment?) own.comments) ∧
      ∀ k ∈ ks, ∀ c, k.comment? = some c →
        commentLine? text c = some c.region.start.line ∧
        (d' = d ∨ k.alike = true → (Sees d text c ↔ Arrives d text c.region.start)) ∧
        ((d' = d ∨ ∀ k ∈ ks, k.alike = true) → Sees d text c) ∧
        (Sees d text c → ∀ directive, Directive.ofComment? c.text = some directive →
          ∀ i ∈ (l.lint d text).issues,
            (Document.ofText d text (entriesOf text statements)).IsLineOf i c.region.start.line →
            directive.covers i.code = false) := by
  obtain ⟨d', haccepts⟩ := exists_accepts h
  obtain ⟨ks, hks⟩ := haccepts.exists_cuts
  refine ⟨d', ks, haccepts, hks, ?_, fun halike => ?_, fun k hk c hc => ?_⟩
  · rw [map_comments_lex, hks]
    rfl
  · obtain ⟨own, hown, hagrees⟩ := haccepts.exists_comments hks halike
    obtain ⟨lexed, hlex, hcomments⟩ := exists_lexed_of_cuts hown
    exact ⟨lexed, hlex, hcomments ▸ hagrees⟩
  · have hline := commentLine?_of_comment? hks hk hc
    refine ⟨hline, haccepts.sees_iff_arrives hks hk hc,
      fun halike => haccepts.sees_of_alike hks halike hk hc, ?_⟩
    intro hsees directive hdirective i hi hi'
    exact covers_eq_false_of_sees h hsees hline hdirective hi hi'

/-- A text with an operator that the generic dialect cannot parse. Both dialects cut it alike. -/
def distance : List Char := "SELECT f.a <-> 1, b::int FROM f -- noqa".toList

set_option maxRecDepth 100000 in
theorem distance_parses :
    someSelect .generic distance 0 (PlacedSelect.meets distance
      [⟨"f.a", .qualified, false, some ⟨7, 10⟩⟩,
        ⟨"b", .unqualified, false, some ⟨18, 19⟩⟩]) = true := by
  decide +kernel

/-- All pieces of a text are cut alike, and these are its comments. -/
def cutsAlike (text : List Char) (comments : List Comment) : Bool :=
  match cuts .postgres none (Cursor.start text) with
  | .ok ks => ks.all Cut.alike && ks.filterMap Cut.comment? == comments
  | .error _ => false

theorem of_cutsAlike {comments : List Comment} {ks : List Cut} (h : cutsAlike text comments = true)
    (hks : cuts .postgres none (Cursor.start text) = .ok ks) :
    (∀ k ∈ ks, k.alike = true) ∧ ks.filterMap Cut.comment? = comments := by
  unfold cutsAlike at h
  rw [hks] at h
  simpa using h

/-- The dialect cannot read the text. -/
def refused (d : Dialect) (text : List Char) : Bool :=
  match readStatements d text with
  | .ok _ => false
  | .error _ => true

theorem exists_of_refused (h : refused d text = true) :
    ∃ message, readStatements d text = .error message := by
  unfold refused at h
  split at h
  · cases h
  · rename_i message hfails
    exact ⟨message, hfails⟩

/-- The generic dialect refuses the text, another one accepts it, and the comment at its end still
takes away the issue that is raised. -/
theorem distance_suppressed :
    (∃ message, readStatements .generic distance = .error message) ∧
      ∃ statements, parse .generic distance = .ok statements ∧
        Sees .generic distance ⟨" noqa".toList, ⟨⟨1, 33⟩, ⟨1, 40⟩⟩⟩ ∧
        Policy.consistent.issueOf 0 ⟨"b", .unqualified, false, some ⟨18, 19⟩⟩ ∈
          Linter.raised ⟨{}, .consistent⟩
            (Document.ofText .generic distance (entriesOf distance statements)) ∧
        Policy.consistent.issueOf 0 ⟨"b", .unqualified, false, some ⟨18, 19⟩⟩ ∉
          (Linter.lint ⟨{}, .consistent⟩ .generic distance).issues := by
  have hrefused : refused .generic distance = true := by decide +kernel
  have hcuts : cutsAlike distance [⟨" noqa".toList, ⟨⟨1, 33⟩, ⟨1, 40⟩⟩⟩] = true := by
    decide +kernel
  obtain ⟨message, hfails⟩ := exists_of_refused hrefused
  obtain ⟨statements, s, p, hparse, hs, hp, hmeets⟩ := exists_of_someSelect distance_parses
  obtain ⟨d', ks, haccepts, hks, -, -, hcomments⟩ :=
    directives_work_where_arrived ⟨{}, .consistent⟩ hparse
  obtain rfl := haccepts.eq_postgres hfails
  obtain ⟨halike, hlist⟩ := of_cutsAlike hcuts hks
  obtain ⟨k, hk, hc⟩ := List.mem_filterMap.1 (hlist ▸ List.mem_singleton_self _)
  obtain ⟨-, -, hsees, hworks⟩ := hcomments k hk _ hc
  have hsees := hsees (.inr halike)
  refine ⟨⟨message, hfails⟩, statements, hparse, hsees, ?_, fun hi => ?_⟩
  · refine Linter.mem_raised_of_meets _ hs hp hmeets (by decide) ?_
    show firstSwitch (counted _) = _
    decide
  · have hcovers := hworks hsees .all (by decide +kernel) _ hi (by
      show 1 = lineAt distance 18
      decide +kernel)
    cases hcovers

/-- A text with a comment right behind a slash. The generic dialect takes two slashes together, and
then the apostrophe of the comment for a quote that is never closed. -/
def halved : List Char := "SELECT f.a //* it's half */ 2, b::int FROM f -- noqa".toList

set_option maxRecDepth 100000 in
theorem halved_parses :
    someSelect .generic halved 0 (PlacedSelect.meets halved
      [⟨"f.a", .qualified, false, some ⟨7, 10⟩⟩,
        ⟨"b", .unqualified, false, some ⟨31, 32⟩⟩]) = true := by
  decide +kernel

/-- The dialect that accepts the text has a directive for its line among the comments, but the one
that was asked for cannot cut the text: the issue on that line is told. -/
theorem halved_keeps_issue :
    ∃ statements lexed c, parse .generic halved = .ok statements ∧
      Accepts .generic .postgres halved statements ∧
      lex .postgres halved = .ok lexed ∧ c ∈ lexed.comments ∧ commentLine? halved c = some 1 ∧
      Directive.ofComment? c.text = some .all ∧
      (∀ own, lex .generic halved ≠ .ok own) ∧
      (Document.ofText .generic halved (entriesOf halved statements)).IsLineOf
        (Policy.consistent.issueOf 0 ⟨"b", .unqualified, false, some ⟨31, 32⟩⟩) 1 ∧
      Policy.consistent.issueOf 0 ⟨"b", .unqualified, false, some ⟨31, 32⟩⟩ ∈
        (Linter.lint ⟨{}, .consistent⟩ .generic halved).issues := by
  have hrefused : refused .generic halved = true := by decide +kernel
  have hnone : (lex .generic halved).toOption = none := by decide +kernel
  have hempty : Suppression.ofText .generic halved = {} := by decide +kernel
  have hcomments : (lex .postgres halved).toOption.map Lexed.comments =
      some [⟨" it's half ".toList, ⟨⟨1, 13⟩, ⟨1, 28⟩⟩⟩, ⟨" noqa".toList, ⟨⟨1, 46⟩, ⟨1, 53⟩⟩⟩] := by
    decide +kernel
  obtain ⟨statements, s, p, hparse, hs, hp, hmeets⟩ := exists_of_someSelect halved_parses
  obtain ⟨message, hfails⟩ := exists_of_refused hrefused
  obtain ⟨d', haccepts⟩ := exists_accepts hparse
  obtain rfl := haccepts.eq_postgres hfails
  obtain ⟨lexed, hlexed, hlist⟩ := Option.map_eq_some_iff.1 hcomments
  have hlex : lex .postgres halved = .ok lexed := by
    cases hcut : lex .postgres halved with
    | error e =>
      rw [hcut] at hlexed
      cases hlexed
    | ok own =>
      rw [hcut] at hlexed
      exact congrArg _ (Option.some.inj hlexed)
  refine ⟨statements, lexed, ⟨" noqa".toList, ⟨⟨1, 46⟩, ⟨1, 53⟩⟩⟩, hparse, haccepts, hlex, ?_,
    by decide +kernel, by decide +kernel, ?_, ?_, ?_⟩
  · rw [hlist]
    exact List.mem_cons_of_mem _ List.mem_cons_self
  · intro own hown
    rw [hown] at hnone
    cases hnone
  · show 1 = lineAt halved 31
    decide +kernel
  · rw [Linter.lint_issues_of_parse hparse]
    refine Linter.mem_checkDocument_iff.2
      ⟨rfl, Linter.mem_raised_of_meets _ hs hp hmeets (by decide) ?_, ?_⟩
    · show firstSwitch (counted _) = _
      decide
    · unfold Document.suppresses Document.ofText
      rw [hempty]
      split <;> rfl

end ColumnLint
