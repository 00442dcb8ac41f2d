import ColumnLint.Proofs.WrittenOrder
import ColumnLint.Report
import Mathlib.Data.Prod.Lex
import Mathlib.Order.Bounds.Defs
import Mathlib.Order.Hom.Set

/-
  The two coordinates of a place in a text: its location and its offset. An offset is reached by a
  shortest front part of the text (`covering`), and its location is the one behind that part
  (`locationAt_eq_past`). Hence each of the two is found from the other
  (`locations_and_offsets_are_inverse`), and both are in the same order (`offsets_keep_order`).
-/

namespace ColumnLint

open Text Sql

namespace Text

/-! ## The front part that reaches an offset -/

/-- The shortest front part of a text that has `n` bytes or more, or else all of the text. -/
def covering : List Char → Nat → List Char
  | [], _ => []
  | c :: cs, n => if n = 0 then [] else c :: covering cs (n - c.utf8Size)

@[simp] theorem covering_zero (text : List Char) : covering text 0 = [] := by
  cases text with
  | nil => rfl
  | cons c cs => exact if_pos rfl

theorem covering_cons_pos {c : Char} {cs : List Char} {n : Nat} (h : 0 < n) :
    covering (c :: cs) n = c :: covering cs (n - c.utf8Size) := if_neg (by omega)

theorem covering_isPrefix (text : List Char) (n : Nat) : covering text n <+: text := by
  induction text generalizing n with
  | nil => exact List.nil_prefix
  | cons c cs ih =>
    rcases Nat.eq_zero_or_pos n with rfl | hn
    · rw [covering_zero]
      exact List.nil_prefix
    · rw [covering_cons_pos hn]
      exact List.cons_prefix_cons.2 ⟨rfl, ih _⟩

theorem min_le_byteSize_covering (text : List Char) (n : Nat) :
    min n (byteSize text) ≤ byteSize (covering text n) := by
  induction text generalizing n with
  | nil => simp
  | cons c cs ih =>
    rcases Nat.eq_zero_or_pos n with rfl | hn
    · simp
    · have hrest := ih (n - c.utf8Size)
      rw [covering_cons_pos hn, byteSize_cons, byteSize_cons]
      omega

/-- Every front part that reaches the offset goes on from the covering one. -/
theorem covering_isPrefix_of_le {text front : List Char} {n : Nat} (hfront : front <+: text)
    (h : min n (byteSize text) ≤ byteSize front) : covering text n <+: front := by
  induction text generalizing n front with
  | nil => exact List.nil_prefix
  | cons c cs ih =>
    rcases Nat.eq_zero_or_pos n with rfl | hn
    · rw [covering_zero]
      exact List.nil_prefix
    · rw [covering_cons_pos hn]
      cases front with
      | nil =>
        have := c.utf8Size_pos
        rw [byteSize_cons, byteSize_nil] at h
        omega
      | cons d ds =>
        obtain ⟨rfl, hds⟩ := List.cons_prefix_cons.1 hfront
        have hrest : min (n - d.utf8Size) (byteSize cs) ≤ byteSize ds := by
          rw [byteSize_cons, byteSize_cons] at h
          omega
        exact List.cons_prefix_cons.2 ⟨rfl, ih hds hrest⟩

theorem covering_mono {m n : Nat} (text : List Char) (h : m ≤ n) :
    covering text m <+: covering text n := by
  have hreach := min_le_byteSize_covering text n
  exact covering_isPrefix_of_le (covering_isPrefix text n) (by omega)

theorem isBoundary_iff_isPrefix {text : List Char} {o : Nat} :
    IsBoundary text o ↔ ∃ front, front <+: text ∧ byteSize front = o := by
  constructor
  · intro h
    obtain ⟨front, back, rfl, hsize⟩ := h
    exact ⟨front, List.prefix_append front back, hsize⟩
  · intro h
    obtain ⟨front, ⟨back, rfl⟩, hsize⟩ := h
    exact ⟨front, back, rfl, hsize⟩

theorem byteSize_le_of_isPrefix {a b : List Char} (h : a <+: b) : byteSize a ≤ byteSize b := by
  obtain ⟨rest, rfl⟩ := h
  rw [byteSize_append]
  omega

/-- The covering part ends at the first boundary from the offset on. -/
theorem isLeast_byteSize_covering (text : List Char) (n : Nat) :
    IsLeast {b | IsBoundary text b ∧ min n (byteSize text) ≤ b} (byteSize (covering text n)) := by
  constructor
  · exact ⟨isBoundary_iff_isPrefix.2 ⟨_, covering_isPrefix text n, rfl⟩,
      min_le_byteSize_covering text n⟩
  · intro b hb
    obtain ⟨hboundary, hle⟩ := hb
    obtain ⟨front, hfront, rfl⟩ := isBoundary_iff_isPrefix.1 hboundary
    exact byteSize_le_of_isPrefix (covering_isPrefix_of_le hfront hle)

theorem byteSize_covering_of_isBoundary {text : List Char} {o : Nat} (h : IsBoundary text o) :
    byteSize (covering text o) = o := by
  have hle := h.le_byteSize
  have hleast := isLeast_byteSize_covering text o
  rw [Nat.min_eq_left hle] at hleast
  exact Nat.le_antisymm (hleast.2 ⟨h, Nat.le_refl o⟩) hleast.1.2

/-! ## Locations of offsets -/

theorem locationFrom_eq_past (text : List Char) (n : Nat) (l : Location) :
    locationFrom text n l = l.past (covering text n) := by
  induction text generalizing n l with
  | nil => rfl
  | cons c cs ih =>
    rcases Nat.eq_zero_or_pos n with rfl | hn
    · rw [covering_zero]
      exact if_pos rfl
    · rw [covering_cons_pos hn, Location.past_cons, ← ih]
      exact if_neg (by omega)

theorem locationAt_eq_past (text : List Char) (n : Nat) :
    locationAt text n = Location.first.past (covering text n) :=
  locationFrom_eq_past text n Location.first

theorem offset?_locationAt (text : List Char) (n : Nat) :
    offset? text (locationAt text n) = some (byteSize (covering text n)) := by
  obtain ⟨back, hback⟩ := covering_isPrefix text n
  exact offset?_eq_some_iff.2
    ⟨covering text n, back, hback.symm, rfl, (locationAt_eq_past text n).symm⟩

theorem offset?_locationAt_of_isBoundary {text : List Char} {o : Nat} (h : IsBoundary text o) :
    offset? text (locationAt text o) = some o := by
  rw [offset?_locationAt, byteSize_covering_of_isBoundary h]

/-- Of front parts of a text, those of one size are the same. -/
theorem eq_of_isPrefix_of_byteSize_eq {text a b : List Char} (ha : a <+: text) (hb : b <+: text)
    (h : byteSize a = byteSize b) : a = b := by
  obtain ⟨a', ha⟩ := ha
  obtain ⟨b', hb⟩ := hb
  obtain ⟨mid, rfl, -⟩ := exists_append_of_byteSize_le (ha.trans hb.symm) (Nat.le_of_eq h)
  have hmid : mid = [] := by
    apply eq_nil_of_byteSize_eq_zero
    rw [byteSize_append] at h
    omega
  rw [hmid, List.append_nil]

theorem locationAt_of_offset? {text : List Char} {l : Location} {o : Nat}
    (h : offset? text l = some o) : locationAt text o = l := by
  have hboundary := isBoundary_of_offset? h
  obtain ⟨front, back, htext, hsize, hpast⟩ := offset?_eq_some_iff.1 h
  have hfront : covering text o = front :=
    eq_of_isPrefix_of_byteSize_eq (covering_isPrefix text o) ⟨back, htext.symm⟩
      (by rw [byteSize_covering_of_isBoundary hboundary, hsize])
  rw [locationAt_eq_past, hfront, hpast]

/-! ## The order of locations -/

namespace Location

/-- Locations are ordered by line, and in a line by column. -/
def key (l : Location) : ℕ ×ₗ ℕ := toLex (l.line, l.column)

theorem key_injective : Function.Injective key := by
  intro a b h
  have hpair : (a.line, a.column) = (b.line, b.column) := h
  cases a
  cases b
  simpa using hpair

instance : PartialOrder Location := PartialOrder.lift key key_injective

theorem lt_iff {a b : Location} :
    a < b ↔ a.line < b.line ∨ a.line = b.line ∧ a.column < b.column :=
  Prod.Lex.toLex_lt_toLex

theorem not_lt_iff {a b : Location} : ¬a < b ↔ b ≤ a := not_lt (a := a.key) (b := b.key)

theorem lt_after (l : Location) (c : Char) : l < l.after c := by
  rw [lt_iff]
  unfold after
  split <;> simp

theorem le_past (l : Location) (cs : List Char) : l ≤ l.past cs := by
  induction cs generalizing l with
  | nil => exact le_refl l
  | cons c cs ih => exact (lt_after l c).le.trans (ih (l.after c))

/-- A walk over some text leads on. -/
theorem lt_past (l : Location) {cs : List Char} (h : cs ≠ []) : l < l.past cs := by
  cases cs with
  | nil => exact absurd rfl h
  | cons c cs => exact (lt_after l c).trans_le (le_past (l.after c) cs)

end Location

theorem lt_of_offset?_lt {text : List Char} {l₁ l₂ : Location} {o₁ o₂ : Nat}
    (h₁ : offset? text l₁ = some o₁) (h₂ : offset? text l₂ = some o₂) (h : o₁ < o₂) :
    l₁ < l₂ := by
  obtain ⟨front₁, back₁, htext₁, rfl, rfl⟩ := offset?_eq_some_iff.1 h₁
  obtain ⟨front₂, back₂, htext₂, rfl, rfl⟩ := offset?_eq_some_iff.1 h₂
  obtain ⟨mid, rfl, -⟩ :=
    exists_append_of_byteSize_le (htext₁.symm.trans htext₂) (Nat.le_of_lt h)
  have hmid : mid ≠ [] := by
    rintro rfl
    simp at h
  rw [Location.past_append]
  exact Location.lt_past _ hmid

theorem offset?_lt_iff {text : List Char} {l₁ l₂ : Location} {o₁ o₂ : Nat}
    (h₁ : offset? text l₁ = some o₁) (h₂ : offset? text l₂ = some o₂) :
    o₁ < o₂ ↔ l₁ < l₂ := by
  refine ⟨lt_of_offset?_lt h₁ h₂, fun hlt => ?_⟩
  -- were the offsets equal or the other way round, the locations would be so too
  rcases Nat.lt_trichotomy o₁ o₂ with h | rfl | h
  · exact h
  · have heq : l₁ = l₂ := by rw [← locationAt_of_offset? h₁, locationAt_of_offset? h₂]
    exact absurd heq hlt.ne
  · exact absurd (lt_of_offset?_lt h₂ h₁ h) hlt.asymm

theorem offset?_le_iff {text : List Char} {l₁ l₂ : Location} {o₁ o₂ : Nat}
    (h₁ : offset? text l₁ = some o₁) (h₂ : offset? text l₂ = some o₂) :
    o₁ ≤ o₂ ↔ l₁ ≤ l₂ := by
  rw [← Nat.not_lt, offset?_lt_iff h₂ h₁, Location.not_lt_iff]

theorem monotone_locationAt (text : List Char) : Monotone (locationAt text) := by
  intro m n h
  obtain ⟨rest, hrest⟩ := covering_mono text h
  rw [locationAt_eq_past, locationAt_eq_past, ← hrest, Location.past_append]
  exact Location.le_past _ rest

/-- The locations of a text and its boundaries, in order. -/
def boundaryIso (text : List Char) :
    {l : Location // ∃ o, offset? text l = some o} ≃o {o : Nat // IsBoundary text o} where
  toFun l := ⟨(offset? text l.1).get (Option.isSome_iff_exists.2 l.2), by
    obtain ⟨o, ho⟩ := l.2
    simpa [ho] using isBoundary_of_offset? ho⟩
  invFun o := ⟨locationAt text o.1, o.1, offset?_locationAt_of_isBoundary o.2⟩
  left_inv l := by
    obtain ⟨l, o, ho⟩ := l
    simp [ho, locationAt_of_offset? ho]
  right_inv o := by
    obtain ⟨o, ho⟩ := o
    simp [offset?_locationAt_of_isBoundary ho]
  map_rel_iff' := by
    intro a b
    obtain ⟨l₁, o₁, h₁⟩ := a
    obtain ⟨l₂, o₂, h₂⟩ := b
    simp [h₁, h₂, offset?_le_iff h₁ h₂]

/-- Offsets of locations are in the order of the locations, so a region has a span as soon as the text
has its ends and they are in order, and later offsets never have earlier locations. -/
theorem offsets_keep_order (text : List Char) :
    (∀ l₁ l₂ o₁ o₂, offset? text l₁ = some o₁ → offset? text l₂ = some o₂ →
      (o₁ < o₂ ↔ l₁ < l₂)) ∧
    (∀ r s, span? text r = some s ↔
      offset? text r.start = some s.start ∧ offset? text r.stop = some s.stop ∧
        ¬r.stop < r.start) ∧
    (∀ r, (∃ s, span? text r = some s) ↔
      (∃ a, offset? text r.start = some a) ∧ (∃ b, offset? text r.stop = some b) ∧
        ¬r.stop < r.start) ∧
    Monotone (locationAt text) ∧
    ∃ e : {l : Location // ∃ o, offset? text l = some o} ≃o {o : Nat // IsBoundary text o},
      ∀ l, offset? text l.1 = some (e l).1 := by
  have hspan : ∀ r s, span? text r = some s ↔
      offset? text r.start = some s.start ∧ offset? text r.stop = some s.stop ∧
        ¬r.stop < r.start := by
    intro r s
    rw [span?_eq_some_iff]
    refine and_congr_right fun hstart => and_congr_right fun hstop => ?_
    rw [← Nat.not_lt, offset?_lt_iff hstop hstart]
  refine ⟨fun l₁ l₂ o₁ o₂ => offset?_lt_iff, hspan, fun r => ?_, monotone_locationAt text,
    boundaryIso text, fun l => (Option.some_get _).symm⟩
  constructor
  · intro hsome
    obtain ⟨s, hs⟩ := hsome
    obtain ⟨hstart, hstop, hordered⟩ := (hspan r s).1 hs
    exact ⟨⟨_, hstart⟩, ⟨_, hstop⟩, hordered⟩
  · intro hsome
    obtain ⟨⟨a, ha⟩, ⟨b, hb⟩, hordered⟩ := hsome
    exact ⟨⟨a, b⟩, (hspan r ⟨a, b⟩).2 ⟨ha, hb, hordered⟩⟩

/-- Lines of characters of different sizes, one of them empty. -/
def unevenLines : List Char := "é\n\n€b".toList

theorem unevenLines_keep_order :
    offset? unevenLines ⟨1, 2⟩ = some 2 ∧ offset? unevenLines ⟨2, 1⟩ = some 3 ∧
      (⟨1, 2⟩ : Location) < ⟨2, 1⟩ ∧
      span? unevenLines ⟨⟨1, 2⟩, ⟨3, 2⟩⟩ = some ⟨2, 7⟩ ∧
      locationAt unevenLines 4 ≤ locationAt unevenLines 5 ∧
      locationAt unevenLines 5 = ⟨3, 2⟩ := by
  have hend : offset? unevenLines ⟨1, 2⟩ = some 2 := by decide
  have hempty : offset? unevenLines ⟨2, 1⟩ = some 3 := by decide
  obtain ⟨hlt, hspan, -, hmono, -⟩ := offsets_keep_order unevenLines
  refine ⟨hend, hempty, (hlt _ _ _ _ hend hempty).1 (by decide), ?_, hmono (by decide), by decide⟩
  refine (hspan ⟨⟨1, 2⟩, ⟨3, 2⟩⟩ ⟨2, 7⟩).2 ⟨hend, by decide, ?_⟩
  rw [Location.lt_iff]
  decide

end Text

/-! ## Places that are shown -/

/-- Where a row is shown. -/
def Row.place (r : Row) : Location := ⟨r.line, r.column⟩

theorem Row.place_ofIssue {text : List Char} {i : Issue} {s : Span} (h : i.span = some s) :
    (Row.ofIssue text i).place = locationAt text s.start := by
  simp [place, ofIssue, h]

/-- The place of a reference starts where what is known of its leaf starts. -/
theorem Reference.exists_extent_of_ofLeaf {text : List Char} {leaf : Leaf} {s : Span}
    (h : (Reference.ofLeaf text leaf).span = some s) :
    ∃ region, leaf.extent = some region ∧ offset? text region.start = some s.start := by
  cases leaf with
  | column name =>
    obtain ⟨region, hregion, hspan⟩ := Option.bind_eq_some_iff.1 h
    exact ⟨region, hregion, (span?_eq_some_iff.1 hspan).1⟩
  | star => cases h
  | starOf printed extent =>
    obtain ⟨region, t, -, -, hregion, ht, -, -, -, hstart⟩ := starSpan_eq_some_iff.1 h
    exact ⟨region, hregion, hstart ▸ (span?_eq_some_iff.1 ht).1⟩

namespace Linter

/-- The location that the place of an issue is made from: the one that the failure to parse the text
is reported with, or the start of what is known of the leaf that offends. -/
inductive MadeFrom (l : Linter) (d : Dialect) (text : List Char) : Issue → Location → Prop
  | failure {e : ParseError} {place : Location} (hparse : parse d text = .error e)
      (hplace : e.position = some place) : MadeFrom l d text (parseIssue text e) place
  | leaf {statements : List Statement} {n : Nat} {s : Statement} {p : PlacedSelect} {leaf : Leaf}
      {region : Region} (hparse : parse d text = .ok statements) (hs : statements[n]? = some s)
      (hp : p ∈ s.selects) (hleaf : leaf ∈ p.select.leaves p.keys)
      (hregion : leaf.extent = some region) :
      MadeFrom l d text (l.policy.issueOf n (Reference.ofLeaf text leaf)) region.start

variable {l : Linter} {d : Dialect} {text : List Char} {i : Issue} {span : Span}

theorem MadeFrom.locationAt_eq {place : Location} (h : l.MadeFrom d text i place)
    (hspan : i.span = some span) : locationAt text span.start = place := by
  cases h with
  | failure hparse hplace =>
    obtain ⟨o, ho, rfl⟩ := Option.map_eq_some_iff.1 hspan
    rw [hplace, Option.bind_some] at ho
    exact locationAt_of_offset? ho
  | leaf hparse hs hp hleaf hregion =>
    obtain ⟨region, hextent, hoffset⟩ := Reference.exists_extent_of_ofLeaf hspan
    obtain rfl := Option.some.inj (hextent.symm.trans hregion)
    exact locationAt_of_offset? hoffset

theorem exists_madeFrom (h : i ∈ (l.lint d text).issues) (hspan : i.span = some span) :
    ∃ place, l.MadeFrom d text i place := by
  cases hparse : parse d text with
  | ok statements =>
    rw [lint_issues_of_parse hparse, mem_checkDocument_iff] at h
    obtain ⟨e, he, placed, hplaced, -, r, hr, rfl⟩ := exists_breaks_of_mem_raised h.2.1
    obtain ⟨n, s, hs, rfl⟩ := mem_entriesOf.1 he
    obtain ⟨p, hp, rfl⟩ := mem_selectScopes.1 hplaced
    obtain ⟨leaf, hleaf, rfl⟩ := Scope.mem_references.1 (mem_counted.1 hr.mem_counted).1
    obtain ⟨region, hregion, -⟩ := Reference.exists_extent_of_ofLeaf hspan
    exact ⟨region.start, .leaf hparse hs hp hleaf hregion⟩
  | error e =>
    unfold lint at h
    rw [hparse] at h
    obtain rfl := List.mem_singleton.1 h
    obtain ⟨o, ho, -⟩ := Option.map_eq_some_iff.1 hspan
    obtain ⟨place, hplace, -⟩ := Option.bind_eq_some_iff.1 ho
    exact ⟨place, .failure hparse hplace⟩

end Linter

/-- A location leads to a boundary and back, a boundary to a location and back, and any other offset to
the next boundary. So an issue with a place is shown at the location that the place is made from, and
nowhere else. -/
theorem locations_and_offsets_are_inverse (text : List Char) :
    (∀ l o, offset? text l = some o →
      IsBoundary text o ∧ o ≤ byteSize text ∧ locationAt text o = l) ∧
    (∀ o, IsBoundary text o → offset? text (locationAt text o) = some o) ∧
    (∀ n, ∃ o, offset? text (locationAt text n) = some o ∧
      IsLeast {b | IsBoundary text b ∧ min n (byteSize text) ≤ b} o) ∧
    ∀ (l : Linter) (d : Dialect), ∀ i ∈ (l.lint d text).issues, ∀ span, i.span = some span →
      ∀ place, l.MadeFrom d text i place ↔ (Row.ofIssue text i).place = place := by
  refine ⟨fun l o h => ?_, fun o => offset?_locationAt_of_isBoundary,
    fun n => ⟨_, offset?_locationAt text n, isLeast_byteSize_covering text n⟩,
    fun l d i hi span hspan place => ?_⟩
  · have hboundary := isBoundary_of_offset? h
    exact ⟨hboundary, hboundary.le_byteSize, locationAt_of_offset? h⟩
  · rw [Row.place_ofIssue hspan]
    constructor
    · intro hmade
      exact hmade.locationAt_eq hspan
    · rintro rfl
      obtain ⟨place, hmade⟩ := Linter.exists_madeFrom hi hspan
      rwa [hmade.locationAt_eq hspan]

/-- Two statements over three lines, with letters of two bytes; the comment is on the line of the first
column that stands alone. -/
def annotatedPair : List Char :=
  "SELECT 'é', f.a,\n  b FROM f -- noqa\n; SELECT f.é, c FROM f".toList

set_option maxRecDepth 100000 in
theorem annotatedPair_parses :
    someSelect .generic annotatedPair 0 (PlacedSelect.meets annotatedPair
      [⟨"f.a", .qualified, false, some ⟨13, 16⟩⟩,
        ⟨"b", .unqualified, false, some ⟨20, 21⟩⟩]) = true ∧
      someSelect .generic annotatedPair 1 (PlacedSelect.meets annotatedPair
        [⟨"f.é", .qualified, false, some ⟨46, 50⟩⟩,
          ⟨"c", .unqualified, false, some ⟨52, 53⟩⟩]) = true ∧
      (lex .generic annotatedPair).map Lexed.comments =
        .ok [⟨" noqa\n".toList, ⟨⟨2, 12⟩, ⟨3, 1⟩⟩⟩] ∧
      (Suppression.ofText .generic annotatedPair).suppresses 3 Rule.consistentReferences.code =
        false := by
  decide +kernel

/-- Offset 49 lies inside a letter of two bytes. -/
theorem annotatedPair_shown :
    (locationAt annotatedPair 52 = ⟨3, 15⟩ ∧ IsBoundary annotatedPair 52) ∧
      (offset? annotatedPair (locationAt annotatedPair 49) = some 50 ∧
        IsLeast {b | IsBoundary annotatedPair b ∧ min 49 (byteSize annotatedPair) ≤ b} 50) ∧
      Policy.consistent.issueOf 1 ⟨"c", .unqualified, false, some ⟨52, 53⟩⟩ ∈
        (Linter.lint ⟨{}, .consistent⟩ .generic annotatedPair).issues ∧
      Linter.MadeFrom ⟨{}, .consistent⟩ .generic annotatedPair
        (Policy.consistent.issueOf 1 ⟨"c", .unqualified, false, some ⟨52, 53⟩⟩) ⟨3, 15⟩ := by
  obtain ⟨-, hsecond, -, hkept⟩ := annotatedPair_parses
  obtain ⟨statements, s, p, hparse, hs, hp, hmeets⟩ := exists_of_someSelect hsecond
  obtain ⟨hone, hrefs⟩ := p.scope_of_meets hmeets (by decide)
  have hissue : Policy.consistent.issueOf 1 ⟨"c", .unqualified, false, some ⟨52, 53⟩⟩ ∈
      (Linter.lint ⟨{}, .consistent⟩ .generic annotatedPair).issues := by
    refine (Linter.mem_lint_issues_iff hparse (by decide)).2
      ⟨1, s, hs, p.scope annotatedPair, mem_selectScopes.2 ⟨p, hp, rfl⟩, hone, _, ?_, rfl, hkept⟩
    rw [hrefs]
    show firstSwitch (counted _) = _
    decide
  obtain ⟨hlocated, -, hnext, hmade⟩ := locations_and_offsets_are_inverse annotatedPair
  obtain ⟨hboundary, -, hlocation⟩ := hlocated ⟨3, 15⟩ 52 (by decide)
  obtain ⟨o, ho, hleast⟩ := hnext 49
  have hfifty : o = 50 := by
    have hoffset : offset? annotatedPair (locationAt annotatedPair 49) = some 50 := by decide
    exact Option.some.inj (ho.symm.trans hoffset)
  subst hfifty
  exact ⟨⟨hlocation, hboundary⟩, ⟨ho, hleast⟩, hissue, (hmade _ _ _ hissue _ rfl _).2 (by decide)⟩

end ColumnLint
