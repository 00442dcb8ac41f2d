import ColumnLint.Proofs.FaithfulSpan
import Mathlib.Data.List.Pairwise
import Mathlib.Data.List.Sort

/-
  The order of a scope's references against the order in which they are written. References with
  a place are listed as they are written; those whose place is lost, stars with something else
  than blanks around the period, come behind all of them as they are met. So the list is in
  written order exactly when such stars are written last (`asWritten_listing_iff`).
-/

namespace ColumnLint

open Text Sql

/-- A leaf of a select and the offset at which it is written. -/
structure Mention where
  leaf : Leaf
  written : Nat
deriving DecidableEq, Repr

/-- The region that is known of a leaf: that of its name, or of the prefix of a star. -/
def Leaf.extent : Leaf → Option Region
  | .column name => identsExtent name
  | .star => none
  | .starOf _ extent => extent

/-- The text goes on behind a prefix with a period and a star, with nothing but blanks between
them. -/
def StarFollows (text : List Char) (extent : Option Region) : Prop :=
  ∃ region t lead cs s, extent = some region ∧ span? text region = some t ∧
    slice? text t = some lead ∧ IsStarBehind lead cs ∧ slice? text s = some cs ∧
    t.start = s.start

namespace Mention

variable (text : List Char) (m : Mention)

def reference : Reference := Reference.ofLeaf text m.leaf

/-- All but bare stars say how columns are referred to. -/
def isCounted : Bool := !(m.reference text).isBareStar

/-- A counted leaf whose place is lost. -/
def isPlaceless : Bool := m.isCounted text && (m.reference text).span.isNone

/-- The order of the references. -/
def before (m' : Mention) : Bool := (m.reference text).before (m'.reference text)

end Mention

/-- The leaves of a select, in the order they are met, with the offsets at which they are
written. Regions of names are where the names are written, and no two leaves are written at one
offset. -/
structure Written (text : List Char) (leaves : List Leaf) (ms : List Mention) : Prop where
  leaves_eq : ms.map Mention.leaf = leaves
  start_eq : ∀ m ∈ ms, ∀ t, m.leaf.extent.bind (span? text) = some t → t.start = m.written
  column_placed : ∀ m ∈ ms, ∀ name, m.leaf = .column name →
    ∃ t, (identsExtent name).bind (span? text) = some t
  distinct : (ms.filter (Mention.isCounted text)).Pairwise fun a b => a.written ≠ b.written

/-- The leaves that count stand in the order in which they are written. -/
def AsWritten (text : List Char) (ms : List Mention) : Prop :=
  (ms.filter (Mention.isCounted text)).Pairwise fun a b => a.written < b.written

/-- The leaves whose place is lost are written behind all others that count, and are met in the
order in which they are written. -/
structure PlacelessLast (text : List Char) (ms : List Mention) : Prop where
  behind : ∀ m ∈ ms, ∀ m' ∈ ms, m.isPlaceless text = true → m'.isCounted text = true →
    m'.isPlaceless text = false → m'.written < m.written
  in_order : (ms.filter (Mention.isPlaceless text)).Pairwise fun a b => a.written < b.written

/-- The leaves in the order of the scope's references. -/
def listing (text : List Char) (ms : List Mention) : List Mention :=
  ms.mergeSort (Mention.before text)

variable {text : List Char} {ms : List Mention}

/-! ## The listing -/

theorem listing_perm (text : List Char) (ms : List Mention) : (listing text ms).Perm ms :=
  List.mergeSort_perm ..

theorem before_trans (text : List Char) (a b c : Mention) (hab : a.before text b = true)
    (hbc : b.before text c = true) : a.before text c = true :=
  Reference.before_trans _ _ _ hab hbc

theorem before_total (text : List Char) (a b : Mention) :
    (a.before text b || b.before text a) = true :=
  Reference.before_total _ _

theorem pairwise_listing (text : List Char) (ms : List Mention) :
    (listing text ms).Pairwise fun a b => a.before text b = true :=
  List.pairwise_mergeSort (before_trans text) (before_total text) ms

/-- The references of the select are those of the listing. -/
theorem references_eq_listing {s : Select} {keys : List Expr}
    (h : ms.map Mention.leaf = s.leaves keys) :
    (Scope.ofSelect text s keys).references = (listing text ms).map (Mention.reference text) := by
  have hmap : (s.leaves keys).map (Reference.ofLeaf text) = ms.map (Mention.reference text) := by
    rw [← h, List.map_map]
    rfl
  have hsort : (listing text ms).map (Mention.reference text) =
      (ms.map (Mention.reference text)).mergeSort Reference.before :=
    List.map_mergeSort fun a _ b _ => rfl
  rw [hsort, ← hmap]
  rfl

/-- Leaves whose place is lost stay in the order in which they are met. -/
theorem filter_isPlaceless_listing (text : List Char) (ms : List Mention) :
    (listing text ms).filter (Mention.isPlaceless text) =
      ms.filter (Mention.isPlaceless text) := by
  have hsame : (ms.filter (Mention.isPlaceless text)).Pairwise fun a b =>
      a.before text b = true := by
    refine List.pairwise_filter.2 (List.pairwise_of_forall fun a b ha hb => ?_)
    simp only [Mention.isPlaceless, Bool.and_eq_true, Option.isNone_iff_eq_none] at ha hb
    simp [Mention.before, Reference.before, ha.2, hb.2]
  exact filter_mergeSort (before_trans text) (before_total text) hsame

/-! ## Places and written order -/

/-- A place starts where the leaf is written. -/
theorem Written.span_start {leaves : List Leaf} (h : Written text leaves ms) {m : Mention}
    (hm : m ∈ ms) {s : Span} (hs : (m.reference text).span = some s) : s.start = m.written := by
  cases hleaf : m.leaf with
  | column name =>
    rw [Mention.reference, hleaf] at hs
    exact h.start_eq m hm s (by rw [hleaf]; exact hs)
  | star =>
    rw [Mention.reference, hleaf] at hs
    cases hs
  | starOf printed extent =>
    rw [Mention.reference, hleaf] at hs
    obtain ⟨region, t, lead, cs, rfl, ht, -, -, -, hstart⟩ := starSpan_eq_some_iff.1 hs
    rw [← hstart]
    exact h.start_eq m hm t (by rw [hleaf]; exact ht)

theorem starSpan_eq_none_iff {extent : Option Region} :
    starSpan text extent = none ↔ ¬StarFollows text extent := by
  rw [Option.eq_none_iff_forall_ne_some]
  constructor
  · rintro hnone ⟨region, t, lead, cs, s, hall⟩
    exact hnone s (starSpan_eq_some_iff.2 ⟨region, t, lead, cs, hall⟩)
  · intro hnone s hs
    obtain ⟨region, t, lead, cs, hall⟩ := starSpan_eq_some_iff.1 hs
    exact hnone ⟨region, t, lead, cs, s, hall⟩

/-- Only a star behind a prefix loses its place, where the text does not go on with it. -/
theorem Written.isPlaceless_iff {leaves : List Leaf} (h : Written text leaves ms) {m : Mention}
    (hm : m ∈ ms) :
    m.isPlaceless text = true ↔
      ∃ printed extent, m.leaf = .starOf printed extent ∧ ¬StarFollows text extent := by
  unfold Mention.isPlaceless Mention.isCounted
  cases hleaf : m.leaf with
  | column name =>
    obtain ⟨t, ht⟩ := h.column_placed m hm name hleaf
    simp [Mention.reference, hleaf, Reference.ofLeaf, ht]
  | star => simp [Mention.reference, hleaf, Reference.ofLeaf, Reference.isBareStar]
  | starOf printed extent =>
    have hcounted : (m.reference text).isBareStar = false := by
      simp [Mention.reference, hleaf, Reference.ofLeaf, Reference.isBareStar]
    have hspan : (m.reference text).span = starSpan text extent := by
      rw [Mention.reference, hleaf]
      rfl
    rw [hcounted, hspan]
    simp only [Bool.not_false, Bool.true_and, Option.isNone_iff_eq_none, starSpan_eq_none_iff,
      Leaf.starOf.injEq]
    constructor
    · intro hnone
      exact ⟨printed, extent, ⟨rfl, rfl⟩, hnone⟩
    · intro hsome
      obtain ⟨_, _, ⟨rfl, rfl⟩, hnone⟩ := hsome
      exact hnone

theorem isCounted_of_isPlaceless {m : Mention} (h : m.isPlaceless text = true) :
    m.isCounted text = true := by
  simp only [Mention.isPlaceless, Bool.and_eq_true] at h
  exact h.1

theorem exists_span_of_not_isPlaceless {m : Mention} (hcounted : m.isCounted text = true)
    (hplaced : m.isPlaceless text = false) : ∃ s, (m.reference text).span = some s := by
  rw [Mention.isPlaceless, hcounted, Bool.true_and] at hplaced
  cases hs : (m.reference text).span with
  | none => simp [hs] at hplaced
  | some s => exact ⟨s, rfl⟩

/-- A leaf whose place is lost is listed before no counted leaf with a place. -/
theorem before_of_isPlaceless {a b : Mention} (ha : a.isPlaceless text = true)
    (hb : b.isCounted text = true) (hplaced : b.isPlaceless text = false) :
    a.before text b = false := by
  simp only [Mention.isPlaceless, Bool.and_eq_true, Option.isNone_iff_eq_none] at ha
  obtain ⟨s, hs⟩ := exists_span_of_not_isPlaceless hb hplaced
  simp [Mention.before, Reference.before, ha.2, hs]

/-- A leaf listed before one with a place is not written behind it. -/
theorem Written.written_le {leaves : List Leaf} (h : Written text leaves ms) {a b : Mention}
    (ha : a ∈ ms) (hb : b ∈ ms) (hab : a.before text b = true)
    (hcounted : b.isCounted text = true) (hplaced : b.isPlaceless text = false) :
    a.written ≤ b.written := by
  obtain ⟨t, ht⟩ := exists_span_of_not_isPlaceless hcounted hplaced
  unfold Mention.before Reference.before at hab
  cases hs : (a.reference text).span with
  | none => simp [hs, ht] at hab
  | some s =>
    rw [← h.span_start ha hs, ← h.span_start hb ht]
    simpa [hs, ht] using hab

theorem mem_filter_isCounted_listing {m : Mention} :
    m ∈ (listing text ms).filter (Mention.isCounted text) ↔
      m ∈ ms ∧ m.isCounted text = true := by
  rw [List.mem_filter, (listing_perm text ms).mem_iff]

theorem PlacelessLast.of_asWritten (h : AsWritten text (listing text ms)) :
    PlacelessLast text ms := by
  constructor
  · intro m hm m' hm' hplaceless hcounted hplaced
    have hne : m ≠ m' := by
      rintro rfl
      rw [hplaceless] at hplaced
      cases hplaced
    -- one of the two is listed first, and it is not the one without a place
    have hboth : ((listing text ms).filter (Mention.isCounted text)).Pairwise fun a b =>
        (a.before text b = true ∧ a.written < b.written) ∨
          (b.before text a = true ∧ b.written < a.written) :=
      (((pairwise_listing text ms).filter _).and h).imp fun hab => .inl hab
    have : Std.Symm fun a b : Mention =>
        (a.before text b = true ∧ a.written < b.written) ∨
          (b.before text a = true ∧ b.written < a.written) := ⟨fun _ _ => Or.symm⟩
    rcases hboth.forall
        (mem_filter_isCounted_listing.2 ⟨hm, isCounted_of_isPlaceless hplaceless⟩)
        (mem_filter_isCounted_listing.2 ⟨hm', hcounted⟩) hne with ⟨hbefore, -⟩ | ⟨-, hlt⟩
    · rw [before_of_isPlaceless hplaceless hcounted hplaced] at hbefore
      cases hbefore
    · exact hlt
  · rw [← filter_isPlaceless_listing]
    refine List.pairwise_filter.2 ((List.pairwise_filter.1 h).imp fun hab ha hb => ?_)
    exact hab (isCounted_of_isPlaceless ha) (isCounted_of_isPlaceless hb)

theorem AsWritten.of_placelessLast {leaves : List Leaf} (hw : Written text leaves ms)
    (h : PlacelessLast text ms) : AsWritten text (listing text ms) := by
  have hdistinct : ((listing text ms).filter (Mention.isCounted text)).Pairwise fun a b =>
      a.written ≠ b.written :=
    (((listing_perm text ms).filter _).pairwise_iff fun hab => hab.symm).2 hw.distinct
  have horder : ((listing text ms).filter (Mention.isCounted text)).Pairwise fun a b =>
      a.isPlaceless text = true → b.isPlaceless text = true → a.written < b.written := by
    have hin := h.in_order
    rw [← filter_isPlaceless_listing] at hin
    exact (List.pairwise_filter.1 hin).filter _
  have hbefore := (pairwise_listing text ms).filter (Mention.isCounted text)
  have hall := (hbefore.and hdistinct).and horder
  refine hall.imp_of_mem fun {a b} ha hb ⟨⟨hbefore, hne⟩, hlost⟩ => ?_
  obtain ⟨ha, hacounted⟩ := mem_filter_isCounted_listing.1 ha
  obtain ⟨hb, hbcounted⟩ := mem_filter_isCounted_listing.1 hb
  cases hbplace : b.isPlaceless text with
  | false =>
    have hle := hw.written_le ha hb hbefore hbcounted hbplace
    omega
  | true =>
    cases haplace : a.isPlaceless text with
    | false => exact h.behind b hb a ha hbplace hacounted haplace
    | true => exact hlost haplace hbplace

/-- The references are listed as they are written exactly when those whose place is lost are
written last. -/
theorem asWritten_listing_iff {leaves : List Leaf} (hw : Written text leaves ms) :
    AsWritten text (listing text ms) ↔ PlacelessLast text ms :=
  ⟨.of_asWritten, .of_placelessLast hw⟩

/-! ## The reference that is reported -/

theorem counted_map_reference (text : List Char) (ms : List Mention) :
    counted (ms.map (Mention.reference text)) =
      (ms.filter (Mention.isCounted text)).map (Mention.reference text) := by
  rw [counted, List.filter_map]
  rfl

/-- There is one way to list leaves as they are written. -/
theorem AsWritten.filter_eq {order order' : List Mention} (hperm : order.Perm order')
    (h : AsWritten text order) (h' : AsWritten text order') :
    order.filter (Mention.isCounted text) = order'.filter (Mention.isCounted text) :=
  (hperm.filter _).eq_of_pairwise (fun a b _ _ hab hba => absurd hab (by omega)) h h'

/-- Where the references are listed as written, the violation of a select of one table is the
first reference written whose kind is not that of the first one written. -/
theorem violations?_of_asWritten {s : Select} {keys : List Expr}
    (hleaves : ms.map Mention.leaf = s.leaves keys)
    (hone : (Scope.ofSelect text s keys).aliases.length = 1)
    (h : AsWritten text (listing text ms)) {order : List Mention} (hperm : order.Perm ms)
    (horder : AsWritten text order) :
    violations? .consistent (Scope.ofSelect text s keys) =
      (firstSwitch ((order.filter (Mention.isCounted text)).map (Mention.reference text))).map
        fun r => [⟨r, Policy.consistent.message r⟩] := by
  have hsame := horder.filter_eq (hperm.trans (listing_perm text ms).symm) h
  rw [hsame, ← counted_map_reference, ← references_eq_listing hleaves]
  unfold violations?
  rw [if_neg (by omega), Policy.offendersAfter_nil rfl]
  cases firstSwitch (counted (Scope.ofSelect text s keys).references) <;> rfl

/-- References are listed as they are written exactly when the stars that something else than
blanks separates from their prefix are written last, and are met as they are written; then the
violation of a select of one table is the first reference written whose kind is not that of the
first one written. -/
theorem references_listed_as_written_iff {s : Select} {keys : List Expr}
    (hw : Written text (s.leaves keys) ms) :
    (Scope.ofSelect text s keys).references = (listing text ms).map (Mention.reference text) ∧
    (AsWritten text (listing text ms) ↔ PlacelessLast text ms) ∧
    (∀ m ∈ ms, m.isPlaceless text = true ↔
      ∃ printed extent, m.leaf = .starOf printed extent ∧ ¬StarFollows text extent) ∧
    (PlacelessLast text ms → (Scope.ofSelect text s keys).aliases.length = 1 →
      ∀ order : List Mention, order.Perm ms → AsWritten text order →
        violations? .consistent (Scope.ofSelect text s keys) =
          (firstSwitch ((order.filter (Mention.isCounted text)).map (Mention.reference text))).map
            fun r => [⟨r, Policy.consistent.message r⟩]) :=
  ⟨references_eq_listing hw.leaves_eq, asWritten_listing_iff hw, fun _ hm => hw.isPlaceless_iff hm,
    fun hlast hone _ hperm horder =>
      violations?_of_asWritten hw.leaves_eq hone (.of_placelessLast hw hlast) hperm horder⟩

/-! ## A star that loses its place -/

/-- The prefix of a star starts at `i` and a column at `j`, and the star has no place. -/
structure LosesStar (text : List Char) (extent : Option Region) (name : List Ident) (i j : Nat) :
    Prop where
  lead_start : (extent.bind (span? text)).map Span.start = some i
  lost : starSpan text extent = none
  column_start : ((identsExtent name).bind (span? text)).map Span.start = some j
  apart : i ≠ j

instance (text : List Char) (extent : Option Region) (name : List Ident) (i j : Nat) :
    Decidable (LosesStar text extent name i j) :=
  decidable_of_iff (_ ∧ _ ∧ _ ∧ _)
    ⟨fun ⟨h₁, h₂, h₃, h₄⟩ => ⟨h₁, h₂, h₃, h₄⟩, fun ⟨h₁, h₂, h₃, h₄⟩ => ⟨h₁, h₂, h₃, h₄⟩⟩

namespace LosesStar

variable {extent : Option Region} {name : List Ident} {i j : Nat}

theorem written (h : LosesStar text extent name i j) (printed : String)
    (hperm : ms.Perm [⟨.starOf printed extent, i⟩, ⟨.column name, j⟩]) :
    Written text (ms.map Mention.leaf) ms := by
  obtain ⟨t, ht, hi⟩ := Option.map_eq_some_iff.1 h.lead_start
  obtain ⟨u, hu, hj⟩ := Option.map_eq_some_iff.1 h.column_start
  have hcases : ∀ m ∈ ms, m = ⟨.starOf printed extent, i⟩ ∨ m = ⟨.column name, j⟩ := by
    intro m hm
    simpa using hperm.mem_iff.1 hm
  refine ⟨rfl, fun m hm s hs => ?_, fun m hm name' hname => ?_, ?_⟩
  · rcases hcases m hm with rfl | rfl
    · rw [Leaf.extent, ht] at hs
      rw [← Option.some.inj hs]
      exact hi
    · rw [Leaf.extent, hu] at hs
      rw [← Option.some.inj hs]
      exact hj
  · rcases hcases m hm with rfl | rfl
    · cases hname
    · rw [← Leaf.column.inj hname]
      exact ⟨u, hu⟩
  · refine List.Pairwise.filter _ ((hperm.pairwise_iff fun hab => hab.symm).2 ?_)
    simpa using h.apart

theorem isPlaceless_star (h : LosesStar text extent name i j) (printed : String) :
    Mention.isPlaceless text ⟨.starOf printed extent, i⟩ = true := by
  simp [Mention.isPlaceless, Mention.isCounted, Mention.reference, Reference.ofLeaf,
    Reference.isBareStar, h.lost]

theorem isCounted_column (text : List Char) (name : List Ident) (j : Nat) :
    Mention.isCounted text ⟨.column name, j⟩ = true := by
  simp [Mention.isCounted, Mention.reference, Reference.ofLeaf, Reference.isBareStar]

theorem isPlaceless_column (h : LosesStar text extent name i j) :
    Mention.isPlaceless text ⟨.column name, j⟩ = false := by
  obtain ⟨u, hu, -⟩ := Option.map_eq_some_iff.1 h.column_start
  simp [Mention.isPlaceless, Mention.reference, Reference.ofLeaf, hu]

end LosesStar

/-- A comment stands before the star, and a column behind it. -/
def starThenColumn : List Char := "SELECT foo./*x*/*, a FROM foo".toList

set_option maxRecDepth 100000 in
theorem starThenColumn_parses :
    someSelect .generic starThenColumn 0 (fun p =>
      match p.select.leaves p.keys with
      | [.starOf _ extent, .column name] => LosesStar starThenColumn extent name 7 19
      | _ => false) = true := by
  decide +kernel

/-- The star is written first and listed last. -/
theorem starThenColumn_not_as_written :
    ∃ statements s p ms, parse .generic starThenColumn = .ok statements ∧
      statements[0]? = some s ∧ p ∈ s.selects ∧
      Written starThenColumn (p.select.leaves p.keys) ms ∧
      ¬AsWritten starThenColumn (listing starThenColumn ms) := by
  obtain ⟨statements, s, p, hparse, hs, hp, hcheck⟩ := exists_of_someSelect starThenColumn_parses
  split at hcheck
  case h_2 => cases hcheck
  rename_i printed extent name hleaves
  have hloses := of_decide_eq_true hcheck
  have hw := hloses.written printed (List.Perm.refl _)
  refine ⟨statements, s, p, _, hparse, hs, hp, by rw [hleaves]; exact hw, fun hwritten => ?_⟩
  have hlast := (asWritten_listing_iff hw).1 hwritten
  have hlt : 19 < 7 := hlast.behind _ List.mem_cons_self _ (List.mem_cons_of_mem _
    List.mem_cons_self) (hloses.isPlaceless_star printed) (LosesStar.isCounted_column _ _ _)
    hloses.isPlaceless_column
  omega

/-- A column, and a star behind it with a comment before it. -/
def columnThenStar : List Char := "SELECT a, foo./*x*/* FROM foo".toList

set_option maxRecDepth 100000 in
theorem columnThenStar_parses :
    someSelect .generic columnThenStar 0 (fun p =>
      match p.select.leaves p.keys with
      | [.column name, .starOf _ extent] =>
        decide (name.length = 1) &&
          (decide ((p.scope columnThenStar).scope.aliases.length = 1) &&
            decide (LosesStar columnThenStar extent name 10 7))
      | _ => false) = true := by
  decide +kernel

theorem references_listed_as_written_columnThenStar :
    ∃ statements s p ms, parse .generic columnThenStar = .ok statements ∧
      statements[0]? = some s ∧ p ∈ s.selects ∧
      Written columnThenStar (p.select.leaves p.keys) ms ∧ PlacelessLast columnThenStar ms ∧
      AsWritten columnThenStar (listing columnThenStar ms) ∧
      ∃ r, r.kind = .qualified ∧ violations? .consistent (p.scope columnThenStar).scope =
        some [⟨r, Policy.consistent.message r⟩] := by
  obtain ⟨statements, s, p, hparse, hs, hp, hcheck⟩ := exists_of_someSelect columnThenStar_parses
  split at hcheck
  case h_2 => cases hcheck
  rename_i name printed extent hleaves
  simp only [Bool.and_eq_true, decide_eq_true_eq] at hcheck
  obtain ⟨hname, hone, hloses⟩ := hcheck
  have hw : Written columnThenStar (p.select.leaves p.keys)
      [⟨.column name, 7⟩, ⟨.starOf printed extent, 10⟩] := by
    rw [hleaves]
    exact hloses.written printed (List.Perm.swap ..)
  have hstar := hloses.isPlaceless_star printed
  have hcolumn := hloses.isPlaceless_column
  have hcounted := LosesStar.isCounted_column columnThenStar name 7
  have hlast : PlacelessLast columnThenStar [⟨.column name, 7⟩, ⟨.starOf printed extent, 10⟩] := by
    constructor
    · simp [hstar, hcolumn, hcounted]
    · simp [hstar, hcolumn]
  have horder : AsWritten columnThenStar [⟨.column name, 7⟩, ⟨.starOf printed extent, 10⟩] := by
    simp [AsWritten, hcounted, isCounted_of_isPlaceless hstar]
  obtain ⟨-, hiff, -, hreport⟩ := references_listed_as_written_iff hw
  refine ⟨statements, s, p, _, hparse, hs, hp, hw, hlast, hiff.2 hlast,
    Mention.reference columnThenStar ⟨.starOf printed extent, 10⟩, rfl, ?_⟩
  have hfirst := hreport hlast hone _ (List.Perm.refl _) horder
  refine hfirst.trans ?_
  simp [hcounted, isCounted_of_isPlaceless hstar, firstSwitch, Mention.reference,
    Reference.ofLeaf, hname]

end ColumnLint
