import ColumnLint.Text.Location

/-
  Offsets of a text that lie between two characters. A location is found in a text exactly when
  walking over some front part of the text leads to it, and its offset is the size of that part
  (`offset?_eq_some_iff`). A slice is what stands between two such offsets
  (`slice?_eq_some_iff`, `exists_slice?`).
-/

namespace ColumnLint.Text

/-- The offset lies at an end of the text or between two characters of it. -/
def IsBoundary (text : List Char) (offset : Nat) : Prop :=
  ∃ front back, text = front ++ back ∧ byteSize front = offset

/-- A range of bytes that the text can be cut by. -/
structure Span.Fits (text : List Char) (s : Span) : Prop where
  ordered : s.start ≤ s.stop
  inside : s.stop ≤ byteSize text
  start_boundary : IsBoundary text s.start
  stop_boundary : IsBoundary text s.stop

/-- The location after a text that starts at `l`. -/
def Location.past (l : Location) (cs : List Char) : Location := cs.foldl Location.after l

/-! ## Sizes -/

@[simp] theorem byteSize_nil : byteSize [] = 0 := rfl

@[simp] theorem byteSize_cons (c : Char) (cs : List Char) :
    byteSize (c :: cs) = c.utf8Size + byteSize cs := rfl

@[simp] theorem byteSize_append (xs ys : List Char) :
    byteSize (xs ++ ys) = byteSize xs + byteSize ys := by
  induction xs with
  | nil => simp
  | cons c cs ih => simp [ih, Nat.add_assoc]

theorem eq_nil_of_byteSize_eq_zero {cs : List Char} (h : byteSize cs = 0) : cs = [] := by
  cases cs with
  | nil => rfl
  | cons c cs =>
    have := c.utf8Size_pos
    rw [byteSize_cons] at h
    omega

theorem IsBoundary.le_byteSize {text : List Char} {o : Nat} (h : IsBoundary text o) :
    o ≤ byteSize text := by
  obtain ⟨front, back, rfl, rfl⟩ := h
  rw [byteSize_append]
  omega

/-- Of two front parts of a text the smaller one is a front part of the larger one. -/
theorem exists_append_of_byteSize_le {a b c d : List Char} (h : a ++ b = c ++ d)
    (hle : byteSize a ≤ byteSize c) : ∃ mid, c = a ++ mid ∧ b = mid ++ d := by
  rcases List.append_eq_append_iff.1 h with ⟨mid, hc, hb⟩ | ⟨mid, ha, hd⟩
  · exact ⟨mid, hc, hb⟩
  · -- here `c` is the shorter part, so that nothing is left between the two
    have hmid : mid = [] := by
      apply eq_nil_of_byteSize_eq_zero
      rw [ha, byteSize_append] at hle
      omega
    subst hmid
    exact ⟨[], by simpa using ha.symm, by simpa using hd.symm⟩

/-! ## Cutting a text at an offset -/

theorem dropBytes_cons_pos {c : Char} {cs : List Char} {n : Nat} (h : 0 < n) :
    dropBytes (c :: cs) n =
      if c.utf8Size ≤ n then dropBytes cs (n - c.utf8Size) else none := by
  obtain ⟨m, rfl⟩ : ∃ m, n = m + 1 := ⟨n - 1, by omega⟩
  rfl

theorem takeBytes_cons_pos {c : Char} {cs : List Char} {n : Nat} (h : 0 < n) :
    takeBytes (c :: cs) n =
      if c.utf8Size ≤ n then (takeBytes cs (n - c.utf8Size)).map (c :: ·) else none := by
  obtain ⟨m, rfl⟩ : ∃ m, n = m + 1 := ⟨n - 1, by omega⟩
  rfl

theorem dropBytes_zero (cs : List Char) : dropBytes cs 0 = some cs := by
  unfold dropBytes
  rfl

theorem takeBytes_zero (cs : List Char) : takeBytes cs 0 = some [] := by
  unfold takeBytes
  rfl

theorem dropBytes_append (front back : List Char) :
    dropBytes (front ++ back) (byteSize front) = some back := by
  induction front with
  | nil => exact dropBytes_zero back
  | cons c cs ih =>
    have := c.utf8Size_pos
    rw [List.cons_append, byteSize_cons, dropBytes_cons_pos (by omega), if_pos (by omega),
      Nat.add_sub_cancel_left, ih]

theorem takeBytes_append (front back : List Char) :
    takeBytes (front ++ back) (byteSize front) = some front := by
  induction front with
  | nil => exact takeBytes_zero back
  | cons c cs ih =>
    have := c.utf8Size_pos
    rw [List.cons_append, byteSize_cons, takeBytes_cons_pos (by omega), if_pos (by omega),
      Nat.add_sub_cancel_left, ih]
    rfl

theorem dropBytes_eq_some_iff {text back : List Char} {n : Nat} :
    dropBytes text n = some back ↔ ∃ front, text = front ++ back ∧ byteSize front = n := by
  constructor
  · intro h
    induction text generalizing n with
    | nil =>
      cases n with
      | zero =>
        rw [dropBytes_zero, Option.some.injEq] at h
        exact ⟨[], by simp [← h]⟩
      | succ n => simp [dropBytes] at h
    | cons c cs ih =>
      cases n with
      | zero =>
        rw [dropBytes_zero, Option.some.injEq] at h
        exact ⟨[], by simp [← h]⟩
      | succ n =>
        rw [dropBytes_cons_pos (by omega)] at h
        split at h
        · rename_i hle
          obtain ⟨front, rfl, hn⟩ := ih h
          exact ⟨c :: front, rfl, by rw [byteSize_cons]; omega⟩
        · cases h
  · intro hsome
    obtain ⟨front, rfl, rfl⟩ := hsome
    exact dropBytes_append front back

theorem takeBytes_eq_some_iff {text front : List Char} {n : Nat} :
    takeBytes text n = some front ↔ ∃ back, text = front ++ back ∧ byteSize front = n := by
  constructor
  · intro h
    induction text generalizing n front with
    | nil =>
      cases n with
      | zero =>
        rw [takeBytes_zero, Option.some.injEq] at h
        exact ⟨[], by simp [← h]⟩
      | succ n => simp [takeBytes] at h
    | cons c cs ih =>
      cases n with
      | zero =>
        rw [takeBytes_zero, Option.some.injEq] at h
        exact ⟨c :: cs, by simp [← h]⟩
      | succ n =>
        rw [takeBytes_cons_pos (by omega)] at h
        split at h
        · rename_i hle
          obtain ⟨rest, hrest, rfl⟩ := Option.map_eq_some_iff.1 h
          obtain ⟨back, rfl, hn⟩ := ih hrest
          exact ⟨back, rfl, by rw [byteSize_cons]; omega⟩
        · cases h
  · intro hsome
    obtain ⟨back, rfl, rfl⟩ := hsome
    exact takeBytes_append front back

/-- A slice is what stands between its two ends. -/
theorem slice?_eq_some_iff {text cs : List Char} {s : Span} :
    slice? text s = some cs ↔
      ∃ before after, text = before ++ (cs ++ after) ∧ byteSize before = s.start ∧
        s.start + byteSize cs = s.stop := by
  unfold slice?
  constructor
  · intro h
    split at h
    · rename_i hle
      obtain ⟨rest, hdrop, htake⟩ := Option.bind_eq_some_iff.1 h
      obtain ⟨before, rfl, hstart⟩ := dropBytes_eq_some_iff.1 hdrop
      obtain ⟨after, rfl, hsize⟩ := takeBytes_eq_some_iff.1 htake
      exact ⟨before, after, rfl, hstart, by omega⟩
    · cases h
  · intro hsome
    obtain ⟨before, after, rfl, hstart, hstop⟩ := hsome
    have hsize : s.stop - s.start = byteSize cs := by omega
    rw [if_pos (by omega), ← hstart, dropBytes_append, Option.bind_some, hstart, hsize,
      takeBytes_append]

/-- Two boundaries in order have a slice between them. -/
theorem exists_slice? {text : List Char} {s : Span} (hstart : IsBoundary text s.start)
    (hstop : IsBoundary text s.stop) (hle : s.start ≤ s.stop) :
    ∃ cs, slice? text s = some cs := by
  obtain ⟨before, rest, htext, hbefore⟩ := hstart
  obtain ⟨front, after, htext', hfront⟩ := hstop
  have heq : before ++ rest = front ++ after := by rw [← htext, ← htext']
  obtain ⟨cs, rfl, rfl⟩ := exists_append_of_byteSize_le heq (by omega)
  refine ⟨cs, slice?_eq_some_iff.2 ⟨before, after, htext, hbefore, ?_⟩⟩
  rw [byteSize_append] at hfront
  omega

theorem fits_of_slice? {text cs : List Char} {s : Span} (h : slice? text s = some cs) :
    s.Fits text := by
  obtain ⟨before, after, htext, hstart, hstop⟩ := slice?_eq_some_iff.1 h
  have hend : IsBoundary text s.stop :=
    ⟨before ++ cs, after, by simp [htext], by rw [byteSize_append]; omega⟩
  exact ⟨by omega, hend.le_byteSize, ⟨before, cs ++ after, htext, hstart⟩, hend⟩

/-! ## Finding a location -/

theorem Location.past_cons (l : Location) (c : Char) (cs : List Char) :
    l.past (c :: cs) = (l.after c).past cs := rfl

theorem Location.past_append (l : Location) (front back : List Char) :
    l.past (front ++ back) = (l.past front).past back := List.foldl_append

theorem Location.past_line (l : Location) (cs : List Char) :
    (l.past cs).line = l.line + cs.count '\n' := by
  induction cs generalizing l with
  | nil => simp [past]
  | cons c cs ih =>
    rw [past_cons, ih, List.count_cons]
    by_cases hc : c = '\n'
    · simp [after, hc]
      omega
    · simp [after, hc]

/-- A walk that ends on its first line passes no line feed. -/
theorem Location.past_same_line {l : Location} {c : Char} {cs : List Char}
    (h : (l.past (c :: cs)).line = l.line) : c ≠ '\n' := by
  intro hc
  rw [past_line, hc, List.count_cons_self] at h
  omega

theorem Location.past_column (l : Location) (cs : List Char)
    (h : (l.past cs).line = l.line) : (l.past cs).column = l.column + cs.length := by
  induction cs generalizing l with
  | nil => simp [past]
  | cons c cs ih =>
    have hc := past_same_line h
    rw [past_cons] at h ⊢
    have hline : (l.after c).line = l.line := by simp [after, hc]
    have hcol : (l.after c).column = l.column + 1 := by simp [after, hc]
    rw [ih _ (by rw [h, hline]), hcol, List.length_cons]
    omega

theorem seekColumn_eq_some_iff {cs : List Char} {n o a b : Nat} :
    seekColumn cs (n + 1) = some o ↔
      ∃ front back, cs = front ++ back ∧ byteSize front = o ∧
        Location.past ⟨a, b⟩ front = ⟨a, b + n⟩ := by
  induction cs generalizing n o b with
  | nil =>
    cases n with
    | zero => simp [seekColumn, Location.past, eq_comm]
    | succ n => simp [seekColumn, Location.past]
  | cons c cs ih =>
    cases n with
    | zero =>
      constructor
      · intro h
        have ho : o = 0 := by simpa [seekColumn, eq_comm] using h
        exact ⟨[], c :: cs, rfl, ho.symm, rfl⟩
      · intro hsome
        obtain ⟨front, back, -, rfl, hpast⟩ := hsome
        have hlen := Location.past_column ⟨a, b⟩ front (by rw [hpast])
        rw [hpast] at hlen
        have hfront : front = [] := by
          apply List.length_eq_zero_iff.1
          simp only [Nat.add_zero] at hlen
          omega
        simp [hfront, seekColumn]
    | succ n =>
      by_cases hc : c = '\n'
      · simp only [seekColumn, hc, if_pos, reduceCtorEq, false_iff]
        intro hsome
        obtain ⟨front, back, hcs, -, hpast⟩ := hsome
        cases front with
        | nil => simp [Location.past] at hpast
        | cons x xs =>
          rw [List.cons_append, List.cons.injEq] at hcs
          exact Location.past_same_line (l := ⟨a, b⟩) (by rw [hpast]) hcs.1.symm
      · have hafter : Location.after ⟨a, b⟩ c = ⟨a, b + 1⟩ := by simp [Location.after, hc]
        simp only [seekColumn, if_neg hc, Option.map_eq_some_iff]
        constructor
        · intro hsome
          obtain ⟨o', ho', rfl⟩ := hsome
          obtain ⟨front, back, rfl, rfl, hpast⟩ := (ih (b := b + 1)).1 ho'
          refine ⟨c :: front, back, rfl, rfl, ?_⟩
          rw [Location.past_cons, hafter, hpast]
          simp only [Location.mk.injEq, true_and]
          omega
        · intro hsome
          obtain ⟨front, back, hcs, rfl, hpast⟩ := hsome
          cases front with
          | nil => simp [Location.past] at hpast
          | cons x xs =>
            rw [List.cons_append, List.cons.injEq] at hcs
            obtain ⟨rfl, rfl⟩ := hcs
            rw [Location.past_cons, hafter] at hpast
            refine ⟨byteSize xs, (ih (b := b + 1)).2 ⟨xs, back, rfl, rfl, ?_⟩, rfl⟩
            rw [hpast]
            simp only [Location.mk.injEq, true_and]
            omega

theorem Location.past_column_pos (l : Location) (cs : List Char) (h : 0 < l.column) :
    0 < (l.past cs).column := by
  induction cs generalizing l with
  | nil => exact h
  | cons c cs ih =>
    rw [past_cons]
    apply ih
    unfold after
    split <;> simp

/-- The line is counted down to 0 before the column is looked for; there a walk starts at the
first column, elsewhere at any. -/
theorem seekLine_eq_some_iff {cs : List Char} {n column o a b : Nat} (hb : n = 0 → b = 1) :
    seekLine cs n column = some o ↔
      ∃ front back, cs = front ++ back ∧ byteSize front = o ∧
        Location.past ⟨a, b⟩ front = ⟨a + n, column⟩ := by
  induction cs generalizing n o a b with
  | nil =>
    cases n with
    | zero =>
      obtain rfl := hb rfl
      cases column with
      | zero => simp [seekLine, seekColumn, Location.past]
      | succ k =>
        rw [show seekLine [] 0 (k + 1) = seekColumn [] (k + 1) from rfl,
          seekColumn_eq_some_iff (a := a) (b := 1)]
        simp only [Nat.add_zero, Nat.add_comm 1 k]
    | succ n => simp [seekLine, Location.past]
  | cons c cs ih =>
    cases n with
    | zero =>
      obtain rfl := hb rfl
      cases column with
      | zero =>
        simp only [seekLine, seekColumn, reduceCtorEq, false_iff]
        intro hsome
        obtain ⟨front, back, -, -, hpast⟩ := hsome
        have := Location.past_column_pos ⟨a, 1⟩ front (by simp)
        rw [hpast] at this
        simp at this
      | succ k =>
        rw [show seekLine (c :: cs) 0 (k + 1) = seekColumn (c :: cs) (k + 1) from rfl,
          seekColumn_eq_some_iff (a := a) (b := 1)]
        simp only [Nat.add_zero, Nat.add_comm 1 k]
    | succ n =>
      have key : ∀ (a' b' n' : Nat), Location.after ⟨a, b⟩ c = ⟨a', b'⟩ → a' + n' = a + (n + 1) →
          (n' = 0 → b' = 1) →
          ((∃ o', seekLine cs n' column = some o' ∧ c.utf8Size + o' = o) ↔
            ∃ front back, c :: cs = front ++ back ∧ byteSize front = o ∧
              Location.past ⟨a, b⟩ front = ⟨a + (n + 1), column⟩) := by
        intro a' b' n' hafter hsum hb'
        constructor
        · intro hsome
          obtain ⟨o', ho', rfl⟩ := hsome
          obtain ⟨front, back, rfl, rfl, hpast⟩ := (ih (a := a') hb').1 ho'
          refine ⟨c :: front, back, rfl, rfl, ?_⟩
          rw [Location.past_cons, hafter, hpast, hsum]
        · intro hsome
          obtain ⟨front, back, hcs, rfl, hpast⟩ := hsome
          cases front with
          | nil => simp [Location.past] at hpast
          | cons x xs =>
            rw [List.cons_append, List.cons.injEq] at hcs
            obtain ⟨rfl, rfl⟩ := hcs
            rw [Location.past_cons, hafter] at hpast
            exact ⟨byteSize xs, (ih (a := a') hb').2 ⟨xs, back, rfl, rfl, by rw [hpast, hsum]⟩, rfl⟩
      simp only [seekLine, Option.map_eq_some_iff]
      by_cases hc : c = '\n'
      · rw [if_pos hc]
        exact key (a + 1) 1 n (by simp [Location.after, hc]) (by omega) (fun _ => rfl)
      · rw [if_neg hc]
        exact key a (b + 1) (n + 1) (by simp [Location.after, hc]) rfl (by omega)

/-- A text has a location where a walk over a front part of the text leads to it. -/
theorem offset?_eq_some_iff {text : List Char} {l : Location} {o : Nat} :
    offset? text l = some o ↔
      ∃ front back, text = front ++ back ∧ byteSize front = o ∧
        Location.first.past front = l := by
  obtain ⟨line, column⟩ := l
  cases line with
  | zero =>
    simp only [offset?, reduceCtorEq, false_iff]
    intro hsome
    obtain ⟨front, back, -, -, hpast⟩ := hsome
    have := Location.past_line Location.first front
    rw [hpast] at this
    simp [Location.first] at this
    omega
  | succ n =>
    rw [show offset? text ⟨n + 1, column⟩ = seekLine text n column from rfl,
      seekLine_eq_some_iff (a := 1) (b := 1) (fun _ => rfl)]
    simp only [Location.first, Nat.add_comm 1 n]

theorem isBoundary_of_offset? {text : List Char} {l : Location} {o : Nat}
    (h : offset? text l = some o) : IsBoundary text o := by
  obtain ⟨front, back, htext, ho, -⟩ := offset?_eq_some_iff.1 h
  exact ⟨front, back, htext, ho⟩

theorem span?_eq_some_iff {text : List Char} {r : Region} {s : Span} :
    span? text r = some s ↔
      offset? text r.start = some s.start ∧ offset? text r.stop = some s.stop ∧
        s.start ≤ s.stop := by
  obtain ⟨start, stop⟩ := s
  unfold span?
  split
  · rename_i a b ha hb
    rw [ha, hb]
    simp only [Option.some.injEq]
    split
    · simp only [Option.some.injEq, Span.mk.injEq]
      omega
    · simp only [reduceCtorEq, false_iff]
      omega
  · rename_i hnone
    constructor
    · intro h
      cases h
    · intro hsome
      obtain ⟨ha, hb, -⟩ := hsome
      exact absurd hb (hnone _ _ ha)

/-- The text of a region is a slice between two boundaries. -/
theorem exists_slice?_of_span? {text : List Char} {r : Region} {s : Span}
    (h : span? text r = some s) : ∃ cs, slice? text s = some cs := by
  obtain ⟨hstart, hstop, hle⟩ := span?_eq_some_iff.1 h
  exact exists_slice? (isBoundary_of_offset? hstart) (isBoundary_of_offset? hstop) hle

end ColumnLint.Text
