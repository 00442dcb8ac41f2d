import ColumnLint.Issue
import Mathlib.Data.List.TakeWhile

/-
  What the normal form of a list of issues keeps. Nothing is invented
  (`mem_of_mem_normalize`), and among issues of one source only an issue that equals a kept one is
  dropped (`mem_normalize_iff`). Lists that are in order one behind the other, and do not repeat
  each other, are normalized each on its own (`normalize_append`).
-/

namespace ColumnLint

open Text

namespace Issue

/-- Of issues of one source only equal ones repeat each other. -/
theorem eq_of_repeats {a b : Issue} (h : a.repeats b = true)
    (hsource : a.sourceName = b.sourceName) : a = b := by
  obtain ⟨severity, code, message, span, index, source⟩ := a
  obtain ⟨severity', code', message', span', index', source'⟩ := b
  simp only [repeats, Bool.and_eq_true, beq_iff_eq] at h
  obtain ⟨⟨⟨⟨⟨-, rfl⟩, rfl⟩, rfl⟩, rfl⟩, rfl⟩ := h
  cases hsource
  rfl

theorem mem_of_mem_withoutRepeats {i a : Issue} {rest : List Issue}
    (h : i ∈ a.withoutRepeats rest) : i ∈ a :: rest := by
  induction rest generalizing a with
  | nil => exact h
  | cons b rest ih =>
    unfold withoutRepeats at h
    split at h
    · rcases List.mem_cons.1 (ih h) with rfl | hi
      · exact List.mem_cons_self
      · exact List.mem_cons_of_mem _ (List.mem_cons_of_mem _ hi)
    · rcases List.mem_cons.1 h with rfl | hi
      · exact List.mem_cons_self
      · exact List.mem_cons_of_mem _ (ih hi)

theorem mem_withoutRepeats {i a : Issue} {rest : List Issue}
    (hsource : ∀ b ∈ rest, a.sourceName = b.sourceName) (h : i ∈ a :: rest) :
    i ∈ a.withoutRepeats rest := by
  induction rest generalizing a with
  | nil => exact h
  | cons b rest ih =>
    have hb : a.sourceName = b.sourceName := hsource b List.mem_cons_self
    have hrest : ∀ c ∈ rest, a.sourceName = c.sourceName :=
      fun c hc => hsource c (List.mem_cons_of_mem _ hc)
    unfold withoutRepeats
    split
    · rename_i hrep
      -- the dropped issue equals the one that is kept
      obtain rfl := eq_of_repeats hrep hb
      apply ih hrest
      rcases List.mem_cons.1 h with rfl | hi
      · exact List.mem_cons_self
      · exact hi
    · rcases List.mem_cons.1 h with rfl | hi
      · exact List.mem_cons_self
      · exact List.mem_cons_of_mem _ (ih (fun c hc => by rw [← hb]; exact hrest c hc) hi)

end Issue

theorem mem_of_mem_normalize {i : Issue} {issues : List Issue} (h : i ∈ normalize issues) :
    i ∈ issues := by
  unfold normalize at h
  split at h
  · cases h
  · rename_i a rest hsort
    have hmem := Issue.mem_of_mem_withoutRepeats h
    rw [← hsort] at hmem
    exact List.mem_mergeSort.1 hmem

theorem mem_normalize_iff {i : Issue} {issues : List Issue} {source : Option String}
    (hsource : ∀ b ∈ issues, b.sourceName = source) : i ∈ normalize issues ↔ i ∈ issues := by
  refine ⟨mem_of_mem_normalize, fun h => ?_⟩
  unfold normalize
  split
  · rename_i hsort
    rw [← hsort]
    exact List.mem_mergeSort.2 h
  · rename_i a rest hsort
    have hperm : ∀ b ∈ a :: rest, b.sourceName = source := by
      intro b hb
      rw [← hsort] at hb
      exact hsource b (List.mem_mergeSort.1 hb)
    apply Issue.mem_withoutRepeats
    · intro b hb
      rw [hperm a List.mem_cons_self, hperm b (List.mem_cons_of_mem _ hb)]
    · rw [← hsort]
      exact List.mem_mergeSort.2 h

/-! ## The order of issues -/

namespace Issue

/-- The order compares one field after the other. -/
theorem order_eq_compareLex :
    order = compareLex (compareOn fun a => a.statementIndex.getD missingPlace)
      (compareLex (compareOn fun a => (a.span.map Span.start).getD missingPlace)
      (compareLex (compareOn fun a => (a.span.map Span.stop).getD missingPlace)
      (compareLex (compareOn fun a => a.severity.rank)
      (compareLex (compareOn code) (compareOn message))))) := rfl

instance : Std.TransCmp order := by
  rw [order_eq_compareLex]
  infer_instance

theorem isLE_order_trans (a b c : Issue) (hab : (a.order b).isLE = true)
    (hbc : (b.order c).isLE = true) : (a.order c).isLE = true :=
  Std.TransCmp.isLE_trans hab hbc

theorem isLE_order_total (a b : Issue) : ((a.order b).isLE || (b.order a).isLE) = true := by
  have hswap : b.order a = (a.order b).swap := Std.OrientedCmp.eq_swap
  rw [hswap]
  cases a.order b <;> rfl

end Issue

/-! ## Lists one behind the other -/

section Sorting

variable {α : Type} {le : α → α → Bool}

theorem takeWhile_append_of_all_not {p : α → Bool} (xs : List α) {ys : List α}
    (h : ∀ y ∈ ys, p y = false) :
    (xs ++ ys).takeWhile p = xs.takeWhile p ∧ (xs ++ ys).dropWhile p = xs.dropWhile p ++ ys := by
  induction xs with
  | nil =>
    cases ys with
    | nil => exact ⟨rfl, rfl⟩
    | cons y ys => simp [h y List.mem_cons_self]
  | cons x xs ih =>
    rw [List.cons_append]
    cases hx : p x with
    | true => simp [hx, ih.1, ih.2]
    | false => simp [hx]

/-- The first item is put behind those that must come before it. -/
theorem mergeSort_cons_eq (htrans : ∀ a b c, le a b = true → le b c = true → le a c = true)
    (htotal : ∀ a b, (le a b || le b a) = true) (a : α) (xs : List α) :
    (a :: xs).mergeSort le = (xs.mergeSort le).takeWhile (fun b => !le a b) ++
      a :: (xs.mergeSort le).dropWhile fun b => !le a b := by
  obtain ⟨l, r, hcons, hxs, hl⟩ := List.mergeSort_cons htrans htotal a xs
  have hsorted := List.pairwise_mergeSort htrans htotal (a :: xs)
  rw [hcons, List.pairwise_append, List.pairwise_cons] at hsorted
  have hr : ∀ b ∈ r, (!le a b) = false := by
    intro b hb
    simp [hsorted.2.1.1 b hb]
  obtain ⟨htake, hdrop⟩ := takeWhile_append_of_all_not l hr
  rw [hcons, hxs, htake, hdrop, List.takeWhile_eq_self_iff.2 hl, List.dropWhile_eq_nil_iff.2 hl,
    List.nil_append]

/-- Lists that are in order one behind the other are sorted each on its own. -/
theorem mergeSort_append_of_le (htrans : ∀ a b c, le a b = true → le b c = true → le a c = true)
    (htotal : ∀ a b, (le a b || le b a) = true) {xs ys : List α}
    (h : ∀ a ∈ xs, ∀ b ∈ ys, le a b = true) :
    (xs ++ ys).mergeSort le = xs.mergeSort le ++ ys.mergeSort le := by
  induction xs with
  | nil => rw [List.nil_append, List.mergeSort_nil, List.nil_append]
  | cons a xs ih =>
    have hys : ∀ b ∈ ys.mergeSort le, (!le a b) = false := by
      intro b hb
      simp [h a List.mem_cons_self b (List.mem_mergeSort.1 hb)]
    obtain ⟨htake, hdrop⟩ := takeWhile_append_of_all_not (xs.mergeSort le) hys
    rw [List.cons_append, mergeSort_cons_eq htrans htotal, mergeSort_cons_eq htrans htotal,
      ih fun b hb => h b (List.mem_cons_of_mem _ hb), htake, hdrop, List.append_assoc,
      List.cons_append]

/-- Items that are in order among themselves keep it when all are sorted. -/
theorem filter_mergeSort (htrans : ∀ a b c, le a b = true → le b c = true → le a c = true)
    (htotal : ∀ a b, (le a b || le b a) = true) {p : α → Bool} {xs : List α}
    (h : (xs.filter p).Pairwise fun a b => le a b = true) :
    (xs.mergeSort le).filter p = xs.filter p := by
  have hsub : (xs.filter p).Sublist (xs.mergeSort le) :=
    List.sublist_mergeSort htrans htotal h List.filter_sublist
  have hsub' := hsub.filter p
  simp only [List.filter_filter, Bool.and_self] at hsub'
  have hperm := (List.mergeSort_perm xs le).filter p
  exact (hsub'.eq_of_length hperm.length_eq.symm).symm

end Sorting

namespace Issue

theorem withoutRepeats_append {a b : Issue} {xs ys : List Issue}
    (h : ∀ x ∈ a :: xs, x.repeats b = false) :
    a.withoutRepeats (xs ++ b :: ys) = a.withoutRepeats xs ++ b.withoutRepeats ys := by
  induction xs generalizing a with
  | nil =>
    have hab := h a List.mem_cons_self
    simp [withoutRepeats, hab]
  | cons c xs ih =>
    have htail : ∀ x ∈ c :: xs, x.repeats b = false := fun x hx => h x (List.mem_cons_of_mem _ hx)
    rw [List.cons_append, withoutRepeats, withoutRepeats]
    split
    · refine ih fun x hx => ?_
      rcases List.mem_cons.1 hx with rfl | hx
      · exact h x List.mem_cons_self
      · exact htail x (List.mem_cons_of_mem _ hx)
    · rw [ih htail, List.cons_append]

end Issue

/-- Lists that are in order one behind the other, and do not repeat each other, are normalized
each on its own. -/
theorem normalize_append {xs ys : List Issue}
    (hle : ∀ a ∈ xs, ∀ b ∈ ys, (a.order b).isLE = true)
    (hrepeats : ∀ a ∈ xs, ∀ b ∈ ys, a.repeats b = false) :
    normalize (xs ++ ys) = normalize xs ++ normalize ys := by
  unfold normalize
  rw [mergeSort_append_of_le Issue.isLE_order_trans Issue.isLE_order_total hle]
  cases hxs : xs.mergeSort fun a b => (a.order b).isLE with
  | nil => rfl
  | cons a as =>
    cases hys : ys.mergeSort fun a b => (a.order b).isLE with
    | nil => simp
    | cons b bs =>
      have hb : b ∈ ys := List.mem_mergeSort.1 (hys ▸ List.mem_cons_self)
      refine Issue.withoutRepeats_append fun x hx => hrepeats x ?_ b hb
      rw [← hxs] at hx
      exact List.mem_mergeSort.1 hx

end ColumnLint
