import ColumnLint.Config

/-
  Looking up options. Setting the value of a name changes that name's value and nothing else
  (`get?_insert_self`, `filter_entries_insert`). Options are searched by a name in any letter case,
  and the first entry that fits is taken. Capitals come before small letters, so a name in capitals
  comes before all its other spellings, and a value under it is the one that is found
  (`find?_of_capitals`).
-/

namespace ColumnLint

open Text

/-! ## Letter case and the order of names -/

namespace Text

theorem toNat_toLower (c : Char) :
    c.toLower.toNat = if 65 ≤ c.toNat ∧ c.toNat ≤ 90 then c.toNat + 32 else c.toNat := by
  have hrange : (c.val ≥ 'A'.val ∧ c.val ≤ 'Z'.val) ↔ (65 ≤ c.toNat ∧ c.toNat ≤ 90) := by
    simp [UInt32.le_iff_toNat_le]
  unfold Char.toLower
  by_cases h : 65 ≤ c.toNat ∧ c.toNat ≤ 90
  · rw [dif_pos (hrange.2 h), if_pos h]
    change (c.toNat + 32) % 4294967296 = c.toNat + 32
    omega
  · rw [dif_neg (fun hletter => h (hrange.1 hletter)), if_neg h]

theorem toNat_toUpper (c : Char) :
    c.toUpper.toNat = if 97 ≤ c.toNat ∧ c.toNat ≤ 122 then c.toNat - 32 else c.toNat := by
  have hrange : ('a'.val ≤ c.val ∧ c.val ≤ 'z'.val) ↔ (97 ≤ c.toNat ∧ c.toNat ≤ 122) := by
    simp [UInt32.le_iff_toNat_le]
  unfold Char.toUpper
  by_cases h : 97 ≤ c.toNat ∧ c.toNat ≤ 122
  · rw [dif_pos (hrange.2 h), if_pos h]
    -- the way from small letters to capitals is negative, so it is added modulo the word size
    show (c.val + 4294967264).toNat = c.toNat - 32
    rw [UInt32.toNat_add]
    change (c.toNat + 4294967264) % 4294967296 = c.toNat - 32
    omega
  · rw [dif_neg (fun hletter => h (hrange.1 hletter)), if_neg h]

theorem sameLetters_iff {a b : List Char} : sameLetters a b = true ↔ lower a = lower b :=
  beq_iff_eq

/-- No character of the same letter comes before the capital. -/
theorem not_lt_of_toLower_eq {c d : Char} (h : c.toLower = d.toLower) (hd : d.toUpper = d) :
    ¬c < d := by
  have hlower : c.toLower.toNat = d.toLower.toNat := by rw [h]
  have hcapital : d.toUpper.toNat = d.toNat := by rw [hd]
  rw [toNat_toLower, toNat_toLower] at hlower
  rw [toNat_toUpper] at hcapital
  intro hlt
  have hlt : c.toNat < d.toNat := hlt
  split at hcapital <;> split at hlower <;> split at hlower <;> omega

/-- No spelling of a text comes before the one in capitals. -/
theorem not_lt_of_sameLetters {a b : List Char} (h : sameLetters a b = true)
    (hb : upper b = b) : ¬a < b := by
  rw [sameLetters_iff] at h
  induction a generalizing b with
  | nil =>
    cases b with
    | nil => exact List.lt_irrefl []
    | cons d b => simp [lower] at h
  | cons c a ih =>
    cases b with
    | nil => simp [lower] at h
    | cons d b =>
      simp only [lower, upper, List.map_cons, List.cons.injEq] at h hb
      have hfirst : ¬c < d := not_lt_of_toLower_eq h.1 hb.1
      have hrest : ¬a < b := ih h.2 hb.2
      rw [List.cons_lt_cons_iff]
      rintro (hlt | ⟨-, hlt⟩)
      · exact hfirst hlt
      · exact hrest hlt

end Text

/-! ## Setting a value -/

namespace OptionMap

theorem lookup_insertEntry (name : String) (value : Json) (entries : List (String × Json)) :
    (insertEntry name value entries).lookup name = some value := by
  induction entries with
  | nil => simp [insertEntry]
  | cons e entries ih =>
    obtain ⟨n, v⟩ := e
    unfold insertEntry
    split
    · simp
    · split
      · simp
      · rename_i hne
        have hne : (name == n) = false := by simpa using hne
        rw [List.lookup_cons, hne]
        exact ih

theorem filter_insertEntry (name : String) (value : Json) (entries : List (String × Json)) :
    (insertEntry name value entries).filter (fun e => e.1 ≠ name) =
      entries.filter fun e => e.1 ≠ name := by
  induction entries with
  | nil => simp [insertEntry]
  | cons e entries ih =>
    obtain ⟨n, v⟩ := e
    unfold insertEntry
    split
    · simp
    · split
      · rename_i heq
        simp [heq]
      · rw [List.filter_cons, List.filter_cons, ih]

@[simp]
theorem get?_insert_self (m : OptionMap) (name : String) (value : Json) :
    (m.insert name value).get? name = some value :=
  lookup_insertEntry name value m.entries

theorem filter_entries_insert (m : OptionMap) (name : String) (value : Json) :
    (m.insert name value).entries.filter (fun e => e.1 ≠ name) =
      m.entries.filter fun e => e.1 ≠ name :=
  filter_insertEntry name value m.entries

theorem mem_of_get? {m : OptionMap} {name : String} {value : Json}
    (h : m.get? name = some value) : (name, value) ∈ m.entries := by
  obtain ⟨before, behind, hsplit, -⟩ := List.lookup_eq_some_iff.1 h
  rw [hsplit]
  simp

theorem mem_entries_ofList {l : List (String × Json)} {e : String × Json}
    (h : e ∈ (ofList l).entries) : e ∈ l := by
  -- an entry comes from the list or was in the map that the list is added to
  suffices hadd : ∀ m : OptionMap, e ∈ (l.foldl (fun m e => m.insert e.1 e.2) m).entries →
      e ∈ l ∨ e ∈ m.entries by
    rcases hadd empty h with h | h
    · exact h
    · cases h
  clear h
  induction l with
  | nil => exact fun m h => .inr h
  | cons x l ih =>
    intro m h
    rcases ih (m.insert x.1 x.2) h with h | h
    · exact .inl (List.mem_cons_of_mem _ h)
    · rcases mem_insertEntry h with rfl | h
      · exact .inl List.mem_cons_self
      · exact .inr h

end OptionMap

/-! ## Finding a value -/

namespace OptionMap

/-- In entries in order, the value of a name in capitals is found before that of any other
spelling. -/
theorem find?_sameLetters_of_capitals {name : String} (hname : upper name.toList = name.toList)
    {value : Json} {entries : List (String × Json)}
    (hsorted : entries.Pairwise fun a b => a.1 < b.1) (h : entries.lookup name = some value) :
    entries.find? (fun e => sameLetters e.1.toList name.toList) = some (name, value) := by
  induction entries with
  | nil => simp at h
  | cons e entries ih =>
    obtain ⟨n, v⟩ := e
    obtain ⟨hfirst, hrest⟩ := List.pairwise_cons.1 hsorted
    by_cases heq : name = n
    · subst heq
      obtain rfl : v = value := by simpa using h
      simp [sameLetters]
    · have hlater : entries.lookup name = some value := by
        have hne : (name == n) = false := by simpa using heq
        rwa [List.lookup_cons, hne] at h
      have hfound := ih hrest hlater
      -- the entry stands before that of the capitals, so it is no spelling of the name
      have hbefore : n < name := hfirst _ (List.mem_of_find?_eq_some hfound)
      have hother : sameLetters n.toList name.toList = false := by
        rw [Bool.eq_false_iff]
        intro hsame
        exact not_lt_of_sameLetters hsame hname (String.lt_iff.1 hbefore)
      rw [List.find?_cons, hother]
      exact hfound

theorem find?_of_capitals {m : OptionMap} {name : String}
    (hname : upper name.toList = name.toList) {value : Json} (h : m.get? name = some value) :
    m.find? name = some value := by
  unfold find?
  rw [find?_sameLetters_of_capitals hname m.sorted h]
  rfl

end OptionMap

namespace Json

theorem lookup_setField (name : String) (value : Json) (fields : List (String × Json)) :
    (setField name value fields).lookup name = some value := by
  induction fields with
  | nil => simp [setField]
  | cons f fields ih =>
    obtain ⟨n, v⟩ := f
    unfold setField
    split
    · rename_i heq
      simp [heq]
    · rename_i hne
      have hne : (name == n) = false := by simpa using fun h => hne h.symm
      rw [List.lookup_cons, hne]
      exact ih

theorem filter_setField (name : String) (value : Json) (fields : List (String × Json)) :
    (setField name value fields).filter (fun f => f.1 ≠ name) =
      fields.filter fun f => f.1 ≠ name := by
  induction fields with
  | nil => simp [setField]
  | cons f fields ih =>
    obtain ⟨n, v⟩ := f
    unfold setField
    split
    · rename_i heq
      simp [heq]
    · rw [List.filter_cons, List.filter_cons, ih]

end Json

namespace Config

/-- The option `key` as the entry with a name sets it. -/
def optionUnder? (c : Config) (key name : String) : Option Json :=
  ((c.ruleConfigs.find? name).bind Json.asObject?).bind fun fields => fields.lookup key

/-- An option is that of the first name of the rule whose entry sets it. -/
theorem option?_eq_findSome? (c : Config) {name : String} {r : Rule}
    (h : Rule.ofName? name = some r) (key : String) :
    c.option? name key = r.names.list.findSome? (c.optionUnder? key) := by
  have hobjects : c.objects name =
      r.names.list.filterMap fun n => (c.ruleConfigs.find? n).bind Json.asObject? := by
    unfold objects
    rw [h]
  unfold option?
  rw [hobjects]
  induction r.names.list with
  | nil => rfl
  | cons n names ih =>
    rw [List.filterMap_cons, List.findSome?_cons, ← ih]
    unfold optionUnder?
    cases (c.ruleConfigs.find? n).bind Json.asObject? with
    | none => rfl
    | some fields => rfl

end Config

end ColumnLint
