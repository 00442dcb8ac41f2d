import ColumnLint.Json.Basic
import ColumnLint.Rule.Name

/-
  Configuration: whether to lint at all, which rules not to apply, and the options of rules, kept
  in objects under any name of the rule.
-/

namespace ColumnLint

open Text

/-- Values under names, in the order of the names, each name once. -/
structure OptionMap where
  entries : List (String × Json)
  sorted : entries.Pairwise fun a b => a.1 < b.1

namespace OptionMap

/-- No values. -/
def empty : OptionMap := ⟨[], .nil⟩

instance : Inhabited OptionMap := ⟨empty⟩

/-- Puts a value into entries in the order of their names, in the place of a value of that name. -/
def insertEntry (name : String) (value : Json) :
    List (String × Json) → List (String × Json)
  | [] => [(name, value)]
  | (n, v) :: rest =>
    if name < n then (name, value) :: (n, v) :: rest
    else if name = n then (name, value) :: rest
    else (n, v) :: insertEntry name value rest

theorem lt_of_not_lt_of_ne {a b : String} (h : ¬a < b) (hne : a ≠ b) : b < a :=
  Decidable.byContradiction fun hb => hne (String.le_antisymm hb h)

theorem mem_insertEntry {name : String} {value : Json} {e : String × Json}
    {entries : List (String × Json)} (h : e ∈ insertEntry name value entries) :
    e = (name, value) ∨ e ∈ entries := by
  induction entries with
  | nil => simpa [insertEntry] using h
  | cons x rest ih =>
    obtain ⟨n, v⟩ := x
    unfold insertEntry at h
    split at h
    · simpa using h
    · split at h
      · rcases List.mem_cons.1 h with h | h
        · exact .inl h
        · exact .inr (List.mem_cons_of_mem _ h)
      · rcases List.mem_cons.1 h with h | h
        · exact .inr (h ▸ List.mem_cons_self)
        · exact (ih h).imp_right (List.mem_cons_of_mem _)

theorem pairwise_insertEntry (name : String) (value : Json) {entries : List (String × Json)}
    (h : entries.Pairwise fun a b => a.1 < b.1) :
    (insertEntry name value entries).Pairwise fun a b => a.1 < b.1 := by
  induction entries with
  | nil => simp [insertEntry]
  | cons x rest ih =>
    obtain ⟨n, v⟩ := x
    have ⟨hn, hrest⟩ := List.pairwise_cons.1 h
    unfold insertEntry
    split
    · rename_i hlt
      refine List.pairwise_cons.2 ⟨fun e he => ?_, h⟩
      rcases List.mem_cons.1 he with rfl | he
      · exact hlt
      · exact String.lt_trans hlt (hn e he)
    · rename_i hlt
      split
      · rename_i heq
        exact List.pairwise_cons.2 ⟨fun e he => heq ▸ hn e he, hrest⟩
      · rename_i hne
        refine List.pairwise_cons.2 ⟨fun e he => ?_, ih hrest⟩
        rcases mem_insertEntry he with rfl | he
        · exact lt_of_not_lt_of_ne hlt hne
        · exact hn e he

/-- Sets the value of a name. -/
def insert (m : OptionMap) (name : String) (value : Json) : OptionMap :=
  ⟨insertEntry name value m.entries, pairwise_insertEntry name value m.sorted⟩

/-- The map of a list of values; the last value of a name counts. -/
def ofList (l : List (String × Json)) : OptionMap :=
  l.foldl (fun m e => m.insert e.1 e.2) empty

def isEmpty (m : OptionMap) : Bool := m.entries.isEmpty

/-- The value of a name. -/
def get? (m : OptionMap) (name : String) : Option Json := m.entries.lookup name

/-- The first value whose name is this one up to the case of ASCII letters. -/
def find? (m : OptionMap) (name : String) : Option Json :=
  (m.entries.find? fun e => sameLetters e.1.toList name.toList).map Prod.snd

end OptionMap

structure Config where
  enabled : Bool := true
  /-- Names of rules that are not applied. Those of no rule do nothing. -/
  disabledRules : List String := []
  /-- The options of rules, under any name of the rule. -/
  ruleConfigs : OptionMap := .empty

namespace Config

instance : Inhabited Config := ⟨{}⟩

/-- The rule that a name refers to is applied. Linting must be enabled; a name of no rule is then
never disabled. -/
def applies (c : Config) (name : String) : Bool :=
  c.enabled &&
    match Rule.ofName? name with
    | some r => !c.disabledRules.any fun d => Rule.ofName? d == some r
    | none => true

/-- The option objects of the rule that a name refers to, by the order of the rule's names. -/
def objects (c : Config) (name : String) : List (List (String × Json)) :=
  match Rule.ofName? name with
  | some r => r.names.list.filterMap fun n => (c.ruleConfigs.find? n).bind Json.asObject?
  | none => []

/-- An option of a rule: that of the first object which sets it. -/
def option? (c : Config) (name key : String) : Option Json :=
  (c.objects name).findSome? fun o => o.lookup key

/-- An option of a rule, if it is a string. -/
def string? (c : Config) (name key : String) : Option String :=
  (c.option? name key).bind Json.asString?

end Config

end ColumnLint
