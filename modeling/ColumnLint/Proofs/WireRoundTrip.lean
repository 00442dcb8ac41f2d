import ColumnLint.Proofs.OptionLookup
import ColumnLint.Wire

/-
  Values as JSON and back. An object is written from fields that are set or not, and a field is read
  back as what it was set to, or as its default if it was left out (`requiredField_setFields`,
  `optionalField_setFields`, `defaultField_of_set`, `defaultField_of_omitted`). So requests,
  configurations, issues and results are read back from what they are written as. What is read from
  any other object is written without its unknown fields, and what is read from an array is written
  as an object; from then on nothing changes (`RoundTrips`).
-/

namespace ColumnLint

open Text Sql

/-! ## Fields of an object -/

/-- The fields that are set. -/
def writtenFields (fields : List (String × Option Json)) : List (String × Json) :=
  fields.filterMap fun f => f.2.map fun v => (f.1, v)

theorem setFields_eq (fields : List (String × Option Json)) :
    setFields fields = .object (writtenFields fields) := rfl

theorem writtenFields_cons (name : String) (o : Option Json) (fields : List (String × Option Json)) :
    writtenFields ((name, o) :: fields) = o.toList.map (name, ·) ++ writtenFields fields := by
  cases o <;> rfl

theorem lookup_writtenFields_of_not_mem {fields : List (String × Option Json)} {name : String}
    (h : name ∉ fields.map Prod.fst) : (writtenFields fields).lookup name = none := by
  rw [List.lookup_eq_none_iff]
  intro f hf
  obtain ⟨⟨n, o⟩, hmem, hset⟩ := List.mem_filterMap.1 hf
  obtain ⟨v, -, rfl⟩ := Option.map_eq_some_iff.1 hset
  rw [bne_iff_ne]
  rintro rfl
  exact h (List.mem_map_of_mem hmem)

/-- A field that is set once is found, and one that is not set is not. -/
theorem get?_setFields {fields : List (String × Option Json)} {name : String} {o : Option Json}
    (h : (fields.map Prod.fst).Nodup) (hmem : (name, o) ∈ fields) :
    (setFields fields).get? name = o := by
  rw [setFields_eq]
  show (writtenFields fields).lookup name = o
  induction fields with
  | nil => cases hmem
  | cons f fields ih =>
    obtain ⟨n, o'⟩ := f
    obtain ⟨hn, hrest⟩ := List.nodup_cons.1 h
    rw [writtenFields_cons, List.lookup_append]
    rcases List.mem_cons.1 hmem with heq | hin
    · cases heq
      cases o with
      | none => exact lookup_writtenFields_of_not_mem hn
      | some v => simp
    · have hne : (name == n) = false := by
        rw [beq_eq_false_iff_ne]
        rintro rfl
        exact hn (List.mem_map.2 ⟨_, hin, rfl⟩)
      cases o' with
      | none => exact ih hrest hin
      | some v =>
        show (List.lookup name [(n, v)]).or _ = o
        rw [List.lookup_cons, hne]
        exact ih hrest hin

section Fields

variable {α : Type} {read : Json → Option α} {fields : List (String × Option Json)} {name : String}

theorem requiredField_setFields {v : α} {j : Json} (h : (fields.map Prod.fst).Nodup)
    (hmem : (name, some j) ∈ fields) (hread : read j = some v) :
    requiredField read (setFields fields) name = some v := by
  unfold requiredField
  rw [get?_setFields h hmem]
  exact hread

/-- A field that is written if its value is set is read back, provided that no value is null. -/
theorem optionalField_setFields {write : α → Json} {o : Option α} (h : (fields.map Prod.fst).Nodup)
    (hmem : (name, o.map write) ∈ fields)
    (hread : ∀ v ∈ o, read (write v) = some v) (hnull : ∀ v ∈ o, write v ≠ .null) :
    optionalField read (setFields fields) name = some o := by
  unfold optionalField
  rw [get?_setFields h hmem]
  cases o with
  | none => rfl
  | some v =>
    have hread := hread v rfl
    have hnull := hnull v rfl
    dsimp only [Option.map_some]
    split
    · rename_i heq
      cases heq
    · rename_i heq
      exact absurd (Option.some.inj heq) hnull
    · rename_i heq
      cases heq
      rw [hread]
      rfl

theorem defaultField_of_set {default v : α} {j : Json} (h : (fields.map Prod.fst).Nodup)
    (hmem : (name, some j) ∈ fields) (hread : read j = some v) :
    defaultField default read (setFields fields) name = some v := by
  unfold defaultField
  rw [get?_setFields h hmem]
  exact hread

/-- A field that is left out where its value is the default is read back. -/
theorem defaultField_of_omitted {default v : α} {j : Json} {isDefault : Bool}
    (h : (fields.map Prod.fst).Nodup) (hmem : (name, if isDefault then none else some j) ∈ fields)
    (hdefault : isDefault = true → v = default) (hread : read j = some v) :
    defaultField default read (setFields fields) name = some v := by
  unfold defaultField
  rw [get?_setFields h hmem]
  cases isDefault with
  | true => rw [hdefault rfl]; rfl
  | false => exact hread

end Fields

/-! ## Parts of values -/

theorem asNat64?_eq_some_iff {j : Json} {n : Nat} :
    j.asNat64? = some n ↔ j = .ofNat n ∧ n < Nat.pow 2 64 := by
  constructor
  · intro h
    unfold Json.asNat64? at h
    split at h
    · rename_i m
      split at h
      · rename_i hm
        cases h
        exact ⟨rfl, hm⟩
      · cases h
    · cases h
  · rintro ⟨rfl, hn⟩
    show (if n < Nat.pow 2 64 then some n else none) = some n
    rw [if_pos hn]

/-- A list is read back if its items are. -/
theorem mapM_read_map {α : Type} {read : Json → Option α} {write : α → Json} {l : List α}
    (h : ∀ v ∈ l, read (write v) = some v) : (l.map write).mapM read = some l := by
  induction l with
  | nil => rfl
  | cons v l ih =>
    rw [List.map_cons, List.mapM_cons, h v List.mem_cons_self,
      ih fun w hw => h w (List.mem_cons_of_mem _ hw)]
    rfl

theorem exists_read_of_mem_mapM {α : Type} {read : Json → Option α} {items : List Json} {l : List α}
    (h : items.mapM read = some l) : ∀ v ∈ l, ∃ j, read j = some v := by
  induction items generalizing l with
  | nil =>
    cases h
    intro v hv
    cases hv
  | cons j items ih =>
    rw [List.mapM_cons] at h
    obtain ⟨v, hv, h⟩ := Option.bind_eq_some_iff.1 h
    obtain ⟨rest, hrest, h⟩ := Option.bind_eq_some_iff.1 h
    cases h
    intro w hw
    rcases List.mem_cons.1 hw with rfl | hw
    · exact ⟨j, hv⟩
    · exact ih hrest w hw

theorem asStrings?_ofStrings (l : List String) : (Json.ofStrings l).asStrings? = some l :=
  mapM_read_map fun _ _ => rfl

theorem Dialect.ofJson?_word (d : Dialect) : Dialect.ofJson? (.string d.word) = some d := by
  cases d <;> decide

theorem Severity.ofJson?_word (s : Severity) : Severity.ofJson? (.string s.word) = some s := by
  cases s <;> decide

namespace OptionMap

theorem insertEntry_of_lt {name : String} {entries : List (String × Json)} (value : Json)
    (h : ∀ e ∈ entries, e.1 < name) :
    insertEntry name value entries = entries ++ [(name, value)] := by
  induction entries with
  | nil => rfl
  | cons e entries ih =>
    obtain ⟨n, v⟩ := e
    have hn : n < name := h _ List.mem_cons_self
    have hlt : ¬name < n := fun hlt => String.lt_irrefl _ (String.lt_trans hn hlt)
    have hne : name ≠ n := by
      rintro rfl
      exact String.lt_irrefl _ hn
    unfold insertEntry
    rw [if_neg hlt, if_neg hne, ih fun e he => h e (List.mem_cons_of_mem _ he)]
    rfl

/-- The entries of a map, put into it one behind the other, are kept as they are. -/
theorem entries_foldl_insert {l : List (String × Json)} (m : OptionMap)
    (h : (m.entries ++ l).Pairwise fun a b => a.1 < b.1) :
    (l.foldl (fun m e => m.insert e.1 e.2) m).entries = m.entries ++ l := by
  induction l generalizing m with
  | nil => simp
  | cons e l ih =>
    have hentries : (m.insert e.1 e.2).entries = m.entries ++ [e] :=
      insertEntry_of_lt e.2 fun x hx => (List.pairwise_append.1 h).2.2 x hx e List.mem_cons_self
    rw [List.foldl_cons, ih, hentries, List.append_assoc]
    · rfl
    · rw [hentries, List.append_assoc]
      exact h

theorem eq_of_entries_eq {a b : OptionMap} (h : a.entries = b.entries) : a = b := by
  obtain ⟨entries, sorted⟩ := a
  cases h
  rfl

theorem ofJson?_toJson (m : OptionMap) : ofJson? m.toJson = some m :=
  congrArg some (eq_of_entries_eq (entries_foldl_insert empty m.sorted))

end OptionMap

/-! ## Writing and reading back -/

theorem Config.ofJson?_toJson (c : Config) : Config.ofJson? c.toJson = some c := by
  have hnames : ["enabled", "disabledRules", "ruleConfigs"].Nodup := by decide
  have henabled : defaultField true Json.asBool? c.toJson "enabled" = some c.enabled :=
    defaultField_of_set (j := .bool _) hnames (.head _) rfl
  have hdisabled : defaultField [] Json.asStrings? c.toJson "disabledRules" =
      some c.disabledRules :=
    defaultField_of_omitted hnames (.tail _ (.head _)) List.isEmpty_iff.1 (asStrings?_ofStrings _)
  have hconfigs : defaultField .empty OptionMap.ofJson? c.toJson "ruleConfigs" =
      some c.ruleConfigs :=
    defaultField_of_omitted hnames (.tail _ (.tail _ (.head _)))
      (fun h => OptionMap.eq_of_entries_eq (List.isEmpty_iff.1 h)) (OptionMap.ofJson?_toJson _)
  have hrecord : c.toJson.record? fieldNames = some c.toJson := rfl
  unfold Config.ofJson?
  rw [hrecord, Option.bind_eq_bind, Option.bind_some, henabled, hdisabled, hconfigs]
  rfl

theorem Request.ofJson?_toJson (r : Request) : Request.ofJson? r.toJson = some r := by
  have hnames : ["sql", "dialect", "sourceName", "lint"].Nodup := by decide
  have hsql : requiredField Json.asString? r.toJson "sql" = some r.sql :=
    requiredField_setFields (j := .string _) hnames (.head _) rfl
  have hdialect : defaultField .generic Dialect.ofJson? r.toJson "dialect" = some r.dialect :=
    defaultField_of_set hnames (.tail _ (.head _)) (Dialect.ofJson?_word _)
  have hname : optionalField Json.asString? r.toJson "sourceName" = some r.sourceName :=
    optionalField_setFields hnames (.tail _ (.tail _ (.head _))) (fun _ _ => rfl)
      (fun _ _ => Json.noConfusion)
  have hconfig : optionalField Config.ofJson? r.toJson "lint" = some r.config :=
    optionalField_setFields hnames (.tail _ (.tail _ (.tail _ (.head _))))
      (fun c _ => c.ofJson?_toJson) (fun _ _ => Json.noConfusion)
  have hrecord : r.toJson.record? fieldNames = some r.toJson := rfl
  unfold Request.ofJson?
  rw [hrecord, Option.bind_eq_bind, Option.bind_some, hsql, hdialect, hname, hconfig]
  rfl

/-! Numbers are written in full, but only those of 64 bits are read. -/

/-- The numbers of a place have 64 bits. -/
def Text.Span.Sized (s : Span) : Prop := s.start < Nat.pow 2 64 ∧ s.stop < Nat.pow 2 64

/-- The numbers of an issue have 64 bits. -/
structure Issue.Sized (i : Issue) : Prop where
  span : ∀ s ∈ i.span, s.Sized
  statementIndex : ∀ n ∈ i.statementIndex, n < Nat.pow 2 64

/-- The counts of issues have 64 bits. -/
structure IssueCount.Sized (c : IssueCount) : Prop where
  errors : c.errors < Nat.pow 2 64
  warnings : c.warnings < Nat.pow 2 64
  infos : c.infos < Nat.pow 2 64

/-- The numbers of a result have 64 bits. -/
structure LintResult.Sized (r : LintResult) : Prop where
  issues : ∀ i ∈ r.issues, i.Sized
  statementCount : r.summary.statementCount < Nat.pow 2 64
  issueCount : r.summary.issueCount.Sized

theorem asNat64?_ofNat {n : Nat} (h : n < Nat.pow 2 64) : (Json.ofNat n).asNat64? = some n :=
  asNat64?_eq_some_iff.2 ⟨rfl, h⟩

theorem Text.Span.ofJson?_toJson {s : Span} (h : s.Sized) : Span.ofJson? s.toJson = some s := by
  have hstart : requiredField Json.asNat64? s.toJson "start" = some s.start := asNat64?_ofNat h.1
  have hstop : requiredField Json.asNat64? s.toJson "end" = some s.stop := asNat64?_ofNat h.2
  have hrecord : s.toJson.record? ["start", "end"] = some s.toJson := rfl
  unfold Span.ofJson?
  rw [hrecord, Option.bind_eq_bind, Option.bind_some, hstart, hstop]
  rfl

theorem Issue.ofJson?_toJson {i : Issue} (h : i.Sized) : Issue.ofJson? i.toJson = some i := by
  have hnames : ["severity", "code", "message", "span", "statementIndex", "sourceName"].Nodup := by
    decide
  have hseverity : requiredField Severity.ofJson? i.toJson "severity" = some i.severity :=
    requiredField_setFields hnames (.head _) (Severity.ofJson?_word _)
  have hcode : requiredField Json.asString? i.toJson "code" = some i.code :=
    requiredField_setFields (j := .string _) hnames (.tail _ (.head _)) rfl
  have hmessage : requiredField Json.asString? i.toJson "message" = some i.message :=
    requiredField_setFields (j := .string _) hnames (.tail _ (.tail _ (.head _))) rfl
  have hspan : optionalField Span.ofJson? i.toJson "span" = some i.span :=
    optionalField_setFields hnames (.tail _ (.tail _ (.tail _ (.head _))))
      (fun s hs => Span.ofJson?_toJson (h.span s hs)) (fun _ _ => Json.noConfusion)
  have hindex : optionalField Json.asNat64? i.toJson "statementIndex" = some i.statementIndex :=
    optionalField_setFields hnames (.tail _ (.tail _ (.tail _ (.tail _ (.head _)))))
      (fun n hn => asNat64?_ofNat (h.statementIndex n hn)) (fun _ _ => Json.noConfusion)
  have hsource : optionalField Json.asString? i.toJson "sourceName" = some i.sourceName :=
    optionalField_setFields hnames (.tail _ (.tail _ (.tail _ (.tail _ (.tail _ (.head _))))))
      (fun _ _ => rfl) (fun _ _ => Json.noConfusion)
  have hrecord : i.toJson.record? fieldNames = some i.toJson := rfl
  unfold Issue.ofJson?
  rw [hrecord, Option.bind_eq_bind, Option.bind_some, hseverity, hcode, hmessage, hspan, hindex,
    hsource]
  rfl

theorem IssueCount.ofJson?_toJson {c : IssueCount} (h : c.Sized) :
    IssueCount.ofJson? c.toJson = some c := by
  have herrors : requiredField Json.asNat64? c.toJson "errors" = some c.errors :=
    asNat64?_ofNat h.errors
  have hwarnings : requiredField Json.asNat64? c.toJson "warnings" = some c.warnings :=
    asNat64?_ofNat h.warnings
  have hinfos : requiredField Json.asNat64? c.toJson "infos" = some c.infos :=
    asNat64?_ofNat h.infos
  have hrecord : c.toJson.record? ["errors", "warnings", "infos"] = some c.toJson := rfl
  unfold IssueCount.ofJson?
  rw [hrecord, Option.bind_eq_bind, Option.bind_some, herrors, hwarnings, hinfos]
  rfl

theorem LintResult.ofJson?_toJson {r : LintResult} (h : r.Sized) :
    LintResult.ofJson? r.toJson = some r := by
  have hcount : requiredField Json.asNat64? r.summary.toJson "statementCount" =
      some r.summary.statementCount := asNat64?_ofNat h.statementCount
  have hissueCount : requiredField IssueCount.ofJson? r.summary.toJson "issueCount" =
      some r.summary.issueCount := IssueCount.ofJson?_toJson h.issueCount
  have hrecord : r.summary.toJson.record? ["statementCount", "issueCount", "hasErrors"] =
      some r.summary.toJson := rfl
  have hsummary : Summary.ofJson? r.summary.toJson = some r.summary := by
    unfold Summary.ofJson?
    rw [hrecord, Option.bind_eq_bind, Option.bind_some, hcount, hissueCount]
    rfl
  have hissues : requiredField (fun v => v.asArray?.bind fun l => l.mapM Issue.ofJson?) r.toJson
      "issues" = some r.issues := mapM_read_map fun i hi => Issue.ofJson?_toJson (h.issues i hi)
  have hrequired : requiredField Summary.ofJson? r.toJson "summary" = some r.summary := hsummary
  have hrecord : r.toJson.record? fieldNames = some r.toJson := rfl
  unfold LintResult.ofJson?
  rw [hrecord, Option.bind_eq_bind, Option.bind_some, hissues, hrequired]
  rfl

/-! ## What is read -/

section Reading

variable {α : Type} {read : Json → Option α} {j : Json} {name : String}

theorem exists_of_requiredField {v : α} (h : requiredField read j name = some v) :
    ∃ part, read part = some v := by
  obtain ⟨part, -, hpart⟩ := Option.bind_eq_some_iff.1 h
  exact ⟨part, hpart⟩

theorem exists_of_optionalField {o : Option α} (h : optionalField read j name = some o) :
    ∀ v ∈ o, ∃ part, read part = some v := by
  rintro v ⟨⟩
  unfold optionalField at h
  split at h
  · cases h
  · cases h
  · rename_i part _ _
    obtain ⟨w, hw, hsome⟩ := Option.map_eq_some_iff.1 h
    cases hsome
    exact ⟨part, hw⟩

theorem requiredField_congr {other : Json} (h : j.get? name = other.get? name) :
    requiredField read j name = requiredField read other name := by
  unfold requiredField
  rw [h]

theorem optionalField_congr {other : Json} (h : j.get? name = other.get? name) :
    optionalField read j name = optionalField read other name := by
  unfold optionalField
  rw [h]

theorem defaultField_congr {default : α} {other : Json} (h : j.get? name = other.get? name) :
    defaultField default read j name = defaultField default read other name := by
  unfold defaultField
  rw [h]

end Reading

theorem lt_of_asNat64? {n : Nat} (h : ∃ j : Json, j.asNat64? = some n) : n < Nat.pow 2 64 := by
  obtain ⟨j, hj⟩ := h
  exact (asNat64?_eq_some_iff.1 hj).2

theorem Text.Span.sized_of_ofJson? {j : Json} {s : Span} (h : Span.ofJson? j = some s) :
    s.Sized := by
  obtain ⟨record, -, h⟩ := Option.bind_eq_some_iff.1 h
  obtain ⟨start, hstart, h⟩ := Option.bind_eq_some_iff.1 h
  obtain ⟨stop, hstop, h⟩ := Option.bind_eq_some_iff.1 h
  cases h
  exact ⟨lt_of_asNat64? (exists_of_requiredField hstart),
    lt_of_asNat64? (exists_of_requiredField hstop)⟩

theorem Issue.sized_of_ofJson? {j : Json} {i : Issue} (h : Issue.ofJson? j = some i) : i.Sized := by
  obtain ⟨record, -, h⟩ := Option.bind_eq_some_iff.1 h
  obtain ⟨severity, -, h⟩ := Option.bind_eq_some_iff.1 h
  obtain ⟨code, -, h⟩ := Option.bind_eq_some_iff.1 h
  obtain ⟨message, -, h⟩ := Option.bind_eq_some_iff.1 h
  obtain ⟨span, hspan, h⟩ := Option.bind_eq_some_iff.1 h
  obtain ⟨index, hindex, h⟩ := Option.bind_eq_some_iff.1 h
  obtain ⟨source, -, h⟩ := Option.bind_eq_some_iff.1 h
  cases h
  refine ⟨fun s hs => ?_, fun n hn => lt_of_asNat64? (exists_of_optionalField hindex n hn)⟩
  obtain ⟨part, hpart⟩ := exists_of_optionalField hspan s hs
  exact Span.sized_of_ofJson? hpart

theorem IssueCount.sized_of_ofJson? {j : Json} {c : IssueCount} (h : IssueCount.ofJson? j = some c) :
    c.Sized := by
  obtain ⟨record, -, h⟩ := Option.bind_eq_some_iff.1 h
  obtain ⟨errors, herrors, h⟩ := Option.bind_eq_some_iff.1 h
  obtain ⟨warnings, hwarnings, h⟩ := Option.bind_eq_some_iff.1 h
  obtain ⟨infos, hinfos, h⟩ := Option.bind_eq_some_iff.1 h
  cases h
  exact ⟨lt_of_asNat64? (exists_of_requiredField herrors),
    lt_of_asNat64? (exists_of_requiredField hwarnings),
    lt_of_asNat64? (exists_of_requiredField hinfos)⟩

theorem LintResult.sized_of_ofJson? {j : Json} {r : LintResult} (h : LintResult.ofJson? j = some r) :
    r.Sized := by
  obtain ⟨record, -, h⟩ := Option.bind_eq_some_iff.1 h
  obtain ⟨issues, hissues, h⟩ := Option.bind_eq_some_iff.1 h
  obtain ⟨summary, hsummary, h⟩ := Option.bind_eq_some_iff.1 h
  cases h
  obtain ⟨list, hlist⟩ := exists_of_requiredField hissues
  obtain ⟨items, -, hitems⟩ := Option.bind_eq_some_iff.1 hlist
  obtain ⟨part, h⟩ := exists_of_requiredField hsummary
  obtain ⟨record, -, h⟩ := Option.bind_eq_some_iff.1 h
  obtain ⟨statements, hstatements, h⟩ := Option.bind_eq_some_iff.1 h
  obtain ⟨count, hcount, h⟩ := Option.bind_eq_some_iff.1 h
  obtain ⟨errors, -, h⟩ := Option.bind_eq_some_iff.1 h
  cases h
  refine ⟨fun i hi => ?_, lt_of_asNat64? (exists_of_requiredField hstatements), ?_⟩
  · obtain ⟨item, hitem⟩ := exists_read_of_mem_mapM hitems i hi
    exact Issue.sized_of_ofJson? hitem
  · obtain ⟨part, hpart⟩ := exists_of_requiredField hcount
    exact IssueCount.sized_of_ofJson? hpart

/-- Two objects have the same values under these names. -/
def SameFields (names : List String) (fields others : List (String × Json)) : Prop :=
  ∀ name ∈ names, (Json.object fields).get? name = (Json.object others).get? name

theorem Request.ofJson?_of_sameFields {fields others : List (String × Json)}
    (h : SameFields fieldNames fields others) :
    Request.ofJson? (.object fields) = Request.ofJson? (.object others) := by
  simp only [Request.ofJson?, Json.record?, Option.bind_eq_bind, Option.bind_some]
  rw [requiredField_congr (h "sql" (by simp [fieldNames])),
    defaultField_congr (h "dialect" (by simp [fieldNames])),
    optionalField_congr (h "sourceName" (by simp [fieldNames])),
    optionalField_congr (h "lint" (by simp [fieldNames]))]

theorem Config.ofJson?_of_sameFields {fields others : List (String × Json)}
    (h : SameFields fieldNames fields others) :
    Config.ofJson? (.object fields) = Config.ofJson? (.object others) := by
  simp only [Config.ofJson?, Json.record?, Option.bind_eq_bind, Option.bind_some]
  rw [defaultField_congr (h "enabled" (by simp [fieldNames])),
    defaultField_congr (h "disabledRules" (by simp [fieldNames])),
    defaultField_congr (h "ruleConfigs" (by simp [fieldNames]))]

theorem Issue.ofJson?_of_sameFields {fields others : List (String × Json)}
    (h : SameFields fieldNames fields others) :
    Issue.ofJson? (.object fields) = Issue.ofJson? (.object others) := by
  simp only [Issue.ofJson?, Json.record?, Option.bind_eq_bind, Option.bind_some]
  rw [requiredField_congr (h "severity" (by simp [fieldNames])),
    requiredField_congr (h "code" (by simp [fieldNames])),
    requiredField_congr (h "message" (by simp [fieldNames])),
    optionalField_congr (h "span" (by simp [fieldNames])),
    optionalField_congr (h "statementIndex" (by simp [fieldNames])),
    optionalField_congr (h "sourceName" (by simp [fieldNames]))]

theorem LintResult.ofJson?_of_sameFields {fields others : List (String × Json)}
    (h : SameFields fieldNames fields others) :
    LintResult.ofJson? (.object fields) = LintResult.ofJson? (.object others) := by
  simp only [LintResult.ofJson?, Json.record?, Option.bind_eq_bind, Option.bind_some]
  rw [requiredField_congr (h "issues" (by simp [fieldNames])),
    requiredField_congr (h "summary" (by simp [fieldNames]))]

/-- A reader of records takes the items of an array for the values of the fields, in their order. -/
theorem bind_record?_array {α : Type} (names : List String) (read : Json → Option α)
    (items : List Json) :
    ((Json.array items).record? names).bind read =
      if items.length ≤ names.length then
        ((Json.object (names.zip items)).record? names).bind read
      else none := by
  unfold Json.record?
  dsimp only
  split
  · rfl
  · rfl

/-! ## Round trips -/

/-- Values of a kind survive being written and read. -/
structure RoundTrips {α : Type} (read : Json → Option α) (write : α → Json) (Valid : α → Prop)
    (names : List String) : Prop where
  /-- What is written is read back. -/
  read_write : ∀ v, Valid v → read (write v) = some v
  /-- What was read once, from whatever object, is read again from what it is written as. -/
  reread : ∀ j v, read j = some v → read (write v) = some v
  /-- From then on writing changes nothing. -/
  rewrite : ∀ j v w, read j = some v → read (write v) = some w → write w = write v
  /-- Fields of other names do not count, nor does the order of the fields. -/
  known : ∀ fields others, SameFields names fields others →
    read (.object fields) = read (.object others)
  /-- An array gives the fields by their places: those at the end may be missing, but no more items
  than fields may stand there. -/
  byPlace : ∀ items : List Json, read (.array items) =
    if items.length ≤ names.length then read (.object (names.zip items)) else none

theorem RoundTrips.of_read_write {α : Type} {read : Json → Option α} {write : α → Json}
    {Valid : α → Prop} {names : List String} (hwrite : ∀ v, Valid v → read (write v) = some v)
    (hvalid : ∀ j v, read j = some v → Valid v)
    (hknown : ∀ fields others, SameFields names fields others →
      read (.object fields) = read (.object others))
    (hplaces : ∀ items : List Json, read (.array items) =
      if items.length ≤ names.length then read (.object (names.zip items)) else none) :
    RoundTrips read write Valid names where
  read_write := hwrite
  reread j v h := hwrite v (hvalid j v h)
  rewrite j v w h hw := by
    rw [hwrite v (hvalid j v h)] at hw
    cases hw
    rfl
  known := hknown
  byPlace := hplaces

/-- A value is an object without fields that are null or empty. -/
def Json.OmitsEmpty (j : Json) : Prop :=
  ∃ fields, j = .object fields ∧ ∀ f ∈ fields, f.2 ≠ .null ∧ f.2 ≠ .array [] ∧ f.2 ≠ .object []

theorem Json.omitsEmpty_setFields {fields : List (String × Option Json)}
    (h : ∀ f ∈ fields, ∀ v ∈ f.2, v ≠ .null ∧ v ≠ .array [] ∧ v ≠ .object []) :
    (setFields fields).OmitsEmpty := by
  refine ⟨_, setFields_eq fields, fun f hf => ?_⟩
  obtain ⟨⟨name, o⟩, hmem, hset⟩ := List.mem_filterMap.1 hf
  obtain ⟨v, hv, rfl⟩ := Option.map_eq_some_iff.1 hset
  exact h _ hmem v hv

theorem Config.omitsEmpty_toJson (c : Config) : c.toJson.OmitsEmpty := by
  apply Json.omitsEmpty_setFields
  simp [Json.ofStrings, OptionMap.toJson, OptionMap.isEmpty]

theorem Request.omitsEmpty_toJson (r : Request) : r.toJson.OmitsEmpty := by
  apply Json.omitsEmpty_setFields
  simp [Config.toJson, setFields]

theorem Issue.omitsEmpty_toJson (i : Issue) : i.toJson.OmitsEmpty := by
  apply Json.omitsEmpty_setFields
  simp [Span.toJson, Json.ofNat]

/-- Requests, configurations, issues and results survive being written and read, though what is unset
or empty is not written. -/
theorem wire_formats_round_trip :
    RoundTrips Request.ofJson? Request.toJson (fun _ => True) Request.fieldNames ∧
    RoundTrips Config.ofJson? Config.toJson (fun _ => True) Config.fieldNames ∧
    RoundTrips Issue.ofJson? Issue.toJson Issue.Sized Issue.fieldNames ∧
    RoundTrips LintResult.ofJson? LintResult.toJson LintResult.Sized LintResult.fieldNames ∧
    (∀ r : Request, r.toJson.OmitsEmpty) ∧ (∀ c : Config, c.toJson.OmitsEmpty) ∧
    ∀ i : Issue, i.toJson.OmitsEmpty :=
  ⟨.of_read_write (fun r _ => r.ofJson?_toJson) (fun _ _ _ => trivial)
      (fun _ _ => Request.ofJson?_of_sameFields) (bind_record?_array _ _),
    .of_read_write (fun c _ => c.ofJson?_toJson) (fun _ _ _ => trivial)
      (fun _ _ => Config.ofJson?_of_sameFields) (bind_record?_array _ _),
    .of_read_write (fun _ => Issue.ofJson?_toJson) (fun _ _ => Issue.sized_of_ofJson?)
      (fun _ _ => Issue.ofJson?_of_sameFields) (bind_record?_array _ _),
    .of_read_write (fun _ => LintResult.ofJson?_toJson) (fun _ _ => LintResult.sized_of_ofJson?)
      (fun _ _ => LintResult.ofJson?_of_sameFields) (bind_record?_array _ _),
    Request.omitsEmpty_toJson, Config.omitsEmpty_toJson, Issue.omitsEmpty_toJson⟩

/-- A request with its fields in another order, one more field, a null, a dialect as an object and a
configuration as an array that gives one value. -/
def looseRequest : Json :=
  .object [("lint", .array [.bool true]), ("sourceName", .null), ("comment", .array []),
    ("dialect", .object [("ansi", .null)]), ("sql", .string "SELECT 1")]

/-- The request that is read has a configuration, though one without settings. It is written with the
fields in their order, without those that are unset, and read back. -/
theorem looseRequest_round_trip :
    ∃ r, Request.ofJson? looseRequest = some r ∧ r.config.isSome = true ∧
      r.toJson = .object [("sql", .string "SELECT 1"), ("dialect", .string "ansi"),
        ("lint", .object [("enabled", .bool true)])] ∧
      Request.ofJson? r.toJson = some r := by
  have hread : Request.ofJson? looseRequest =
      some { sql := "SELECT 1", dialect := .ansi, config := some {} } := rfl
  exact ⟨_, hread, rfl, rfl, wire_formats_round_trip.1.reread _ _ hread⟩

end ColumnLint
