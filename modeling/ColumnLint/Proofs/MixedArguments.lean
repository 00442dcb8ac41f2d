import ColumnLint.Proofs.PendingArguments
import ColumnLint.Proofs.RuleReference

/-
  The switch for excluded rules among other arguments. Arguments are read without and with it side
  by side, and all but the excluded rules stays the same (`Beside`). So a command line excludes the
  rules of all its values, split at their commas, and else gives what it gives without them
  (`ofArguments_others`). It is read whenever the other arguments are, unless an occurrence of the
  switch lacks its value or comes between another switch and its value (`ofArguments_arguments`).
-/

namespace ColumnLint.Command

open Text

/-- The options with these excluded rules. -/
def Options.excluding (o : Options) (rules : List String) : Options :=
  { o with excludedRules := rules }

/-- The pieces of a value between its commas. -/
def splitAtCommas (value : String) : List String :=
  (value.toList.splitOn ',').map String.ofList

/-- An argument that is neither the mark nor the switch for excluded rules. -/
def IsOther (argument : String) : Prop :=
  argument ≠ "--" ∧ argument ≠ "--exclude-rules" ∧ ∀ value, argument ≠ "--exclude-rules=" ++ value

namespace Progress

/-! ## Reading with and without the switch for excluded rules -/

/-- The same arguments read without and with the switch for excluded rules, which has given these
rules so far. -/
structure Beside (rules : List String) (onlyPaths : Bool) (p q : Progress) : Prop where
  options : p.options = q.options.excluding []
  excluded : q.options.excludedRules = rules
  -- the switch may be given again, so it makes no difference that it was
  seen : ∀ s, s ≠ .setting .excludedRules → p.seen.contains s = q.seen.contains s
  pending : p.pending = q.pending
  other : ∀ value, q.pending ≠ some (.setting .excludedRules value)
  left : p.onlyPaths = onlyPaths
  right : q.onlyPaths = onlyPaths

/-- Both readings fail in the same way, or both go on. -/
inductive Alike (rules : List String) (onlyPaths : Bool) :
    Except Refusal Progress → Except Refusal Progress → Prop where
  | error (e : Refusal) : Alike rules onlyPaths (.error e) (.error e)
  | ok {p q : Progress} (h : Beside rules onlyPaths p q) : Alike rules onlyPaths (.ok p) (.ok q)

section Beside

variable {rules : List String} {onlyPaths : Bool} {p q : Progress}

theorem Alike.bind {x y : Except Refusal Progress} {f : Progress → Except Refusal Progress}
    (h : Alike rules onlyPaths x y)
    (hf : ∀ {p q}, Beside rules onlyPaths p q → Alike rules onlyPaths (f p) (f q)) :
    Alike rules onlyPaths (x >>= f) (y >>= f) := by
  cases h with
  | error e => exact .error e
  | ok h => exact hf h

theorem Alike.exists_left {x : Except Refusal Progress} (h : Alike rules onlyPaths x (.ok q)) :
    ∃ p, x = .ok p ∧ Beside rules onlyPaths p q := by
  cases h with
  | ok h => exact ⟨_, rfl, h⟩

theorem Alike.exists_right {y : Except Refusal Progress} (h : Alike rules onlyPaths (.ok p) y) :
    ∃ q, y = .ok q ∧ Beside rules onlyPaths p q := by
  cases h with
  | ok h => exact ⟨_, rfl, h⟩

theorem withValue_excluding {s : Setting} (hs : s ≠ .excludedRules) (o : Options) (value : String) :
    withValue (o.excluding []) value s = (withValue o value s).map fun o => o.excluding [] := by
  cases s with
  | dialect => simp [withValue, Options.excluding, Function.comp_def]
  | format => simp [withValue, Options.excluding, Function.comp_def]
  | policy => simp [withValue, Options.excluding, Function.comp_def]
  | ruleConfigs => rfl
  | excludedRules => exact absurd rfl hs
  | output =>
    simp only [withValue]
    split <;> rfl

theorem excludedRules_withValue {s : Setting} (hs : s ≠ .excludedRules) {o o' : Options}
    {value : String} (h : withValue o value s = some o') : o'.excludedRules = o.excludedRules := by
  cases s with
  | dialect | format | policy =>
    obtain ⟨_, -, rfl⟩ := Option.map_eq_some_iff.1 h
    rfl
  | ruleConfigs =>
    cases h
    rfl
  | excludedRules => exact absurd rfl hs
  | output =>
    simp only [withValue] at h
    split at h <;> cases h
    rfl

theorem ne_excludedRules_of_letter {c : Char} {s : Setting}
    (h : Switch.letters.lookup c = some (.setting s)) : s ≠ .excludedRules := by
  rintro rfl
  obtain ⟨before, behind, hsplit, -⟩ := List.lookup_eq_some_iff.1 h
  have hmem : (c, .setting .excludedRules) ∈ Switch.letters := by simp [hsplit]
  simp [Switch.letters] at hmem

theorem ne_excludedRules_of_name {name : String} {s : Setting} (hname : name ≠ "exclude-rules")
    (h : Switch.longNames.lookup name = some (.setting s)) : s ≠ .excludedRules := by
  rintro rfl
  obtain ⟨before, behind, hsplit, -⟩ := List.lookup_eq_some_iff.1 h
  have hmem : (name, .setting .excludedRules) ∈ Switch.longNames := by simp [hsplit]
  simp [Switch.longNames, hname] at hmem

namespace Beside

theorem change (h : Beside rules onlyPaths p q) {o : Options} (ho : o.excludedRules = rules)
    (s : Switch) :
    Beside rules onlyPaths { p with options := o.excluding [], seen := s :: p.seen }
      { q with options := o, seen := s :: q.seen } where
  options := rfl
  excluded := ho
  seen t ht := by rw [List.contains_cons, List.contains_cons, h.seen t ht]
  pending := h.pending
  other := h.other
  left := h.left
  right := h.right

theorem await (h : Beside rules onlyPaths p q) {x : Option Pending}
    (hx : ∀ value, x ≠ some (.setting .excludedRules value)) :
    Beside rules onlyPaths { p with pending := x } { q with pending := x } :=
  ⟨h.options, h.excluded, h.seen, rfl, hx, h.left, h.right⟩

theorem assign (h : Beside rules onlyPaths p q) {s : Setting} (hs : s ≠ .excludedRules)
    (value : String) : Alike rules onlyPaths (p.assign s value) (q.assign s value) := by
  unfold Progress.assign
  rw [h.seen (.setting s) (by simpa using hs), h.options, withValue_excluding hs]
  split
  · exact .error _
  · cases hvalue : withValue q.options value s with
    | none => exact .error _
    | some o => exact .ok (h.change ((excludedRules_withValue hs hvalue).trans h.excluded) _)

theorem settle (h : Beside rules onlyPaths p q) : Alike rules onlyPaths p.settle q.settle := by
  unfold Progress.settle
  rw [h.pending]
  cases hpending : q.pending with
  | none => exact .ok h
  | some pending =>
    cases pending with
    | paths list =>
      dsimp only
      split
      · exact .error _
      · refine .ok ⟨?_, h.excluded, h.seen, rfl, by simp, h.left, h.right⟩
        rw [h.options]
        rfl
    | setting s value =>
      cases value with
      | none => exact .error _
      | some value =>
        refine (h.await (by simp)).assign ?_ value
        rintro rfl
        exact h.other _ hpending

theorem flag (h : Beside rules onlyPaths p q) (f : Flag) :
    Alike rules onlyPaths (p.flag f) (q.flag f) := by
  refine h.settle.bind fun {p q} h => ?_
  have hflag (o : Options) :
      withFlag (o.excluding []) f = (withFlag o f).map fun o => o.excluding [] := by
    cases f <;> rfl
  have hrules {o o' : Options} (ho' : withFlag o f = .ok o') :
      o'.excludedRules = o.excludedRules := by
    cases f <;> cases ho' <;> rfl
  rw [h.seen _ (by simp), h.options, hflag]
  split
  · exact .error _
  · cases hon : withFlag q.options f with
    | error e => exact .error e
    | ok o => exact .ok (h.change ((hrules hon).trans h.excluded) _)

theorem attached (h : Beside rules onlyPaths p q) {s : Setting} (hs : s ≠ .excludedRules)
    (value : String) : Alike rules onlyPaths (p.attached s value) (q.attached s value) :=
  h.settle.bind fun h => h.assign hs value

theorem awaiting (h : Beside rules onlyPaths p q) {s : Setting} (hs : s ≠ .excludedRules) :
    Alike rules onlyPaths (p.awaiting s) (q.awaiting s) :=
  h.settle.bind fun h => .ok (h.await (by simp [hs]))

theorem path (h : Beside rules onlyPaths p q) (a : String) :
    Alike rules onlyPaths (p.path a) (q.path a) := by
  have hsettled : Alike rules onlyPaths
      (p.settle >>= fun p => .ok { p with pending := some (.paths [a]) })
      (q.settle >>= fun q => .ok { q with pending := some (.paths [a]) }) :=
    h.settle.bind fun h => .ok (h.await (by simp))
  unfold Progress.path
  rw [h.pending]
  cases hpending : q.pending with
  | none => exact hsettled
  | some pending =>
    cases pending with
    | paths list => exact .ok (h.await (by simp))
    | setting s value => exact hsettled

theorem plain (h : Beside rules onlyPaths p q) (a : String) :
    Alike rules onlyPaths (p.plain a) (q.plain a) := by
  unfold Progress.plain
  rw [h.pending]
  split
  · rename_i s hpending
    refine .ok (h.await ?_)
    rintro value ⟨⟩
    exact h.other _ hpending
  · exact h.path a

theorem letters (h : Beside rules onlyPaths p q) (cs : List Char) :
    Alike rules onlyPaths (p.letters cs) (q.letters cs) := by
  induction cs generalizing p q with
  | nil =>
    rw [Progress.letters, Progress.letters]
    exact .ok h
  | cons c rest ih =>
    cases hlookup : Switch.letters.lookup c with
    | none =>
      rw [letters_of_none hlookup, letters_of_none hlookup]
      exact .error _
    | some switch =>
      cases switch with
      | flag f =>
        rw [letters_of_flag hlookup, letters_of_flag hlookup]
        exact (h.flag f).bind ih
      | setting s =>
        have hs := ne_excludedRules_of_letter hlookup
        rcases letters_of_setting hlookup rest with hread | ⟨value, hread⟩
        · rw [hread, hread]
          exact h.awaiting hs
        · rw [hread, hread]
          exact h.attached hs value

theorem long (h : Beside rules onlyPaths p q) {name : String} (hname : name ≠ "exclude-rules")
    (value : Option String) : Alike rules onlyPaths (p.long name value) (q.long name value) := by
  unfold Progress.long
  cases hlookup : Switch.longNames.lookup name with
  | none => exact .error _
  | some switch =>
    cases switch with
    | flag f =>
      cases value with
      | none => exact h.flag f
      | some value => exact .error _
    | setting s =>
      have hs := ne_excludedRules_of_name hname hlookup
      cases value with
      | none => exact h.awaiting hs
      | some value => exact h.attached hs value

theorem next (h : Beside rules onlyPaths p q) {a : String}
    (ha : onlyPaths = false → IsOther a) : Alike rules onlyPaths (p.next a) (q.next a) := by
  cases onlyPaths with
  | true =>
    rw [next_of_onlyPaths h.left, next_of_onlyPaths h.right]
    exact h.path a
  | false =>
    have ha := ha rfl
    -- how an argument is read does not depend on what was read before it
    cases kind a with
    | mark hmark => exact absurd hmark ha.1
    | plain hplain =>
      rw [next_plain h.left hplain, next_plain h.right hplain]
      exact h.plain a
    | @long name value hlong hnext =>
      rw [hnext p h.left, hnext q h.right]
      refine h.long ?_ value
      rintro rfl
      cases value with
      | none => exact ha.2.1 hlong
      | some value => exact ha.2.2 value hlong
    | letters hnext =>
      rw [hnext p h.left, hnext q h.right]
      exact h.letters _

theorem mark (h : Beside rules onlyPaths p q) :
    Beside rules true { p with onlyPaths := true } { q with onlyPaths := true } :=
  ⟨h.options, h.excluded, h.seen, h.pending, h.other, rfl, rfl⟩

end Beside

end Beside

theorem next_attached {p : Progress} (h : p.onlyPaths = false) (value : String) :
    p.next ("--exclude-rules=" ++ value) = p.attached .excludedRules value := by
  have hlist : ("--exclude-rules=" ++ value).toList =
      '-' :: '-' :: ("exclude-rules".toList ++ '=' :: value.toList) := by simp
  have hlong : p.next ("--exclude-rules=" ++ value) =
      p.long "exclude-rules" (some (String.ofList value.toList)) := next_hyphens h hlist (by simp)
  rw [hlong, String.ofList_toList]
  rfl

theorem next_detached {p : Progress} (h : p.onlyPaths = false) :
    p.next "--exclude-rules" = p.awaiting .excludedRules := by
  have hlist : "--exclude-rules".toList = '-' :: '-' :: "exclude-rules".toList := rfl
  exact next_hyphens h hlist (by decide)

/-! ## Occurrences of the switch -/

/-- What the switch for excluded rules leaves behind. -/
def adding (p : Progress) (rules : List String) : Progress :=
  { p with options := p.options.excluding (p.options.excludedRules ++ rules)
           seen := .setting .excludedRules :: p.seen }

theorem assign_excludedRules (p : Progress) (value : String) :
    p.assign .excludedRules value = .ok (p.adding (splitAtCommas value)) := by
  unfold adding splitAtCommas
  rw [← cutAt_eq_splitOn]
  rfl

theorem Beside.adding {rules : List String} {onlyPaths : Bool} {p q : Progress}
    (h : Beside rules onlyPaths p q) (more : List String) :
    Beside (rules ++ more) onlyPaths p (q.adding more) where
  options := h.options
  excluded := by rw [← h.excluded]; rfl
  seen s hs := by
    rw [h.seen s hs]
    unfold Progress.adding
    rw [List.contains_cons]
    simp [hs]
  pending := h.pending
  other := h.other
  left := h.left
  right := h.right

theorem gives_attached {p : Progress} (honly : p.onlyPaths = false) (value : String)
    (rest : List String) (o : Options) :
    p.Gives (("--exclude-rules=" ++ value) :: rest) o ↔
      ∃ r, p.settle = .ok r ∧ (r.adding (splitAtCommas value)).Gives rest o := by
  have hattached : p.attached .excludedRules value =
      p.settle >>= fun r => .ok (r.adding (splitAtCommas value)) := by
    unfold attached
    simp only [assign_excludedRules]
  rw [gives_cons, next_attached honly, hattached]
  simp only [bind_eq_ok_iff]
  constructor
  · rintro ⟨q, ⟨r, hr, hq⟩, hgives⟩
    cases hq
    exact ⟨r, hr, hgives⟩
  · rintro ⟨r, hr, hgives⟩
    exact ⟨_, ⟨r, hr, rfl⟩, hgives⟩

theorem gives_detached {p : Progress} (honly : p.onlyPaths = false) (value : String)
    (rest : List String) (o : Options) :
    p.Gives ("--exclude-rules" :: value :: rest) o ↔
      IsPlain value ∧ ∃ r, p.settle = .ok r ∧ (r.adding (splitAtCommas value)).Gives rest o := by
  have hvalue {r : Progress} (hr : p.settle = .ok r) :
      { r with pending := some (.setting .excludedRules (some value)) }.settle =
        .ok (r.adding (splitAtCommas value)) := by
    rw [← assign_excludedRules]
    unfold settle
    dsimp only
    rw [← pending_settle hr]
  have hgives {r : Progress} (hr : p.settle = .ok r) :
      { r with pending := some (.setting .excludedRules none) }.Gives (value :: rest) o ↔
        IsPlain value ∧ (r.adding (splitAtCommas value)).Gives rest o := by
    have hsettle := settle_of_settle (hvalue hr)
    refine (gives_of_awaiting ?_ rfl value rest o).trans (and_congr_right fun _ => ?_)
    · exact (onlyPaths_settle hr).trans honly
    · exact ⟨.of_settle (hvalue hr) hsettle, .of_settle hsettle (hvalue hr)⟩
  rw [gives_cons, next_detached honly]
  unfold awaiting
  simp only [bind_eq_ok_iff]
  constructor
  · rintro ⟨q, ⟨r, hr, hq⟩, hrest⟩
    cases hq
    obtain ⟨hplain, hrest⟩ := (hgives hr).1 hrest
    exact ⟨hplain, r, hr, hrest⟩
  · rintro ⟨hplain, r, hr, hrest⟩
    exact ⟨_, ⟨r, hr, rfl⟩, (hgives hr).2 ⟨hplain, hrest⟩⟩

end Progress

/-! ## Command lines -/

/-- What a command line gives before the mark: the switch for excluded rules with its value, in the
same argument or in the next one, or any other argument. -/
inductive Given where
  | exclusion (value : String) (attached : Bool)
  | other (argument : String)

namespace Given

def arguments : Given → List String
  | exclusion value true => ["--exclude-rules=" ++ value]
  | exclusion value false => ["--exclude-rules", value]
  | other argument => [argument]

/-- The arguments without the switch for excluded rules. -/
def others : Given → List String
  | exclusion _ _ => []
  | other argument => [argument]

/-- The rules that the switch excludes. -/
def rules : Given → List String
  | exclusion value _ => splitAtCommas value
  | other _ => []

end Given

/-- A command line in which the occurrences of the switch for excluded rules are told from all
else. -/
structure CommandLine where
  given : List Given
  /-- The mark and all behind it. -/
  behind : List String
  isOther : ∀ argument, .other argument ∈ given → IsOther argument
  mark : behind = [] ∨ ∃ paths, behind = "--" :: paths

namespace CommandLine

def arguments (c : CommandLine) : List String := c.given.flatMap Given.arguments ++ c.behind

/-- The command line without the switch for excluded rules. -/
def others (c : CommandLine) : List String := c.given.flatMap Given.others ++ c.behind

/-- All rules that the command line excludes, one value after the other. -/
def excludedRules (c : CommandLine) : List String := c.given.flatMap Given.rules

/-- No occurrence of the switch lacks its value, or takes the place of another switch's value. -/
def WellPlaced (c : CommandLine) : Prop :=
  ∀ before value attached after, c.given = before ++ .exclusion value attached :: after →
    (attached = false → IsPlain value) ∧
      ∃ o, Options.ofArguments (before.flatMap Given.others) = .ok o

/-- Some piece of a value refers to the rule on references. -/
def Excludes (c : CommandLine) : Prop :=
  ∃ name ∈ c.excludedRules, (Rule.ofName? name).map Rule.code = some "LINT_RF_003"

end CommandLine

namespace Progress

theorem gives_exclusion {p : Progress} (honly : p.onlyPaths = false) (value : String)
    (attached : Bool) (rest : List String) (o : Options) :
    p.Gives ((Given.exclusion value attached).arguments ++ rest) o ↔
      (attached = false → IsPlain value) ∧
        ∃ r, p.settle = .ok r ∧ (r.adding (splitAtCommas value)).Gives rest o := by
  cases attached with
  | true => simpa [Given.arguments] using gives_attached honly value rest o
  | false => simpa [Given.arguments] using gives_detached honly value rest o

namespace Beside

variable {rules : List String} {p q : Progress} {given : List Given} {behind : List String}
  {o : Options}

theorem readAll_paths (h : Beside rules true p q) (paths : List String) :
    Alike rules true (p.readAll paths) (q.readAll paths) := by
  induction paths generalizing p q with
  | nil => exact h.settle
  | cons a paths ih =>
    rw [readAll_cons, readAll_cons]
    exact (h.next (by simp)).bind ih

theorem readAll_behind (h : Beside rules false p q)
    (hmark : behind = [] ∨ ∃ paths, behind = "--" :: paths) :
    ∃ onlyPaths, Alike rules onlyPaths (p.readAll behind) (q.readAll behind) := by
  rcases hmark with rfl | ⟨paths, rfl⟩
  · exact ⟨false, h.settle⟩
  · rw [readAll_cons, readAll_cons, next_mark h.left, next_mark h.right]
    exact ⟨true, h.mark.readAll_paths paths⟩

/-- Arguments with the switch give what they give without it, and the rules of its values. -/
theorem gives_others (h : Beside rules false p q)
    (hothers : ∀ a, .other a ∈ given → IsOther a)
    (hmark : behind = [] ∨ ∃ paths, behind = "--" :: paths)
    (hgives : q.Gives (given.flatMap Given.arguments ++ behind) o) :
    o.excludedRules = rules ++ given.flatMap Given.rules ∧
      p.Gives (given.flatMap Given.others ++ behind) (o.excluding []) := by
  induction given generalizing rules p q with
  | nil =>
    obtain ⟨onlyPaths, halike⟩ := h.readAll_behind hmark
    obtain ⟨r, hr, rfl⟩ := hgives
    obtain ⟨r', hr', h'⟩ := (hr ▸ halike).exists_left
    exact ⟨h'.excluded.trans (List.append_nil rules).symm, r', hr', h'.options⟩
  | cons g given ih =>
    have hothers' : ∀ a, .other a ∈ given → IsOther a :=
      fun a ha => hothers a (List.mem_cons_of_mem _ ha)
    rw [List.flatMap_cons, List.append_assoc] at hgives
    cases g with
    | other a =>
      obtain ⟨q', hnext, hgives⟩ := gives_cons.1 hgives
      have ha := h.next fun _ => hothers a List.mem_cons_self
      obtain ⟨p', hnext', h'⟩ := (hnext ▸ ha).exists_left
      obtain ⟨hrules, hp'⟩ := ih h' hothers' hgives
      exact ⟨hrules, gives_cons.2 ⟨p', hnext', hp'⟩⟩
    | exclusion value attached =>
      obtain ⟨-, r, hr, hgives⟩ := (gives_exclusion h.right value attached _ o).1 hgives
      obtain ⟨r', hr', h'⟩ := (hr ▸ h.settle).exists_left
      obtain ⟨hrules, hp'⟩ := ih (h'.adding (splitAtCommas value)) hothers' hgives
      refine ⟨hrules.trans (List.append_assoc ..), ?_⟩
      -- what is pending is checked here by the switch, and without it by what comes next
      exact hp'.of_settle (settle_of_settle hr') hr'

/-- Arguments are read with the switch if they are without it and it is well placed among them. -/
theorem exists_gives (h : Beside rules false p q)
    (hothers : ∀ a, .other a ∈ given → IsOther a)
    (hmark : behind = [] ∨ ∃ paths, behind = "--" :: paths)
    (hplaced : ∀ before value attached after, given = before ++ .exclusion value attached :: after →
      (attached = false → IsPlain value) ∧ ∃ o, p.Gives (before.flatMap Given.others) o)
    (hgives : p.Gives (given.flatMap Given.others ++ behind) o) :
    ∃ o', q.Gives (given.flatMap Given.arguments ++ behind) o' := by
  induction given generalizing rules p q with
  | nil =>
    obtain ⟨onlyPaths, halike⟩ := h.readAll_behind hmark
    obtain ⟨r, hr, -⟩ := hgives
    obtain ⟨r', hr', -⟩ := (hr ▸ halike).exists_right
    exact ⟨_, r', hr', rfl⟩
  | cons g given ih =>
    have hothers' : ∀ a, .other a ∈ given → IsOther a :=
      fun a ha => hothers a (List.mem_cons_of_mem _ ha)
    rw [List.flatMap_cons, List.append_assoc]
    cases g with
    | other a =>
      obtain ⟨p', hnext, hgives⟩ := gives_cons.1 hgives
      have ha := h.next fun _ => hothers a List.mem_cons_self
      obtain ⟨q', hnext', h'⟩ := (hnext ▸ ha).exists_right
      suffices hrest : ∃ o', q'.Gives (given.flatMap Given.arguments ++ behind) o' by
        obtain ⟨o', hq'⟩ := hrest
        exact ⟨o', gives_cons.2 ⟨q', hnext', hq'⟩⟩
      refine ih h' hothers' (fun before value attached after heq => ?_) hgives
      obtain ⟨hvalue, o₀, ho₀⟩ := hplaced (.other a :: before) value attached after (heq ▸ rfl)
      obtain ⟨p'', hp'', ho₀⟩ := gives_cons.1 ho₀
      obtain rfl : p'' = p' := Except.ok.inj (hp''.symm.trans hnext)
      exact ⟨hvalue, o₀, ho₀⟩
    | exclusion value attached =>
      -- the switch stands behind arguments that are read by themselves, so nothing awaits a value
      obtain ⟨hvalue, o₀, ho₀⟩ := hplaced [] value attached given rfl
      obtain ⟨r, hr, -⟩ := gives_nil.1 ho₀
      obtain ⟨r', hr', h'⟩ := (hr ▸ h.settle).exists_right
      have hsettled {rest : List String} {o : Options} (hrest : p.Gives rest o) : r.Gives rest o :=
        hrest.of_settle hr (settle_of_settle hr)
      suffices hrest : ∃ o', (r'.adding (splitAtCommas value)).Gives
          (given.flatMap Given.arguments ++ behind) o' by
        obtain ⟨o', hq'⟩ := hrest
        exact ⟨o', (gives_exclusion h.right value attached _ o').2 ⟨hvalue, r', hr', hq'⟩⟩
      refine ih (h'.adding _) hothers' (fun before value' attached' after heq => ?_)
        (hsettled hgives)
      obtain ⟨hvalue', o₁, ho₁⟩ :=
        hplaced (.exclusion value attached :: before) value' attached' after (heq ▸ rfl)
      exact ⟨hvalue', o₁, hsettled ho₁⟩

end Beside

end Progress

namespace CommandLine

theorem beside_start : Progress.Beside [] false {} {} :=
  ⟨rfl, rfl, fun _ _ => rfl, rfl, by simp, rfl, rfl⟩

/-- A command line excludes the rules of all its values, and gives all else as without them. -/
theorem ofArguments_others (c : CommandLine) {o : Options}
    (h : Options.ofArguments c.arguments = .ok o) :
    o.excludedRules = c.excludedRules ∧ Options.ofArguments c.others = .ok (o.excluding []) := by
  obtain ⟨hgives, hflags⟩ := ofArguments_eq_ok_iff_gives.1 h
  obtain ⟨hrules, hothers⟩ := beside_start.gives_others c.isOther c.mark hgives
  exact ⟨hrules, ofArguments_eq_ok_iff_gives.2 ⟨hothers, hflags⟩⟩

theorem ofArguments_arguments (c : CommandLine) (hplaced : c.WellPlaced) {o : Options}
    (h : Options.ofArguments c.others = .ok o) :
    Options.ofArguments c.arguments = .ok (o.excluding c.excludedRules) := by
  obtain ⟨hgives, hflags⟩ := ofArguments_eq_ok_iff_gives.1 h
  have hplaced' : ∀ before value attached after,
      c.given = before ++ .exclusion value attached :: after →
      (attached = false → IsPlain value) ∧
        ∃ o, Progress.Gives {} (before.flatMap Given.others) o := by
    intro before value attached after heq
    obtain ⟨hvalue, o, ho⟩ := hplaced before value attached after heq
    exact ⟨hvalue, o, (ofArguments_eq_ok_iff_gives.1 ho).1⟩
  obtain ⟨o', ho'⟩ := beside_start.exists_gives c.isOther c.mark hplaced' hgives
  obtain ⟨hrules, r, hr, hoptions⟩ := beside_start.gives_others c.isOther c.mark ho'
  obtain ⟨r', hr', rfl⟩ := hgives
  obtain rfl : r = r' := Except.ok.inj (hr.symm.trans hr')
  have heq : o' = r.options.excluding c.excludedRules := by
    rw [hoptions]
    exact congrArg o'.excluding hrules
  exact ofArguments_eq_ok_iff_gives.2 ⟨heq ▸ ho', hflags⟩

end CommandLine

end ColumnLint.Command
