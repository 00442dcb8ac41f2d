import ColumnLint.Proofs.IndependentFiles

/-
  Arguments that are read but not yet checked. An argument is the mark `--`, or no switch, or a
  switch, whatever was read before it (`kind`). A switch does nothing before what is pending is
  checked (`SettlesFirst`), so it makes no difference if that is checked early (`Gives.of_settle`).
-/

namespace ColumnLint.Command

/-- An argument that is no switch: it has no hyphen in front, or is nothing but a hyphen. -/
def IsPlain (argument : String) : Prop := argument = "-" ∨ argument.toList.head? ≠ some '-'

/-- A name behind two hyphens, with the value behind its equals sign. -/
def longArgument (name : String) : Option String → String
  | none => "--" ++ name
  | some value => "--" ++ name ++ "=" ++ value

namespace Progress

/-! ## Reading one argument -/

/-- How an argument is read as long as not all are paths. -/
inductive Kind (argument : String) : Prop where
  | mark (h : argument = "--")
  | plain (h : IsPlain argument)
  | long {name : String} {value : Option String} (h : argument = longArgument name value)
      (hnext : ∀ p : Progress, p.onlyPaths = false → p.next argument = p.long name value)
  | letters {c : Char} {rest : List Char}
      (hnext : ∀ p : Progress, p.onlyPaths = false → p.next argument = p.letters (c :: rest))

theorem next_of_onlyPaths {p : Progress} (h : p.onlyPaths = true) (a : String) :
    p.next a = p.path a := by
  unfold next
  rw [if_pos h]

theorem next_mark {p : Progress} (h : p.onlyPaths = false) :
    p.next "--" = .ok { p with onlyPaths := true } := by
  unfold next
  rw [if_neg (by simp [h])]
  rfl

theorem next_hyphens {p : Progress} (h : p.onlyPaths = false) {a : String} {rest : List Char}
    (ha : a.toList = '-' :: '-' :: rest) (hne : rest ≠ []) :
    p.next a = p.long (String.ofList (rest.takeWhile (· ≠ '=')))
      ((rest.dropWhile (· ≠ '=')).tail?.map String.ofList) := by
  unfold next
  rw [if_neg (by simp [h])]
  split
  case h_2 rest' _ heq =>
    obtain rfl : rest = rest' := by simpa [ha] using heq
    cases rest.dropWhile (· ≠ '=') <;> rfl
  all_goals simp_all

theorem next_letters {p : Progress} (h : p.onlyPaths = false) {a : String} {c : Char}
    {rest : List Char} (ha : a.toList = '-' :: c :: rest) (hc : '-' ≠ c) :
    p.next a = p.letters (c :: rest) := by
  unfold next
  rw [if_neg (by simp [h])]
  split <;> simp_all

theorem next_plain {p : Progress} (h : p.onlyPaths = false) {a : String} (ha : IsPlain a) :
    p.next a = p.plain a := by
  unfold next
  rw [if_neg (by simp [h])]
  rcases ha with rfl | ha
  · rfl
  · split <;> simp_all

theorem longArgument_eq {a : String} {rest : List Char} (ha : a.toList = '-' :: '-' :: rest) :
    longArgument (String.ofList (rest.takeWhile (· ≠ '=')))
      ((rest.dropWhile (· ≠ '=')).tail?.map String.ofList) = a := by
  have hshort (name : List Char) :
      (longArgument (String.ofList name) none).toList = '-' :: '-' :: name := by
    simp [longArgument]
  have hlong (name value : List Char) :
      (longArgument (String.ofList name) (some (String.ofList value))).toList =
        '-' :: '-' :: (name ++ '=' :: value) := by
    simp [longArgument]
  have hsplit := List.takeWhile_append_dropWhile (p := (· ≠ '=')) (l := rest)
  refine String.toList_inj.1 (Eq.trans ?_ ha.symm)
  cases hdrop : rest.dropWhile (· ≠ '=') with
  | nil =>
    rw [hdrop, List.append_nil] at hsplit
    rw [hsplit]
    exact hshort rest
  | cons c value =>
    obtain rfl : c = '=' := by
      have hhead := List.head?_dropWhile_not (· ≠ '=') rest
      rw [hdrop] at hhead
      simpa using hhead
    rw [hdrop] at hsplit
    exact (hlong _ value).trans (by rw [hsplit])

theorem kind (a : String) : Kind a := by
  rcases ha : a.toList with _ | ⟨c, rest⟩
  · exact .plain (.inr (by simp [ha]))
  · by_cases hc : '-' = c
    · subst hc
      rcases rest with _ | ⟨c, rest⟩
      · exact .plain (.inl (String.toList_inj.1 ha))
      · by_cases hc : '-' = c
        · subst hc
          by_cases hrest : rest = []
          · subst hrest
            exact .mark (String.toList_inj.1 ha)
          · exact .long (longArgument_eq ha).symm fun p h => next_hyphens h ha hrest
        · exact .letters fun p h => next_letters h ha hc
    · exact .plain (.inr (by simpa [ha] using Ne.symm hc))

/-! ## Settling early -/

theorem bind_eq_ok_iff {x : Except Refusal Progress} {f : Progress → Except Refusal Progress}
    {q : Progress} : (x >>= f) = .ok q ↔ ∃ p, x = .ok p ∧ f p = .ok q := by
  cases x <;> simp [bind, Except.bind]

/-- Reads all arguments, and checks what is pending at their end. -/
def readAll (p : Progress) (arguments : List String) : Except Refusal Progress :=
  arguments.foldlM next p >>= settle

theorem readAll_cons (p : Progress) (a : String) (rest : List String) :
    p.readAll (a :: rest) = p.next a >>= (readAll · rest) := by
  unfold readAll
  rw [List.foldlM_cons, bind_assoc]

/-- The arguments behind those read so far give these options. -/
def Gives (p : Progress) (arguments : List String) (o : Options) : Prop :=
  ∃ r, p.readAll arguments = .ok r ∧ r.options = o

theorem gives_nil {p : Progress} {o : Options} :
    p.Gives [] o ↔ ∃ r, p.settle = .ok r ∧ r.options = o := Iff.rfl

theorem gives_cons {p : Progress} {a : String} {rest : List String} {o : Options} :
    p.Gives (a :: rest) o ↔ ∃ q, p.next a = .ok q ∧ q.Gives rest o := by
  unfold Gives
  simp only [readAll_cons, bind_eq_ok_iff]
  constructor
  · rintro ⟨r, ⟨q, hnext, hread⟩, hoptions⟩
    exact ⟨q, hnext, r, hread, hoptions⟩
  · rintro ⟨q, hnext, r, hread, hoptions⟩
    exact ⟨r, ⟨q, hnext, hread⟩, hoptions⟩

theorem pending_settle {p r : Progress} (h : p.settle = .ok r) : r.pending = none := by
  unfold settle assign at h
  split at h
  case h_1 hnone =>
    cases h
    exact hnone
  case h_2 =>
    split at h <;> cases h
    rfl
  case h_3 => cases h
  case h_4 =>
    split at h
    · cases h
    · split at h <;> cases h
      rfl

theorem settle_of_settle {p r : Progress} (h : p.settle = .ok r) : r.settle = .ok r := by
  unfold settle
  rw [pending_settle h]

theorem settle_onlyPaths (p : Progress) :
    { p with onlyPaths := true }.settle = p.settle.map fun r => { r with onlyPaths := true } := by
  unfold settle assign
  dsimp only
  split
  case h_1 => rfl
  case h_2 => split <;> rfl
  case h_3 => rfl
  case h_4 =>
    split
    · rfl
    · split <;> rfl

/-- A way of reading an argument that does nothing before what is pending is checked. -/
def SettlesFirst (read : Progress → Except Refusal Progress) : Prop :=
  ∀ p q, read p = .ok q ↔ ∃ r, p.settle = .ok r ∧ read r = .ok q

theorem settlesFirst_error (e : Refusal) : SettlesFirst fun _ => .error e := by
  intro p q
  simp

theorem settlesFirst_settle : SettlesFirst settle := by
  intro p q
  constructor
  · intro h
    exact ⟨q, h, settle_of_settle h⟩
  · rintro ⟨r, hr, hq⟩
    rwa [← settle_of_settle hr, hq] at hr

theorem SettlesFirst.bind {read : Progress → Except Refusal Progress} (h : SettlesFirst read)
    (act : Progress → Except Refusal Progress) : SettlesFirst fun p => read p >>= act := by
  intro p q
  simp only [bind_eq_ok_iff]
  constructor
  · rintro ⟨p', hread, hact⟩
    obtain ⟨r, hr, hread'⟩ := (h p p').1 hread
    exact ⟨r, hr, p', hread', hact⟩
  · rintro ⟨r, hr, p', hread, hact⟩
    exact ⟨p', (h p p').2 ⟨r, hr, hread⟩, hact⟩

theorem settlesFirst_flag (f : Flag) : SettlesFirst fun p => p.flag f :=
  settlesFirst_settle.bind _

theorem settlesFirst_attached (s : Setting) (value : String) :
    SettlesFirst fun p => p.attached s value :=
  settlesFirst_settle.bind _

theorem settlesFirst_awaiting (s : Setting) : SettlesFirst fun p => p.awaiting s :=
  settlesFirst_settle.bind _

theorem settlesFirst_long (name : String) (value : Option String) :
    SettlesFirst fun p => p.long name value := by
  unfold long
  cases Switch.longNames.lookup name with
  | none => exact settlesFirst_error _
  | some switch =>
    cases switch <;> cases value
    · exact settlesFirst_awaiting _
    · exact settlesFirst_attached _ _
    · exact settlesFirst_flag _
    · exact settlesFirst_error _

theorem letters_of_none {c : Char} (h : Switch.letters.lookup c = none) (p : Progress)
    (rest : List Char) : p.letters (c :: rest) = .error .unknownArgument := by
  rw [letters, h]

theorem letters_of_flag {c : Char} {f : Flag} (h : Switch.letters.lookup c = some (.flag f))
    (p : Progress) (rest : List Char) : p.letters (c :: rest) = p.flag f >>= (letters · rest) := by
  rw [letters, h]
  dsimp only
  cases p.flag f <;> rfl

theorem letters_of_setting {c : Char} {s : Setting}
    (h : Switch.letters.lookup c = some (.setting s)) (rest : List Char) :
    (∀ p : Progress, p.letters (c :: rest) = p.awaiting s) ∨
      ∃ value, ∀ p : Progress, p.letters (c :: rest) = p.attached s value := by
  rcases rest with _ | ⟨c', rest⟩
  · refine .inl fun p => ?_
    rw [letters, h]
  · by_cases hc : c' = '='
    · subst hc
      refine .inr ⟨String.ofList rest, fun p => ?_⟩
      rw [letters, h]
      rfl
    · refine .inr ⟨String.ofList (c' :: rest), fun p => ?_⟩
      rw [letters, h]
      dsimp only
      split <;> simp_all

theorem settlesFirst_letters (c : Char) (rest : List Char) :
    SettlesFirst fun p => p.letters (c :: rest) := by
  cases h : Switch.letters.lookup c with
  | none =>
    simp only [letters_of_none h]
    exact settlesFirst_error _
  | some switch =>
    cases switch with
    | flag f =>
      simp only [letters_of_flag h]
      exact (settlesFirst_flag f).bind _
    | setting s =>
      rcases letters_of_setting h rest with hread | ⟨value, hread⟩
      · simp only [hread]
        exact settlesFirst_awaiting s
      · simp only [hread]
        exact settlesFirst_attached s value

/-- An argument is the mark, or no switch, or does nothing before what is pending is checked. -/
theorem exists_settlesFirst (a : String) : a = "--" ∨ IsPlain a ∨
    ∃ read, SettlesFirst read ∧ ∀ p : Progress, p.onlyPaths = false → p.next a = read p := by
  cases kind a with
  | mark h => exact .inl h
  | plain h => exact .inr (.inl h)
  | long _ hnext => exact .inr (.inr ⟨_, settlesFirst_long _ _, hnext⟩)
  | letters hnext => exact .inr (.inr ⟨_, settlesFirst_letters _ _, hnext⟩)

theorem plain_of_pending {p : Progress} (h : ∀ s, p.pending ≠ some (.setting s none))
    (a : String) : p.plain a = p.path a := by
  unfold plain
  split
  · rename_i s hpending
    exact absurd hpending (h s)
  · rfl

theorem pending_of_settle {p r : Progress} (h : p.settle = .ok r) (s : Setting) :
    p.pending ≠ some (.setting s none) := by
  intro hpending
  unfold settle at h
  rw [hpending] at h
  cases h

/-- What is found to be wrong once is found to be wrong later. -/
theorem not_gives_of_error {p : Progress} {e : Refusal} (h : p.settle = .error e)
    (hpending : ∀ s, p.pending ≠ some (.setting s none)) (rest : List String) (o : Options) :
    ¬p.Gives rest o := by
  induction rest generalizing p e with
  | nil =>
    rw [gives_nil, h]
    rintro ⟨r, hr, -⟩
    cases hr
  | cons a rest ih =>
    rw [gives_cons]
    rintro ⟨q, hnext, hq⟩
    have hpath : p.path a ≠ .ok q := by
      intro hpath
      unfold path at hpath
      split at hpath
      · rename_i list hlist
        cases hpath
        have hbad : "" ∈ list := by
          rw [settle_paths hlist] at h
          by_contra hfine
          rw [if_neg hfine] at h
          cases h
        have hsettle : { p with pending := some (.paths (list ++ [a])) }.settle =
            .error .invalidValue := by
          rw [settle_paths rfl, if_pos (List.mem_append_left _ hbad)]
        exact ih hsettle (by simp) hq
      · rw [h] at hpath
        cases hpath
    cases honly : p.onlyPaths with
    | true => exact hpath (next_of_onlyPaths honly a ▸ hnext)
    | false =>
      rcases exists_settlesFirst a with rfl | hplain | ⟨read, hfirst, hread⟩
      · rw [next_mark honly] at hnext
        cases hnext
        have hsettle : { p with onlyPaths := true }.settle = .error e := by
          rw [settle_onlyPaths, h]
          rfl
        exact ih hsettle hpending hq
      · rw [next_plain honly hplain, plain_of_pending hpending] at hnext
        exact hpath hnext
      · rw [hread p honly] at hnext
        obtain ⟨r, hr, -⟩ := (hfirst p q).1 hnext
        rw [h] at hr
        cases hr

theorem exists_path {p r : Progress} (h : p.settle = .ok r) (a : String) :
    ∃ q list, p.path a = .ok q ∧ q.pending = some (.paths list) ∧
      q.settle = if a = "" then .error .invalidValue
        else .ok { r with options := r.options.withPaths [a] } := by
  unfold path
  split
  · rename_i list hlist
    rw [settle_paths hlist] at h
    split at h <;> cases h
    rename_i hfine
    refine ⟨_, list ++ [a], rfl, rfl, ?_⟩
    rw [settle_paths rfl]
    simp [hfine, Options.withPaths, eq_comm]
  · rw [h]
    refine ⟨_, [a], rfl, rfl, ?_⟩
    rw [settle_paths rfl, ← pending_settle h]
    simp [eq_comm]

/-- What is pending may be checked before more arguments are read. -/
theorem Gives.of_settle {p q r : Progress} (hp : p.settle = .ok r) (hq : q.settle = .ok r)
    {rest : List String} {o : Options} (h : p.Gives rest o) : q.Gives rest o := by
  induction rest generalizing p q r with
  | nil =>
    rw [gives_nil, hp] at h
    rwa [gives_nil, hq]
  | cons a rest ih =>
    obtain ⟨p', hnext, hp'⟩ := gives_cons.1 h
    have hpath (hnext : p.path a = .ok p') : ∃ q', q.path a = .ok q' ∧ q'.Gives rest o := by
      obtain ⟨p'', list, hpath, hlist, hsettle⟩ := exists_path hp a
      obtain ⟨q', list', hpath', hlist', hsettle'⟩ := exists_path hq a
      obtain rfl : p'' = p' := Except.ok.inj (hpath.symm.trans hnext)
      refine ⟨q', hpath', ?_⟩
      by_cases ha : a = ""
      · rw [if_pos ha] at hsettle
        refine absurd hp' (not_gives_of_error hsettle ?_ rest o)
        simp [hlist]
      · rw [if_neg ha] at hsettle hsettle'
        exact ih hsettle hsettle' hp'
    have honly : q.onlyPaths = p.onlyPaths := (onlyPaths_settle hq).symm.trans (onlyPaths_settle hp)
    refine gives_cons.2 ?_
    cases hall : p.onlyPaths with
    | true =>
      rw [next_of_onlyPaths hall] at hnext
      rw [next_of_onlyPaths (honly.trans hall)]
      exact hpath hnext
    | false =>
      rcases exists_settlesFirst a with rfl | hplain | ⟨read, hfirst, hread⟩
      · rw [next_mark hall] at hnext
        cases hnext
        have hmark {p : Progress} (h : p.settle = .ok r) :
            { p with onlyPaths := true }.settle = .ok { r with onlyPaths := true } := by
          rw [settle_onlyPaths, h]
          rfl
        exact ⟨_, next_mark (honly.trans hall), ih (hmark hp) (hmark hq) hp'⟩
      · rw [next_plain hall hplain, plain_of_pending (pending_of_settle hp)] at hnext
        rw [next_plain (honly.trans hall) hplain, plain_of_pending (pending_of_settle hq)]
        exact hpath hnext
      · rw [hread p hall] at hnext
        obtain ⟨r', hr', hread'⟩ := (hfirst p p').1 hnext
        obtain rfl : r' = r := Except.ok.inj (hr'.symm.trans hp)
        exact ⟨p', (hread q (honly.trans hall)).trans ((hfirst q p').2 ⟨r', hq, hread'⟩), hp'⟩

/-! ## Values of their own -/

theorem settle_of_awaiting {p : Progress} {s : Setting}
    (h : p.pending = some (.setting s none)) : p.settle = .error .invalidValue := by
  unfold settle
  rw [h]

/-- Behind the mark no value can follow a switch any more. -/
theorem not_gives_of_onlyPaths {p : Progress} (honly : p.onlyPaths = true) {s : Setting}
    (hpending : p.pending = some (.setting s none)) (rest : List String) (o : Options) :
    ¬p.Gives rest o := by
  cases rest with
  | nil =>
    rw [gives_nil, settle_of_awaiting hpending]
    rintro ⟨r, hr, -⟩
    cases hr
  | cons a rest =>
    rw [gives_cons, next_of_onlyPaths honly]
    rintro ⟨q, hpath, -⟩
    unfold path at hpath
    rw [settle_of_awaiting hpending, hpending] at hpath
    cases hpath

/-- Only an argument that is no switch can be the value of the switch before it. -/
theorem gives_of_awaiting {p : Progress} (honly : p.onlyPaths = false) {s : Setting}
    (hpending : p.pending = some (.setting s none)) (value : String) (rest : List String)
    (o : Options) :
    p.Gives (value :: rest) o ↔
      IsPlain value ∧ { p with pending := some (.setting s (some value)) }.Gives rest o := by
  have hplain : p.plain value = .ok { p with pending := some (.setting s (some value)) } := by
    unfold plain
    rw [hpending]
  rw [gives_cons]
  constructor
  · rintro ⟨q, hnext, hgives⟩
    rcases exists_settlesFirst value with rfl | hvalue | ⟨read, hfirst, hread⟩
    · rw [next_mark honly] at hnext
      cases hnext
      refine absurd hgives (not_gives_of_onlyPaths (s := s) rfl ?_ rest o)
      exact hpending
    · rw [next_plain honly hvalue, hplain] at hnext
      cases hnext
      exact ⟨hvalue, hgives⟩
    · rw [hread p honly] at hnext
      obtain ⟨r, hr, -⟩ := (hfirst p q).1 hnext
      rw [settle_of_awaiting hpending] at hr
      cases hr
  · rintro ⟨hvalue, hgives⟩
    exact ⟨_, (next_plain honly hvalue).trans hplain, hgives⟩

end Progress

theorem ofArguments_eq_ok_iff_gives {arguments : List String} {o : Options} :
    Options.ofArguments arguments = .ok o ↔
      Progress.Gives {} arguments o ∧ (o.verbose && o.quiet) = false := by
  unfold Progress.Gives Progress.readAll
  rw [ofArguments_eq_ok_iff]
  simp only [Progress.bind_eq_ok_iff]
  constructor
  · rintro ⟨q, r, hfold, hsettle, hoptions, hflags⟩
    exact ⟨⟨r, ⟨q, hfold, hsettle⟩, hoptions⟩, hflags⟩
  · rintro ⟨⟨r, ⟨q, hfold, hsettle⟩, hoptions⟩, hflags⟩
    exact ⟨q, r, hfold, hsettle, hoptions, hflags⟩

end ColumnLint.Command
