import ColumnLint.Command.Tree
import Mathlib.Data.List.Forall2

/-
  Files and directories. The files of SQL below a directory are those that stand somewhere in it under
  a name of that kind (`mem_sqlFiles_iff`), unless a directory below it cannot be listed
  (`exists_sqlFiles_error`). Whether a file can be written does not depend on its bytes
  (`write_eq_ok_iff`), and what is written is what the path then leads to (`find_write`).
-/

namespace ColumnLint.Command

open Text

/-! ## Lists gone through one by one -/

section Traversal

variable {α β ε : Type} {f : α → Except ε β}

theorem exists_mapM_error {l : List α} {x : α} {e : ε} (hx : x ∈ l) (he : f x = .error e) :
    ∃ e', l.mapM f = .error e' := by
  induction l with
  | nil => cases hx
  | cons y l ih =>
    rw [List.mapM_cons]
    cases hy : f y with
    | error e' => exact ⟨e', rfl⟩
    | ok b =>
      rcases List.mem_cons.1 hx with rfl | hx
      · rw [he] at hy
        cases hy
      · obtain ⟨e', he'⟩ := ih hx
        rw [he']
        exact ⟨e', rfl⟩

/-- The first item that fails ends the traversal. -/
theorem mapM_eq_error_iff {l : List α} {e : ε} :
    l.mapM f = .error e ↔
      ∃ before x behind, l = before ++ x :: behind ∧ (∀ y ∈ before, ∃ b, f y = .ok b) ∧
        f x = .error e := by
  induction l with
  | nil =>
    constructor
    · intro h
      cases h
    · rintro ⟨before, x, behind, h, -⟩
      simp at h
  | cons y l ih =>
    rw [List.mapM_cons]
    cases hy : f y with
    | error e' =>
      constructor
      · intro h
        cases h
        exact ⟨[], y, l, rfl, fun _ h => absurd h List.not_mem_nil, hy⟩
      · rintro ⟨before, x, behind, hl, hbefore, hx⟩
        cases before with
        | nil =>
          obtain ⟨rfl, -⟩ := List.cons.inj hl
          cases hy.symm.trans hx
          rfl
        | cons z before =>
          obtain ⟨rfl, -⟩ := List.cons.inj hl
          obtain ⟨b, hb⟩ := hbefore y List.mem_cons_self
          rw [hy] at hb
          cases hb
    | ok b =>
      have hrest : (do let bs ← l.mapM f; pure (b :: bs)) = Except.error e ↔
          l.mapM f = .error e := by
        cases l.mapM f with
        | error e' => rfl
        | ok bs =>
          constructor <;> intro h <;> cases h
      refine (Iff.trans hrest ih).trans ⟨?_, ?_⟩
      · rintro ⟨before, x, behind, rfl, hbefore, hx⟩
        exact ⟨y :: before, x, behind, rfl, List.forall_mem_cons.2 ⟨⟨b, hy⟩, hbefore⟩, hx⟩
      · rintro ⟨before, x, behind, hl, hbefore, hx⟩
        cases before with
        | nil =>
          obtain ⟨rfl, -⟩ := List.cons.inj hl
          rw [hy] at hx
          cases hx
        | cons z before =>
          obtain ⟨rfl, hrest⟩ := List.cons.inj hl
          exact ⟨before, x, behind, hrest, (List.forall_mem_cons.1 hbefore).2, hx⟩

theorem exists_of_mapM_eq_error {l : List α} {e : ε} (h : l.mapM f = .error e) :
    ∃ x ∈ l, f x = .error e := by
  obtain ⟨before, x, behind, rfl, -, hx⟩ := mapM_eq_error_iff.1 h
  exact ⟨x, List.mem_append_right _ List.mem_cons_self, hx⟩

theorem mapM_eq_ok_iff {l : List α} {found : List β} :
    l.mapM f = .ok found ↔ List.Forall₂ (fun a b => f a = .ok b) l found := by
  induction l generalizing found with
  | nil =>
    rw [List.mapM_nil, List.forall₂_nil_left_iff]
    exact ⟨fun h => (Except.ok.inj h).symm, fun h => congrArg Except.ok h.symm⟩
  | cons a l ih =>
    rw [List.mapM_cons]
    cases ha : f a with
    | error e =>
      constructor
      · intro h
        cases h
      · rintro (_ | ⟨hb, -⟩)
        rw [ha] at hb
        cases hb
    | ok b =>
      cases hl : l.mapM f with
      | error e =>
        constructor
        · intro h
          cases h
        · rintro (_ | ⟨-, hrest⟩)
          rw [ih.2 hrest] at hl
          cases hl
      | ok bs =>
        constructor
        · intro h
          cases h
          exact .cons ha (ih.1 hl)
        · rintro (_ | ⟨hb, hrest⟩)
          rw [ha] at hb
          cases hb
          rw [ih.2 hrest] at hl
          cases hl
          rfl

end Traversal

/-! ## Texts -/

/-- The bytes are no UTF-8 text. -/
def NoText (content : ByteArray) : Prop := ∀ s : String, content ≠ s.toUTF8

theorem decodeText_toUTF8 (s : String) : decodeText s.toUTF8 = .ok s := by
  have hread : String.fromUTF8? s.toUTF8 = some s := by
    unfold String.fromUTF8?
    rw [String.toUTF8_eq_toByteArray, dif_pos s.isValidUTF8]
    rfl
  unfold decodeText
  rw [hread]

theorem decodeText_eq_ok_iff {content : ByteArray} {s : String} :
    decodeText content = .ok s ↔ content = s.toUTF8 := by
  constructor
  · intro h
    unfold decodeText String.fromUTF8? at h
    by_cases hvalid : content.IsValidUTF8
    · rw [dif_pos hvalid] at h
      cases h
      rfl
    · rw [dif_neg hvalid] at h
      cases h
  · rintro rfl
    exact decodeText_toUTF8 s

theorem decodeText_eq_error_iff {content : ByteArray} {e : FileError} :
    decodeText content = .error e ↔ e = .notText ∧ NoText content := by
  constructor
  · intro h
    refine ⟨?_, fun s hs => ?_⟩
    · unfold decodeText at h
      split at h
      · cases h
      · cases h
        rfl
    · rw [decodeText_eq_ok_iff.2 hs] at h
      cases h
  · rintro ⟨rfl, hno⟩
    cases hread : decodeText content with
    | ok s => exact absurd (decodeText_eq_ok_iff.1 hread) (hno s)
    | error e =>
      unfold decodeText at hread
      split at hread
      · cases hread
      · rw [hread]

namespace Tree

/-! ## Trees below a directory -/

/-- A tree stands at the end of a way of names below another one. -/
inductive Holds : Tree → List String → Tree → Prop where
  | here (t : Tree) : Holds t [] t
  | inside {entries : List (String × Tree)} {name : String} {t u : Tree} {way : List String}
      (h : (name, t) ∈ entries) (ht : t.Holds way u) : Holds (.directory entries) (name :: way) u

/-- The last name of a way is that of a file of SQL. -/
def EndsInSql (way : List String) : Prop := ∃ name ∈ way.getLast?, isSqlName name = true

/-- What a walk makes of a tree that it comes to: a file counts if its name is one of SQL. -/
inductive Met (way : List String) : Tree → Except FileError ByteArray → Prop where
  | file {content : ByteArray} (h : EndsInSql way) : Met way (.file content) (.ok content)
  | closed {e : FileError} : Met way (.closed e) (.error e)

theorem not_endsInSql_nil : ¬EndsInSql [] := by
  rintro ⟨name, hname, -⟩
  cases hname

theorem endsInSql_cons {name : String} {way : List String} (h : way ≠ []) :
    EndsInSql (name :: way) ↔ EndsInSql way := by
  unfold EndsInSql
  rw [List.getLast?_cons_of_ne_nil h]

theorem Met.cons {name : String} {way : List String} {t : Tree}
    {found : Except FileError ByteArray} (h : Met way t found) : Met (name :: way) t found := by
  cases h with
  | file h =>
    refine .file ((endsInSql_cons ?_).2 h)
    rintro rfl
    exact not_endsInSql_nil h
  | closed => exact .closed

theorem Holds.ne_nil_of_file {t : Tree} {way : List String} {content : ByteArray}
    (h : t.Holds way (.file content)) (hfile : ∀ bytes, t ≠ .file bytes) : way ≠ [] := by
  cases h with
  | here => exact absurd rfl (hfile content)
  | inside => simp

/-- What the walk comes to in an entry of a directory. -/
def walkOfEntry (name : String) : Tree → List (List String × Except FileError ByteArray)
  | .file content => if isSqlName name then [([name], .ok content)] else []
  | t => t.walk.map fun f => (name :: f.1, f.2)

theorem walkOfEntry_of_ne_file {name : String} {t : Tree} (h : ∀ bytes, t ≠ .file bytes) :
    walkOfEntry name t = t.walk.map fun f => (name :: f.1, f.2) := by
  cases t with
  | file bytes => exact absurd rfl (h bytes)
  | directory entries => rfl
  | closed e => rfl

theorem mem_walkOfEntry_file {name : String} {content : ByteArray}
    {f : List String × Except FileError ByteArray} :
    f ∈ walkOfEntry name (.file content) ↔ isSqlName name = true ∧ f = ([name], .ok content) := by
  unfold walkOfEntry
  split <;> simp_all

theorem entryWalks_eq_map (entries : List (String × Tree)) :
    entryWalks entries = entries.map fun e => (e.1, walkOfEntry e.1 e.2) := by
  induction entries with
  | nil => rw [entryWalks, List.map_nil]
  | cons e entries ih =>
    obtain ⟨name, t⟩ := e
    cases t with
    | file content => rw [entryWalks, ih, List.map_cons]; rfl
    | directory inner => rw [entryWalks, ih, List.map_cons]; rfl
    | closed e => rw [entryWalks, ih, List.map_cons, walkOfEntry_of_ne_file (by simp), walk]; rfl

theorem mem_walk_directory {entries : List (String × Tree)}
    {f : List String × Except FileError ByteArray} :
    f ∈ (directory entries).walk ↔ ∃ e ∈ entries, f ∈ walkOfEntry e.1 e.2 := by
  rw [walk, entryWalks_eq_map, List.mem_flatMap]
  simp only [List.mem_mergeSort, List.mem_map, exists_exists_and_eq_and]

theorem exists_met_of_mem_walk {t : Tree} {way : List String}
    {found : Except FileError ByteArray} (h : (way, found) ∈ t.walk) :
    ∃ u, t.Holds way u ∧ Met way u found := by
  induction hn : way.length using Nat.strongRecOn generalizing t way with
  | _ n ih =>
    cases t with
    | file bytes =>
      rw [walk] at h
      cases h
    | closed e =>
      rw [walk] at h
      cases List.mem_singleton.1 h
      exact ⟨_, .here _, .closed⟩
    | directory entries =>
      obtain ⟨⟨name, u⟩, hu, hf⟩ := mem_walk_directory.1 h
      by_cases hfile : ∃ bytes, u = .file bytes
      · obtain ⟨bytes, rfl⟩ := hfile
        obtain ⟨hname, heq⟩ := mem_walkOfEntry_file.1 hf
        cases heq
        exact ⟨_, .inside hu (.here _), .file ⟨name, rfl, hname⟩⟩
      · rw [walkOfEntry_of_ne_file (not_exists.1 hfile)] at hf
        obtain ⟨⟨rest, found'⟩, hrest, heq⟩ := List.mem_map.1 hf
        obtain ⟨rfl, rfl⟩ : name :: rest = way ∧ found' = found := by simpa using heq
        obtain ⟨v, hholds, hmet⟩ := ih rest.length (by simp [← hn]) hrest rfl
        exact ⟨v, .inside hu hholds, hmet.cons⟩

theorem mem_walk_of_holds {t u : Tree} {way : List String} {found : Except FileError ByteArray}
    (h : t.Holds way u) (hmet : Met way u found) : (way, found) ∈ t.walk := by
  induction h with
  | here t =>
    cases hmet with
    | file hends => exact absurd hends not_endsInSql_nil
    | closed =>
      rw [walk]
      exact List.mem_singleton_self _
  | @inside entries name t u rest hmem hholds ih =>
    refine mem_walk_directory.2 ⟨_, hmem, ?_⟩
    by_cases hfile : ∃ bytes, t = .file bytes
    · obtain ⟨bytes, rfl⟩ := hfile
      cases hholds
      cases hmet with
      | file hends =>
        obtain ⟨last, hlast, hname⟩ := hends
        obtain rfl : name = last := by simpa using hlast
        exact mem_walkOfEntry_file.2 ⟨hname, rfl⟩
    · have hmet' : Met rest u found := by
        cases hmet with
        | file hends =>
          exact .file ((endsInSql_cons (hholds.ne_nil_of_file (not_exists.1 hfile))).1 hends)
        | closed => exact .closed
      rw [walkOfEntry_of_ne_file (not_exists.1 hfile)]
      exact List.mem_map.2 ⟨_, ih hmet', rfl⟩

theorem mem_walk_ok_iff {t : Tree} {way : List String} {content : ByteArray} :
    (way, .ok content) ∈ t.walk ↔ t.Holds way (.file content) ∧ EndsInSql way := by
  constructor
  · intro h
    obtain ⟨u, hholds, hmet⟩ := exists_met_of_mem_walk h
    cases hmet with
    | file hends => exact ⟨hholds, hends⟩
  · exact fun h => mem_walk_of_holds h.1 (.file h.2)

theorem mem_walk_error_iff {t : Tree} {way : List String} {e : FileError} :
    (way, .error e) ∈ t.walk ↔ t.Holds way (.closed e) := by
  constructor
  · intro h
    obtain ⟨u, hholds, hmet⟩ := exists_met_of_mem_walk h
    cases hmet with
    | closed => exact hholds
  · exact fun h => mem_walk_of_holds h .closed

/-! ## Files of SQL below a directory -/

theorem fileMet_eq_ok_iff {f : List String × Except FileError ByteArray}
    {g : List String × ByteArray} : fileMet f = .ok g ↔ f = (g.1, .ok g.2) := by
  obtain ⟨way, _ | content⟩ := f <;> simp [fileMet, Prod.ext_iff]

theorem fileMet_eq_error_iff {f : List String × Except FileError ByteArray} {way : List String}
    {e : FileError} : fileMet f = .error (way, e) ↔ f = (way, .error e) := by
  obtain ⟨way', _ | content⟩ := f <;> simp [fileMet, Prod.ext_iff]

/-- The files are all that the walk comes to, if every directory can be listed. -/
theorem sqlFiles_eq_ok_iff {t : Tree} {found : List (List String × ByteArray)} :
    t.sqlFiles = .ok found ↔ t.walk = found.map fun f => (f.1, .ok f.2) := by
  unfold sqlFiles
  rw [mapM_eq_ok_iff]
  simp only [fileMet_eq_ok_iff]
  rw [← List.forall₂_eq_eq_eq, List.forall₂_map_right_iff]

theorem mem_sqlFiles_iff {t : Tree} {found : List (List String × ByteArray)}
    (h : t.sqlFiles = .ok found) {way : List String} {content : ByteArray} :
    (way, content) ∈ found ↔ t.Holds way (.file content) ∧ EndsInSql way := by
  rw [← mem_walk_ok_iff, sqlFiles_eq_ok_iff.1 h]
  simp

theorem holds_closed_of_sqlFiles {t : Tree} {way : List String} {e : FileError}
    (h : t.sqlFiles = .error (way, e)) : t.Holds way (.closed e) := by
  obtain ⟨f, hf, he⟩ := exists_of_mapM_eq_error h
  rw [fileMet_eq_error_iff] at he
  exact mem_walk_error_iff.1 (he ▸ hf)

theorem exists_sqlFiles_error {t : Tree} {way : List String} {e : FileError}
    (h : t.Holds way (.closed e)) : ∃ way' e', t.sqlFiles = .error (way', e') := by
  obtain ⟨⟨way', e'⟩, herror⟩ :=
    exists_mapM_error (mem_walk_error_iff.2 h) (fileMet_eq_error_iff.2 rfl)
  exact ⟨way', e', herror⟩

/-! ## Ways of names -/

theorem below?_directory_cons (entries : List (String × Tree)) (name : String)
    (way : List String) :
    (directory entries).below? (name :: way) = (entries.lookup name).bind (below? way) := by
  conv => lhs; unfold below?
  cases entries.lookup name <;> rfl

theorem below?_append (way rest : List String) (t : Tree) :
    t.below? (way ++ rest) = (t.below? way).bind (below? rest) := by
  induction way generalizing t with
  | nil => rfl
  | cons name way ih =>
    cases t with
    | file content => rfl
    | closed e => rfl
    | directory entries =>
      rw [List.cons_append, below?_directory_cons, below?_directory_cons]
      cases entries.lookup name with
      | none => rfl
      | some u => exact ih u

theorem lookup_setEntry_self (name : String) (t : Tree) (entries : List (String × Tree)) :
    (setEntry name t entries).lookup name = some t := by
  induction entries with
  | nil => simp [setEntry]
  | cons e entries ih =>
    unfold setEntry
    split
    · rename_i heq
      rw [heq, List.lookup_cons_self]
    · rename_i hne
      rw [List.lookup_cons, beq_false_of_ne (Ne.symm hne)]
      exact ih

theorem lookup_setEntry_of_ne {name other : String} (h : other ≠ name) (t : Tree)
    (entries : List (String × Tree)) :
    (setEntry name t entries).lookup other = entries.lookup other := by
  induction entries with
  | nil => simp [setEntry, h]
  | cons e entries ih =>
    unfold setEntry
    split
    · rename_i heq
      have hne : (other == e.1) = false := beq_false_of_ne (heq ▸ h)
      rw [List.lookup_cons, hne, List.lookup_cons, hne]
    · rw [List.lookup_cons, List.lookup_cons, ih]

/-! ## Writing a file -/

/-- Each directory of a tree is one of another tree, with all of its entries. -/
structure Keeps (root t : Tree) : Prop where
  directory : ∀ way entries, root.below? way = some (.directory entries) →
    ∃ entries', t.below? way = some (.directory entries') ∧
      ∀ name, (entries.lookup name).isSome = true → (entries'.lookup name).isSome = true
  closed : ∀ way e, root.below? way = some (.closed e) → t.below? way = some (.closed e)

theorem keeps_file (content : ByteArray) (t : Tree) : Keeps (file content) t where
  directory way entries h := by cases way <;> cases h
  closed way e h := by cases way <;> cases h

theorem below?_cons_eq_some {name : String} {way : List String} {t u : Tree}
    (h : t.below? (name :: way) = some u) :
    ∃ entries child, t = directory entries ∧ entries.lookup name = some child ∧
      child.below? way = some u := by
  cases t with
  | file content => cases h
  | closed e => cases h
  | directory entries =>
    rw [below?_directory_cons] at h
    obtain ⟨child, hlookup, hchild⟩ := Option.bind_eq_some_iff.1 h
    exact ⟨entries, child, rfl, hlookup, hchild⟩

theorem below?_cons {entries : List (String × Tree)} {name : String} {child : Tree}
    (h : entries.lookup name = some child) (way : List String) :
    (directory entries).below? (name :: way) = child.below? way := by
  rw [below?_directory_cons, h]
  rfl

/-- What stands below a directory after an entry is set. -/
theorem below?_setEntry {entries : List (String × Tree)} {name other : String} {t u : Tree}
    {way : List String} (h : (directory entries).below? (other :: way) = some u) :
    (∃ child, other = name ∧ entries.lookup name = some child ∧ child.below? way = some u ∧
      (directory (setEntry name t entries)).below? (other :: way) = t.below? way) ∨
    (directory (setEntry name t entries)).below? (other :: way) = some u := by
  obtain ⟨_, child, heq, hlookup, hchild⟩ := below?_cons_eq_some h
  cases heq
  by_cases heq : other = name
  · subst heq
    exact .inl ⟨child, rfl, hlookup, hchild, below?_cons (lookup_setEntry_self ..) way⟩
  · have hlookup' : (setEntry name t entries).lookup other = some child := by
      rw [lookup_setEntry_of_ne heq, hlookup]
    exact .inr ((below?_cons hlookup' way).trans hchild)

theorem keeps_setEntry {entries : List (String × Tree)} {name : String} {t : Tree}
    (h : ∀ child, entries.lookup name = some child → Keeps child t) :
    Keeps (directory entries) (directory (setEntry name t entries)) where
  directory way found hfound := by
    cases way with
    | nil =>
      cases hfound
      refine ⟨setEntry name t entries, rfl, fun other hother => ?_⟩
      by_cases heq : other = name
      · rw [heq, lookup_setEntry_self]
        rfl
      · rw [lookup_setEntry_of_ne heq]
        exact hother
    | cons other way =>
      rcases below?_setEntry hfound with ⟨child, -, hlookup, hchild, heq⟩ | heq
      · rw [heq]
        exact (h child hlookup).directory way found hchild
      · exact ⟨found, heq, fun _ h => h⟩
  closed way e hfound := by
    cases way with
    | nil => cases hfound
    | cons other way =>
      rcases below?_setEntry hfound with ⟨child, -, hlookup, hchild, heq⟩ | heq
      · rw [heq]
        exact (h child hlookup).closed way e hchild
      · exact heq

theorem keeps_put {root : Tree} {above : List String} {name : String}
    {entries : List (String × Tree)} (hbelow : root.below? above = some (.directory entries))
    (hfile : ∀ child, entries.lookup name = some child → ∃ content, child = .file content)
    (t : Tree) : Keeps root (put t (above ++ [name]) root) := by
  induction above generalizing root with
  | nil =>
    cases hbelow
    refine keeps_setEntry fun child hchild => ?_
    obtain ⟨content, rfl⟩ := hfile child hchild
    exact keeps_file content _
  | cons first above ih =>
    obtain ⟨outer, child, rfl, hlookup, hchild⟩ := below?_cons_eq_some hbelow
    have hput : put t (first :: above ++ [name]) (directory outer) =
        directory (setEntry first (put t (above ++ [name]) child) outer) := by
      rw [List.cons_append, put, hlookup]
      rfl
    rw [hput]
    refine keeps_setEntry fun child' hchild' => ?_
    rw [hlookup] at hchild'
    cases hchild'
    exact ih hchild

theorem below?_put {root : Tree} {above : List String} {entries : List (String × Tree)}
    (hbelow : root.below? above = some (.directory entries)) (name : String) (t : Tree) :
    (put t (above ++ [name]) root).below? above =
      some (.directory (setEntry name t entries)) := by
  induction above generalizing root with
  | nil =>
    cases hbelow
    rfl
  | cons first above ih =>
    obtain ⟨outer, child, rfl, hlookup, hchild⟩ := below?_cons_eq_some hbelow
    rw [List.cons_append, put, hlookup]
    rw [below?_cons (lookup_setEntry_self ..)]
    exact ih hchild

theorem stepFrom_of_keeps {root t : Tree} (h : Keeps root t) {way way' : List String}
    {part : String} (hstep : root.stepFrom way part = .ok way') :
    t.stepFrom way part = .ok way' := by
  unfold stepFrom at hstep ⊢
  split at hstep
  · rename_i entries hbelow
    obtain ⟨entries', hbelow', hnames⟩ := h.directory way entries hbelow
    rw [hbelow']
    dsimp only
    split
    · rename_i hstay
      rw [if_pos hstay] at hstep
      exact hstep
    · rename_i hgo
      rw [if_neg hgo] at hstep
      split
      · rename_i hup
        rw [if_pos hup] at hstep
        exact hstep
      · rename_i hdown
        rw [if_neg hdown] at hstep
        split at hstep
        · rename_i hsome
          rw [if_pos (hnames part hsome)]
          exact hstep
        · cases hstep
  · rename_i e hbelow
    rw [h.closed way e hbelow]
    exact hstep
  · cases hstep

theorem foldlM_stepFrom_of_keeps {root t : Tree} (h : Keeps root t)
    {parts start way : List String} (hway : parts.foldlM root.stepFrom start = .ok way) :
    parts.foldlM t.stepFrom start = .ok way := by
  induction parts generalizing start with
  | nil => exact hway
  | cons part parts ih =>
    rw [List.foldlM_cons] at hway ⊢
    cases hstep : root.stepFrom start part with
    | error e =>
      rw [hstep] at hway
      cases hway
    | ok next =>
      rw [hstep] at hway
      rw [stepFrom_of_keeps h hstep]
      exact ih hway

end Tree

namespace Files

open ColumnLint.Command.Tree

/-- A path leads to the place of a file: its directory is there, and no directory stands in the
place of the file. -/
structure Writable (files : Files) (path : String) (above : List String) (name : String) :
    Prop where
  leads : ∃ lead, parts path = .ok (lead ++ [name]) ∧ files.way lead = .ok above
  named : name ≠ "" ∧ name ≠ "." ∧ name ≠ ".."
  free : ∃ entries, files.root.below? above = some (.directory entries) ∧
    ∀ child, entries.lookup name = some child → ∃ content, child = .file content

/-- The files with one more, or with another content in its place. -/
def withFile (files : Files) (way : List String) (content : ByteArray) : Files :=
  { files with root := put (.file content) way files.root }

/-- A path that does not end with a slash has a last name. -/
theorem eq_concat_of_dropWhile {all above : List String} {name : String}
    (hlast : all.getLast? ≠ some "") (h : all.reverse.dropWhile (· = "") = name :: above) :
    all = above.reverse ++ [name] ∧ name ≠ "" := by
  have hreverse : all.reverse = name :: above := by
    cases hall : all.reverse with
    | nil =>
      rw [hall] at h
      cases h
    | cons first rest =>
      have hfirst : first ≠ "" := by
        rintro rfl
        apply hlast
        rw [← List.head?_reverse, hall]
        rfl
      rw [hall, List.dropWhile_cons_of_neg (by simpa using hfirst)] at h
      exact h
  have hname : name ≠ "" := by
    rintro rfl
    apply hlast
    rw [← List.head?_reverse, hreverse]
    rfl
  refine ⟨?_, hname⟩
  rw [← List.reverse_reverse all, hreverse, List.reverse_cons]

theorem write_of_writable {files : Files} {path name : String} {above : List String}
    {content : ByteArray} (h : files.Writable path above name) :
    files.write path content = .ok (files.withFile (above ++ [name]) content) := by
  obtain ⟨⟨lead, hparts, hway⟩, ⟨hname, hdot, hdots⟩, entries, hbelow, hfile⟩ := h
  unfold write
  have hnamed : (lead ++ [name]).reverse.dropWhile (· = "") = name :: lead.reverse := by
    rw [List.reverse_append, List.reverse_singleton, List.singleton_append,
      List.dropWhile_cons_of_neg (by simpa using hname)]
  rw [hparts]
  dsimp only [bind, Except.bind]
  rw [hnamed]
  dsimp only
  rw [List.reverse_reverse, hway]
  dsimp only
  rw [hbelow]
  have hplain : ¬(((lead ++ [name]).getLast? == some "" || name == "." || name == "..") = true) := by
    simp [hname, hdot, hdots]
  dsimp only
  rw [if_neg hplain]
  cases hlookup : entries.lookup name with
  | none => rfl
  | some child =>
    obtain ⟨bytes, rfl⟩ := hfile child hlookup
    rfl

theorem exists_writable_of_write {files after : Files} {path : String} {content : ByteArray}
    (h : files.write path content = .ok after) :
    ∃ above name, files.Writable path above name ∧
      after = files.withFile (above ++ [name]) content := by
  unfold write at h
  cases hparts : parts path with
  | error e =>
    rw [hparts] at h
    cases h
  | ok all =>
    rw [hparts] at h
    dsimp only [bind, Except.bind] at h
    split at h
    · cases h
    · rename_i name lead hnamed
      cases hway : files.way lead.reverse with
      | error e =>
        rw [hway] at h
        cases h
      | ok above =>
        rw [hway] at h
        dsimp only at h
        split at h
        · rename_i entries hbelow
          split at h
          · cases h
          · rename_i hplain
            simp only [Bool.or_eq_true, beq_iff_eq, not_or] at hplain
            obtain ⟨hall, hname⟩ := eq_concat_of_dropWhile hplain.1.1 hnamed
            have hwritable : (∀ child, entries.lookup name = some child →
                ∃ content, child = .file content) → files.Writable path above name :=
              fun hfree => ⟨⟨lead.reverse, hall ▸ hparts, hway⟩,
                ⟨hname, hplain.1.2, hplain.2⟩, entries, hbelow, hfree⟩
            split at h
            · rename_i hnone
              cases h
              refine ⟨above, name, hwritable fun child hchild => ?_, rfl⟩
              rw [hnone] at hchild
              cases hchild
            · rename_i bytes hsome
              cases h
              refine ⟨above, name, hwritable fun child hchild => ?_, rfl⟩
              rw [hsome] at hchild
              cases hchild
              exact ⟨bytes, rfl⟩
            · cases h
        · cases h
        · cases h

theorem write_eq_ok_iff {files after : Files} {path : String} {content : ByteArray} :
    files.write path content = .ok after ↔
      ∃ above name, files.Writable path above name ∧
        after = files.withFile (above ++ [name]) content := by
  constructor
  · exact exists_writable_of_write
  · rintro ⟨above, name, hwritable, rfl⟩
    exact write_of_writable hwritable

theorem find_eq_ok_iff {files : Files} {t : Tree} {path : String} :
    files.find path = .ok t ↔
      ∃ ps way, parts path = .ok ps ∧ files.way ps = .ok way ∧
        files.root.below? way = some t := by
  unfold find
  constructor
  · intro h
    cases hparts : parts path with
    | error e =>
      rw [hparts] at h
      cases h
    | ok ps =>
      rw [hparts] at h
      dsimp only [bind, Except.bind] at h
      cases hway : files.way ps with
      | error e =>
        rw [hway] at h
        cases h
      | ok way =>
        rw [hway] at h
        dsimp only at h
        cases hbelow : files.root.below? way with
        | none =>
          rw [hbelow] at h
          cases h
        | some u =>
          rw [hbelow] at h
          cases h
          exact ⟨ps, way, rfl, hway, hbelow⟩
  · rintro ⟨ps, way, hparts, hway, hbelow⟩
    rw [hparts]
    dsimp only [bind, Except.bind]
    rw [hway]
    dsimp only
    rw [hbelow]
    rfl

/-- A path and what follows it start in the same place. -/
theorem start_append (files : Files) {lead : List String} (h : lead ≠ []) (rest : List String) :
    files.start (lead ++ rest) = files.start lead := by
  obtain ⟨part, lead, rfl⟩ := List.exists_cons_of_ne_nil h
  rfl

theorem start_singleton (files : Files) {name : String} (h : name ≠ "") :
    files.start [name] = files.start [] := by
  unfold start
  rw [if_neg (by simpa using h), if_neg (by simp)]

/-- A path that goes on from another one. -/
theorem way_append {files : Files} {lead rest way : List String} (h : files.way lead = .ok way)
    (hstart : files.start (lead ++ rest) = files.start lead) :
    files.way (lead ++ rest) = rest.foldlM files.root.stepFrom way := by
  unfold Files.way at h ⊢
  rw [hstart, List.foldlM_append, h]
  rfl

/-- What is written is what the path leads to. -/
theorem find_write {files after : Files} {path : String} {content : ByteArray}
    (h : files.write path content = .ok after) : after.find path = .ok (.file content) := by
  obtain ⟨above, name, hwritable, rfl⟩ := write_eq_ok_iff.1 h
  obtain ⟨⟨lead, hparts, hway⟩, ⟨hname, hdot, hdots⟩, entries, hbelow, hfile⟩ := hwritable
  -- the directories on the way are still there, so the path takes the same way as before
  have hkeeps := keeps_put hbelow hfile (.file content)
  have hbelow' := below?_put hbelow name (.file content)
  have hlead : (files.withFile (above ++ [name]) content).way lead = .ok above :=
    foldlM_stepFrom_of_keeps hkeeps hway
  have hstep : (files.withFile (above ++ [name]) content).root.stepFrom above name =
      .ok (above ++ [name]) := by
    unfold stepFrom withFile
    rw [hbelow']
    simp [hname, hdot, hdots, lookup_setEntry_self]
  have hstart : (files.withFile (above ++ [name]) content).start (lead ++ [name]) =
      (files.withFile (above ++ [name]) content).start lead := by
    by_cases hnil : lead = []
    · rw [hnil]
      exact start_singleton _ hname
    · exact start_append _ hnil _
  have hfound : (files.withFile (above ++ [name]) content).root.below? (above ++ [name]) =
      some (.file content) := by
    unfold withFile
    rw [below?_append, hbelow']
    exact below?_cons (lookup_setEntry_self ..) []
  refine find_eq_ok_iff.2 ⟨_, _, hparts, ?_, hfound⟩
  rw [way_append hlead hstart, List.foldlM_cons, hstep]
  rfl

theorem readText_write {files after : Files} {path : String} {text : String}
    (h : files.write path text.toUTF8 = .ok after) : after.readText path = .ok text := by
  unfold readText
  rw [find_write h]
  exact decodeText_toUTF8 text

end Files

end ColumnLint.Command
