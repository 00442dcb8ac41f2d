import ColumnLint.Proofs.RunOutcome
import ColumnLint.Proofs.ShownLine

/-
  The files that a directory gives. They are those under a name of SQL, at any depth, in the order of
  their ways, compared name by name and each name by its bytes (`listsFiles_of_sqlFiles`). A listing
  with these two properties is the only one (`eq_of_pairwise_before`), so the order in which directories
  list their entries has no influence. The name that a text gets in the report leads to its file
  (`find_joined`). Of the directories that cannot be listed the first in the same order is reported
  (`readPath_eq_unwalkable_iff`).
-/

namespace ColumnLint

open Text

namespace Text

/-! ## The order of bytes -/

/-- A character with a lower number has lower bytes, whatever follows them. -/
theorem utf8EncodeChar_append_lt {c d : Char} (h : c < d) (x y : List UInt8) :
    String.utf8EncodeChar c ++ x < String.utf8EncodeChar d ++ y := by
  have hlt : c.val.toNat < d.val.toNat := UInt32.lt_iff_toNat_lt.1 h
  have hmax : d.val.toNat < 0x110000 := by
    rcases d.valid with hd | hd
    · exact Nat.lt_trans hd (by decide)
    · exact hd.2
  generalize hm : c.val.toNat = m at hlt
  generalize hn : d.val.toNat = n at hlt hmax
  unfold String.utf8EncodeChar
  dsimp only
  rw [hm, hn]
  -- one case for each number of bytes of either character
  split_ifs <;>
    simp only [List.cons_append, List.nil_append, List.cons_lt_cons_iff, UInt8.lt_iff_toNat_lt,
      ← UInt8.toNat_inj, UInt8.toNat_ofNat'] <;>
    simp (disch := omega) only [Nat.mod_eq_of_lt] <;> omega

/-- Texts are in the order of their bytes. -/
theorem utf8_lt {a b : List Char} (h : a < b) : utf8 a < utf8 b := by
  induction h with
  | @nil c cs =>
    rw [utf8_nil, utf8_cons]
    obtain ⟨byte, bytes, heq⟩ := List.exists_cons_of_ne_nil
      (List.ne_nil_of_length_pos (String.length_utf8EncodeChar c ▸ c.utf8Size_pos))
    rw [heq, List.cons_append]
    exact .nil
  | @cons c cs ds _ ih =>
    rw [utf8_cons, utf8_cons]
    exact List.append_left_lt ih
  | rel h =>
    rw [utf8_cons, utf8_cons]
    exact utf8EncodeChar_append_lt h _ _

end Text

namespace Command

namespace Tree

/-! ## Names of files -/

/-- A name with `sql` behind its last period and something before that. -/
def NamesSql (name : String) : Prop := ∃ stem, stem ≠ [] ∧ name.toList = stem ++ '.' :: "sql".toList

/-- Only the empty text has one piece that is empty. -/
theorem pieces_eq_true_iff (stem : List Char) :
    (decide (1 < (stem.splitOn '.').reverse.length) ||
      (stem.splitOn '.').reverse.any fun piece => !piece.isEmpty) = true ↔ stem ≠ [] := by
  have hjoin : ['.'].intercalate (stem.splitOn '.') = stem := List.intercalate_splitOn '.'
  match hpieces : stem.splitOn '.' with
  | [] => exact absurd hpieces (List.splitOn_ne_nil _ _)
  | [piece] =>
    rw [hpieces, List.intercalate_singleton] at hjoin
    simp [hjoin]
  | first :: second :: rest =>
    have hstem : stem ≠ [] := by
      rintro rfl
      rw [List.splitOn_nil] at hpieces
      cases hpieces
    simp [hstem]

theorem isSqlName_of_period {name : String} {stem rest : List Char} (hrest : '.' ∉ rest)
    (hname : name.toList = stem ++ '.' :: rest) :
    isSqlName name = true ↔ stem ≠ [] ∧ rest = "sql".toList := by
  have hpieces : (cutAt '.' name.toList).reverse = rest :: (stem.splitOn '.').reverse := by
    rw [cutAt_eq_splitOn, hname, List.splitOn_append_cons_self, List.splitOn_eq_singleton hrest]
    simp
  unfold isSqlName
  rw [hpieces]
  split
  · rename_i before heq
    obtain ⟨hsql, rfl⟩ := List.cons.inj heq
    rw [pieces_eq_true_iff]
    exact ⟨fun h => ⟨h, hsql⟩, fun h => h.1⟩
  · rename_i hother
    constructor
    · intro h
      cases h
    · rintro ⟨-, rfl⟩
      exact absurd rfl (hother (stem.splitOn '.').reverse)

theorem isSqlName_iff {name : String} : isSqlName name = true ↔ NamesSql name := by
  constructor
  · intro h
    by_cases hperiod : '.' ∈ name.toList
    · obtain ⟨back, front, hname, hback⟩ :=
        List.eq_append_cons_of_mem (List.mem_reverse.2 hperiod)
      have hsplit : name.toList = front.reverse ++ '.' :: back.reverse := by
        rw [← List.reverse_reverse name.toList, hname]
        simp
      obtain ⟨hstem, hsql⟩ := (isSqlName_of_period (by simpa using hback) hsplit).1 h
      exact ⟨front.reverse, hstem, hsql ▸ hsplit⟩
    · unfold isSqlName at h
      rw [cutAt_eq_splitOn, List.splitOn_eq_singleton hperiod, List.reverse_singleton] at h
      split at h
      · rename_i before heq
        cases (List.cons.inj heq).2
        cases h
      · cases h
  · rintro ⟨stem, hstem, hname⟩
    exact (isSqlName_of_period (by decide) hname).2 ⟨hstem, rfl⟩

/-! ## Directories as a file system has them -/

/-- A name that an entry of a directory can have. -/
structure IsFileName (name : String) : Prop where
  ne_empty : name ≠ ""
  ne_dot : name ≠ "."
  ne_dots : name ≠ ".."
  no_slash : '/' ∉ name.toList

/-- In every directory the entries have names of files, no two the same. -/
inductive Proper : Tree → Prop where
  | file (content : ByteArray) : Proper (.file content)
  | directory {entries : List (String × Tree)} (hdistinct : (entries.map Prod.fst).Nodup)
      (hnames : ∀ e ∈ entries, IsFileName e.1) (h : ∀ e ∈ entries, e.2.Proper) :
      Proper (.directory entries)
  | closed (e : FileError) : Proper (.closed e)

/-- The same files and directories, but the entries of a directory may be listed in another order. -/
inductive Reordered : Tree → Tree → Prop where
  | refl (t : Tree) : Reordered t t
  | entries {entries others : List (String × Tree)} (h : entries.Perm others) :
      Reordered (.directory entries) (.directory others)
  | inside {before behind : List (String × Tree)} {name : String} {t u : Tree}
      (h : Reordered t u) : Reordered (.directory (before ++ (name, t) :: behind))
        (.directory (before ++ (name, u) :: behind))
  | trans {t u v : Tree} (h : Reordered t u) (h' : Reordered u v) : Reordered t v

/-- A way comes before another one: the first names that differ are in the order of their bytes. -/
def Before (a b : List String) : Prop :=
  List.Lex (fun m n => utf8 m.toList < utf8 n.toList) a b

/-- A listing has the files of SQL below a directory, at any depth, and is in the order of their
ways. -/
structure ListsFiles (t : Tree) (found : List (List String × ByteArray)) : Prop where
  mem_iff : ∀ way content, (way, content) ∈ found ↔
    t.Holds way (.file content) ∧ ∃ name ∈ way.getLast?, NamesSql name
  ordered : found.Pairwise fun f g => Before f.1 g.1

theorem Before.irrefl (a : List String) : ¬Before a a :=
  List.lex_irrefl (fun m => List.lt_irrefl (utf8 m.toList)) a

theorem Before.asymm {a b : List String} (h : Before a b) : ¬Before b a := by
  refine List.lex_asymm (fun hlt => ?_) h
  exact List.lt_asymm hlt

theorem before_of_lt {m n : String} (h : m < n) (a b : List String) : Before (m :: a) (n :: b) :=
  .rel (utf8_lt h)

/-! ## The listing of a directory -/

theorem head_of_mem_walkOfEntry {name : String} {t : Tree}
    {f : List String × Except FileError ByteArray} (h : f ∈ walkOfEntry name t) :
    ∃ rest, f.1 = name :: rest := by
  by_cases hfile : ∃ content, t = .file content
  · obtain ⟨content, rfl⟩ := hfile
    obtain ⟨-, rfl⟩ := mem_walkOfEntry_file.1 h
    exact ⟨[], rfl⟩
  · rw [walkOfEntry_of_ne_file (not_exists.1 hfile)] at h
    obtain ⟨g, -, rfl⟩ := List.mem_map.1 h
    exact ⟨g.1, rfl⟩

theorem pairwise_walkOfEntry {t : Tree} (h : t.walk.Pairwise fun f g => Before f.1 g.1)
    (name : String) : (walkOfEntry name t).Pairwise fun f g => Before f.1 g.1 := by
  by_cases hfile : ∃ content, t = .file content
  · obtain ⟨content, rfl⟩ := hfile
    rw [walkOfEntry]
    split
    · exact List.pairwise_singleton _ _
    · exact .nil
  · rw [walkOfEntry_of_ne_file (not_exists.1 hfile)]
    exact List.pairwise_map.2 (h.imp fun hbefore => .cons hbefore)

/-- Sorted by distinct names, entries are in strict order. -/
theorem pairwise_lt_mergeSort {α : Type} (entries : List (String × α))
    (h : (entries.map Prod.fst).Nodup) :
    (entries.mergeSort fun a b => decide (a.1 ≤ b.1)).Pairwise fun a b => a.1 < b.1 := by
  have hsorted : (entries.mergeSort fun a b => decide (a.1 ≤ b.1)).Pairwise
      fun a b => decide (a.1 ≤ b.1) = true := by
    refine List.pairwise_mergeSort (fun a b c hab hbc => ?_) (fun a b => ?_) entries
    · exact decide_eq_true (String.le_trans (of_decide_eq_true hab) (of_decide_eq_true hbc))
    · simp only [Bool.or_eq_true, decide_eq_true_eq]
      exact String.le_total a.1 b.1
  have hdistinct : ((entries.mergeSort fun a b => decide (a.1 ≤ b.1)).map Prod.fst).Nodup :=
    ((List.mergeSort_perm entries _).map Prod.fst).nodup_iff.2 h
  refine (hsorted.and (List.pairwise_map.1 hdistinct)).imp fun hab => ?_
  exact OptionMap.lt_of_not_lt_of_ne (String.not_lt.2 (of_decide_eq_true hab.1)) (Ne.symm hab.2)

theorem walk_directory (entries : List (String × Tree)) :
    (directory entries).walk =
      ((entries.map fun e => (e.1, walkOfEntry e.1 e.2)).mergeSort
        fun a b => decide (a.1 ≤ b.1)).flatMap Prod.snd := by
  rw [walk, entryWalks_eq_map]

theorem pairwise_walk {t : Tree} (h : t.Proper) : t.walk.Pairwise fun f g => Before f.1 g.1 := by
  induction h with
  | file content =>
    rw [walk]
    exact .nil
  | closed e =>
    rw [walk]
    exact List.pairwise_singleton _ _
  | @directory entries hdistinct hnames hbelow ih =>
    rw [walk_directory, List.pairwise_flatMap]
    have hmem : ∀ x ∈ (entries.map fun e => (e.1, walkOfEntry e.1 e.2)).mergeSort
        (fun a b => decide (a.1 ≤ b.1)), ∃ e ∈ entries, x = (e.1, walkOfEntry e.1 e.2) := by
      intro x hx
      obtain ⟨e, he, rfl⟩ := List.mem_map.1 (List.mem_mergeSort.1 hx)
      exact ⟨e, he, rfl⟩
    refine ⟨fun x hx => ?_, ?_⟩
    · obtain ⟨e, he, rfl⟩ := hmem x hx
      exact pairwise_walkOfEntry (ih e he) e.1
    · have hsorted := pairwise_lt_mergeSort (entries.map fun e => (e.1, walkOfEntry e.1 e.2))
        (by rw [List.map_map]; exact hdistinct)
      refine hsorted.imp_of_mem fun hx hy hlt f hf g hg => ?_
      obtain ⟨e, -, rfl⟩ := hmem _ hx
      obtain ⟨e', -, rfl⟩ := hmem _ hy
      obtain ⟨rest, hrest⟩ := head_of_mem_walkOfEntry hf
      obtain ⟨rest', hrest'⟩ := head_of_mem_walkOfEntry hg
      rw [hrest, hrest']
      exact before_of_lt hlt rest rest'

theorem listsFiles_of_sqlFiles {t : Tree} (h : t.Proper) {found : List (List String × ByteArray)}
    (hfound : t.sqlFiles = .ok found) : ListsFiles t found where
  mem_iff way content := by
    rw [mem_sqlFiles_iff hfound]
    unfold EndsInSql
    simp only [isSqlName_iff]
  ordered := by
    have hwalk := pairwise_walk h
    rw [sqlFiles_eq_ok_iff.1 hfound, List.pairwise_map] at hwalk
    exact hwalk

section Order

variable {α : Type} {found others : List (List String × α)}

theorem nodup_of_pairwise_before (h : found.Pairwise fun f g => Before f.1 g.1) :
    (found.map Prod.fst).Nodup := by
  refine List.pairwise_map.2 (h.imp fun hbefore heq => ?_)
  rw [heq] at hbefore
  exact Before.irrefl _ hbefore

/-- What stands at given ways has one order only. -/
theorem eq_of_pairwise_before (h : found.Pairwise fun f g => Before f.1 g.1)
    (h' : others.Pairwise fun f g => Before f.1 g.1) (hsame : ∀ f, f ∈ found ↔ f ∈ others) :
    found = others := by
  refine List.Perm.eq_of_pairwise (fun f g _ _ hfg hgf => absurd hgf hfg.asymm) h h' ?_
  exact (List.perm_ext_iff_of_nodup (.of_map _ (nodup_of_pairwise_before h))
    (.of_map _ (nodup_of_pairwise_before h'))).2 hsame

end Order

/-- There is one listing only. -/
theorem ListsFiles.unique {t : Tree} {found others : List (List String × ByteArray)}
    (h : ListsFiles t found) (h' : ListsFiles t others) : found = others :=
  eq_of_pairwise_before h.ordered h'.ordered fun f => by rw [h.mem_iff, h'.mem_iff]

/-- The walk ends at the first directory that cannot be listed. -/
theorem sqlFiles_eq_error_iff {t : Tree} (h : t.Proper) {way : List String} {e : FileError} :
    t.sqlFiles = .error (way, e) ↔ t.Holds way (.closed e) ∧
      ∀ way' e', t.Holds way' (.closed e') → way' = way ∨ Before way way' := by
  have hsorted := pairwise_walk h
  have hfirst : ∀ {way : List String} {e : FileError}, t.sqlFiles = .error (way, e) →
      ∀ way' e', t.Holds way' (.closed e') → way' = way ∨ Before way way' := by
    intro way e herror way' e' hholds
    obtain ⟨before, x, behind, hwalk, hbefore, hx⟩ := mapM_eq_error_iff.1 herror
    obtain rfl := fileMet_eq_error_iff.1 hx
    have hmem := mem_walk_error_iff.2 hholds
    rw [hwalk] at hmem hsorted
    rcases List.mem_append.1 hmem with hmem | hmem
    · obtain ⟨g, hg⟩ := hbefore _ hmem
      cases hg
    · rcases List.mem_cons.1 hmem with heq | hmem
      · cases heq
        exact .inl rfl
      · have hbehind := (List.pairwise_append.1 hsorted).2.1
        exact .inr ((List.pairwise_cons.1 hbehind).1 _ hmem)
  refine ⟨fun herror => ⟨holds_closed_of_sqlFiles herror, hfirst herror⟩, ?_⟩
  rintro ⟨hholds, hleast⟩
  obtain ⟨way', e', herror⟩ := exists_sqlFiles_error hholds
  have hholds' := holds_closed_of_sqlFiles herror
  obtain rfl : way' = way := by
    rcases hleast way' e' hholds' with heq | hbefore
    · exact heq
    · rcases hfirst herror way e hholds with heq | hbefore'
      · exact heq.symm
      · exact absurd hbefore' hbefore.asymm
  -- the walk comes to one thing only at the end of a way
  have hsame := List.inj_on_of_nodup_map (nodup_of_pairwise_before hsorted)
    (mem_walk_error_iff.2 hholds') (mem_walk_error_iff.2 hholds) rfl
  cases hsame
  exact herror

/-! ## Another order of entries -/

/-- What is no directory, or one that cannot be listed, stands below a directory if it stands in one
of the entries. -/
theorem holds_directory_iff {entries : List (String × Tree)} {way : List String} {v : Tree}
    (hv : ∀ inner, v ≠ .directory inner) :
    (directory entries).Holds way v ↔
      ∃ name rest, way = name :: rest ∧ ∃ e ∈ entries, e.1 = name ∧ e.2.Holds rest v := by
  constructor
  · intro h
    cases h with
    | here => exact absurd rfl (hv entries)
    | inside h ht => exact ⟨_, _, rfl, _, h, rfl, ht⟩
  · rintro ⟨name, rest, rfl, ⟨other, t⟩, he, rfl, ht⟩
    exact .inside he ht

namespace Reordered

theorem holds_iff {t u v : Tree} (h : Reordered t u) (hv : ∀ inner, v ≠ .directory inner)
    (way : List String) : t.Holds way v ↔ u.Holds way v := by
  induction h generalizing way with
  | refl t => rfl
  | entries h => simp only [holds_directory_iff hv, h.mem_iff]
  | inside _ ih =>
    simp only [holds_directory_iff hv, List.mem_append, List.mem_cons, or_and_right, exists_or,
      exists_eq_left, ih]
  | trans _ _ ih ih' => exact (ih way).trans (ih' way)

theorem proper {t u : Tree} (h : Reordered t u) (ht : t.Proper) : u.Proper := by
  induction h with
  | refl t => exact ht
  | entries h =>
    cases ht with
    | directory hdistinct hnames hbelow =>
      exact .directory ((h.map Prod.fst).nodup_iff.1 hdistinct)
        (fun e he => hnames e (h.mem_iff.2 he))
        fun e he => hbelow e (h.mem_iff.2 he)
  | @inside before behind name t u _ ih =>
    cases ht with
    | directory hdistinct hnames hbelow =>
      simp only [List.forall_mem_append, List.forall_mem_cons] at hnames hbelow
      refine .directory ?_ ?_ ?_
      · simpa using hdistinct
      · simpa only [List.forall_mem_append, List.forall_mem_cons] using hnames
      · simp only [List.forall_mem_append, List.forall_mem_cons]
        exact ⟨hbelow.1, ih hbelow.2.1, hbelow.2.2⟩
  | trans _ _ ih ih' => exact ih' (ih ht)

/-- The order in which directories list their entries does not change the walk. -/
theorem walk_eq {t u : Tree} (h : Reordered t u) (hproper : t.Proper) : u.walk = t.walk := by
  refine eq_of_pairwise_before (pairwise_walk (h.proper hproper)) (pairwise_walk hproper) ?_
  rintro ⟨way, e | content⟩
  · rw [mem_walk_error_iff, mem_walk_error_iff, h.holds_iff (by simp)]
  · rw [mem_walk_ok_iff, mem_walk_ok_iff, h.holds_iff (by simp)]

end Reordered

/-! ## Names in the report -/

theorem lookup_of_mem {entries : List (String × Tree)} (h : (entries.map Prod.fst).Nodup)
    {name : String} {t : Tree} (hmem : (name, t) ∈ entries) : entries.lookup name = some t := by
  induction entries with
  | nil => cases hmem
  | cons e entries ih =>
    obtain ⟨hnew, hrest⟩ := List.nodup_cons.1 h
    rcases List.mem_cons.1 hmem with rfl | hmem
    · exact List.lookup_cons_self
    · have hne : (name == e.1) = false := by
        refine beq_false_of_ne fun heq => hnew ?_
        exact heq ▸ List.mem_map_of_mem (f := Prod.fst) hmem
      rw [List.lookup_cons, hne]
      exact ih hrest hmem

/-- Along a way of names each name is a step. -/
theorem foldlM_stepFrom {root t u : Tree} {way rest : List String}
    (hbelow : root.below? way = some t) (hproper : t.Proper) (hholds : t.Holds rest u) :
    rest.foldlM root.stepFrom way = .ok (way ++ rest) ∧ root.below? (way ++ rest) = some u := by
  induction hholds generalizing way with
  | here t =>
    rw [List.append_nil]
    exact ⟨rfl, hbelow⟩
  | @inside entries name t u rest hmem _ ih =>
    cases hproper with
    | directory hdistinct hnames hchildren =>
      have hlookup := lookup_of_mem hdistinct hmem
      have hname := hnames _ hmem
      have hgo : root.stepFrom way name = .ok (way ++ [name]) := by
        unfold stepFrom
        rw [hbelow]
        simp [hname.ne_empty, hname.ne_dot, hname.ne_dots, hlookup]
      have hchild : root.below? (way ++ [name]) = some t := by
        rw [below?_append, hbelow]
        exact below?_cons hlookup []
      rw [List.foldlM_cons, hgo, List.append_cons way name rest]
      exact ih hchild (hchildren _ hmem)

theorem isFileName_of_holds {t u : Tree} {way : List String} (hproper : t.Proper)
    (h : t.Holds way u) : ∀ name ∈ way, IsFileName name := by
  induction h with
  | here => exact fun name hname => absurd hname List.not_mem_nil
  | inside hmem _ ih =>
    cases hproper with
    | directory _ hnames hbelow =>
      exact List.forall_mem_cons.2 ⟨hnames _ hmem, ih (hbelow _ hmem)⟩

theorem pieces_append_slash (a b : String) :
    pieces '/' (a ++ "/" ++ b) = pieces '/' a ++ pieces '/' b := by
  have htext : (a ++ "/" ++ b).toList = a.toList ++ '/' :: b.toList := by simp
  unfold pieces
  rw [cutAt_eq_splitOn, cutAt_eq_splitOn, cutAt_eq_splitOn, htext, List.splitOn_append_cons_self,
    List.map_append]

theorem pieces_intercalate {way : List String} (hne : way ≠ [])
    (h : ∀ name ∈ way, '/' ∉ name.toList) : pieces '/' ("/".intercalate way) = way := by
  have hnames : ∀ cs ∈ way.map String.toList, '/' ∉ cs := List.forall_mem_map.2 h
  unfold pieces
  rw [cutAt_eq_splitOn, String.toList_intercalate]
  show List.map String.ofList ((['/'].intercalate (way.map String.toList)).splitOn '/') = way
  rw [List.splitOn_intercalate '/' hnames (by simpa using hne), List.map_map]
  simp

theorem endsWith_slash_iff {path : String} : path.endsWith "/" = true ↔ ['/'] <:+ path.toList := by
  have hcopy : path.toSlice.copy = path := String.copy_toSlice
  show path.toSlice.endsWith "/" = true ↔ _
  rw [String.Slice.endsWith_string_iff, hcopy]
  rfl

/-- The pieces of a path below a directory are those of the way behind those of the directory, where
a slash at the end does not count. -/
theorem exists_pieces_joined (path : String) :
    ∃ lead, (pieces '/' path = lead ∨ pieces '/' path = lead ++ [""]) ∧
      ∀ way, way ≠ [] → (∀ name ∈ way, '/' ∉ name.toList) →
        pieces '/' (joined path way) = lead ++ way := by
  have hjoined : ∀ way, way ≠ [] → joined path way =
      (if path.endsWith "/" then path else path ++ "/") ++ "/".intercalate way := by
    intro way hne
    obtain ⟨name, names, rfl⟩ := List.exists_cons_of_ne_nil hne
    rw [joined]
  by_cases hslash : path.endsWith "/" = true
  · obtain ⟨front, hfront⟩ := endsWith_slash_iff.1 hslash
    have hpath : path = String.ofList front ++ "/" := by
      rw [← String.toList_inj, ← hfront, String.toList_append, String.toList_ofList]
      rfl
    refine ⟨pieces '/' (String.ofList front), .inr ?_, fun way hne hnames => ?_⟩
    · rw [hpath, ← String.append_empty (s := String.ofList front ++ "/"), pieces_append_slash]
      rfl
    · rw [hjoined way hne, if_pos hslash, hpath, pieces_append_slash, pieces_intercalate hne hnames]
  · refine ⟨pieces '/' path, .inl rfl, fun way hne hnames => ?_⟩
    rw [hjoined way hne, if_neg hslash, pieces_append_slash, pieces_intercalate hne hnames]

theorem joined_injective {path : String} {way other : List String} (hne : way ≠ [])
    (hne' : other ≠ []) (h : ∀ name ∈ way, IsFileName name) (h' : ∀ name ∈ other, IsFileName name)
    (heq : joined path way = joined path other) : way = other := by
  obtain ⟨lead, -, hjoined⟩ := exists_pieces_joined path
  have hpieces := hjoined way hne fun name hname => (h name hname).no_slash
  rw [heq, hjoined other hne' fun name hname => (h' name hname).no_slash] at hpieces
  exact (List.append_cancel_left hpieces).symm

end Tree

namespace Files

open ColumnLint.Command.Tree

theorem parts_eq_ok_iff {path : String} {ps : List String} :
    parts path = .ok ps ↔ pieces '/' path = ps ∧ ps ≠ [""] := by
  unfold parts
  split
  · rename_i hpieces
    rw [hpieces]
    constructor
    · intro h
      cases h
    · rintro ⟨rfl, h⟩
      exact absurd rfl h
  · rename_i hother
    constructor
    · intro h
      cases h
      exact ⟨rfl, hother⟩
    · rintro ⟨rfl, -⟩
      rfl

/-- An empty piece at the end of a path makes no step. -/
theorem way_append_empty {files : Files} {lead way : List String} (hne : lead ≠ [])
    (h : files.way (lead ++ [""]) = .ok way) : files.way lead = .ok way := by
  cases hlead : files.way lead with
  | error e =>
    unfold Files.way at h hlead
    rw [start_append files hne, List.foldlM_append, hlead] at h
    cases h
  | ok found =>
    rw [way_append hlead (start_append files hne _)] at h
    have hstep : files.root.stepFrom found "" = .ok way := by
      rw [← h]
      exact (bind_pure _).symm
    unfold stepFrom at hstep
    split at hstep
    · rwa [if_pos (.inl rfl)] at hstep
    · rwa [if_pos rfl] at hstep
    · cases hstep

/-- The name of a file or directory in the report leads to it. -/
theorem find_joined {files : Files} {path : String} {t u : Tree} (hfind : files.find path = .ok t)
    (hproper : t.Proper) {way : List String} (hholds : t.Holds way u) :
    files.find (joined path way) = .ok u := by
  by_cases hnil : way = []
  · subst hnil
    cases hholds
    exact hfind
  obtain ⟨ps, start, hparts, hstart, hbelow⟩ := find_eq_ok_iff.1 hfind
  obtain ⟨rfl, hempty⟩ := parts_eq_ok_iff.1 hparts
  obtain ⟨lead, hlead, hjoined⟩ := exists_pieces_joined path
  have hnames := isFileName_of_holds hproper hholds
  obtain ⟨hsteps, hfound⟩ := foldlM_stepFrom hbelow hproper hholds
  have hne : lead ≠ [] := by
    rintro rfl
    rcases hlead with hlead | hlead
    · exact absurd hlead (by simp [pieces, cutAt_eq_splitOn])
    · exact hempty hlead
  have hway : files.way lead = .ok start := by
    rcases hlead with hlead | hlead
    · rw [← hlead]
      exact hstart
    · exact way_append_empty hne (hlead ▸ hstart)
  refine find_eq_ok_iff.2 ⟨lead ++ way, start ++ way, parts_eq_ok_iff.2
    ⟨hjoined way hnil fun name hname => (hnames name hname).no_slash, fun heq => ?_⟩, ?_, hfound⟩
  · have hlength := congrArg List.length heq
    have := List.length_pos_iff.2 hne
    have := List.length_pos_iff.2 hnil
    rw [List.length_append, List.length_singleton] at hlength
    omega
  · rw [way_append hway (start_append files hne way)]
    exact hsteps

end Files

/-! ## Texts of a directory -/

theorem readFile_eq_ok_iff {path : String} {content : ByteArray} {s : Source} :
    readFile path content = .ok s ↔ s.name = path ∧ content = (String.ofList s.text).toUTF8 := by
  rw [← decodeText_eq_ok_iff]
  unfold readFile
  cases hdecode : decodeText content with
  | error e => simp
  | ok text =>
    dsimp only
    constructor
    · intro h
      cases h
      simp
    · rintro ⟨rfl, h⟩
      cases h
      simp

/-- The texts that a listing of files gives: each has the path of its file as its name. -/
def ReadAs (path : String) (found : List (List String × ByteArray)) (sources : List Source) : Prop :=
  List.Forall₂ (fun f s => s.name = Tree.joined path f.1 ∧ f.2 = (String.ofList s.text).toUTF8)
    found sources

theorem ReadAs.map_name {path : String} {found : List (List String × ByteArray)}
    {sources : List Source} (h : ReadAs path found sources) :
    sources.map Source.name = found.map fun f => Tree.joined path f.1 := by
  induction h with
  | nil => rfl
  | cons h _ ih => rw [List.map_cons, List.map_cons, h.1, ih]

theorem ReadAs.exists_mem {path : String} {found : List (List String × ByteArray)}
    {sources : List Source} (h : ReadAs path found sources) {s : Source} (hs : s ∈ sources) :
    ∃ way, s.name = Tree.joined path way ∧ (way, (String.ofList s.text).toUTF8) ∈ found := by
  induction h with
  | nil => cases hs
  | cons h _ ih =>
    rcases List.mem_cons.1 hs with rfl | hs
    · exact ⟨_, h.1, h.2 ▸ List.mem_cons_self⟩
    · obtain ⟨way, hname, hway⟩ := ih hs
      exact ⟨way, hname, List.mem_cons_of_mem _ hway⟩

section Directory

variable {files : Files} {path : String} {t : Tree} {entries : List (String × Tree)}

theorem readPath_eq_ok_iff (hfind : files.find path = .ok (.directory entries))
    (hproper : (Tree.directory entries).Proper) {sources : List Source} :
    readPath files.find path = .ok sources ↔
      (∀ way e, ¬(Tree.directory entries).Holds way (.closed e)) ∧
        ∃ found, (Tree.directory entries).ListsFiles found ∧ ReadAs path found sources := by
  rw [readPath_of_directory hfind (by simp)]
  unfold readDirectory
  cases hfiles : (Tree.directory entries).sqlFiles with
  | error f =>
    constructor
    · intro h
      cases h
    · rintro ⟨hnone, -⟩
      exact absurd (Tree.holds_closed_of_sqlFiles hfiles) (hnone f.1 f.2)
  | ok listed =>
    have hlists := Tree.listsFiles_of_sqlFiles hproper hfiles
    have hread : (listed.mapM fun f => readFile (Tree.joined path f.1) f.2) = .ok sources ↔
        ReadAs path listed sources := by
      rw [mapM_eq_ok_iff]
      simp only [readFile_eq_ok_iff]
      rfl
    refine hread.trans ⟨fun h => ⟨fun way e hclosed => ?_, listed, hlists, h⟩, ?_⟩
    · obtain ⟨way', e', herror⟩ := Tree.exists_sqlFiles_error hclosed
      rw [hfiles] at herror
      cases herror
    · rintro ⟨-, found, hfound, h⟩
      rwa [hlists.unique hfound]

/-- Of the directories that cannot be listed the first in the order of their ways is reported. -/
theorem readPath_eq_unwalkable_iff (hfind : files.find path = .ok t)
    (hfile : ∀ content, t ≠ .file content) (hproper : t.Proper) {directory : String}
    {e : FileError} :
    readPath files.find path = .error (.unwalkable path directory e) ↔
      ∃ way, directory = Tree.joined path way ∧ t.Holds way (.closed e) ∧
        ∀ way' e', t.Holds way' (.closed e') → way' = way ∨ Tree.Before way way' := by
  rw [readPath_of_directory hfind hfile]
  simp only [← Tree.sqlFiles_eq_error_iff hproper]
  unfold readDirectory
  cases hfiles : t.sqlFiles with
  | error f =>
    obtain ⟨way, e'⟩ := f
    constructor
    · intro h
      cases h
      exact ⟨way, rfl, rfl⟩
    · rintro ⟨way', rfl, heq⟩
      cases heq
      rfl
  | ok found =>
    constructor
    · intro h
      obtain ⟨f, -, hread⟩ := exists_of_mapM_eq_error h
      cases (readFile_eq_error_iff.1 hread).1
    · rintro ⟨way, -, heq⟩
      cases heq

theorem nodup_names (hproper : (Tree.directory entries).Proper)
    {found : List (List String × ByteArray)} (hfound : (Tree.directory entries).ListsFiles found)
    {sources : List Source} (hread : ReadAs path found sources) :
    (sources.map Source.name).Nodup := by
  rw [hread.map_name]
  refine List.pairwise_map.2 (hfound.ordered.imp_of_mem fun hf hg hbefore heq => ?_)
  have hholds := ((hfound.mem_iff _ _).1 hf).1
  have hholds' := ((hfound.mem_iff _ _).1 hg).1
  have hways := Tree.joined_injective (hholds.ne_nil_of_file (by simp))
    (hholds'.ne_nil_of_file (by simp)) (Tree.isFileName_of_holds hproper hholds)
    (Tree.isFileName_of_holds hproper hholds') heq
  rw [hways] at hbefore
  exact Tree.Before.irrefl _ hbefore

/-- A directory gives the texts of the files of SQL in it, at any depth, each once, in the order of
their ways by the bytes of the names, if every directory in it can be listed. The name of each text is
the path of the directory with the way below it, and leads to the file. In which order directories
list their entries makes no difference. -/
theorem directory_gives_files_in_order (hfind : files.find path = .ok (.directory entries))
    (hproper : (Tree.directory entries).Proper) :
    (∀ sources, readPath files.find path = .ok sources ↔
      (∀ way e, ¬(Tree.directory entries).Holds way (.closed e)) ∧
        ∃ found, (Tree.directory entries).ListsFiles found ∧ ReadAs path found sources) ∧
    (∀ sources, readPath files.find path = .ok sources →
      (sources.map Source.name).Nodup ∧
      ∀ s ∈ sources, files.find s.name = .ok (.file (String.ofList s.text).toUTF8)) ∧
    ∀ (files' : Files) (entries' : List (String × Tree)),
      files'.find path = .ok (.directory entries') →
      (Tree.directory entries).Reordered (.directory entries') →
      readPath files'.find path = readPath files.find path := by
  refine ⟨fun sources => readPath_eq_ok_iff hfind hproper, fun sources h => ?_, ?_⟩
  · obtain ⟨-, found, hfound, hread⟩ := (readPath_eq_ok_iff hfind hproper).1 h
    refine ⟨nodup_names hproper hfound hread, fun s hs => ?_⟩
    obtain ⟨way, hname, hway⟩ := hread.exists_mem hs
    rw [hname]
    exact Files.find_joined hfind hproper ((hfound.mem_iff _ _).1 hway).1
  · intro files' entries' hfind' hreordered
    rw [readPath_of_directory hfind (by simp), readPath_of_directory hfind' (by simp)]
    unfold readDirectory Tree.sqlFiles
    rw [hreordered.walk_eq hproper]

end Directory

/-- A directory whose name is the start of other names, and whose files come before them. -/
def tangled : List (String × Tree) :=
  [("a", .directory [("x.sql", .file "1".toUTF8)]), ("a-b.sql", .file "2".toUTF8),
    ("a.sql", .file "3".toUTF8)]

theorem tangled_proper : (Tree.directory tangled).Proper := by
  have hfile : ∀ {name : String}, name ∈ ["x.sql", "a", "a-b.sql", "a.sql"] →
      Tree.IsFileName name := by
    intro name hname
    simp only [List.mem_cons, List.not_mem_nil, or_false] at hname
    rcases hname with rfl | rfl | rfl | rfl <;> exact ⟨by decide, by decide, by decide, by decide⟩
  have hinner : (Tree.directory [("x.sql", .file "1".toUTF8)]).Proper :=
    .directory (by decide) (List.forall_mem_singleton.2 (hfile (by decide)))
      (List.forall_mem_singleton.2 (.file _))
  refine .directory (by decide) ?_ ?_
  · simp only [tangled, List.forall_mem_cons]
    exact ⟨hfile (by decide), hfile (by decide), hfile (by decide), List.forall_mem_nil _⟩
  · simp only [tangled, List.forall_mem_cons]
    exact ⟨hinner, .file _, .file _, List.forall_mem_nil _⟩

theorem walk_tangled :
    (Tree.directory tangled).walk = [(["a", "x.sql"], .ok "1".toUTF8), (["a-b.sql"], .ok "2".toUTF8),
      (["a.sql"], .ok "3".toUTF8)] := by
  have hinner : (Tree.directory [("x.sql", .file "1".toUTF8)]).walk =
      [(["x.sql"], .ok "1".toUTF8)] := by
    rw [Tree.walk_directory, List.map_singleton, List.mergeSort_singleton]
    rfl
  have hsorted : (tangled.map fun e => (e.1, Tree.walkOfEntry e.1 e.2)).Pairwise
      fun a b => decide (a.1 ≤ b.1) = true := by
    rw [List.pairwise_map]
    decide
  rw [Tree.walk_directory, List.mergeSort_of_pairwise hsorted]
  simp only [tangled, List.map_cons, Tree.walkOfEntry, hinner]
  rfl

theorem tangled_in_order :
    readPath (Files.find ⟨.directory [("d", .directory tangled.reverse)], []⟩) "d" =
      .ok [⟨"d/a/x.sql", ['1']⟩, ⟨"d/a-b.sql", ['2']⟩, ⟨"d/a.sql", ['3']⟩] := by
  have hfind : Files.find ⟨.directory [("d", .directory tangled)], []⟩ "d" =
    .ok (.directory tangled) := rfl
  have hreversed : Files.find ⟨.directory [("d", .directory tangled.reverse)], []⟩ "d" =
    .ok (.directory tangled.reverse) := rfl
  have hslash : ¬"d".endsWith "/" = true := fun h => absurd (Tree.endsWith_slash_iff.1 h) (by decide)
  obtain ⟨-, -, horder⟩ := directory_gives_files_in_order hfind tangled_proper
  rw [horder _ _ hreversed (.entries tangled.reverse_perm.symm),
    readPath_of_directory hfind (by simp)]
  unfold readDirectory Tree.sqlFiles
  rw [walk_tangled]
  simp only [Tree.joined, if_neg hslash]
  rfl

end Command

end ColumnLint
