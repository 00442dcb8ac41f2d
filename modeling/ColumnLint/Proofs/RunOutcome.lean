import ColumnLint.Proofs.FileTree
import ColumnLint.Proofs.PolicyChoice

/-
  How a run ends. It fails before anything is written if its configuration is wrong
  (`linter_eq_error_iff`) or if something that it has to read is no text (`exists_readSources_error`),
  in this order, so such a run leaves the files and standard output as they are
  (`failing_run_writes_nothing`). A run that does not fail leaves the report in one place and has the
  exit code of its findings (`exists_findings`).
-/

namespace ColumnLint.Command

open Text Sql

/-! ## What cannot be read -/

/-- Why a path cannot be read: it leads nowhere, to a file that is no text, or to a directory with a
directory somewhere in it that cannot be listed or a file of SQL that is no text. -/
inductive Unreadable (find : String → Except FileError Tree) (path : String) : RunError → Prop where
  | missing {e : FileError} (hfind : find path = .error e) :
      Unreadable find path (.unreadableFile path e)
  | notText {content : ByteArray} (hfind : find path = .ok (.file content)) (hno : NoText content) :
      Unreadable find path (.unreadableFile path .notText)
  | unlisted {t : Tree} {way : List String} {e : FileError} (hfind : find path = .ok t)
      (hholds : t.Holds way (.closed e)) :
      Unreadable find path (.unwalkable path (Tree.joined path way) e)
  | inside {t : Tree} {way : List String} {content : ByteArray} (hfind : find path = .ok t)
      (hholds : t.Holds way (.file content)) (hends : Tree.EndsInSql way) (hno : NoText content) :
      Unreadable find path (.unreadableFile (Tree.joined path way) .notText)

/-- Why the texts of a run cannot be read. -/
inductive UnreadableTexts (find : String → Except FileError Tree) (input : ByteArray)
    (paths : List String) : RunError → Prop where
  | input (hpaths : paths = []) (hno : NoText input) :
      UnreadableTexts find input paths (.unreadableInput .notText)
  | path {path : String} {e : RunError} (hpath : path ∈ paths) (h : Unreadable find path e) :
      UnreadableTexts find input paths e

theorem readFile_eq_error_iff {path : String} {content : ByteArray} {e : RunError} :
    readFile path content = .error e ↔ e = .unreadableFile path .notText ∧ NoText content := by
  unfold readFile
  cases hdecode : decodeText content with
  | ok s =>
    have hno : ¬NoText content := fun hno => hno s (decodeText_eq_ok_iff.1 hdecode)
    simp [hno]
  | error e' =>
    obtain ⟨rfl, hno⟩ := decodeText_eq_error_iff.1 hdecode
    simp [hno, eq_comm]

theorem unreadable_of_readDirectory {find : String → Except FileError Tree} {path : String} {t : Tree}
    (hfind : find path = .ok t) {e : RunError} (h : readDirectory path t = .error e) :
    Unreadable find path e := by
  unfold readDirectory at h
  split at h
  · rename_i way e' hfiles
    cases h
    exact .unlisted hfind (Tree.holds_closed_of_sqlFiles hfiles)
  · rename_i found hfiles
    obtain ⟨⟨way, content⟩, hmem, hread⟩ := exists_of_mapM_eq_error h
    obtain ⟨rfl, hno⟩ := readFile_eq_error_iff.1 hread
    obtain ⟨hholds, hends⟩ := (Tree.mem_sqlFiles_iff hfiles).1 hmem
    exact .inside hfind hholds hends hno

theorem readDirectory_of_closed {t : Tree} {way : List String} {e : FileError}
    (h : t.Holds way (.closed e)) (path : String) : ∃ e', readDirectory path t = .error e' := by
  obtain ⟨way', e', hfiles⟩ := Tree.exists_sqlFiles_error h
  unfold readDirectory
  rw [hfiles]
  exact ⟨_, rfl⟩

theorem readDirectory_of_noText {t : Tree} {way : List String} {content : ByteArray}
    (hholds : t.Holds way (.file content)) (hends : Tree.EndsInSql way) (hno : NoText content)
    (path : String) : ∃ e, readDirectory path t = .error e := by
  unfold readDirectory
  cases hfiles : t.sqlFiles with
  | error e => exact ⟨_, rfl⟩
  | ok found =>
    exact exists_mapM_error ((Tree.mem_sqlFiles_iff hfiles).2 ⟨hholds, hends⟩)
      (readFile_eq_error_iff.2 ⟨rfl, hno⟩)

theorem readPath_of_directory {find : String → Except FileError Tree} {path : String} {t : Tree}
    (hfind : find path = .ok t) (hfile : ∀ content, t ≠ .file content) :
    readPath find path = readDirectory path t := by
  unfold readPath
  rw [hfind]
  cases t with
  | file content => exact absurd rfl (hfile content)
  | directory entries => rfl
  | closed e => rfl

theorem unreadable_of_readPath {find : String → Except FileError Tree} {path : String}
    {e : RunError} (h : readPath find path = .error e) : Unreadable find path e := by
  unfold readPath at h
  split at h
  · rename_i e' hfind
    cases h
    exact .missing hfind
  · rename_i content hfind
    cases hread : readFile path content with
    | ok s =>
      rw [hread] at h
      cases h
    | error e' =>
      rw [hread] at h
      cases h
      obtain ⟨rfl, hno⟩ := readFile_eq_error_iff.1 hread
      exact .notText hfind hno
  · rename_i t _ hfind
    exact unreadable_of_readDirectory hfind h

theorem exists_readPath_error {find : String → Except FileError Tree} {path : String}
    {e : RunError} (h : Unreadable find path e) : ∃ e', readPath find path = .error e' := by
  cases h with
  | @missing e hfind =>
    refine ⟨.unreadableFile path e, ?_⟩
    unfold readPath
    rw [hfind]
  | notText hfind hno =>
    refine ⟨.unreadableFile path .notText, ?_⟩
    unfold readPath
    rw [hfind]
    dsimp only
    rw [readFile_eq_error_iff.2 ⟨rfl, hno⟩]
    rfl
  | unlisted hfind hholds =>
    rw [readPath_of_directory hfind fun content ht => by subst ht; cases hholds]
    exact readDirectory_of_closed hholds path
  | inside hfind hholds hends hno =>
    rw [readPath_of_directory hfind fun content ht => by
      subst ht
      cases hholds
      exact Tree.not_endsInSql_nil hends]
    exact readDirectory_of_noText hholds hends hno path

theorem readSources_nil {find : String → Except FileError Tree} {input : ByteArray}
    (e : RunError) :
    readSources find input [] = .error e ↔ e = .unreadableInput .notText ∧ NoText input := by
  have hempty : ([] : List String).isEmpty = true := rfl
  unfold readSources
  rw [if_pos hempty]
  cases hdecode : decodeText input with
  | ok s =>
    have hno : ¬NoText input := fun hno => hno s (decodeText_eq_ok_iff.1 hdecode)
    simp [hno]
  | error e' =>
    obtain ⟨rfl, hno⟩ := decodeText_eq_error_iff.1 hdecode
    simp [hno, eq_comm]

theorem readSources_of_ne_nil {find : String → Except FileError Tree} {input : ByteArray}
    {paths : List String} (h : paths ≠ []) :
    readSources find input paths = (paths.mapM (readPath find)).map List.flatten := by
  unfold readSources
  rw [if_neg (by simpa using h)]

theorem unreadableTexts_of_readSources {find : String → Except FileError Tree} {input : ByteArray}
    {paths : List String} {e : RunError} (h : readSources find input paths = .error e) :
    UnreadableTexts find input paths e := by
  by_cases hpaths : paths = []
  · subst hpaths
    obtain ⟨rfl, hno⟩ := (readSources_nil e).1 h
    exact .input rfl hno
  · rw [readSources_of_ne_nil hpaths] at h
    cases hread : paths.mapM (readPath find) with
    | ok found =>
      rw [hread] at h
      cases h
    | error e' =>
      rw [hread] at h
      cases h
      obtain ⟨path, hpath, he⟩ := exists_of_mapM_eq_error hread
      exact .path hpath (unreadable_of_readPath he)

theorem exists_readSources_error {find : String → Except FileError Tree} {input : ByteArray}
    {paths : List String} {e : RunError} (h : UnreadableTexts find input paths e) :
    ∃ e', readSources find input paths = .error e' := by
  cases h with
  | input hpaths hno =>
    subst hpaths
    exact ⟨_, (readSources_nil _).2 ⟨rfl, hno⟩⟩
  | path hpath h =>
    obtain ⟨e', he'⟩ := exists_readPath_error h
    obtain ⟨e'', he''⟩ := exists_mapM_error hpath he'
    refine ⟨e'', ?_⟩
    rw [readSources_of_ne_nil (List.ne_nil_of_mem hpath), he'']
    rfl

/-! ## What is wrong with a configuration -/

/-- Why the options of rules are rejected: the text is no JSON, or no object, or has an entry that is
no object. -/
inductive RuleConfigsRejected (raw : Option String) : RunError → Prop where
  | noJson {text : String} {e : Json.ReadError} (hraw : raw = some text)
      (hread : Json.read text.toList = .error e) : RuleConfigsRejected raw (.badRuleConfigs e)
  | noObject {text : String} {j : Json} (hraw : raw = some text)
      (hread : Json.read text.toList = .ok j) (hother : ∀ fields, j ≠ .object fields) :
      RuleConfigsRejected raw .ruleConfigsNotObject
  | entry {text name : String} {j : Json} {before behind : List (String × Json)}
      (hraw : raw = some text)
      (hread : Json.read text.toList = .ok (.object (before ++ (name, j) :: behind)))
      (hbefore : ∀ f ∈ before, ∃ inner, f.2 = .object inner)
      (hother : ∀ inner, j ≠ .object inner) : RuleConfigsRejected raw (.entryNotObject name)

/-- Why a run has no linter: the options of rules are rejected, or they misname the policy. -/
inductive Options.Misconfigured (o : Options) : RunError → Prop where
  | options {e : RunError} (h : RuleConfigsRejected o.ruleConfigs e) : Misconfigured o e
  | policy {c : Config} {e : ConfigError} (hconfig : o.config = .ok c) (h : c.Misnames e) :
      Misconfigured o (.badConfig e)

theorem isNone_asObject?_iff {j : Json} :
    j.asObject?.isNone = true ↔ ∀ fields, j ≠ .object fields := by
  cases j <;> simp [Json.asObject?]

theorem isNone_asObject?_eq_false_iff {j : Json} :
    j.asObject?.isNone = false ↔ ∃ fields, j = .object fields := by
  cases j <;> simp [Json.asObject?]

theorem firstNonObject?_eq_some_iff {fields : List (String × Json)} {name : String} :
    firstNonObject? fields = some name ↔
      ∃ before j behind, fields = before ++ (name, j) :: behind ∧
        (∀ f ∈ before, ∃ inner, f.2 = .object inner) ∧ ∀ inner, j ≠ .object inner := by
  unfold firstNonObject?
  rw [Option.map_eq_some_iff]
  constructor
  · rintro ⟨⟨n, j⟩, hfind, rfl⟩
    obtain ⟨hj, before, behind, rfl, hbefore⟩ := List.find?_eq_some_iff_append.1 hfind
    refine ⟨before, j, behind, rfl, fun f hf => ?_, isNone_asObject?_iff.1 hj⟩
    exact isNone_asObject?_eq_false_iff.1 (Bool.not_eq_true' _ ▸ hbefore f hf)
  · rintro ⟨before, j, behind, rfl, hbefore, hother⟩
    refine ⟨(name, j), List.find?_eq_some_iff_append.2
      ⟨isNone_asObject?_iff.2 hother, before, behind, rfl, fun f hf => ?_⟩, rfl⟩
    rw [isNone_asObject?_eq_false_iff.2 (hbefore f hf)]
    rfl

theorem readRuleConfigs_eq_error_iff {raw : Option String} {e : RunError} :
    readRuleConfigs raw = .error e ↔ RuleConfigsRejected raw e := by
  constructor
  · intro h
    unfold readRuleConfigs at h
    split at h
    · cases h
    · rename_i text
      split at h
      · rename_i e' hread
        cases h
        exact .noJson rfl hread
      · rename_i fields hread
        split at h
        · rename_i name hfirst
          cases h
          obtain ⟨before, j, behind, rfl, hbefore, hother⟩ := firstNonObject?_eq_some_iff.1 hfirst
          exact .entry rfl hread hbefore hother
        · cases h
      · rename_i j hother hread
        cases h
        exact .noObject rfl hread hother
  · intro h
    unfold readRuleConfigs
    cases h with
    | noJson hraw hread =>
      subst hraw
      dsimp only
      rw [hread]
    | @noObject text j hraw hread hother =>
      subst hraw
      dsimp only
      rw [hread]
      cases j with
      | object fields => exact absurd rfl (hother fields)
      | _ => rfl
    | entry hraw hread hbefore hother =>
      subst hraw
      dsimp only
      rw [hread]
      dsimp only
      rw [firstNonObject?_eq_some_iff.2 ⟨_, _, _, rfl, hbefore, hother⟩]

theorem config_eq_error_iff {o : Options} {e : RunError} :
    o.config = .error e ↔ RuleConfigsRejected o.ruleConfigs e := by
  rw [← readRuleConfigs_eq_error_iff]
  unfold Options.config
  cases readRuleConfigs o.ruleConfigs <;> simp

theorem ofConfig_eq_error_iff {c : Config} {e : ConfigError} :
    Linter.ofConfig c = .error e ↔ c.Misnames e := by
  rw [← Policy.ofConfig_eq_error_iff]
  unfold Linter.ofConfig
  cases Policy.ofConfig c <;> simp

theorem linter_eq_error_iff {o : Options} {e : RunError} :
    o.linter = .error e ↔ o.Misconfigured e := by
  unfold Options.linter
  constructor
  · intro h
    split at h
    · rename_i e' hconfig
      cases h
      exact .options (config_eq_error_iff.1 hconfig)
    · rename_i c hconfig
      split at h
      · cases h
      · rename_i e' hpolicy
        cases h
        exact .policy hconfig (ofConfig_eq_error_iff.1 hpolicy)
  · intro h
    cases h with
    | options h => rw [config_eq_error_iff.2 h]
    | policy hconfig h =>
      rw [hconfig]
      dsimp only
      rw [ofConfig_eq_error_iff.2 h]

/-! ## Runs that fail -/

theorem examine_of_misconfigured {o : Options} {e : RunError} (h : o.Misconfigured e)
    (find : String → Except FileError Tree) (input : ByteArray) :
    examine o find input = .error e := by
  unfold examine
  rw [linter_eq_error_iff.2 h]
  rfl

/-- What a linter finds in texts. -/
def Options.findings (o : Options) (l : Linter) (sources : List Source) : Findings where
  warnings := if o.quiet then [] else sources.filterMap (Source.warning? l o.dialect)
  files := sources.map (Source.report l o.dialect)

theorem examine_of_linter {o : Options} {l : Linter} (h : o.linter = .ok l)
    (find : String → Except FileError Tree) (input : ByteArray) :
    examine o find input = (readSources find input o.paths).map (o.findings l) := by
  unfold examine
  rw [h]
  cases readSources find input o.paths <;> rfl

theorem run_of_error {o : Options} {files : Files} {input : ByteArray} {e : RunError}
    (h : examine o files.find input = .error e) (nanos : Nat) :
    run o files input nanos = ⟨.failure [] e, files⟩ := by
  unfold run
  rw [h]
  rfl

theorem runArguments_of_ok {arguments : List String} {o : Options}
    (ho : Options.ofArguments arguments = .ok o) (files : Files) (input : ByteArray) (nanos : Nat) :
    runArguments arguments files input nanos = run o files input nanos := by
  unfold runArguments
  rw [ho]

/-- A run whose configuration is wrong, or that finds something it cannot read, writes nothing but
the line that tells why: the files are the same as before. What is wrong with the configuration is
told first. -/
theorem failing_run_writes_nothing {arguments : List String} {o : Options}
    (ho : Options.ofArguments arguments = .ok o) (files : Files) (input : ByteArray) (nanos : Nat)
    (h : (∃ e, o.Misconfigured e) ∨ ∃ e, UnreadableTexts files.find input o.paths e) :
    (runArguments arguments files input nanos).exit = 66 ∧
    (runArguments arguments files input nanos).stdout = "" ∧
    (runArguments arguments files input nanos).files = files ∧
    (∀ e, o.Misconfigured e →
      (runArguments arguments files input nanos).stderr = "refscope: error: " ++ e.message ++ "\n") ∧
    ((∀ e, ¬o.Misconfigured e) → ∃ e, UnreadableTexts files.find input o.paths e ∧
      (runArguments arguments files input nanos).stderr =
        "refscope: error: " ++ e.message ++ "\n") := by
  have hfails : ∃ e, examine o files.find input = .error e ∧
      (o.Misconfigured e ∨
        (∀ e, ¬o.Misconfigured e) ∧ UnreadableTexts files.find input o.paths e) := by
    cases hlinter : o.linter with
    | error e =>
      have hmis := linter_eq_error_iff.1 hlinter
      exact ⟨e, examine_of_misconfigured hmis _ _, .inl hmis⟩
    | ok l =>
      have hnone : ∀ e, ¬o.Misconfigured e := by
        intro e he
        rw [linter_eq_error_iff.2 he] at hlinter
        cases hlinter
      obtain ⟨e, he⟩ := h.resolve_left fun ⟨e, he⟩ => hnone e he
      obtain ⟨e', he'⟩ := exists_readSources_error he
      refine ⟨e', ?_, .inr ⟨hnone, unreadableTexts_of_readSources he'⟩⟩
      rw [examine_of_linter hlinter, he']
      rfl
  obtain ⟨e, he, hwhy⟩ := hfails
  have hline : (Answer.failure [] e).stderr = "refscope: error: " ++ e.message ++ "\n" :=
    String.empty_append
  rw [runArguments_of_ok ho, run_of_error he]
  refine ⟨rfl, rfl, rfl, fun e' he' => ?_, fun hnone => ?_⟩
  · obtain rfl : e = e' := by
      rw [examine_of_misconfigured he'] at he
      exact (Except.error.inj he).symm
    exact hline
  · rcases hwhy with hmis | ⟨-, hunreadable⟩
    · exact absurd hmis (hnone e)
    · exact ⟨e, hunreadable, hline⟩

/-- Files of which one, in a directory behind a readable file, is no text. -/
def halfReadable : Files where
  root := .directory [("a.sql", .file "SELECT a FROM t".toUTF8), ("old.txt", .file "old".toUTF8),
    ("sub", .directory [("b.sql", .file ⟨#[0xff]⟩)])]

theorem halfReadable_unreadable :
    UnreadableTexts halfReadable.find .empty ["a.sql", "sub"]
      (.unreadableFile (Tree.joined "sub" ["b.sql"]) .notText) := by
  have hno : NoText ⟨#[0xff]⟩ :=
    (decodeText_eq_error_iff.1 (rfl : decodeText ⟨#[0xff]⟩ = .error .notText)).2
  have hfind : halfReadable.find "sub" = .ok (.directory [("b.sql", .file ⟨#[0xff]⟩)]) := by rfl
  exact .path (by simp) (.inside hfind (.inside List.mem_cons_self (.here _))
    ⟨"b.sql", rfl, by decide⟩ hno)

set_option maxRecDepth 100000 in
theorem halfReadable_writes_nothing :
    (runArguments ["-o", "old.txt", "a.sql", "sub"] halfReadable .empty 0).exit = 66 ∧
      (runArguments ["-o", "old.txt", "a.sql", "sub"] halfReadable .empty 0).files = halfReadable ∧
      (runArguments ["--rule-configs=[]", "a.sql", "sub"] halfReadable .empty 0).stdout = "" ∧
      (runArguments ["--rule-configs=[]", "a.sql", "sub"] halfReadable .empty 0).stderr =
        "refscope: error: --rule-configs must be a JSON object\n" := by
  have hread : Options.ofArguments ["-o", "old.txt", "a.sql", "sub"] =
      .ok { paths := ["a.sql", "sub"], output := some "old.txt" } := by decide +kernel
  have hbad : Options.ofArguments ["--rule-configs=[]", "a.sql", "sub"] =
      .ok { paths := ["a.sql", "sub"], ruleConfigs := some "[]" } := by decide +kernel
  have hmis : Options.Misconfigured { paths := ["a.sql", "sub"], ruleConfigs := some "[]" }
      .ruleConfigsNotObject := by
    refine linter_eq_error_iff.1 ?_
    rfl
  obtain ⟨hexit, -, hfiles, -⟩ := failing_run_writes_nothing hread halfReadable .empty 0
    (.inr ⟨_, halfReadable_unreadable⟩)
  obtain ⟨-, hstdout, -, hstderr, -⟩ := failing_run_writes_nothing hbad halfReadable .empty 0
    (.inr ⟨_, halfReadable_unreadable⟩)
  exact ⟨hexit, hfiles, hstdout, hstderr _ hmis⟩

/-! ## Runs that do not fail -/

/-- The report that a run leaves: its standard output, or the text of the file that it writes. -/
def Outcome.report? (o : Options) (out : Outcome) : Option (List Char) :=
  match o.output with
  | none => some out.stdout.toList
  | some path => (out.files.readText path).toOption.map String.toList

/-- A report as it is left: on standard output its last line is ended. -/
def Options.delivered (o : Options) (text : List Char) : List Char :=
  if o.output.isNone then endingLine text else text

/-- The file for the report, if there is one, can be written. -/
def Options.CanWrite (o : Options) (files : Files) : Prop :=
  ∀ path, o.output = some path → ∃ above name, files.Writable path above name

theorem examine_eq_ok_iff {o : Options} {find : String → Except FileError Tree}
    {input : ByteArray} {findings : Findings} :
    examine o find input = .ok findings ↔
      ∃ l sources, o.linter = .ok l ∧ readSources find input o.paths = .ok sources ∧
        findings = o.findings l sources := by
  constructor
  · intro h
    cases hlinter : o.linter with
    | error e =>
      rw [examine_of_misconfigured (linter_eq_error_iff.1 hlinter)] at h
      cases h
    | ok l =>
      rw [examine_of_linter hlinter] at h
      cases hread : readSources find input o.paths with
      | error e =>
        rw [hread] at h
        cases h
      | ok sources =>
        rw [hread] at h
        cases h
        exact ⟨l, sources, rfl, rfl, rfl⟩
  · rintro ⟨l, sources, hlinter, hread, rfl⟩
    rw [examine_of_linter hlinter, hread]
    rfl

section Delivery

variable {o : Options} {files : Files} {input : ByteArray} {findings : Findings}

theorem Findings.exit_le_one (findings : Findings) : findings.exit ≤ 1 := by
  unfold Findings.exit
  split <;> decide

theorem Findings.exit_ne_failureExit (findings : Findings) : findings.exit ≠ failureExit := by
  have hle := findings.exit_le_one
  unfold failureExit
  omega

theorem run_to_stdout (h : examine o files.find input = .ok findings) (houtput : o.output = none)
    (nanos : Nat) :
    run o files input nanos = ⟨⟨findings.exit,
      String.ofList (endingLine (findings.report o false nanos)), String.join findings.warnings⟩,
      files⟩ := by
  unfold run finish
  rw [h]
  dsimp only
  rw [houtput]
  rfl

theorem run_of_save (h : examine o files.find input = .ok findings) {path : String}
    (houtput : o.output = some path) {nanos : Nat} {written : Except FileError Unit} {after : Files}
    (hsave : Files.save path (String.ofList (findings.report o false nanos)) files =
      (written, after)) :
    run o files input nanos = ⟨findings.afterWriting path written, after⟩ := by
  unfold run finish
  rw [h]
  dsimp only
  rw [houtput]
  dsimp only [bind, StateT.bind, StateT.run]
  rw [hsave]
  rfl

theorem run_to_file (h : examine o files.find input = .ok findings) {path : String}
    (houtput : o.output = some path) {nanos : Nat} {after : Files}
    (hwrite : files.write path (String.ofList (findings.report o false nanos)).toUTF8 = .ok after) :
    run o files input nanos = ⟨⟨findings.exit, "", String.join findings.warnings⟩, after⟩ := by
  have hsave : Files.save path (String.ofList (findings.report o false nanos)) files =
      (.ok (), after) := by
    unfold Files.save
    rw [hwrite]
  exact run_of_save h houtput hsave

theorem exit_of_unwritable (h : examine o files.find input = .ok findings) {path : String}
    (houtput : o.output = some path) {nanos : Nat} {e : FileError}
    (hwrite : files.write path (String.ofList (findings.report o false nanos)).toUTF8 = .error e) :
    (run o files input nanos).exit = failureExit := by
  have hsave : Files.save path (String.ofList (findings.report o false nanos)) files =
      (.error e, files) := by
    unfold Files.save
    rw [hwrite]
  rw [run_of_save h houtput hsave]
  rfl

/-- A run fails only if it has no findings or its report cannot be written. -/
theorem exit_of_examine (h : examine o files.find input = .ok findings) (hwrite : o.CanWrite files)
    (nanos : Nat) : (run o files input nanos).exit ≠ failureExit := by
  cases houtput : o.output with
  | none =>
    rw [run_to_stdout h houtput]
    exact findings.exit_ne_failureExit
  | some path =>
    obtain ⟨above, name, hwritable⟩ := hwrite path houtput
    rw [run_to_file h houtput (Files.write_of_writable hwritable)]
    exact findings.exit_ne_failureExit

/-- A run that does not fail tells its findings by its exit code, its warnings and its report. -/
theorem exists_findings {nanos : Nat} (h : (run o files input nanos).exit ≠ failureExit) :
    o.CanWrite files ∧ ∃ findings, examine o files.find input = .ok findings ∧
      (run o files input nanos).exit = findings.exit ∧
      (run o files input nanos).stderr = String.join findings.warnings ∧
      (run o files input nanos).report? o =
        some (o.delivered (findings.report o false nanos)) := by
  cases hexamine : examine o files.find input with
  | error e =>
    rw [run_of_error hexamine] at h
    exact absurd rfl h
  | ok findings =>
    unfold Outcome.report? Options.delivered
    cases houtput : o.output with
    | none =>
      refine ⟨fun path hpath => ?_, findings, rfl, ?_⟩
      · rw [houtput] at hpath
        cases hpath
      · rw [run_to_stdout hexamine houtput]
        exact ⟨rfl, rfl, by simp⟩
    | some path =>
      cases hwrite : files.write path (String.ofList (findings.report o false nanos)).toUTF8 with
      | error e => exact absurd (exit_of_unwritable hexamine houtput hwrite) h
      | ok after =>
        obtain ⟨above, name, hwritable, -⟩ := Files.write_eq_ok_iff.1 hwrite
        refine ⟨fun path' hpath' => ?_, findings, rfl, ?_⟩
        · rw [houtput] at hpath'
          cases hpath'
          exact ⟨above, name, hwritable⟩
        · rw [run_to_file hexamine houtput hwrite]
          refine ⟨rfl, rfl, ?_⟩
          dsimp only
          rw [Files.readText_write hwrite]
          simp [Except.toOption]

end Delivery

end ColumnLint.Command
