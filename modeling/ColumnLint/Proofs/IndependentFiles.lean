import ColumnLint.Proofs.ReportAgreement

/-
  Runs on several paths. The mark `--` makes paths of all that follows (`ofArguments_mark`), and each
  text has its own section of the report and its own share of the counts, so a run on two lists of
  paths is the runs on each of them put together (`run_of_append`).
-/

namespace ColumnLint.Command

open Text Sql

/-! ## Paths among arguments -/

/-- The options with more paths behind those that they have. -/
def Options.withPaths (o : Options) (paths : List String) : Options :=
  { o with paths := o.paths ++ paths }

namespace Progress

theorem onlyPaths_settle {p p' : Progress} (h : p.settle = .ok p') :
    p'.onlyPaths = p.onlyPaths := by
  unfold settle assign at h
  split at h
  · cases h
    rfl
  · split at h <;> cases h
    rfl
  · cases h
  · split at h
    · cases h
    · split at h <;> cases h
      rfl

theorem settle_paths {p : Progress} {list : List String} (h : p.pending = some (.paths list)) :
    p.settle = if "" ∈ list then .error .invalidValue
      else .ok { p with options := p.options.withPaths list, pending := none } := by
  have hempty : list.any String.isEmpty = true ↔ "" ∈ list := by simp
  unfold settle
  rw [h]
  simp only [hempty]
  rfl

/-- A path joins the list of paths that is pending, or starts one. -/
theorem path_eq_ok {p p' : Progress} (h : p.settle = .ok p') (x : String) :
    ∃ (q : Progress) (list : List String),
      p.path x = .ok { q with pending := some (.paths (list ++ [x])) } ∧
      q.onlyPaths = p.onlyPaths ∧ "" ∉ list ∧ p'.options = q.options.withPaths list := by
  unfold path
  split
  · rename_i list hpending
    rw [settle_paths hpending] at h
    split at h <;> cases h
    rename_i hnone
    exact ⟨p, list, rfl, rfl, hnone, rfl⟩
  · rw [h]
    refine ⟨p', [], rfl, onlyPaths_settle h, List.not_mem_nil, ?_⟩
    unfold Options.withPaths
    rw [List.append_nil]

theorem foldlM_next_paths {p : Progress} {list : List String} (honly : p.onlyPaths = true)
    (paths : List String) :
    paths.foldlM next { p with pending := some (.paths list) } =
      .ok { p with pending := some (.paths (list ++ paths)) } := by
  induction paths generalizing list with
  | nil =>
    rw [List.append_nil]
    rfl
  | cons x paths ih =>
    have hnext : next { p with pending := some (.paths list) } x =
        .ok { p with pending := some (.paths (list ++ [x])) } := by
      unfold next path
      rw [if_pos honly]
    rw [List.foldlM_cons, hnext, List.append_cons list x paths]
    exact ih

/-- Paths are read one by one, and checked all together at the end. -/
theorem exists_foldlM_next {p p' : Progress} (honly : p.onlyPaths = true)
    (h : p.settle = .ok p') {paths : List String} (hne : paths ≠ []) :
    ∃ q, paths.foldlM next p = .ok q ∧
      ("" ∈ paths → q.settle = .error .invalidValue) ∧
      ("" ∉ paths → ∃ q', q.settle = .ok q' ∧ q'.options = p'.options.withPaths paths) := by
  obtain ⟨x, paths, rfl⟩ := List.exists_cons_of_ne_nil hne
  obtain ⟨q, list, hpath, hq, hlist, hoptions⟩ := path_eq_ok h x
  have hnext : next p x = p.path x := by
    unfold next
    rw [if_pos honly]
  refine ⟨{ q with pending := some (.paths (list ++ x :: paths)) }, ?_, fun hempty => ?_,
    fun hempty => ?_⟩
  · rw [List.foldlM_cons, hnext, hpath, List.append_cons list x paths]
    exact foldlM_next_paths (hq.trans honly) paths
  · rw [settle_paths rfl, if_pos (List.mem_append_right _ hempty)]
  · rw [settle_paths rfl, if_neg (by simp [hlist, hempty])]
    refine ⟨_, rfl, ?_⟩
    rw [hoptions]
    unfold Options.withPaths
    rw [List.append_assoc]

theorem onlyPaths_of_next_mark {p q : Progress} (h : p.next "--" = .ok q) :
    q.onlyPaths = true ∨ ∃ list, q.pending = some (.paths (list ++ ["--"])) := by
  unfold next at h
  split at h
  -- behind an earlier mark, the mark is a path itself
  · unfold path at h
    split at h
    · cases h
      exact .inr ⟨_, rfl⟩
    · cases hsettle : p.settle with
      | error e =>
        rw [hsettle] at h
        cases h
      | ok p' =>
        rw [hsettle] at h
        cases h
        exact .inr ⟨[], rfl⟩
  · have hmark : "--".toList = ['-', '-'] := rfl
    rw [hmark] at h
    cases h
    exact .inl rfl

end Progress

theorem ofArguments_eq_ok_iff {arguments : List String} {o : Options} :
    Options.ofArguments arguments = .ok o ↔
      ∃ p p', arguments.foldlM Progress.next {} = .ok p ∧ p.settle = .ok p' ∧ p'.options = o ∧
        (o.verbose && o.quiet) = false := by
  unfold Options.ofArguments
  constructor
  · intro h
    cases hfold : arguments.foldlM Progress.next {} with
    | error e =>
      rw [hfold] at h
      cases h
    | ok p =>
      rw [hfold] at h
      cases hsettle : p.settle with
      | error e =>
        dsimp only [bind, Except.bind] at h
        rw [hsettle] at h
        cases h
      | ok p' =>
        dsimp only [bind, Except.bind] at h
        rw [hsettle] at h
        dsimp only at h
        split at h
        · cases h
        · cases h
          rename_i hflags
          exact ⟨p, p', rfl, hsettle, rfl, Bool.eq_false_iff.2 hflags⟩
  · rintro ⟨p, p', hfold, hsettle, rfl, hflags⟩
    rw [hfold]
    dsimp only [bind, Except.bind]
    rw [hsettle]
    dsimp only
    rw [hflags]
    rfl

/-- Behind the mark `--` all arguments are paths, and none of them may be empty. -/
theorem ofArguments_mark {switches : List String} {o : Options}
    (ho : Options.ofArguments (switches ++ ["--"]) = .ok o) (hnone : o.paths = [])
    {paths : List String} (hne : paths ≠ []) :
    Options.ofArguments (switches ++ "--" :: paths) =
      if "" ∈ paths then .error .invalidValue else .ok { o with paths := paths } := by
  obtain ⟨p, p', hfold, hsettle, rfl, hflags⟩ := ofArguments_eq_ok_iff.1 ho
  have honly : p.onlyPaths = true := by
    rw [List.foldlM_append] at hfold
    cases hswitches : switches.foldlM Progress.next {} with
    | error e =>
      rw [hswitches] at hfold
      cases hfold
    | ok p₀ =>
      rw [hswitches] at hfold
      have hnext : p₀.next "--" = .ok p := by
        rw [← hfold]
        exact (bind_pure _).symm
      -- the mark is not read as a path, since there is none
      refine (Progress.onlyPaths_of_next_mark hnext).resolve_right ?_
      rintro ⟨list, hpending⟩
      rw [Progress.settle_paths hpending] at hsettle
      split at hsettle <;> cases hsettle
      simp [Options.withPaths] at hnone
  obtain ⟨q, hq, hbad, hgood⟩ := Progress.exists_foldlM_next honly hsettle hne
  have hall : (switches ++ "--" :: paths).foldlM Progress.next {} = .ok q := by
    rw [List.append_cons, List.foldlM_append, hfold]
    exact hq
  by_cases hempty : "" ∈ paths
  · rw [if_pos hempty]
    unfold Options.ofArguments
    rw [hall]
    dsimp only [bind, Except.bind]
    rw [hbad hempty]
  · rw [if_neg hempty]
    obtain ⟨q', hq', hoptions⟩ := hgood hempty
    refine ofArguments_eq_ok_iff.2 ⟨q, q', hall, hq', ?_, hflags⟩
    rw [hoptions]
    unfold Options.withPaths
    rw [hnone, List.nil_append]

/-! ## Texts of two lists of paths -/

section Append

variable {find : String → Except FileError Tree} {input : ByteArray} {paths others : List String}
  {sources more : List Source}

theorem exists_mapM_of_readSources (hne : paths ≠ [])
    (h : readSources find input paths = .ok sources) :
    ∃ found, paths.mapM (readPath find) = .ok found ∧ found.flatten = sources := by
  rw [readSources_of_ne_nil hne] at h
  cases hread : paths.mapM (readPath find) with
  | error e =>
    rw [hread] at h
    cases h
  | ok found =>
    rw [hread] at h
    cases h
    exact ⟨found, rfl, rfl⟩

theorem readSources_append (hne : paths ≠ []) (hne' : others ≠ [])
    (h : readSources find input paths = .ok sources)
    (h' : readSources find input others = .ok more) :
    readSources find input (paths ++ others) = .ok (sources ++ more) := by
  obtain ⟨found, hfound, rfl⟩ := exists_mapM_of_readSources hne h
  obtain ⟨found', hfound', rfl⟩ := exists_mapM_of_readSources hne' h'
  rw [readSources_of_ne_nil (List.append_ne_nil_of_left_ne_nil hne others), List.mapM_append, hfound,
    hfound', ← List.flatten_append]
  rfl

theorem exit_findings_append (o : Options) (l : Linter) (sources more : List Source) :
    (o.findings l (sources ++ more)).exit =
      max (o.findings l sources).exit (o.findings l more).exit := by
  have hviolations : (o.findings l (sources ++ more)).hasViolations =
      ((o.findings l sources).hasViolations || (o.findings l more).hasViolations) := by
    unfold Findings.hasViolations Options.findings
    rw [List.map_append, List.any_append]
  unfold Findings.exit
  rw [hviolations]
  cases (o.findings l sources).hasViolations <;> cases (o.findings l more).hasViolations <;> rfl

theorem warnings_findings_append (o : Options) (l : Linter) (sources more : List Source) :
    (o.findings l (sources ++ more)).warnings =
      (o.findings l sources).warnings ++ (o.findings l more).warnings := by
  unfold Options.findings
  cases o.quiet <;> simp

end Append

/-! ## Runs on two lists of paths -/

section Runs

variable {switches paths : List String} {o : Options} {files : Files} {input : ByteArray}

/-- What is known of a run behind the mark that ends with the exit code 0 or 1. -/
theorem exists_sources_of_exit_le (ho : Options.ofArguments (switches ++ ["--"]) = .ok o)
    (hnone : o.paths = []) (hne : paths ≠ []) {nanos : Nat}
    (h : (runArguments (switches ++ "--" :: paths) files input nanos).exit ≤ 1) :
    "" ∉ paths ∧ o.CanWrite files ∧
      ∃ l sources, o.linter = .ok l ∧ readSources files.find input paths = .ok sources := by
  have hread := ofArguments_mark ho hnone hne
  by_cases hempty : "" ∈ paths
  · unfold runArguments at h
    rw [hread, if_pos hempty] at h
    exact absurd (show 2 ≤ 1 from h) (by decide)
  · rw [if_neg hempty] at hread
    rw [runArguments_of_ok hread] at h
    have hfine : (run { o with paths := paths } files input nanos).exit ≠ failureExit := by
      unfold failureExit
      omega
    obtain ⟨hwrite, findings, hexamine, -⟩ := exists_findings hfine
    obtain ⟨l, sources, hlinter, hsources, -⟩ := examine_eq_ok_iff.1 hexamine
    exact ⟨hempty, hwrite, l, sources, hlinter, hsources⟩

/-- The outcome of a run behind the mark on texts that can be read. -/
theorem outcome_of_mark (ho : Options.ofArguments (switches ++ ["--"]) = .ok o)
    (hnone : o.paths = []) (hne : paths ≠ []) (hempty : "" ∉ paths) (hwrite : o.CanWrite files)
    {l : Linter} {sources : List Source} (hlinter : o.linter = .ok l)
    (hread : readSources files.find input paths = .ok sources) (nanos : Nat) :
    (runArguments (switches ++ "--" :: paths) files input nanos).exit =
        (o.findings l sources).exit ∧
      (runArguments (switches ++ "--" :: paths) files input nanos).stderr =
        String.join (o.findings l sources).warnings ∧
      (runArguments (switches ++ "--" :: paths) files input nanos).report? o =
        some (o.delivered ((o.findings l sources).report o false nanos)) := by
  have hoptions := ofArguments_mark ho hnone hne
  rw [if_neg hempty] at hoptions
  rw [runArguments_of_ok hoptions]
  have hlinter' : Options.linter { o with paths := paths } = .ok l := hlinter
  exact outcome_of_sources hlinter' hread ((exit_ne_failureExit_iff hlinter' hread).2 hwrite)

end Runs

/-- A run on two lists of paths is the runs on each of them put together. Its table has the sections
of both and the sums of their numbers, its JSON has the entries of both, and its exit code is the
larger one. Whether a text can be parsed makes no difference to the others. -/
theorem run_of_append {switches : List String} {o : Options}
    (ho : Options.ofArguments (switches ++ ["--"]) = .ok o) (hnone : o.paths = [])
    {paths others : List String} (hpaths : paths ≠ []) (hothers : others ≠ [])
    {files : Files} {input : ByteArray} {m n k : Nat} {a b c : Outcome}
    (ha : runArguments (switches ++ "--" :: paths) files input m = a)
    (hb : runArguments (switches ++ "--" :: others) files input n = b)
    (hc : runArguments (switches ++ "--" :: (paths ++ others)) files input k = c)
    (ha' : a.exit ≤ 1) (hb' : b.exit ≤ 1) :
    c.exit = max a.exit b.exit ∧ c.stderr = a.stderr ++ b.stderr ∧
    ∃ l sources more, o.linter = .ok l ∧ readSources files.find input paths = .ok sources ∧
      readSources files.find input others = .ok more ∧
      (o.format = .table → ∃ t u : TableView,
        t = .ofReports (sources.map (Source.report l o.dialect)) ∧
        u = .ofReports (more.map (Source.report l o.dialect)) ∧
        a.report? o = some (t.print m) ∧ b.report? o = some (u.print n) ∧
        c.report? o = some ((t.append u).print k)) ∧
      (o.format = .json → ∃ entries rest : List Json,
        entries = sources.map (fun s => (s.report l o.dialect).toJson) ∧
        rest = more.map (fun s => (s.report l o.dialect).toJson) ∧
        a.report? o = some (o.delivered (jsonText o.compact (.array entries))) ∧
        b.report? o = some (o.delivered (jsonText o.compact (.array rest))) ∧
        c.report? o = some (o.delivered (jsonText o.compact (.array (entries ++ rest))))) := by
  subst ha hb hc
  obtain ⟨hempty, hwrite, l, sources, hlinter, hread⟩ :=
    exists_sources_of_exit_le ho hnone hpaths ha'
  obtain ⟨hempty', -, l', more, hlinter', hread'⟩ := exists_sources_of_exit_le ho hnone hothers hb'
  obtain rfl : l = l' := Except.ok.inj (hlinter.symm.trans hlinter')
  have hboth := readSources_append hpaths hothers hread hread'
  have hne : paths ++ others ≠ [] := List.append_ne_nil_of_left_ne_nil hpaths others
  obtain ⟨hexit, hstderr, hreport⟩ := outcome_of_mark ho hnone hpaths hempty hwrite hlinter hread m
  obtain ⟨hexit', hstderr', hreport'⟩ :=
    outcome_of_mark ho hnone hothers hempty' hwrite hlinter hread' n
  obtain ⟨hexit₂, hstderr₂, hreport₂⟩ :=
    outcome_of_mark ho hnone hne (by simp [hempty, hempty']) hwrite hlinter hboth k
  have hfiles : (o.findings l (sources ++ more)).files =
      sources.map (Source.report l o.dialect) ++ more.map (Source.report l o.dialect) :=
    List.map_append
  refine ⟨?_, ?_, l, sources, more, hlinter, hread, hread', fun hformat => ?_, fun hformat => ?_⟩
  · rw [hexit, hexit', hexit₂, exit_findings_append]
  · rw [hstderr, hstderr', hstderr₂, warnings_findings_append, String.join_append]
  · rw [delivered_table hformat] at hreport hreport' hreport₂
    rw [hfiles, ofReports_append] at hreport₂
    exact ⟨_, _, rfl, rfl, hreport, hreport', hreport₂⟩
  · rw [report_json hformat] at hreport hreport' hreport₂
    rw [hfiles, List.map_append] at hreport₂
    refine ⟨_, _, ?_, ?_, hreport, hreport', hreport₂⟩
    · exact List.map_map
    · exact List.map_map

set_option maxRecDepth 100000 in
theorem run_of_broken_append_sound :
    (runArguments ["-q", "--", "a.sql"] brokenAndSound .empty 3).exit = 1 ∧
      (runArguments ["-q", "--", "b.sql"] brokenAndSound .empty 4).exit ≤ 1 ∧
      (runArguments ["-q", "--", "a.sql", "b.sql"] brokenAndSound .empty 5).exit = 1 := by
  have ho : Options.ofArguments (["-q"] ++ ["--"]) = .ok { quiet := true } := by decide +kernel
  obtain ⟨l, hlinter⟩ : ∃ l, Options.linter { quiet := true } = .ok l := ⟨_, rfl⟩
  have hwrite : Options.CanWrite { quiet := true } brokenAndSound := fun path hpath => by cases hpath
  have hbroken : readSources brokenAndSound.find .empty ["a.sql"] =
      .ok [⟨"a.sql", "SELECT )".toList⟩] := by decide +kernel
  have hsound : readSources brokenAndSound.find .empty ["b.sql"] =
      .ok [⟨"b.sql", "SELECT a FROM t".toList⟩] := by decide +kernel
  have hone : (runArguments ["-q", "--", "a.sql"] brokenAndSound .empty 3).exit = 1 := by
    refine (outcome_of_mark ho rfl (by decide) (by decide) hwrite hlinter hbroken 3).1.trans ?_
    exact exit_eq_one_iff.2 (exists_rows_iff.2 ⟨_, List.mem_cons_self, issues_of_broken l⟩)
  have hle : (runArguments ["-q", "--", "b.sql"] brokenAndSound .empty 4).exit ≤ 1 := by
    rw [show ["-q", "--", "b.sql"] = ["-q"] ++ "--" :: ["b.sql"] from rfl,
      (outcome_of_mark ho rfl (by decide) (by decide) hwrite hlinter hsound 4).1]
    exact Findings.exit_le_one _
  have hmax : (runArguments ["-q", "--", "a.sql", "b.sql"] brokenAndSound .empty 5).exit =
      max (runArguments ["-q", "--", "a.sql"] brokenAndSound .empty 3).exit
        (runArguments ["-q", "--", "b.sql"] brokenAndSound .empty 4).exit :=
    (run_of_append ho rfl (by decide) (by decide) rfl rfl rfl hone.le hle).1
  refine ⟨hone, hle, ?_⟩
  rw [hmax, hone]
  exact Nat.max_eq_left hle

end ColumnLint.Command
