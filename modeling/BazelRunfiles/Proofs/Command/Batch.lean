import BazelRunfiles.Proofs.Command.Environment

/-!
A run of the command as a batch of look-ups. The run goes through its paths once and keeps a report;
what one more path does to it is the step, and `Answers` is what the steps keep: the report speaks
of all paths so far, in their order, and of nothing else. So the report of a run is the one that the
resolver of the library would give path by path, and a run over two lists of paths reports what two
runs would. A run whose option for the source repository is given nothing breaks off at the first
path that has to be mapped, after it has answered the paths before.
-/

namespace BazelRunfiles

namespace Command

/-- The warnings in a report. -/
def Report.warnings (report : Report) : List Record := report.log.filter (·.level = .warning)

/-- What a report says of the paths that have been looked up. It has all locations in the order of
their paths, each on its line, and a warning of each path without one, behind a record of the
resolver if that is asked for; any path without a location makes the run a failure. -/
structure Answers (platform : Platform) (o : Options) (r : Resolver) (paths : List Text)
    (report : Report) : Prop where
  output : report.output =
    (paths.filterMap fun path => r.find? platform path none).flatMap (· ++ ['\n'])
  log : report.log =
    (if o.verbose then
      [⟨.info, "using Runfiles(".toList ++ r.store.describe ++ ", source_repository=".toList ++
        o.source.quoted ++ ")".toList⟩]
    else []) ++
      (paths.filter fun path => r.find? platform path none = none).map fun path =>
        ⟨.warning, "runfile ".toList ++ path ++ " not found".toList⟩
  status : report.status = if ∃ path ∈ paths, r.find? platform path none = none then 1 else 0

/-- Whether a path has to be mapped: it may be looked up, and what it has before a slash may
be the name of a repository. -/
def IsMapped (platform : Platform) (path : Text) : Prop :=
  Path.isAdmissible path ∧ ¬ Path.isAbsolute platform path ∧ '/' ∈ path

section

variable {platform : Platform} {o : Options} {r : Resolver} {report : Report} {paths : List Text}

/-! ### One path, and all -/

theorem using_describeAs (r : Resolver) (source : Text) :
    ("using " : Text) ++ r.describeAs source =
      "using Runfiles(".toList ++ r.store.describe ++ ", source_repository=".toList ++ source ++
        ")".toList := by
  have hdescribe : r.describeAs source =
      "Runfiles(".toList ++ r.store.describe ++ ", source_repository=".toList ++ source ++
        ")".toList := rfl
  have hwords : "using Runfiles(".toList = "using ".toList ++ "Runfiles(".toList := by decide
  rw [hdescribe, hwords]
  simp only [List.append_assoc]

theorem answers_nil : Answers platform o r [] (o.firstReport r) := by
  refine ⟨rfl, ?_, ?_⟩
  · rw [Options.firstReport, using_describeAs, List.filter_nil, List.map_nil, List.append_nil]
  · rw [if_neg (by simp)]
    rfl

/-- What is said of some paths does not depend on which paths are asked for. -/
theorem Answers.withPaths {asked : List Text}
    (h : Answers platform { o with paths := asked } r paths report) :
    Answers platform o r paths report := ⟨h.output, h.log, h.status⟩

/-- One more path is answered, whether those before it have locations or not. -/
theorem answers_step (path : Text) (h : Answers platform o r paths report) :
    Answers platform o r (paths ++ [path])
      (report.lookUp (fun path => r.find? platform path none) path) := by
  obtain ⟨houtput, hlog, hstatus⟩ := h
  rw [Report.lookUp]
  cases hpath : r.find? platform path none with
  | some location =>
    refine ⟨?_, ?_, ?_⟩
    · simp [houtput, hpath]
    · simp [hlog, hpath]
    · simp [hstatus, hpath]
  | none =>
    refine ⟨?_, ?_, ?_⟩
    · simp [houtput, hpath]
    · simp [hlog, hpath, notFound]
    · simp [hpath]

theorem answers_fold (platform : Platform) (o : Options) (r : Resolver) (paths : List Text) :
    Answers platform o r paths
      ((o.firstReport r).lookUpAll (fun path => r.find? platform path none) paths) := by
  suffices h : ∀ (rest done : List Text) (report : Report), Answers platform o r done report →
      Answers platform o r (done ++ rest)
        (report.lookUpAll (fun path => r.find? platform path none) rest) from
    h paths [] _ answers_nil
  intro rest
  induction rest with
  | nil =>
    intro done report h
    simpa [Report.lookUpAll] using h
  | cons path rest ih =>
    intro done report h
    have hstep := ih (done ++ [path]) _ (answers_step path h)
    rwa [List.append_assoc] at hstep

theorem answers_answer (platform : Platform) (r : Resolver) (noVariables : ¬ o.childVariables) :
    Answers platform o r o.paths (answer platform o r) := by
  rw [answer, if_neg noVariables]
  exact answers_fold platform o r o.paths

/-! ### Two lists of paths -/

/-- The record of the resolver is no warning. -/
theorem Answers.warnings (h : Answers platform o r paths report) :
    report.warnings = (paths.filter fun path => r.find? platform path none = none).map fun path =>
      ⟨.warning, "runfile ".toList ++ path ++ " not found".toList⟩ := by
  rw [Report.warnings, h.log, List.filter_append, List.filter_map]
  split <;> simp [Function.comp_def]

theorem Answers.append {xs ys : List Text} {first second : Report}
    (h : Answers platform o r (xs ++ ys) report) (hfirst : Answers platform o r xs first)
    (hsecond : Answers platform o r ys second) :
    report.output = first.output ++ second.output ∧
      report.warnings = first.warnings ++ second.warnings := by
  refine ⟨?_, ?_⟩
  · rw [h.output, hfirst.output, hsecond.output, List.filterMap_append, List.flatMap_append]
  · rw [h.warnings, hfirst.warnings, hsecond.warnings, List.filter_append, List.map_append]

/-! ### Paths that have to be mapped -/

theorem asksMapping_iff {path : Text} :
    Resolver.asksMapping platform path ↔ IsMapped platform path := by
  simp [Resolver.asksMapping, IsMapped, and_assoc]

theorem lackSource_iff (noVariables : ¬ o.childVariables) :
    o.lackSource platform ↔ o.source = .nothing ∧ ∃ path ∈ o.paths, IsMapped platform path := by
  simp [Options.lackSource, noVariables, asksMapping_iff]

/-- The paths that are looked up are all those before the first one that has to be mapped. -/
theorem paths_beforeMapped {before after : List Text} {path : Text}
    (hpaths : o.paths = before ++ path :: after) (hbefore : ∀ p ∈ before, ¬ IsMapped platform p)
    (hpath : IsMapped platform path) : (o.beforeMapped platform).paths = before := by
  have hkept : ∀ p ∈ before, (!Resolver.asksMapping platform p) = true := by
    intro p hp
    rw [Bool.not_eq_true', ← Bool.not_eq_true, asksMapping_iff]
    exact hbefore p hp
  have hstop : (path :: after).takeWhile (fun p => !Resolver.asksMapping platform p) = [] := by
    rw [List.takeWhile_cons, asksMapping_iff.mpr hpath]
    rfl
  rw [Options.beforeMapped, hpaths, List.takeWhile_append_of_pos hkept, hstop, List.append_nil]

end

/-! ### The run -/

variable {host : Host} {arguments : List Text} {o : Options} {r : Resolver}

/-- Whether the arguments of a program are accepted and ask for these options. -/
def Accepts (host : Host) (arguments : List Text) (o : Options) : Prop :=
  host.arguments ≠ [] ∧ Request.ofArguments arguments = .run o

theorem run_of_accepts (accepted : Accepts host arguments o) :
    run host arguments = perform host o := by
  obtain ⟨hprogram, hrequest⟩ := accepted
  rw [run, if_neg hprogram, hrequest]

/-- A manifest file that is given as an option, and is there, is the location. -/
theorem discover_of_manifestFile {file : Text} (hfile : o.manifestFile = some (.text file))
    (hisFile : host.files.isFile file) (caller : Caller) :
    Resolver.discover host.files (o.hints host) caller =
      Resolver.ofManifestFile host.files file caller.source := by
  have hhint : (o.hints host).manifestFile = file := by
    have hvalue := o.value_manifestFile_replaceIn host.environment
    rwa [if_pos (.inl (by simp [hfile])), hfile] at hvalue
  have hne := FileSystem.ne_nil_of_isFile hisFile
  have hprobe : host.files.probes.isFile file := hisFile
  have hlocation : Location.discover host.files.probes (o.hints host) = .ok (.manifest file) := by
    rw [Location.discover, hhint, if_pos (.inl hne), Location.explicit, if_pos ⟨hne, hprobe⟩]
  rw [Resolver.discover, hlocation]
  rfl

/-- With runfiles at hand, and a source repository where one is needed, there is a report. -/
theorem exists_perform_eq_report
    (setup : Resolver.discover host.files (o.hints host) (.repository o.source.toText) = .ok r)
    (noVariables : ¬ o.childVariables)
    (hasSource : o.source ≠ .nothing ∨ ∀ path ∈ o.paths, ¬ IsMapped host.platform path) :
    ∃ report, perform host o = .report report ∧ Answers host.platform o r o.paths report := by
  have hlack : ¬ o.lackSource host.platform := by
    rw [lackSource_iff noVariables]
    rintro ⟨hnothing, path, hmem, hpath⟩
    rcases hasSource with h | h
    · exact h hnothing
    · exact h path hmem hpath
  refine ⟨_, ?_, answers_answer host.platform r noVariables⟩
  rw [perform, setup]
  simp only
  rw [if_neg hlack]

/-- Without a source repository the paths before the first one that needs it are answered. -/
theorem exists_perform_eq_lack {before after : List Text} {path : Text}
    (setup : Resolver.discover host.files (o.hints host) (.repository o.source.toText) = .ok r)
    (noVariables : ¬ o.childVariables) (noSource : o.source = .nothing)
    (hpaths : o.paths = before ++ path :: after)
    (hbefore : ∀ p ∈ before, ¬ IsMapped host.platform p) (hpath : IsMapped host.platform path) :
    ∃ report, Answers host.platform o r before report ∧
      perform host o = .lack .source report.output report.log := by
  have hlack : o.lackSource host.platform :=
    (lackSource_iff noVariables).mpr ⟨noSource, path, by simp [hpaths], hpath⟩
  have hanswers := answers_answer (o := o.beforeMapped host.platform) host.platform r noVariables
  rw [paths_beforeMapped hpaths hbefore hpath] at hanswers
  refine ⟨_, hanswers.withPaths, ?_⟩
  rw [perform, setup]
  simp only
  rw [if_pos hlack]

/-- What a run prints and warns of for two lists of paths is what it
prints and warns of for either. -/
theorem perform_append {xs ys : List Text} {report : Report}
    (setup : Resolver.discover host.files (o.hints host) (.repository o.source.toText) = .ok r)
    (noVariables : ¬ o.childVariables)
    (hasSource : o.source ≠ .nothing ∨ ∀ path ∈ o.paths, ¬ IsMapped host.platform path)
    (hanswers : Answers host.platform o r o.paths report) (hpaths : o.paths = xs ++ ys) :
    ∃ first second, perform host { o with paths := xs } = .report first ∧
      perform host { o with paths := ys } = .report second ∧
      report.output = first.output ++ second.output ∧
      report.warnings = first.warnings ++ second.warnings := by
  have hsource (part : List Text) (hpart : part ⊆ o.paths) :
      o.source ≠ .nothing ∨ ∀ path ∈ part, ¬ IsMapped host.platform path :=
    hasSource.imp_right fun h path hmem => h path (hpart hmem)
  rw [hpaths] at hanswers hsource
  obtain ⟨first, hfirst, hx⟩ := exists_perform_eq_report (o := { o with paths := xs }) setup
    noVariables (hsource xs (List.subset_append_left xs ys))
  obtain ⟨second, hsecond, hy⟩ := exists_perform_eq_report (o := { o with paths := ys }) setup
    noVariables (hsource ys (List.subset_append_right xs ys))
  exact ⟨first, second, hfirst, hsecond, hanswers.append hx.withPaths hy.withPaths⟩

/-- A run that has runfiles answers all paths it is given, one by one and in order. What it prints
and warns of for two lists of paths is what it prints and warns of for either. Only if the option
for the source repository leaves none, and a path has to be mapped, the run breaks off there. -/
theorem run_answers {vars : Variables} (accepted : Accepts host arguments o)
    (noVariables : ¬ o.childVariables) (replaced : o.Replaced host.environment vars)
    (setup : Resolver.discover host.files (host.hints (some vars) (o.program.map Value.toText))
      (.repository o.source.toText) = .ok r) :
    o.paths ≠ [] ∧
    (¬ Flag.IsGiven .source arguments → o.source = .text []) ∧
    (∀ file, o.manifestFile = some (.text file) → host.files.isFile file →
      Resolver.ofManifestFile host.files file o.source.toText = .ok r) ∧
    (o.source ≠ .nothing ∨ (∀ path ∈ o.paths, ¬ IsMapped host.platform path) →
      ∃ report, run host arguments = .report report ∧
        Answers host.platform o r o.paths report ∧
        ∀ xs ys, o.paths = xs ++ ys →
          ∃ first second,
            perform host { o with paths := xs } = .report first ∧
            perform host { o with paths := ys } = .report second ∧
            report.output = first.output ++ second.output ∧
            report.warnings = first.warnings ++ second.warnings) ∧
    ∀ before path after, o.source = .nothing → o.paths = before ++ path :: after →
      (∀ p ∈ before, ¬ IsMapped host.platform p) → IsMapped host.platform path →
        ∃ report, Answers host.platform o r before report ∧
          run host arguments = .lack .source report.output report.log := by
  rw [replaced.hints_eq] at setup
  refine ⟨paths_ne_nil accepted.2 noVariables, source_of_not_isGiven accepted.2, ?_, ?_, ?_⟩
  · intro file hfile hisFile
    rw [← setup, discover_of_manifestFile hfile hisFile]
    rfl
  · intro hasSource
    obtain ⟨report, hreport, hanswers⟩ := exists_perform_eq_report setup noVariables hasSource
    refine ⟨report, (run_of_accepts accepted).trans hreport, hanswers, fun xs ys hpaths => ?_⟩
    exact perform_append setup noVariables hasSource hanswers hpaths
  · intro before path after noSource hpaths hbefore hpath
    rw [run_of_accepts accepted]
    exact exists_perform_eq_lack setup noVariables noSource hpaths hbefore hpath

/-- A program that inherits the name of a directory. There is a manifest file besides. -/
def inheritingHost : Host where
  platform := .posix
  files :=
    { workingDirectory := "/w".toList
      kind? := fun name => if name = "m".toList then some .file else none
      contents := fun _ => .ok (Utf8.encode "a /x/a\n".toList)
      target? := fun _ => none
      kind?_nil := by decide }
  environment := Table.ofList [("RUNFILES_DIR".toList, "d".toList)]
  arguments := ["p".toList]

/-- Misses before and between two equal hits. -/
theorem run_of_interleavedMisses :
    let arguments := ["--verbose", "--manifest-file=m", "c", "a", "d", "a"].map String.toList
    let vars : Variables := Table.ofList [("RUNFILES_MANIFEST_FILE".toList, "m".toList)]
    ∃ o r report, Accepts inheritingHost arguments o ∧ ¬ o.childVariables ∧
      o.Replaced inheritingHost.environment vars ∧
      Resolver.discover inheritingHost.files
        (inheritingHost.hints (some vars) (o.program.map Value.toText)) (.repository []) = .ok r ∧
      Resolver.ofManifestFile inheritingHost.files "m".toList [] = .ok r ∧
      run inheritingHost arguments = .report report ∧
      report.status = 1 ∧
      report.output = "/x/a\n/x/a\n".toList ∧
      report.log =
        [⟨.info, "using Runfiles(ManifestBased('m'), source_repository='')".toList⟩,
          ⟨.warning, "runfile c not found".toList⟩,
          ⟨.warning, "runfile d not found".toList⟩] := by
  intro arguments vars
  let o : Options :=
    { Options.none with
      manifestFile := some (.text "m".toList)
      verbose := true
      paths := ["c", "a", "d", "a"].map String.toList }
  let r : Resolver := ⟨.manifest "m".toList (.ofLines ["a /x/a\n".toList]), .empty, []⟩
  have accepted : Accepts inheritingHost arguments o := ⟨by decide, rfl⟩
  have replaced : o.Replaced inheritingHost.environment vars := by
    refine ⟨rfl, rfl, fun name hmanifest hdirectory => ?_⟩
    have hvars : vars.find? name = none :=
      (Table.find?_insert Table.empty _ _ _).trans (if_neg hmanifest)
    have hinherited : inheritingHost.environment.find? name = none :=
      (Table.find?_insert Table.empty _ _ _).trans (if_neg hdirectory)
    rw [hvars, hinherited]
  have setup : Resolver.discover inheritingHost.files
      (inheritingHost.hints (some vars) (o.program.map Value.toText)) (.repository []) = .ok r :=
    rfl
  obtain ⟨-, -, hmanifest, hanswered, -⟩ := run_answers accepted (by decide) replaced setup
  obtain ⟨report, hrun, hanswers, -⟩ := hanswered (.inl (by decide))
  exact ⟨o, r, report, accepted, by decide, replaced, setup, hmanifest _ rfl rfl, hrun,
    hanswers.status, hanswers.output, hanswers.log⟩

/-- A double dash behind `=` is no name of a repository. The runfiles are found and have the
path, and there is no report. -/
theorem run_of_sourceDashes :
    let arguments := ["--source-repository=--".toList, "a/b".toList]
    let vars := inheritingHost.environment
    ∃ o, Accepts inheritingHost arguments o ∧ ¬ o.childVariables ∧
      o.Replaced inheritingHost.environment vars ∧
      (∀ source, ∃ r,
        Resolver.discover inheritingHost.files
          (inheritingHost.hints (some vars) (o.program.map Value.toText))
          (.repository source) = .ok r ∧
        r.find? .posix "a/b".toList none = some "d/a/b".toList) ∧
      run inheritingHost arguments = .lack .source [] [] := by
  intro arguments vars
  refine ⟨{ Options.none with source := .nothing, paths := ["a/b".toList] }, ⟨by decide, rfl⟩,
    by decide, ⟨rfl, rfl, fun _ _ _ => rfl⟩, ?_, rfl⟩
  intro source
  exact ⟨⟨.directory "d".toList, .empty, source⟩, rfl, rfl⟩

end Command

end BazelRunfiles
