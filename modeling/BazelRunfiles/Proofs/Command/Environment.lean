import BazelRunfiles.Command
import BazelRunfiles.Proofs.Command.Options
import BazelRunfiles.Proofs.Selection

/-!
What a run of the command takes from its environment. Two variables name locations, and an
option that names one replaces both, so that the inherited value of neither is left; an empty
option leaves an empty value, which is none. The other variables play no part, as a run never
looks for a directory by itself. Two runs are compared by what discovery goes by: where that is
the same, all that follows is.
-/

namespace BazelRunfiles

namespace Table

variable {κ ν : Type} [DecidableEq κ]

theorem find?_erase (t : Table κ ν) (k x : κ) :
    (t.erase k).find? x = if x = k then none else t.find? x := by
  obtain ⟨rows, hrows⟩ := t
  simp only [find?, erase, Rows.find?, Rows.erase]
  clear hrows
  induction rows with
  | nil => simp
  | cons row rest ih =>
    obtain ⟨k', v⟩ := row
    by_cases hk : k' = k
    · subst hk
      by_cases hx : x = k'
      · simpa [hx] using ih
      · simpa [hx, List.lookup_cons, beq_eq_false_iff_ne.mpr hx] using ih
    · by_cases hx : x = k'
      · subst hx
        simp [hk]
      · simpa [hk, List.lookup_cons, beq_eq_false_iff_ne.mpr hx] using ih

end Table

namespace Command

namespace Options

/-- Whether a location is named by an option. -/
def hasLocation (o : Options) : Prop := o.manifestFile.isSome ∨ o.runfilesDir.isSome

instance (o : Options) : Decidable o.hasLocation := inferInstanceAs (Decidable (_ ∨ _))

/-- Whether variables are those of an environment with the locations among the options in place
of its own: an option for either location replaces both, and all other variables stay. -/
structure Replaced (o : Options) (environment vars : Variables) : Prop where
  manifestFile : vars.find? "RUNFILES_MANIFEST_FILE".toList =
    if o.hasLocation then o.manifestFile.map Value.toText
    else environment.find? "RUNFILES_MANIFEST_FILE".toList
  runfilesDir : vars.find? "RUNFILES_DIR".toList =
    if o.hasLocation then o.runfilesDir.map Value.toText
    else environment.find? "RUNFILES_DIR".toList
  others : ∀ name, name ≠ "RUNFILES_MANIFEST_FILE".toList → name ≠ "RUNFILES_DIR".toList →
    vars.find? name = environment.find? name

theorem replaced_replaceIn (o : Options) (vars : Variables) :
    o.Replaced vars (o.replaceIn vars) := by
  have hne := Store.manifestFile_ne_runfilesDir
  obtain ⟨_, manifestFile, runfilesDir⟩ := o
  refine ⟨?_, ?_, ?_⟩
  · change Table.find? _ Variables.manifestFile.toList =
      if _ then _ else vars.find? Variables.manifestFile.toList
    cases manifestFile <;> cases runfilesDir <;>
      simp [replaceIn, hasLocation, Table.find?_erase, hne]
  · change Table.find? _ Variables.runfilesDir.toList =
      if _ then _ else vars.find? Variables.runfilesDir.toList
    cases manifestFile <;> cases runfilesDir <;>
      simp [replaceIn, hasLocation, Table.find?_erase, hne.symm]
  · intro name hmanifest hdirectory
    change name ≠ Variables.manifestFile.toList at hmanifest
    change name ≠ Variables.runfilesDir.toList at hdirectory
    cases manifestFile <;> cases runfilesDir <;>
      simp [replaceIn, Table.find?_erase, hmanifest, hdirectory]

/-- The options leave only one answer for each variable. -/
theorem Replaced.find?_eq {o : Options} {environment vars₁ vars₂ : Variables}
    (h₁ : o.Replaced environment vars₁) (h₂ : o.Replaced environment vars₂) (name : Text) :
    vars₁.find? name = vars₂.find? name := by
  by_cases hmanifest : name = "RUNFILES_MANIFEST_FILE".toList
  · rw [hmanifest, h₁.manifestFile, h₂.manifestFile]
  by_cases hdirectory : name = "RUNFILES_DIR".toList
  · rw [hdirectory, h₁.runfilesDir, h₂.runfilesDir]
  rw [h₁.others name hmanifest hdirectory, h₂.others name hmanifest hdirectory]

theorem value_manifestFile_replaceIn (o : Options) (vars : Variables) :
    (o.replaceIn vars).value Variables.manifestFile =
      if o.hasLocation then (o.manifestFile.map Value.toText).getD []
      else vars.value Variables.manifestFile := by
  have hfind : (o.replaceIn vars).find? Variables.manifestFile.toList =
      if o.hasLocation then o.manifestFile.map Value.toText
      else vars.find? Variables.manifestFile.toList := (replaced_replaceIn o vars).manifestFile
  rw [Variables.value, hfind]
  split <;> rfl

theorem value_runfilesDir_replaceIn (o : Options) (vars : Variables) :
    (o.replaceIn vars).value Variables.runfilesDir =
      if o.hasLocation then (o.runfilesDir.map Value.toText).getD []
      else vars.value Variables.runfilesDir := by
  have hfind : (o.replaceIn vars).find? Variables.runfilesDir.toList =
      if o.hasLocation then o.runfilesDir.map Value.toText
      else vars.find? Variables.runfilesDir.toList := (replaced_replaceIn o vars).runfilesDir
  rw [Variables.value, hfind]
  split <;> rfl

/-- Discovery goes by the environment once the options have replaced what they name. -/
theorem Replaced.hints_eq {o : Options} {host : Host} {vars : Variables}
    (h : o.Replaced host.environment vars) :
    host.hints (some vars) (o.program.map Value.toText) = o.hints host := by
  have hvalue (name : String) : vars.value name = (o.replaceIn host.environment).value name := by
    rw [Variables.value, h.find?_eq (replaced_replaceIn o host.environment), Variables.value]
  simp only [Options.hints, Host.hints, Hints.ofVariables, Option.getD_some, hvalue]

/-- What the options leave of the two variables is the same if they were, or if an option names a
location: either option replaces both variables. -/
theorem sameLocations_replaceIn {o : Options} {vars₁ vars₂ : Variables}
    (h : o.hasLocation ∨ vars₁.SameLocations vars₂) :
    (o.replaceIn vars₁).SameLocations (o.replaceIn vars₂) := by
  constructor
  · rw [value_manifestFile_replaceIn, value_manifestFile_replaceIn]
    split
    · rfl
    · next ho => exact (h.resolve_left ho).manifestFile
  · rw [value_runfilesDir_replaceIn, value_runfilesDir_replaceIn]
    split
    · rfl
    · next ho => exact (h.resolve_left ho).runfilesDir

end Options

/-! ### Two runs -/

variable {host : Host} {vars₁ vars₂ : Variables} {arguments : List Text}

/-- A run with options goes by the environment in discovery only. -/
theorem perform_congr {o : Options} (h : o.hasLocation ∨ vars₁.SameLocations vars₂) :
    perform { host with environment := vars₁ } o =
      perform { host with environment := vars₂ } o := by
  have hdiscover (caller : Caller) :
      Resolver.discover host.files (o.hints { host with environment := vars₁ }) caller =
        Resolver.discover host.files (o.hints { host with environment := vars₂ }) caller :=
    Resolver.discover_congr (Options.sameLocations_replaceIn h) _ caller
  simp only [perform, hdiscover]

theorem hasLocation_of_isGiven {o : Options} (h : Request.ofArguments arguments = .run o)
    (given : Flag.IsGiven .manifestFile arguments ∨ Flag.IsGiven .runfilesDir arguments) :
    o.hasLocation :=
  given.imp (isSome_location?_iff rfl h).mpr (isSome_location?_iff rfl h).mpr

/-- Arguments that are not accepted end a run before the environment is looked at. -/
theorem run_congr
    (h : ∀ o, Request.ofArguments arguments = .run o → o.hasLocation ∨ vars₁.SameLocations vars₂) :
    run { host with environment := vars₁ } arguments =
      run { host with environment := vars₂ } arguments := by
  unfold run
  split
  · rfl
  · cases ho : Request.ofArguments arguments with
    | help => rfl
    | mistake e => rfl
    | run o => exact perform_congr (h o ho)

/-- Runs in any two environments end alike if an option names a location, with whatever value.
Without such an option they do if the two variables that name locations have the same values. -/
theorem run_noninterference (host : Host) (arguments : List Text) (vars₁ vars₂ : Variables) :
    (Flag.IsGiven .manifestFile arguments ∨ Flag.IsGiven .runfilesDir arguments →
      run { host with environment := vars₁ } arguments =
        run { host with environment := vars₂ } arguments) ∧
    (vars₁.SameLocations vars₂ →
      run { host with environment := vars₁ } arguments =
        run { host with environment := vars₂ } arguments) := by
  constructor
  · intro given
    exact run_congr fun o ho => .inl (hasLocation_of_isGiven ho given)
  · intro agree
    exact run_congr fun o _ => .inr agree

/-- A program with a runfiles directory next to it. -/
def besideHost (vars : Variables) : Host where
  platform := .posix
  files :=
    { workingDirectory := "/w".toList
      kind? := fun name => if name = "p.runfiles".toList then some .directory else none
      contents := fun _ => .error .notFound
      target? := fun _ => none
      kind?_nil := by decide }
  environment := vars
  arguments := ["p".toList]

/-- An empty option leads back to the program, past the inherited directory that a run
without it goes by. What a run has printed and logged before it breaks off does not
depend on the environment either. -/
theorem run_of_emptyManifestFile :
    let inherited : Variables := Table.ofList [("RUNFILES_DIR".toList, "/r".toList)]
    let unrelated : Variables :=
      Table.ofList [("RUNFILES_DIR".toList, []), ("HOME".toList, "/h".toList)]
    let arguments := ["--manifest-file=".toList, "a/b".toList]
    let breaking :=
      ["--source-repository=--", "--verbose", "--runfiles-dir=d", "/x", "a/b"].map String.toList
    Flag.IsGiven .manifestFile arguments ∧ Flag.IsGiven .runfilesDir breaking ∧
    run (besideHost inherited) arguments = run (besideHost Table.empty) arguments ∧
    run (besideHost Table.empty) arguments = .report ⟨0, "p.runfiles/a/b\n".toList, []⟩ ∧
    run (besideHost inherited) ["a/b".toList] = .report ⟨0, "/r/a/b\n".toList, []⟩ ∧
    run (besideHost unrelated) ["a/b".toList] = run (besideHost Table.empty) ["a/b".toList] ∧
    run (besideHost inherited) breaking = run (besideHost Table.empty) breaking ∧
    run (besideHost Table.empty) breaking = .lack .source "/x\n".toList
      [⟨.info, "using Runfiles(DirectoryBased('d'), source_repository=[])".toList⟩] := by
  intro inherited unrelated arguments breaking
  have given : Flag.IsGiven .manifestFile arguments := by decide
  have givenDirectory : Flag.IsGiven .runfilesDir breaking := by decide
  refine ⟨given, givenDirectory, ?_, ?_, ?_, ?_, ?_, ?_⟩
  · exact (run_noninterference (besideHost Table.empty) arguments inherited Table.empty).1
      (.inl given)
  · rfl
  · rfl
  · exact (run_noninterference (besideHost Table.empty) ["a/b".toList] unrelated Table.empty).2
      ⟨by decide, by decide⟩
  · exact (run_noninterference (besideHost Table.empty) breaking inherited Table.empty).1
      (.inr givenDirectory)
  · rfl

end Command

end BazelRunfiles
