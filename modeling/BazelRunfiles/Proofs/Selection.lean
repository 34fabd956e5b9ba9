import BazelRunfiles.Proofs.Failures
import BazelRunfiles.Proofs.Propagation
import BazelRunfiles.Proofs.RepoMapping.Lookup

/-!
How a program comes to its resolver. Discovery selects a location and then makes the resolver as if
that location had been given directly: `selects_discover` goes through the locations in their order
and compares whole outcomes, failures included, so that nothing else is tried where a selected
location cannot be loaded. Two programs, two environments and two file systems are compared by what
a selection looks at. What is given explicitly rules out what there is next to the program, and of
the environment two variables count.
-/

namespace BazelRunfiles

/-! ### Failures -/

/-- Whether a search came to its end without a location. -/
def Error.isMissing : Error → Bool
  | .noRunfiles _ => true
  | .noDirectory _ => true
  | _ => false

section Loading

variable {fs : FileSystem} {file : Text} {e : Error}

theorem Manifest.isMissing_of_load (h : Manifest.load fs file = .error e) :
    e.isMissing = false := by
  unfold Manifest.load at h
  split at h
  · cases h; rfl
  · cases h; rfl
  · split at h <;> cases h
    rfl

namespace RepoMapping

theorem isMissing_of_ofLines {lines : List Text} (h : ofLines lines = .error e) :
    e.isMissing = false := by
  obtain ⟨rest, -, rfl⟩ := ofLines_eq_error_iff.mp h
  rfl

theorem isMissing_of_ofBytes {bytes : List UInt8} (h : ofBytes file bytes = .error e) :
    e.isMissing = false := by
  unfold ofBytes at h
  split at h
  · exact isMissing_of_ofLines h
  · dsimp only at h
    split at h
    · next hl =>
      cases h
      exact isMissing_of_ofLines hl
    · cases h; rfl

theorem isMissing_of_load {store : Store} (h : load fs store = .error e) : e.isMissing = false := by
  unfold load at h
  split at h
  · cases h
  split at h
  · cases h
  split at h
  · cases h; rfl
  · exact isMissing_of_ofBytes h

end RepoMapping

namespace Resolver

variable {source : Text}

theorem isMissing_of_ofStore {store : Store} (h : ofStore fs store source = .error e) :
    e.isMissing = false :=
  RepoMapping.isMissing_of_load (Error.map_eq_error_iff.mp h)

/-- A location that cannot be loaded is not reported as a missing one. -/
theorem isMissing_of_ofLocation {l : Location} (h : ofLocation fs source l = .error e) :
    e.isMissing = false := by
  cases l with
  | directory root => exact isMissing_of_ofStore h
  | manifest file =>
    rcases Error.bind_eq_error_iff.mp h with hload | ⟨store, -, hstore⟩
    · exact Manifest.isMissing_of_load (Error.map_eq_error_iff.mp hload)
    · exact isMissing_of_ofStore hstore

end Resolver

end Loading

/-! ### Locations -/

namespace Location

/-- Whether there is a file or a directory at a location, as it says. -/
def isThere (probes : Probes) : Location → Bool
  | .manifest file => probes.isFile file
  | .directory root => probes.isDirectory root

/-- The locations next to a program, in the order in which they count. -/
def besideProgram (program : Text) : List Location :=
  [.manifest (program ++ ".runfiles/MANIFEST".toList),
    .manifest (program ++ ".runfiles_manifest".toList),
    .directory (program ++ ".runfiles".toList)]

variable {probes : Probes} {hints : Hints} {file root program : Text}

theorem besideProgram_eq (program : Text) :
    besideProgram program =
      [.manifest (manifestInside program), .manifest (manifestBeside program),
        .directory (directoryBeside program)] := by
  rw [manifestInside, manifestBeside, List.append_assoc, List.append_assoc]
  rfl

theorem explicit_of_isFile (h : file ≠ [] ∧ probes.isFile file) :
    explicit probes file root = .ok (.manifest file) := if_pos h

theorem explicit_of_isDirectory (hf : ¬ (file ≠ [] ∧ probes.isFile file))
    (hr : root ≠ [] ∧ probes.isDirectory root) :
    explicit probes file root = .ok (.directory root) := by
  rw [explicit, if_neg hf, if_pos hr]

theorem explicit_of_neither (hf : ¬ (file ≠ [] ∧ probes.isFile file))
    (hr : ¬ (root ≠ [] ∧ probes.isDirectory root)) (hboth : file ≠ [] ∧ root ≠ []) :
    explicit probes file root = .error (.invalidLocations file root) := by
  rw [explicit, if_neg hf, if_neg hr, if_pos hboth]

/-- A manifest that is given alone is taken whether it is there or not. -/
theorem explicit_nil_right (h : file ≠ []) : explicit probes file [] = .ok (.manifest file) := by
  simp [explicit, h]

theorem explicit_nil_left : explicit probes [] root = .ok (.directory root) := by
  simp [explicit]

theorem explicit_congr {probes' : Probes} (hf : probes.isFile file = probes'.isFile file)
    (hr : probes.isDirectory root = probes'.isDirectory root) :
    explicit probes file root = explicit probes' file root := by
  unfold explicit
  rw [hf, hr]

theorem explicit_eq_ok {l : Location} (h : explicit probes file root = .ok l) :
    l = .manifest file ∨ l = .directory root := by
  unfold explicit at h
  split at h
  · cases h; exact .inl rfl
  split at h
  · cases h; exact .inr rfl
  split at h
  · cases h
  split at h
  · cases h; exact .inl rfl
  · cases h; exact .inr rfl

/-- Next to a program the first location that is there counts. -/
theorem beside_eq_find? (h : program ≠ []) :
    beside probes program =
      match (besideProgram program).find? (isThere probes) with
      | some l => .ok l
      | none => .error (.noRunfiles program) := by
  rw [beside, if_neg h]
  simp only [besideProgram_eq, List.find?_cons, List.find?_nil, isThere]
  cases probes.isFile (manifestInside program) <;> cases probes.isFile (manifestBeside program) <;>
    cases probes.isDirectory (directoryBeside program) <;> rfl

theorem beside_eq_ok {l : Location} (h : beside probes program = .ok l) :
    program ≠ [] ∧ l ∈ besideProgram program := by
  by_cases hp : program = []
  · rw [beside, if_pos hp] at h
    cases h
  · rw [beside_eq_find? hp] at h
    split at h
    · next found hfound =>
      cases h
      exact ⟨hp, List.mem_of_find?_eq_some hfound⟩
    · cases h

theorem discover_of_given (h : hints.manifestFile ≠ [] ∨ hints.runfilesDir ≠ []) :
    discover probes hints = explicit probes hints.manifestFile hints.runfilesDir := if_pos h

theorem discover_of_not_given (hm : hints.manifestFile = []) (hr : hints.runfilesDir = []) :
    discover probes hints = beside probes hints.program := by
  rw [discover, if_neg]
  simp [hm, hr]

theorem exists_beside_eq_error_iff : (∃ e, beside probes program = .error e) ↔
    program = [] ∨ ∀ l ∈ besideProgram program, ¬ isThere probes l := by
  by_cases h : program = []
  · simp [beside, h]
  · rw [beside_eq_find? h, ← List.find?_eq_none]
    cases (besideProgram program).find? (isThere probes) <;> simp [h]

/-- Nothing is missing where something is given, even if that is not there. -/
theorem exists_isMissing_discover_iff : (∃ e, discover probes hints = .error e ∧ e.isMissing) ↔
    hints.manifestFile = [] ∧ hints.runfilesDir = [] ∧
      (hints.program = [] ∨ ∀ l ∈ besideProgram hints.program, ¬ isThere probes l) := by
  rw [← exists_beside_eq_error_iff]
  constructor
  · rintro ⟨e, h, he⟩
    by_cases hg : hints.manifestFile ≠ [] ∨ hints.runfilesDir ≠ []
    · rw [discover_of_given hg] at h
      rw [explicit_eq_error h] at he
      cases he
    · simp only [not_or, ne_eq, not_not] at hg
      rw [discover_of_not_given hg.1 hg.2] at h
      exact ⟨hg.1, hg.2, e, h⟩
  · rintro ⟨hm, hr, e, h⟩
    refine ⟨e, ?_, ?_⟩
    · rw [discover_of_not_given hm hr, h]
    · rw [beside_eq_error h]
      rfl

end Location

/-! ### Outcomes -/

namespace Variables

/-- Whether the two variables that name locations have the same values; one that
is not set counts as empty. -/
structure SameLocations (vars₁ vars₂ : Variables) : Prop where
  manifestFile : vars₁.value manifestFile = vars₂.value manifestFile
  runfilesDir : vars₁.value runfilesDir = vars₂.value runfilesDir

end Variables

namespace Resolver

/-- What becomes of a manifest name, a directory name and the name of a program; empty names are not
given. An outcome is a resolver or a failure, and it is that of one location. -/
structure Selects (fs : FileSystem) (source file root program : Text)
    (outcome : Except Error Resolver) : Prop where
  /-- A manifest that is there comes first. -/
  manifest : file ≠ [] ∧ fs.isFile file → outcome = ofManifestFile fs file source
  /-- A directory that is there comes second. -/
  directory : ¬ (file ≠ [] ∧ fs.isFile file) → root ≠ [] ∧ fs.isDirectory root →
    outcome = ofDirectory fs root source
  /-- Two locations that are not there rule each other out. -/
  neither : ¬ (file ≠ [] ∧ fs.isFile file) → ¬ (root ≠ [] ∧ fs.isDirectory root) →
    file ≠ [] ∧ root ≠ [] → outcome = .error (.invalidLocations file root)
  /-- A location that is given alone need not be there. -/
  manifestAlone : file ≠ [] → root = [] → outcome = ofManifestFile fs file source
  directoryAlone : file = [] → root ≠ [] → outcome = ofDirectory fs root source
  /-- Where nothing is given, the first location next to the program counts that is there. -/
  beside : file = [] → root = [] → program ≠ [] → ∀ l,
    (Location.besideProgram program).find? (Location.isThere fs.probes) = some l →
      outcome = ofLocation fs source l
  /-- There may be none, or no program to look next to. -/
  missing : (∃ e, outcome = .error e ∧ e.isMissing) ↔ file = [] ∧ root = [] ∧
    (program = [] ∨ ∀ l ∈ Location.besideProgram program, ¬ Location.isThere fs.probes l)

/-- Whether two file systems have the same things under a manifest name and a directory
name, and make the same of each. -/
structure SameGiven (fs₁ fs₂ : FileSystem) (source file root : Text) : Prop where
  isFile : fs₁.isFile file = fs₂.isFile file
  isDirectory : fs₁.isDirectory root = fs₂.isDirectory root
  ofManifestFile : ofManifestFile fs₁ file source = ofManifestFile fs₂ file source
  ofDirectory : ofDirectory fs₁ root source = ofDirectory fs₂ root source

/-- The resolver of a program does not depend on the directory of a test's sources. -/
theorem discover_congr {fs : FileSystem} {vars₁ vars₂ : Variables} (h : vars₁.SameLocations vars₂)
    (program : Text) (caller : Caller) :
    discover fs (.ofVariables vars₁ program) caller =
      discover fs (.ofVariables vars₂ program) caller := by
  have hhints : Hints.ofVariables vars₁ program =
      { Hints.ofVariables vars₂ program with testSrcdir := vars₁.value Variables.testSrcdir } := by
    simp only [Hints.ofVariables, h.manifestFile, h.runfilesDir]
  rw [hhints]
  rfl

variable {fs : FileSystem} {hints : Hints} {caller : Caller}

theorem discover_of_given (h : hints.manifestFile ≠ [] ∨ hints.runfilesDir ≠ []) :
    discover fs hints caller =
      (Location.explicit fs.probes hints.manifestFile hints.runfilesDir).bind
        (ofLocation fs caller.source) := by
  rw [discover, Location.discover_of_given h]

/-- What is given explicitly is looked at by itself. -/
theorem bind_explicit_congr {fs₁ fs₂ : FileSystem} {source file root : Text}
    (h : SameGiven fs₁ fs₂ source file root) :
    (Location.explicit fs₁.probes file root).bind (ofLocation fs₁ source) =
      (Location.explicit fs₂.probes file root).bind (ofLocation fs₂ source) := by
  have hexplicit : Location.explicit fs₁.probes file root =
      Location.explicit fs₂.probes file root :=
    Location.explicit_congr h.isFile h.isDirectory
  rw [hexplicit]
  cases hl : Location.explicit fs₂.probes file root with
  | error e => rfl
  | ok l =>
    rcases Location.explicit_eq_ok hl with rfl | rfl
    · exact h.ofManifestFile
    · exact h.ofDirectory

theorem exists_isMissing_iff : (∃ e, discover fs hints caller = .error e ∧ e.isMissing) ↔
    ∃ e, Location.discover fs.probes hints = .error e ∧ e.isMissing := by
  constructor
  · rintro ⟨e, h, he⟩
    rcases Error.bind_eq_error_iff.mp h with hl | ⟨l, -, hl⟩
    · exact ⟨e, hl, he⟩
    · rw [isMissing_of_ofLocation hl] at he
      cases he
  · rintro ⟨e, h, he⟩
    exact ⟨e, Error.bind_eq_error_iff.mpr (.inl h), he⟩

theorem selects_discover (fs : FileSystem) (hints : Hints) (caller : Caller) :
    Selects fs caller.source hints.manifestFile hints.runfilesDir hints.program
      (discover fs hints caller) where
  manifest hf := by
    rw [discover_of_given (.inl hf.1), Location.explicit_of_isFile hf]
    rfl
  directory hf hr := by
    rw [discover_of_given (.inr hr.1), Location.explicit_of_isDirectory hf hr]
    rfl
  neither hf hr hboth := by
    rw [discover_of_given (.inl hboth.1), Location.explicit_of_neither hf hr hboth]
    rfl
  manifestAlone hf hr := by
    rw [discover_of_given (.inl hf), hr, Location.explicit_nil_right hf]
    rfl
  directoryAlone hf hr := by
    rw [discover_of_given (.inr hr), hf, Location.explicit_nil_left]
    rfl
  beside hf hr hp l hl := by
    rw [discover, Location.discover_of_not_given hf hr, Location.beside_eq_find? hp, hl]
    rfl
  missing := by rw [exists_isMissing_iff, Location.exists_isMissing_discover_iff]

/-- Making the resolver of a program is selecting a location and making the resolver of that, with
whatever outcome. If a location is given, the outcome does not depend on the program's name, nor on
any other difference between two file systems than in what is given. Of two environments it only
matters what the two variables that name locations are, and an empty value is as good as none. -/
theorem discover_is_selection (fs : FileSystem) (vars : Variables) (program : Text)
    (caller : Caller) :
    Selects fs caller.source (vars.value Variables.manifestFile)
      (vars.value Variables.runfilesDir) program
      (discover fs (.ofVariables vars program) caller) ∧
    (vars.value Variables.manifestFile ≠ [] ∨ vars.value Variables.runfilesDir ≠ [] →
      ∀ fs' program', SameGiven fs' fs caller.source (vars.value Variables.manifestFile)
          (vars.value Variables.runfilesDir) →
        discover fs' (.ofVariables vars program') caller =
          discover fs (.ofVariables vars program) caller) ∧
    ∀ vars', vars'.SameLocations vars →
      discover fs (.ofVariables vars' program) caller =
        discover fs (.ofVariables vars program) caller := by
  refine ⟨selects_discover fs (.ofVariables vars program) caller, ?_, ?_⟩
  · intro given fs' program' same
    have hprogram := @discover_of_given fs (.ofVariables vars program) caller given
    have hprogram' := @discover_of_given fs' (.ofVariables vars program') caller given
    rw [hprogram, hprogram']
    exact bind_explicit_congr same
  · intro vars' same
    exact discover_congr same program caller

/-- A manifest that is no UTF-8, and, if so wanted, two empty ones next to a program p. -/
def brokenManifestFiles (hasBeside : Bool) : FileSystem where
  workingDirectory := "/".toList
  kind? name :=
    if name = "/m".toList then some .file
    else if hasBeside ∧ name = "p.runfiles/MANIFEST".toList then some .file
    else if hasBeside ∧ name = "p.runfiles_manifest".toList then some .file
    else none
  contents name := .ok (if name = "/m".toList then [0xFF] else [])
  target? _ := none
  kind?_nil := by simp

/-- The broken manifest is given, and so its fault is reported, whatever there is next to
the program; without it, also if the variable is empty, the program has the resolver of
the first manifest next to it. -/
theorem discover_of_brokenManifest :
    let broken : Variables := Table.ofList [("RUNFILES_MANIFEST_FILE".toList, "/m".toList)]
    let emptied : Variables :=
      Table.ofList [("RUNFILES_MANIFEST_FILE".toList, []), ("TEST_SRCDIR".toList, "/t".toList)]
    let caller := Caller.repository []
    let fault := Error.undecodableManifest .badStart
    let beside := ofManifestFile (brokenManifestFiles true) "p.runfiles/MANIFEST".toList []
    discover (brokenManifestFiles true) (.ofVariables broken ['p']) caller = .error fault ∧
    discover (brokenManifestFiles false) (.ofVariables broken ['q']) caller = .error fault ∧
    discover (brokenManifestFiles true) (.ofVariables Table.empty ['p']) caller = beside ∧
    discover (brokenManifestFiles true) (.ofVariables emptied ['p']) caller = beside ∧
    beside.map (·.store.location) = .ok (.manifest "p.runfiles/MANIFEST".toList) := by
  intro broken emptied caller fault beside
  have hfile : broken.value Variables.manifestFile = "/m".toList := by decide
  obtain ⟨selects, apart, -⟩ := discover_is_selection (brokenManifestFiles true) broken ['p'] caller
  obtain ⟨unset, -, same⟩ :=
    discover_is_selection (brokenManifestFiles true) Table.empty ['p'] caller
  have hfault : ofManifestFile (brokenManifestFiles true) "/m".toList [] = .error fault := by rfl
  have hp : discover (brokenManifestFiles true) (.ofVariables broken ['p']) caller =
      .error fault := by
    rw [selects.manifest (by decide), hfile]
    exact hfault
  have hbeside : discover (brokenManifestFiles true) (.ofVariables Table.empty ['p']) caller =
      beside :=
    unset.beside rfl rfl (by decide) (.manifest "p.runfiles/MANIFEST".toList) (by decide)
  refine ⟨hp, ?_, hbeside, ?_, by rfl⟩
  · rw [← hp]
    exact apart (.inl (by decide)) _ ['q'] ⟨by decide, by decide, by rfl, by rfl⟩
  · rw [← hbeside]
    exact same emptied ⟨by decide, by decide⟩

end Resolver

end BazelRunfiles
