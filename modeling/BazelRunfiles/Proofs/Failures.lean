import BazelRunfiles.Proofs.Text.Utf8
import BazelRunfiles.Resolver

/-!
Failures when a resolver is made. Almost all are faults of the runfiles. The exceptions are two: a
name with a NUL character that reaches the system, and a manifest that can be read but is no
UTF-8. Discovery opens nothing, and asks for the target of one link at most; a manifest is opened
whatever its name is; and the repository mapping is opened only where there is a file, so its name
never holds a NUL character, and all that can be wrong with it is a fault of the runfiles. The
conditions for the exceptions are put together from step to step (`ExpectedUnless.bind`), and each
way to make a resolver has exact ones.
-/

namespace BazelRunfiles

namespace Error

variable {α β : Type} {e : Error}

theorem bind_eq_error_iff {x : Except Error α} {f : α → Except Error β} :
    x.bind f = .error e ↔ x = .error e ∨ ∃ a, x = .ok a ∧ f a = .error e := by
  cases x <;> simp [Except.bind]

theorem map_eq_error_iff {x : Except Error α} {f : α → β} : x.map f = .error e ↔ x = .error e := by
  cases x <;> simp [Except.map]

/-- A result is a value or a fault of the runfiles, unless a name holds a NUL character or a
manifest is no UTF-8; the conditions say when. -/
structure ExpectedUnless (x : Except Error α) (nul undecodable : Prop) : Prop where
  expected : ((∃ a, x = .ok a) ∨ ∃ e, x = .error e ∧ e.isRunfilesFault) ↔ ¬ nul ∧ ¬ undecodable
  nulInName : x = .error .nulInName ↔ nul
  undecodableManifest : (∃ fault, x = .error (.undecodableManifest fault)) ↔ undecodable

theorem ExpectedUnless.of_iff {x : Except Error α} {nul undecodable : Prop}
    (hn : x = .error .nulInName ↔ nul)
    (hu : (∃ fault, x = .error (.undecodableManifest fault)) ↔ undecodable) :
    ExpectedUnless x nul undecodable := by
  refine ⟨?_, hn, hu⟩
  rw [← hn, ← hu]
  cases x with
  | ok a => simp
  | error e => cases e <;> simp [isRunfilesFault]

/-- A result that fails by faults of the runfiles only. -/
theorem ExpectedUnless.of_isRunfilesFault {x : Except Error α}
    (h : ∀ e, x = .error e → e.isRunfilesFault) : ExpectedUnless x False False := by
  refine .of_iff ⟨fun hx => ?_, False.elim⟩ ⟨fun ⟨fault, hx⟩ => ?_, False.elim⟩
  · cases h _ hx
  · cases h _ hx

/-- A value, where no name holds a NUL character. -/
theorem ExpectedUnless.ok {nul : Prop} (a : α) (h : ¬ nul) :
    ExpectedUnless (.ok a : Except Error α) nul False :=
  .of_iff (by simp [h]) (by simp)

/-- A fault of the runfiles, where no name holds a NUL character. -/
theorem ExpectedUnless.error {nul : Prop} (he : e.isRunfilesFault) (h : ¬ nul) :
    ExpectedUnless (.error e : Except Error α) nul False := by
  refine .of_iff ⟨?_, fun hn => absurd hn h⟩ ⟨?_, False.elim⟩
  · rintro ⟨⟩
    cases he
  · rintro ⟨fault, ⟨⟩⟩
    cases he

theorem ExpectedUnless.map {x : Except Error α} {nul undecodable : Prop}
    (h : ExpectedUnless x nul undecodable) (f : α → β) :
    ExpectedUnless (x.map f) nul undecodable := by
  refine .of_iff ?_ ?_
  · rw [map_eq_error_iff, h.nulInName]
  · simp only [map_eq_error_iff, h.undecodableManifest]

/-- Of two steps the second counts where the first has a result. -/
theorem ExpectedUnless.bind {x : Except Error α} {f : α → Except Error β} {nul undecodable : Prop}
    {nul' undecodable' : α → Prop} (hx : ExpectedUnless x nul undecodable)
    (hf : ∀ a, ExpectedUnless (f a) (nul' a) (undecodable' a)) :
    ExpectedUnless (x.bind f) (nul ∨ ∃ a, x = .ok a ∧ nul' a)
      (undecodable ∨ ∃ a, x = .ok a ∧ undecodable' a) := by
  refine .of_iff ?_ ?_
  · simp only [bind_eq_error_iff, hx.nulInName, (hf _).nulInName]
  · rw [← hx.undecodableManifest]
    simp only [bind_eq_error_iff, ← (hf _).undecodableManifest, exists_or]
    refine or_congr_right ⟨?_, ?_⟩
    · rintro ⟨fault, a, ha, hfault⟩
      exact ⟨a, ha, fault, hfault⟩
    · rintro ⟨a, ha, fault, hfault⟩
      exact ⟨fault, a, ha, hfault⟩

end Error

/-! ### Loading -/

section Loading

variable {fs : FileSystem} {file : Text} {e : Error}

theorem FileSystem.read_eq_nul_iff : fs.read file = .error .nul ↔ '\x00' ∈ file := by
  unfold FileSystem.read
  split
  · next h => simp [h]
  · next h =>
    refine iff_of_false (fun hr => ?_) h
    cases hc : fs.contents file <;> rw [hc] at hr <;> cases hr

namespace Manifest

/-- Whether a manifest can be read, and its bytes are those of no text. -/
def IsUndecodable (fs : FileSystem) (file : Text) : Prop :=
  ∃ bytes, fs.read file = .ok bytes ∧ ¬ ∃ t, Utf8.encode t = bytes

/-- What is wrong with a manifest that can be read is no fault of the runfiles. -/
theorem expectedUnless_load (fs : FileSystem) (file : Text) :
    Error.ExpectedUnless (load fs file) ('\x00' ∈ file) (IsUndecodable fs file) := by
  refine .of_iff ?_ ?_
  · rw [← @FileSystem.read_eq_nul_iff fs, load]
    split
    · next h => simp [h]
    · next h => simp [h]
    · next h => split <;> simp [h]
  · simp only [load, IsUndecodable]
    split
    · next h => simp [h]
    · next h => simp [h]
    · next bytes h =>
      simp only [h, Except.ok.injEq, exists_eq_left', ← Utf8.fault_decode_eq_none_iff]
      split
      · next hd => simp [hd]
      · next hd => simp [hd]

end Manifest

namespace RepoMapping

theorem isRunfilesFault_of_ofLine {line : Text} (h : Entry.ofLine line = .error e) :
    e.isRunfilesFault := by
  unfold Entry.ofLine at h
  split at h
  · cases h
  · split at h <;> cases h
    rfl

theorem isRunfilesFault_of_addLines {m : RepoMapping} {lines : List Text}
    (h : m.addLines lines = .error e) : e.isRunfilesFault := by
  induction lines generalizing m with
  | nil => cases h
  | cons line rest ih =>
    rw [addLines] at h
    split at h
    · next hl =>
      cases h
      exact isRunfilesFault_of_ofLine hl
    · exact ih h
    · exact ih h

theorem isRunfilesFault_of_ofBytes {bytes : List UInt8} (h : ofBytes file bytes = .error e) :
    e.isRunfilesFault := by
  unfold ofBytes at h
  split at h
  · exact isRunfilesFault_of_addLines h
  · dsimp only at h
    split at h
    · next hl =>
      cases h
      exact isRunfilesFault_of_addLines hl
    · cases h
      rfl

/-- Whatever is wrong with a repository mapping is a fault of the runfiles. -/
theorem isRunfilesFault_of_load {store : Store} (h : load fs store = .error e) :
    e.isRunfilesFault := by
  unfold load at h
  split at h
  · cases h
  · split at h
    · cases h
    · split at h
      · cases h
        rfl
      · exact isRunfilesFault_of_ofBytes h

end RepoMapping

end Loading

/-! ### Discovery -/

namespace Location

section

variable {probes : Probes} {hints : Hints} {file root program found : Text} {e : Error}

theorem explicit_eq_error (h : explicit probes file root = .error e) :
    e = .invalidLocations file root := by
  unfold explicit at h
  split at h
  · cases h
  split at h
  · cases h
  split at h
  · cases h
    rfl
  · split at h <;> cases h

theorem beside_eq_error (h : beside probes program = .error e) : e = .noRunfiles program := by
  unfold beside at h
  split at h
  · cases h
    rfl
  split at h
  · cases h
  split at h
  · cases h
  split at h <;> cases h
  rfl

/-- A manifest that is given has been seen, or it is given alone. -/
theorem explicit_eq_manifest (h : explicit probes file root = .ok (.manifest found)) :
    probes.isFile found ∨ found = file ∧ root = [] := by
  unfold explicit at h
  split at h
  · next hf =>
    cases h
    exact .inl hf.2
  split at h
  · cases h
  split at h
  · cases h
  next hboth =>
  split at h
  · next hfile =>
    cases h
    exact .inr ⟨rfl, by simpa [hfile] using hboth⟩
  · cases h

theorem beside_eq_manifest (h : beside probes program = .ok (.manifest found)) :
    probes.isFile found := by
  unfold beside at h
  split at h
  · cases h
  split at h
  · next hf =>
    cases h
    exact hf
  split at h
  · next hf =>
    cases h
    exact hf
  · split at h <;> cases h

/-- Discovery opens nothing. -/
theorem isRunfilesFault_of_discover (h : discover probes hints = .error e) : e.isRunfilesFault := by
  unfold discover at h
  split at h
  · rw [explicit_eq_error h]
    rfl
  · rw [beside_eq_error h]
    rfl

/-- A manifest that discovery ends at has been seen, or it is given alone. -/
theorem cases_of_discover (h : discover probes hints = .ok (.manifest found)) :
    probes.isFile found ∨ found = hints.manifestFile ∧ hints.runfilesDir = [] := by
  unfold discover at h
  split at h
  · exact explicit_eq_manifest h
  · exact .inl (beside_eq_manifest h)

end

variable {fs : FileSystem} {hints : Hints}

/-- No name with a NUL character is seen, so that a manifest with such a name
is one that is given alone. -/
theorem exists_manifest_of_nul_iff :
    (∃ file, discover fs.probes hints = .ok (.manifest file) ∧ '\x00' ∈ file) ↔
      '\x00' ∈ hints.manifestFile ∧ hints.runfilesDir = [] := by
  constructor
  · rintro ⟨file, h, hn⟩
    obtain hf | ⟨rfl, hr⟩ := cases_of_discover h
    · cases (FileSystem.isFile_of_nul hn).symm.trans hf
    · exact ⟨hn, hr⟩
  · rintro ⟨hn, hr⟩
    have hf : fs.probes.isFile hints.manifestFile = false := FileSystem.isFile_of_nul hn
    have hm : hints.manifestFile ≠ [] := List.ne_nil_of_mem hn
    exact ⟨hints.manifestFile, by simp [discover, explicit, hm, hr, hf], hn⟩

/-- Whether no directory is given that is there, nor one found around the program. -/
def FindsNoDirectory (fs : FileSystem) (hints : Hints) : Prop :=
  ¬ (hints.runfilesDir ≠ [] ∧ fs.isDirectory hints.runfilesDir) ∧
    ¬ (hints.testSrcdir ≠ [] ∧ fs.isDirectory hints.testSrcdir) ∧
    around fs.isDirectory hints.program = none

theorem aroundTarget_eq_error_iff {program : Text} {e : Error} :
    aroundTarget fs.probes program = .error e ↔ '\x00' ∈ program ∧ e = .nulInName := by
  rw [aroundTarget, Error.map_eq_error_iff]
  by_cases hn : '\x00' ∈ program
  · simp [FileSystem.probes, hn, eq_comm]
  · simp [FileSystem.probes, hn]

/-- The target of a link is asked for if there is no directory yet, and only that can fail otherwise
than by a fault of the runfiles. -/
theorem expectedUnless_discoverDirectory (fs : FileSystem) (hints : Hints) :
    Error.ExpectedUnless (discoverDirectory fs.probes hints)
      ('\x00' ∈ hints.program ∧ FindsNoDirectory fs hints) False := by
  unfold discoverDirectory
  split
  · next hr => exact .ok _ fun h => h.2.1 hr
  split
  · next ht => exact .ok _ fun h => h.2.2.1 ht
  split
  · next hp => exact .error rfl fun h => List.ne_nil_of_mem h.1 hp
  next hr ht hp =>
  split
  · next ha => exact .ok _ fun h => by cases h.2.2.2.symm.trans ha
  next ha =>
  -- Only the link is left, and reading it fails exactly at a NUL character.
  have hasks : FindsNoDirectory fs hints := ⟨hr, ht, ha⟩
  split
  · next hl =>
    obtain ⟨hn, rfl⟩ := aroundTarget_eq_error_iff.mp hl
    exact .of_iff (by simp [hn, hasks]) (by simp)
  · next hl =>
    exact .ok _ fun h => by cases (aroundTarget_eq_error_iff.mpr ⟨h.1, rfl⟩).symm.trans hl
  · next hl =>
    exact .error rfl fun h => by cases (aroundTarget_eq_error_iff.mpr ⟨h.1, rfl⟩).symm.trans hl

end Location

namespace Resolver

theorem expectedUnless_ofStore (fs : FileSystem) (store : Store) (source : Text) :
    Error.ExpectedUnless (ofStore fs store source) False False :=
  (Error.ExpectedUnless.of_isRunfilesFault fun _ h => RepoMapping.isRunfilesFault_of_load h).map _

theorem expectedUnless_ofManifestFile (fs : FileSystem) (file source : Text) :
    Error.ExpectedUnless (ofManifestFile fs file source) ('\x00' ∈ file)
      (Manifest.IsUndecodable fs file) := by
  have hstore := (Manifest.expectedUnless_load fs file).map (Store.manifest file)
  have hboth := hstore.bind fun store => expectedUnless_ofStore fs store source
  simp only [and_false, exists_false, or_false] at hboth
  exact hboth

theorem expectedUnless_ofDirectory (fs : FileSystem) (root source : Text) :
    Error.ExpectedUnless (ofDirectory fs root source) False False :=
  expectedUnless_ofStore fs (.directory root) source

/-- Of the two locations only a manifest can fail otherwise than by a fault of the runfiles. -/
theorem expectedUnless_ofLocation (fs : FileSystem) (source : Text) (l : Location) :
    Error.ExpectedUnless (ofLocation fs source l) (∃ file, l = .manifest file ∧ '\x00' ∈ file)
      (∃ file, l = .manifest file ∧ Manifest.IsUndecodable fs file) := by
  cases l with
  | manifest file => simpa [ofLocation] using expectedUnless_ofManifestFile fs file source
  | directory root => simpa [ofLocation] using expectedUnless_ofDirectory fs root source

theorem expectedUnless_discover (fs : FileSystem) (hints : Hints) (caller : Caller) :
    Error.ExpectedUnless (discover fs hints caller)
      (∃ file, Location.discover fs.probes hints = .ok (.manifest file) ∧ '\x00' ∈ file)
      (∃ file, Location.discover fs.probes hints = .ok (.manifest file) ∧
        Manifest.IsUndecodable fs file) := by
  have hlocation : Error.ExpectedUnless (Location.discover fs.probes hints) False False :=
    .of_isRunfilesFault fun _ h => Location.isRunfilesFault_of_discover h
  have hboth := hlocation.bind (expectedUnless_ofLocation fs caller.source)
  have hmanifest (p : Text → Prop) :
      (False ∨ ∃ l, Location.discover fs.probes hints = .ok l ∧
          ∃ file, l = .manifest file ∧ p file) ↔
        ∃ file, Location.discover fs.probes hints = .ok (.manifest file) ∧ p file := by
    constructor
    · rintro (h | ⟨_, hl, file, rfl, hp⟩)
      · exact h.elim
      · exact ⟨file, hl, hp⟩
    · rintro ⟨file, hl, hp⟩
      exact .inr ⟨_, hl, file, rfl, hp⟩
  rw [hmanifest, hmanifest] at hboth
  exact hboth

theorem expectedUnless_discoverDirectory (fs : FileSystem) (hints : Hints) (caller : Caller) :
    Error.ExpectedUnless (discoverDirectory fs hints caller)
      ('\x00' ∈ hints.program ∧ Location.FindsNoDirectory fs hints) False := by
  have hboth := (Location.expectedUnless_discoverDirectory fs hints).bind fun root =>
    expectedUnless_ofDirectory fs root caller.source
  simp only [and_false, exists_false, or_false] at hboth
  exact hboth

/-- The four ways to make a resolver. A given manifest fails otherwise than by a fault of the
runfiles if its name holds a NUL character, or if it can be read and is no UTF-8; a given directory
never does. For a program that goes for the manifest that discovery ends at, and its name holds a
NUL character if and only if it is given, and given alone. For a test it only happens when the
program's name, which holds a NUL character, has to be read as a link. -/
theorem expectedUnless_of_making (fs : FileSystem) (hints : Hints) (caller : Caller)
    (file root source : Text) :
    Error.ExpectedUnless (ofManifestFile fs file source) ('\x00' ∈ file)
      (Manifest.IsUndecodable fs file) ∧
    Error.ExpectedUnless (ofDirectory fs root source) False False ∧
    Error.ExpectedUnless (discover fs hints caller)
      (∃ manifest, Location.discover fs.probes hints = .ok (.manifest manifest) ∧ '\x00' ∈ manifest)
      (∃ manifest, Location.discover fs.probes hints = .ok (.manifest manifest) ∧
        Manifest.IsUndecodable fs manifest) ∧
    ((∃ manifest, Location.discover fs.probes hints = .ok (.manifest manifest) ∧
        '\x00' ∈ manifest) ↔
      '\x00' ∈ hints.manifestFile ∧ hints.runfilesDir = []) ∧
    Error.ExpectedUnless (discoverDirectory fs hints caller)
      ('\x00' ∈ hints.program ∧ Location.FindsNoDirectory fs hints) False := by
  refine ⟨?manifest, ?directory, ?program, ?given, ?test⟩
  case manifest => exact expectedUnless_ofManifestFile fs file source
  case directory => exact expectedUnless_ofDirectory fs root source
  case program => exact expectedUnless_discover fs hints caller
  case given => exact Location.exists_manifest_of_nul_iff
  case test => exact expectedUnless_discoverDirectory fs hints caller

end Resolver

end BazelRunfiles
