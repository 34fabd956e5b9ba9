import BazelRunfiles.Host

/-!
Child processes. A resolver hands on the variables that lead to its store, and a child process that
is handed them discovers its own resolver. Discovery takes the first location that fits, so the
argument is about names: no resolver is made from an empty name, an empty variable is not set, and a
manifest that is there comes before the directory that its name implies. `ofParent_eq_self` is the
step from parent to child, and a line of descent of any length ends where it starts.
-/

namespace BazelRunfiles

/-! ### Names of locations -/

namespace Location

/-- The name of the manifest file or of the directory. -/
def name : Location → Text
  | .manifest file => file
  | .directory root => root

/-- Whether discovery takes the location when the variables of its store name it. -/
def IsGiven (fs : FileSystem) : Location → Prop
  | .manifest file => fs.isFile file
  | .directory root => root ≠ []

theorem directoryBeside_ne_nil (program : Text) : directoryBeside program ≠ [] := by
  simp [directoryBeside, Manifest.directoryEnding]

theorem name_ne_nil_of_explicit {probes : Probes} {file root : Text} {l : Location}
    (given : file ≠ [] ∨ root ≠ []) (h : explicit probes file root = .ok l) : l.name ≠ [] := by
  unfold explicit at h
  split at h
  · next c => cases h; exact c.1
  · split at h
    · next c => cases h; exact c.1
    · split at h
      · cases h
      · split at h
        · next c => cases h; exact c
        · next c => cases h; exact given.resolve_left c

theorem name_ne_nil_of_beside {probes : Probes} {program : Text} {l : Location}
    (h : beside probes program = .ok l) : l.name ≠ [] := by
  unfold beside at h
  split at h
  · cases h
  · split at h
    · cases h; simp [name, manifestInside]
    · split at h
      · cases h; simp [name, manifestBeside, Manifest.directoryEnding]
      · split at h
        · cases h; exact directoryBeside_ne_nil program
        · cases h

/-- Discovery never ends at an empty name. -/
theorem name_ne_nil_of_discover {probes : Probes} {hints : Hints} {l : Location}
    (h : discover probes hints = .ok l) : l.name ≠ [] := by
  unfold discover at h
  split at h
  · next given => exact name_ne_nil_of_explicit given h
  · exact name_ne_nil_of_beside h

theorem ne_nil_of_around {isDirectory : Text → Bool} {program root : Text}
    (h : around isDirectory program = some root) : root ≠ [] := by
  unfold around at h
  split at h
  · cases h; exact directoryBeside_ne_nil program
  · -- a name that ends in something is not empty
    rw [Path.findUpwards?_eq_find?] at h
    rintro rfl
    have := List.find?_some h
    simp [Manifest.directoryEnding] at this

theorem ne_nil_of_aroundTarget {probes : Probes} {program root : Text}
    (h : aroundTarget probes program = .ok (some root)) : root ≠ [] := by
  obtain ⟨target, -, ht⟩ := Error.map_eq_ok_iff.mp h
  obtain ⟨t, -, ha⟩ := Option.bind_eq_some_iff.mp ht
  exact ne_nil_of_around ha

/-- Neither does the search for a directory. -/
theorem ne_nil_of_discoverDirectory {probes : Probes} {hints : Hints} {root : Text}
    (h : discoverDirectory probes hints = .ok root) : root ≠ [] := by
  unfold discoverDirectory at h
  split at h
  · next c => cases h; exact c.1
  · split at h
    · next c => cases h; exact c.1
    · split at h
      · cases h
      · split at h
        · next ha => cases h; exact ne_nil_of_around ha
        · split at h
          · cases h
          · next ha => cases h; exact ne_nil_of_aroundTarget ha
          · cases h

end Location

/-! ### Stores and their variables -/

namespace Store

/-- Where a store is. -/
def location : Store → Location
  | .directory root => .directory root
  | .manifest file _ => .manifest file

theorem manifestFile_ne_runfilesDir :
    Variables.manifestFile.toList ≠ Variables.runfilesDir.toList := by decide

theorem value_manifestFile_of_directory (root : Text) :
    (directory root).childVariables.value Variables.manifestFile = [] := by
  simp [childVariables, Variables.value, Table.ofList, manifestFile_ne_runfilesDir]

theorem find?_runfilesDir_of_directory (root : Text) :
    (directory root).childVariables.find? Variables.runfilesDir = some root := by
  simp [childVariables, Table.ofList]

theorem value_runfilesDir_of_directory (root : Text) :
    (directory root).childVariables.value Variables.runfilesDir = root := by
  rw [Variables.value, find?_runfilesDir_of_directory, Option.getD_some]

/-- The directory that a manifest's name implies does not hide the manifest. -/
theorem value_manifestFile_of_manifest (file : Text) (entries : Manifest) :
    (manifest file entries).childVariables.value Variables.manifestFile = file := by
  simp only [childVariables]
  cases Manifest.impliedDirectory file with
  | none => simp [Variables.value, Table.ofList]
  | some root => simp [Variables.value, Table.ofList, manifestFile_ne_runfilesDir]

/-- The variables of a store lead back to where the store is, whatever the program's name. -/
theorem discover_childVariables {fs : FileSystem} {s : Store} (given : s.location.IsGiven fs)
    (program : Text) :
    Location.discover fs.probes (Hints.ofVariables s.childVariables program) = .ok s.location := by
  cases s with
  | directory root =>
    have hr : root ≠ [] := given
    simp [Location.discover, Location.explicit, Hints.ofVariables, location, hr,
      value_manifestFile_of_directory, value_runfilesDir_of_directory]
  | manifest file entries =>
    have hf : fs.isFile file := given
    have hn : file ≠ [] := FileSystem.ne_nil_of_isFile hf
    simp [Location.discover, Location.explicit, Hints.ofVariables, location, hf, hn,
      value_manifestFile_of_manifest, FileSystem.probes]

end Store

/-! ### Resolvers -/

namespace Resolver

theorem ofStore_eq_ok {fs : FileSystem} {store : Store} {source : Text} {r : Resolver}
    (h : ofStore fs store source = .ok r) : r.store = store ∧ r.source = source := by
  obtain ⟨mapping, -, rfl⟩ := Error.map_eq_ok_iff.mp h
  exact ⟨rfl, rfl⟩

/-- A resolver remembers the location that it was made from, and for whom. -/
theorem ofLocation_eq_ok {fs : FileSystem} {source : Text} {l : Location} {r : Resolver}
    (h : ofLocation fs source l = .ok r) : r.store.location = l ∧ r.source = source := by
  cases l with
  | directory root =>
    obtain ⟨hs, hr⟩ := ofStore_eq_ok h
    exact ⟨by rw [hs]; rfl, hr⟩
  | manifest file =>
    obtain ⟨store, hstore, h⟩ := Error.bind_eq_ok_iff.mp h
    obtain ⟨entries, -, rfl⟩ := Error.map_eq_ok_iff.mp hstore
    obtain ⟨hs, hr⟩ := ofStore_eq_ok h
    exact ⟨by rw [hs]; rfl, hr⟩

/-- The resolvers that can be made: by one of the two searches, from a manifest file, or from a
directory with a name. -/
inductive Made (fs : FileSystem) : Resolver → Prop where
  | discovered {hints : Hints} {caller : Caller} {r : Resolver} :
      discover fs hints caller = .ok r → Made fs r
  | discoveredDirectory {hints : Hints} {caller : Caller} {r : Resolver} :
      discoverDirectory fs hints caller = .ok r → Made fs r
  | manifestFile {file source : Text} {r : Resolver} :
      ofManifestFile fs file source = .ok r → Made fs r
  | directory {root source : Text} {r : Resolver} :
      root ≠ [] → ofDirectory fs root source = .ok r → Made fs r

/-- Whether the manifest of a resolver, if it has one, is a regular file. -/
def HasRegularManifest (fs : FileSystem) (r : Resolver) : Prop :=
  ∀ file entries, r.store = .manifest file entries → fs.isFile file

/-- Every resolver that can be made is the one for its own location, and a directory has a name. -/
theorem Made.ofLocation_eq {fs : FileSystem} {r : Resolver} (made : Made fs r) :
    ofLocation fs r.source r.store.location = .ok r ∧
      ∀ root, r.store.location = .directory root → root ≠ [] := by
  have fixed {source : Text} {l : Location} (h : ofLocation fs source l = .ok r)
      (hl : ∀ root, l = .directory root → root ≠ []) :
      ofLocation fs r.source r.store.location = .ok r ∧
        ∀ root, r.store.location = .directory root → root ≠ [] := by
    obtain ⟨hs, hr⟩ := ofLocation_eq_ok h
    rw [hs, hr]
    exact ⟨h, hl⟩
  cases made with
  | discovered h =>
    obtain ⟨l, hd, h⟩ := Error.bind_eq_ok_iff.mp h
    refine fixed h ?_
    rintro root rfl
    exact Location.name_ne_nil_of_discover hd
  | discoveredDirectory h =>
    obtain ⟨root, hd, h⟩ := Error.bind_eq_ok_iff.mp h
    refine fixed (l := .directory root) h ?_
    rintro _ ⟨rfl⟩
    exact Location.ne_nil_of_discoverDirectory hd
  | manifestFile h =>
    refine fixed (l := .manifest _) h ?_
    rintro root ⟨⟩
  | directory hn h =>
    refine fixed (l := .directory _) h ?_
    rintro _ ⟨rfl⟩
    exact hn

/-- The resolver of a child process of the given name, which is handed the variables of `r`. -/
def ofParent (fs : FileSystem) (r : Resolver) (program : Text) : Except Error Resolver :=
  discover fs (Hints.ofVariables r.childVariables program) (.repository r.source)

/-- The resolver at the end of a line of processes, each of which
hands its variables to the next. -/
def descendant (fs : FileSystem) (r : Resolver) : List Text → Except Error Resolver
  | [] => .ok r
  | program :: rest => (r.ofParent fs program).bind fun child => descendant fs child rest

/-- A child has the resolver of its parent. -/
theorem ofParent_eq_self {fs : FileSystem} {r : Resolver} (made : Made fs r)
    (regular : r.HasRegularManifest fs) (program : Text) : r.ofParent fs program = .ok r := by
  obtain ⟨hl, hroot⟩ := made.ofLocation_eq
  have given : r.store.location.IsGiven fs := by
    cases hs : r.store with
    | directory root => exact hroot root (by rw [hs]; rfl)
    | manifest file entries => exact regular file entries hs
  unfold ofParent discover childVariables
  rw [Store.discover_childVariables given]
  exact hl

/-- A resolver can be handed on through any number of processes, whatever their names: the last one
finds the same store, mapping and source, and so the same location for every path. -/
theorem descendant_eq_self {fs : FileSystem} {r : Resolver} (made : Made fs r)
    (regular : r.HasRegularManifest fs) (programs : List Text) :
    r.descendant fs programs = .ok r := by
  induction programs with
  | nil => rfl
  | cons program rest ih =>
    rw [descendant, ofParent_eq_self made regular program]
    exact ih

/-- A program p with a manifest beside it, which lists a repository mapping with one line. -/
def filesBesideProgram : FileSystem where
  workingDirectory := "/".toList
  kind? name :=
    if name = "p.runfiles_manifest".toList ∨ name = "/m".toList then some .file else none
  contents name :=
    .ok (Utf8.encode (if name = "/m".toList then ",a,b\n".toList else "_repo_mapping /m\n".toList))
  target? _ := none
  kind?_nil := by decide

/-- A grandchild of such a program finds the manifest and its mapping, whatever it is called. -/
theorem descendant_of_program_with_manifest :
    ∃ r, discover filesBesideProgram ⟨['p'], [], [], []⟩ (.repository []) = .ok r ∧
      r.HasRegularManifest filesBesideProgram ∧ r.mapping.size = 1 ∧
        r.descendant filesBesideProgram [[], "other".toList] = .ok r := by
  obtain ⟨r, hr⟩ : ∃ r, discover filesBesideProgram ⟨['p'], [], [], []⟩ (.repository []) = .ok r :=
    ⟨_, rfl⟩
  have regular : r.HasRegularManifest filesBesideProgram := by
    cases hr
    rintro file entries ⟨⟩
    decide
  refine ⟨r, hr, regular, ?_, descendant_eq_self (.discovered hr) regular _⟩
  cases hr
  decide

end Resolver

end BazelRunfiles
