import BazelRunfiles.Error
import BazelRunfiles.Hints
import BazelRunfiles.Manifest

/-!
Where the runfiles of a program are. There are two searches. `discover` takes a manifest or a
directory and lets what is given explicitly rule out everything else; `discoverDirectory` wants a
directory that is there, and skips what is given but is not. The file system is seen only through
the questions that the searches take as arguments.
-/

namespace BazelRunfiles

/-- A manifest file or a runfiles directory. -/
inductive Location where
  | manifest (file : Text)
  | directory (root : Text)
  deriving DecidableEq

/-- The questions about names that a search asks. -/
structure Probes where
  isFile : Text → Bool
  isDirectory : Text → Bool
  /-- The target of a link, and none for what is no link. -/
  readLink : Text → Except Error (Option Text)

/-- The questions, put to a file system. Only a NUL character keeps a
name from being read as a link. -/
def FileSystem.probes (fs : FileSystem) : Probes where
  isFile := fs.isFile
  isDirectory := fs.isDirectory
  readLink := fun name => if '\x00' ∈ name then .error .nulInName else .ok (fs.target? name)

namespace Location

/-- The manifest inside the runfiles directory next to a program. -/
def manifestInside (program : Text) : Text :=
  program ++ Manifest.directoryEnding ++ '/' :: Manifest.fileName

/-- The manifest next to a program. -/
def manifestBeside (program : Text) : Text :=
  program ++ Manifest.directoryEnding ++ Manifest.besideEnding

/-- The runfiles directory next to a program. -/
def directoryBeside (program : Text) : Text := program ++ Manifest.directoryEnding

/-- What is given explicitly, a manifest before a directory. A location that is given alone is taken
unseen, so that opening it reports what is wrong with it. -/
def explicit (probes : Probes) (manifestFile runfilesDir : Text) : Except Error Location :=
  if manifestFile ≠ [] ∧ probes.isFile manifestFile then .ok (.manifest manifestFile)
  else if runfilesDir ≠ [] ∧ probes.isDirectory runfilesDir then .ok (.directory runfilesDir)
  else if manifestFile ≠ [] ∧ runfilesDir ≠ [] then
    .error (.invalidLocations manifestFile runfilesDir)
  else if manifestFile ≠ [] then .ok (.manifest manifestFile)
  else .ok (.directory runfilesDir)

/-- What there is next to a program. -/
def beside (probes : Probes) (program : Text) : Except Error Location :=
  if program = [] then .error (.noRunfiles program)
  else if probes.isFile (manifestInside program) then .ok (.manifest (manifestInside program))
  else if probes.isFile (manifestBeside program) then .ok (.manifest (manifestBeside program))
  else if probes.isDirectory (directoryBeside program) then
    .ok (.directory (directoryBeside program))
  else .error (.noRunfiles program)

/-- The explicit location if there is any, else what there is next to the program. -/
def discover (probes : Probes) (hints : Hints) : Except Error Location :=
  if hints.manifestFile ≠ [] ∨ hints.runfilesDir ≠ [] then
    explicit probes hints.manifestFile hints.runfilesDir
  else beside probes hints.program

/-- The runfiles directory next to a program, else the innermost one around it. -/
def around (isDirectory : Text → Bool) (program : Text) : Option Text :=
  if isDirectory (directoryBeside program) then some (directoryBeside program)
  else Path.findUpwards? Manifest.directoryEnding isDirectory (Path.directory program)

/-- The directory around the target of a program that is a link. The target of a target is not asked
for, and a relative target is seen from the directory of the program. -/
def aroundTarget (probes : Probes) (program : Text) : Except Error (Option Text) :=
  (probes.readLink program).map fun target =>
    (target.filter (· ≠ [])).bind fun t =>
      around probes.isDirectory (Path.join (Path.directory program) t)

/-- The runfiles directory: the one given, the one of the test's sources, or one around the program
or around the target of its link. -/
def discoverDirectory (probes : Probes) (hints : Hints) : Except Error Text :=
  if hints.runfilesDir ≠ [] ∧ probes.isDirectory hints.runfilesDir then .ok hints.runfilesDir
  else if hints.testSrcdir ≠ [] ∧ probes.isDirectory hints.testSrcdir then .ok hints.testSrcdir
  else if hints.program = [] then .error (.noDirectory hints.program)
  else match around probes.isDirectory hints.program with
    | some found => .ok found
    | none =>
      match aroundTarget probes hints.program with
      | .error e => .error e
      | .ok (some found) => .ok found
      | .ok none => .error (.noDirectory hints.program)

end Location

end BazelRunfiles
