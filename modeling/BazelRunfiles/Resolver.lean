import BazelRunfiles.Location
import BazelRunfiles.Path.Normal
import BazelRunfiles.SourceRepository
import BazelRunfiles.Store

/-!
Resolvers: a store, its repository mapping, and the repository for which paths are looked up. A path
is checked, its first segment is replaced by the canonical name, and the store is asked for the
rest; `find?` never fails, and `fileName` says what is wrong.

A resolver is made from a manifest file or a directory, or by one of the two searches of `Location`.
Nothing is kept of the file system: a resolver answers from what was loaded when it was made.
-/

namespace BazelRunfiles

/-- Runfiles as one repository sees them. -/
structure Resolver where
  store : Store
  mapping : RepoMapping
  /-- The canonical name of the repository; the main repository's is empty. -/
  source : Text

/-- Why a runfile name has no file name. -/
inductive NameError where
  | missing
  | absolute (name : Text)
  | notFound (name : Text)
  deriving DecidableEq, Repr

/-- The wording of what is wrong with a name. -/
def NameError.message : NameError → String
  | .missing => "Missing runfile name"
  | .absolute name => "Runfile name " ++ Error.named name ++ " is absolute"
  | .notFound name => "Runfile " ++ Error.named name ++ " not found"

namespace Resolver

/-- The path for which the store is asked. -/
def storePath (r : Resolver) (source? : Option Text) (path : Text) : Text :=
  r.mapping.apply (source?.getD r.source) path

/-- The location of a runfile, as the given repository or the resolver's own sees it. -/
def find? (platform : Platform) (r : Resolver) (path : Text) (source? : Option Text) :
    Option Text :=
  if Path.isAdmissible path then
    if Path.isAbsolute platform path then some path else r.store.locate? (r.storePath source? path)
  else none

/-- Whether the mapping is asked about a path: only admissible paths with a
segment for a repository go by it. -/
def asksMapping (platform : Platform) (path : Text) : Bool :=
  Path.isAdmissible path && !Path.isAbsolute platform path && '/' ∈ path

/-- The absolute file name of a runfile. -/
def fileName (platform : Platform) (workingDirectory : Text) (r : Resolver) (name : Path.Normal) :
    Except NameError Text :=
  if name.isEmpty then .error .missing
  else if name.isAbsolute then .error (.absolute name.toText)
  else match (r.find? platform name.toText none).filter (· ≠ []) with
    | none => .error (.notFound name.toText)
    | some location => .ok (Path.absolute workingDirectory location)

/-- The variables that lead a child process to the same runfiles. -/
def childVariables (r : Resolver) : Variables := r.store.childVariables

/-- The same runfiles as another repository sees them. -/
def withSource (r : Resolver) (source : Text) : Resolver := { r with source }

/-- The store of a resolver and its repository in the given wording. -/
def describeAs (r : Resolver) (source : Text) : Text :=
  "Runfiles(" ++ r.store.describe ++ ", source_repository=" ++ source ++ ")"

/-- The store and the repository of a resolver. -/
def describe (r : Resolver) : Text := r.describeAs (Quoted.encode r.source)

/-- The resolver for a store. -/
def ofStore (fs : FileSystem) (store : Store) (source : Text) : Except Error Resolver :=
  (RepoMapping.load fs store).map fun mapping => ⟨store, mapping, source⟩

/-- The resolver for a manifest file. -/
def ofManifestFile (fs : FileSystem) (file source : Text) : Except Error Resolver :=
  (Store.ofManifestFile fs file).bind fun store => ofStore fs store source

/-- The resolver for a runfiles directory. -/
def ofDirectory (fs : FileSystem) (root source : Text) : Except Error Resolver :=
  ofStore fs (.directory root) source

/-- The resolver for the store at a location. -/
def ofLocation (fs : FileSystem) (source : Text) : Location → Except Error Resolver
  | .manifest file => ofManifestFile fs file source
  | .directory root => ofDirectory fs root source

/-- The resolver of a program. -/
def discover (fs : FileSystem) (hints : Hints) (caller : Caller) : Except Error Resolver :=
  (Location.discover fs.probes hints).bind (ofLocation fs caller.source)

/-- The resolver of a test, which needs a directory. -/
def discoverDirectory (fs : FileSystem) (hints : Hints) (caller : Caller) : Except Error Resolver :=
  (Location.discoverDirectory fs.probes hints).bind fun root => ofDirectory fs root caller.source

end Resolver

end BazelRunfiles
