import BazelRunfiles.Hints
import BazelRunfiles.Manifest
import BazelRunfiles.RepoMapping

/-!
Stores: the two forms in which runfiles are kept, a directory tree and a loaded manifest. A
store is asked for paths that have been checked and mapped, and it knows the variables by which
a child process finds it again.

A file is loaded in one go. For a manifest any fault of the bytes is fatal. A repository mapping is
read line by line, so that a malformed line that is complete counts before a fault at the end of the
bytes, while a fault anywhere else counts before both.
-/

namespace BazelRunfiles

/-- Runfiles in a directory, or listed in a manifest file with the given entries. -/
inductive Store where
  | directory (root : Text)
  | manifest (file : Text) (entries : Manifest)

namespace Manifest

/-- Loads a manifest file. -/
def load (fs : FileSystem) (file : Text) : Except Error Manifest :=
  match fs.read file with
  | .error .nul => .error .nulInName
  | .error (.system reason) => .error (.unreadableManifest file reason)
  | .ok bytes =>
    match Utf8.decode bytes with
    | ⟨_, some fault⟩ => .error (.undecodableManifest fault)
    | ⟨text, none⟩ => .ok (ofLines text.lines)

end Manifest

namespace Store

/-- The store for a manifest file. -/
def ofManifestFile (fs : FileSystem) (file : Text) : Except Error Store :=
  (Manifest.load fs file).map (.manifest file)

/-- The location of a runfile. In a directory every path has one, whether there is a file or not. -/
def locate? : Store → Text → Option Text
  | .directory root, path => some (root ++ '/' :: path)
  | .manifest _ entries, path => entries.locate? path

/-- The variables that lead a child process to the store. -/
def childVariables : Store → Variables
  | .directory root => Table.ofList [(Variables.runfilesDir, root)]
  | .manifest file _ =>
    let named : Variables := Table.ofList [(Variables.manifestFile, file)]
    match Manifest.impliedDirectory file with
    | some root => named.insert Variables.runfilesDir root
    | none => named

/-- The form and the name of a store. -/
def describe : Store → Text
  | .directory root => "DirectoryBased(" ++ Quoted.encode root ++ ")"
  | .manifest file _ => "ManifestBased(" ++ Quoted.encode file ++ ")"

end Store

namespace RepoMapping

/-- The runfile that holds the repository mapping. -/
def fileName : String := "_repo_mapping"

/-- The mapping in the bytes of a file. A fault at the end is seen after all complete lines are
read, and any other fault before the first line is. -/
def ofBytes (file : Text) (bytes : List UInt8) : Except Error RepoMapping :=
  match Utf8.decode bytes with
  | ⟨text, none⟩ => ofLines text.lines
  | ⟨text, some fault⟩ =>
    let complete := text.lines.filter fun line => line.getLast? = some '\n'
    match ofLines (if fault.isAtEnd then complete else []) with
    | .error e => .error e
    | .ok _ => .error (.undecodableMapping file fault)

/-- Loads the mapping of a store; a store without the file has the empty mapping. -/
def load (fs : FileSystem) (store : Store) : Except Error RepoMapping :=
  match store.locate? fileName with
  | none => .ok empty
  | some file =>
    if file = [] ∨ ¬ fs.isFile file then .ok empty
    else match fs.contents file with
      | .error reason => .error (.unreadableMapping file reason)
      | .ok bytes => ofBytes file bytes

end RepoMapping

end BazelRunfiles
