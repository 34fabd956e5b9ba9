import BazelRunfiles.FileTree.Change
import BazelRunfiles.Store

/-!
Temporary manifests, for handing runfiles to a program under test. The manifest is
written to a new file in a new directory, and afterwards the directory is taken away with
all that is in it. The file's name is seen from that directory, so that a name which
leads out of it leaves the file behind.
-/

namespace BazelRunfiles

namespace Manifest

/-- A manifest as it is found while it is there, and whether it outlives its directory. -/
structure Temporary where
  /-- The last segment of the file's name. -/
  name : Text
  text : Text
  entries : Manifest
  outlives : Bool

/-- The directory of a temporary manifest; `fresh` keeps it apart from all others. -/
def temporaryDirectory (vars : Variables) (fresh : Text) : Text :=
  let given := vars.value Variables.testTmpdir
  Path.join (if given = [] then FileTree.temporaryDirectory else given) ("manifest-" ++ fresh)

/-- Writes entries to a temporary manifest and reads them back. The tree that is returned is the one
after the directory is taken away. -/
def temporary (t : FileTree) (vars : Variables) (fresh : Text) (entries : List Entry)
    (name : Text) : Except Refusal (Temporary × FileTree) := do
  let directory := temporaryDirectory vars fresh
  let file := Path.Normal.ofText (Path.join directory name)
  let inside ← t.create (Path.Normal.ofText directory) (.directory [])
  let inside ← inside.create file (.file (Utf8.encode (render entries)))
  let text := (Utf8.decode (← inside.view.read file.toText)).text
  let after := inside.prune directory
  let outlives := (after.kind? file.toText).isSome
  return (⟨file.name, text, ofLines text.lines, outlives⟩, after)

end Manifest

end BazelRunfiles
