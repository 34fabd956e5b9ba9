import BazelRunfiles.FileTree
import BazelRunfiles.Path.Normal

/-!
Changes to file trees. `make` changes a tree as far as the system lets it; an `Attempt` holds the
tree that is left and the refusal, if there was one. `remove` takes out one node or none, `prune`
takes out a directory with everything below it, and `create` makes a node where none may be.
`standard` is the tree that every system starts with.
-/

namespace BazelRunfiles

namespace FileTree

/-- The tree after a change to what the directory around a place holds. The change is told the last
name of the place; the root has none, and stays. -/
def alter (t : FileTree) (change : Text → Node.Entries → Node.Entries) (place : List Text) :
    FileTree :=
  match place.getLast? with
  | none => t
  | some name => { t with root := Node.alter (change name) place.dropLast t.root }

/-- Puts a node at a place. -/
def put (t : FileTree) (place : List Text) (node : Node) : FileTree :=
  t.alter (fun name => Rows.put name node) place

/-- Takes out what stands at a place, with everything below it. -/
def erase (t : FileTree) (place : List Text) : FileTree := t.alter Rows.erase place

/-- The place that parts of a name lead to when the tree is to be changed there. -/
def site (t : FileTree) (aim : Aim) (name : Text) (parts : List Text) :
    Except Refusal (List Text) :=
  if '\x00' ∈ name then .error .nul else (t.follow aim name parts).mapError .system

/-- What is left of an attempt to change a tree. -/
structure Attempt where
  tree : FileTree
  refusal : Option Refusal

/-- An attempt that went well. -/
def done (t : FileTree) : Attempt := ⟨t, none⟩

/-- An attempt that the system refused. -/
def refused (t : FileTree) (reason : Reason) : Attempt := ⟨t, some (.system reason)⟩

/-- Puts a node under a name that must be new. -/
def putNew (t : FileTree) (name : Text) (node : Node) : Attempt :=
  match t.site .entry name (Path.segments name) with
  | .error e => ⟨t, some e⟩
  | .ok place =>
    if (t.node? place).isSome then t.refused .alreadyExists else (t.put place node).done

/-- Makes a directory. If the system refuses, it is asked what the name leads to: a directory will
do, and a link there that leads to too long a name is refused as such. -/
def makeDirectory (t : FileTree) (name : Text) : Attempt :=
  let a := t.putNew name (.directory [])
  match a.refusal with
  | none | some .nul => a
  | some (.system _) =>
    match t.resolve .look name with
    | .ok place =>
      match t.node? place with
      | some (.directory _) => t.done
      | _ => a
    | .error .nameTooLong => t.refused .nameTooLong
    | .error _ => a

/-- Makes a directory. Where the one around it is not there, that one is made first, in the same
way, and the directory is tried once more. -/
def makeDirectories (t : FileTree) (name : Text) : Attempt :=
  let a := t.makeDirectory name
  if a.refusal ≠ some (.system .notFound) then a
  else if _h : Path.directory name = name then a
  else
    let outer := t.makeDirectories (Path.directory name)
    if outer.refusal.isSome then outer else outer.tree.makeDirectory name
termination_by name.length
decreasing_by exact Path.length_directory_lt _h

/-- Writes a file where a name leads. What is no regular file takes the bytes and stays. -/
def write (t : FileTree) (name : Text) (bytes : List UInt8) : Attempt :=
  match t.site .write name (Path.segments name) with
  | .error e => ⟨t, some e⟩
  | .ok place =>
    match t.node? place with
    | some (.directory _) => t.refused .isADirectory
    | some (.device _) | some (.unreadable _) => t.done
    | _ => (t.put place (.file bytes)).done

/-- Makes a link under a name that must be new. -/
def makeLink (t : FileTree) (name target : Text) : Attempt :=
  if '\x00' ∈ target ∨ '\x00' ∈ name then ⟨t, some .nul⟩
  else if target = [] then t.refused .notFound
  else if Utf8.size target > maxName then t.refused .nameTooLong
  else t.putNew name (.link target)

/-- Makes the directories around a name, and puts a node under it. A directory that is there stays
as it is, and a file is written where the name leads. -/
def make (t : FileTree) (name : Path.Normal) (node : Node) : Attempt :=
  let around := Path.directory name.toText
  let a := if around = [] then t.done else t.makeDirectories around
  if a.refusal.isSome then a
  else match node with
    | .directory _ => a.tree.makeDirectories name.toText
    | .file bytes => a.tree.write name.toText bytes
    | .link target => a.tree.makeLink name.toText target
    | _ => a.tree.putNew name.toText node

/-- Takes out what stands under a name. A directory stays, and so does anything else whose name is
given with a slash at the end. -/
def remove (t : FileTree) (name : Text) : Except Refusal FileTree :=
  let bare := name.trimEnd (· = '/')
  match t.site .entry name (Path.segments bare) with
  | .error e => .error e
  | .ok place =>
    match t.node? place with
    | none => .error (.system .notFound)
    | some (.directory _) => .error (.system .isADirectory)
    | some _ => if bare ≠ name then .error (.system .notADirectory) else .ok (t.erase place)

/-- The tree without what stands under a name and everything below it. -/
def prune (t : FileTree) (name : Text) : FileTree :=
  match t.resolve .entry name with
  | .error _ => t
  | .ok place => t.erase place

/-- Puts a node under a name that must be new, in a directory that must be there. -/
def create (t : FileTree) (name : Path.Normal) (node : Node) : Except Refusal FileTree :=
  match t.site .look name.toText name.segments.dropLast with
  | .error e => .error e
  | .ok above =>
    match t.node? above with
    | none => .error (.system .notFound)
    | some (.directory entries) =>
      if name.name = [] ∨ name.name = ['.', '.'] then .error (.system .alreadyExists)
      else if Utf8.size name.name > maxPart then .error (.system .nameTooLong)
      else if (Rows.find? name.name entries).isSome then .error (.system .alreadyExists)
      else .ok (t.put (above ++ [name.name]) node)
    | some _ => .error (.system .notADirectory)

/-- The directory for temporary files. -/
def temporaryDirectory : String := "/tmp"

/-- The places that every system has, seen from a working directory of the given name. -/
def standard (workingDirectory : Text) : FileTree :=
  let place (t : FileTree) (name : Text) (node : Node) :=
    (t.make (Path.Normal.ofText name) node).tree
  let names : List Text :=
    [temporaryDirectory, "/bin", "/etc", "/home", "/root", "/usr/bin", "/usr/lib", "/var"]
  let t := names.foldl (fun t name => place t name (.directory [])) ⟨[], []⟩
  let t := place t "/dev/null" (.device [])
  let t := place t "/proc/self/mem" (.unreadable .inputOutput)
  let t := place t workingDirectory (.directory [])
  { t with workingDirectory := (Path.Normal.ofText workingDirectory).segments }

end FileTree

end BazelRunfiles
