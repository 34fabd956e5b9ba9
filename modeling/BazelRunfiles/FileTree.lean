import BazelRunfiles.FileTree.Node
import BazelRunfiles.Path

/-!
File trees: a file system held as a value, as it is seen from a working directory. `walk` follows
the parts of a name from the root: every step has to start in a directory, `..` goes up, and a
link is replaced by the parts of its target. At most `maxLinks` links are followed, so a walk ends
also where links lead in a circle. The place at the end of a walk may be free, so that a file can
be written there, and what becomes of the last part depends on the `Aim` of the walk. `view` is
what a program sees of a tree.
-/

namespace BazelRunfiles

/-- A tree of files: what the root holds, and the place where relative names start. -/
structure FileTree where
  root : Node.Entries
  workingDirectory : List Text

namespace FileTree

/-- The number of links that one name may lead through. -/
def maxLinks : Nat := 40

/-- The number of bytes that one part of a name may have. -/
def maxPart : Nat := 255

/-- The number of bytes that a name may have. -/
def maxName : Nat := 4095

/-- What stands at a place. -/
def node? (t : FileTree) (place : List Text) : Option Node := (Node.directory t.root).at? place

/-- What a walk is for. -/
inductive Aim where
  /-- To see what a name leads to: a link that is the last part is followed. -/
  | look
  /-- To see or change what stands under the name itself: such a link is not followed. -/
  | entry
  /-- To write a file: such a link is followed, and slashes after the last part ask for a directory,
  where no file can be written. -/
  | write
  deriving DecidableEq

/-- The directories on the way from the root, the innermost first:
their names and what they hold. -/
abbrev Trail := List (Text × Node.Entries)

/-- What the directory at the end of a trail holds. -/
def entries (t : FileTree) : Trail → Node.Entries
  | [] => t.root
  | (_, inner) :: _ => inner

/-- Follows parts from the end of a trail. What the last part names need not be there. -/
def walk (t : FileTree) (aim : Aim) (links : Nat) (trail : Trail) :
    List Text → Except Reason (List Text)
  | [] => .ok (trail.map Prod.fst).reverse
  | part :: rest =>
    if part = [] ∨ part = ['.'] then walk t aim links trail rest
    else if part = ['.', '.'] then walk t aim links trail.tail rest
    else if aim = .write ∧ rest ≠ [] ∧ rest.all (· = []) then .error .isADirectory
    else if Utf8.size part > maxPart then .error .nameTooLong
    else match Rows.find? part (t.entries trail) with
      | none => if rest = [] then .ok (part :: trail.map Prod.fst).reverse else .error .notFound
      | some (.directory inner) => walk t aim links ((part, inner) :: trail) rest
      | some (.link target) =>
        if rest = [] ∧ aim = .entry then .ok (part :: trail.map Prod.fst).reverse
        else match links with
          | 0 => .error .tooManyLinks
          | links + 1 =>
            walk t aim links (if target.head? = some '/' then [] else trail)
              (Path.segments target ++ rest)
      | some _ =>
        if rest = [] then .ok (part :: trail.map Prod.fst).reverse else .error .notADirectory
termination_by parts => (links, parts.length)

/-- Follows parts from where a name starts; an empty name and one that is too long lead nowhere. -/
def follow (t : FileTree) (aim : Aim) (name : Text) (parts : List Text) :
    Except Reason (List Text) :=
  if name = [] then .error .notFound
  else if Utf8.size name > maxName then .error .nameTooLong
  else t.walk aim maxLinks [] (if name.head? = some '/' then parts else t.workingDirectory ++ parts)

/-- The place that a name leads to, which may be free. -/
def resolve (t : FileTree) (aim : Aim) (name : Text) : Except Reason (List Text) :=
  t.follow aim name (Path.segments name)

/-- What a name leads to, links followed. -/
def kind? (t : FileTree) (name : Text) : Option Kind :=
  match t.resolve .look name with
  | .error _ => none
  | .ok place =>
    match t.node? place with
    | some (.directory _) => some .directory
    | some (.file _) => some .file
    | some (.unreadable _) => some .file
    | some (.device _) => some .other
    | some (.link _) => none
    | none => none

/-- The bytes that a name leads to. -/
def contents (t : FileTree) (name : Text) : Except Reason (List UInt8) :=
  match t.resolve .look name with
  | .error reason => .error reason
  | .ok place =>
    match t.node? place with
    | some (.file bytes) => .ok bytes
    | some (.device bytes) => .ok bytes
    | some (.unreadable reason) => .error reason
    | some (.directory _) => .error .isADirectory
    | some (.link _) => .error .tooManyLinks
    | none => .error .notFound

/-- The target of the link that a name leads to. -/
def target? (t : FileTree) (name : Text) : Option Text :=
  match t.resolve .entry name with
  | .error _ => none
  | .ok place =>
    match t.node? place with
    | some (.link target) => some target
    | _ => none

theorem kind?_nil (t : FileTree) : t.kind? [] = none := by simp [kind?, resolve, follow]

/-- The tree as a program sees it. -/
def view (t : FileTree) : FileSystem where
  workingDirectory := '/' :: Path.ofSegments t.workingDirectory
  kind? := t.kind?
  contents := t.contents
  target? := t.target?
  kind?_nil := t.kind?_nil

end FileTree

end BazelRunfiles
