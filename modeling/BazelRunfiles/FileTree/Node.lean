import BazelRunfiles.FileSystem
import BazelRunfiles.Table

/-!
The nodes of a file tree. A directory holds its nodes by name, and a place is the list of the names
on the way down to a node. `at?` finds what stands at a place and `alter` changes what a directory
holds; both take one step for each name of the place.
-/

namespace BazelRunfiles

/-- What stands at a place. -/
inductive Node where
  | directory (entries : List (Text × Node))
  | file (bytes : List UInt8)
  | link (target : Text)
  /-- Something that can be read but is no regular file. -/
  | device (bytes : List UInt8)
  /-- A regular file that cannot be read. -/
  | unreadable (reason : Reason)

namespace Node

/-- What a directory holds, by name. -/
abbrev Entries := List (Text × Node)

/-- What stands at a place below a node. -/
def at? : Node → List Text → Option Node
  | node, [] => some node
  | .directory entries, name :: rest => (Rows.find? name entries).bind fun inner => inner.at? rest
  | _, _ :: _ => none

/-- Entries after a change to what the directory at a place holds; without a directory there nothing
changes. -/
def alter (change : Entries → Entries) : List Text → Entries → Entries
  | [], entries => change entries
  | name :: rest, entries =>
    match Rows.find? name entries with
    | some (.directory inner) => Rows.put name (.directory (alter change rest inner)) entries
    | _ => entries

end Node

end BazelRunfiles
