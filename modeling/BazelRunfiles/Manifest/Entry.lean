import BazelRunfiles.Manifest.Field

/-!
One line of a manifest: a runfile path, a space and a location. A line that starts with a space
holds its two fields in escaped form, which `Entry.line` chooses only where it has to. An entry
without a location is its own location.
-/

namespace BazelRunfiles

namespace Manifest

/-- A runfile path and where the file is. -/
structure Entry where
  key : Text
  value : Text
  deriving DecidableEq

namespace Entry

/-- A location that is left out is the runfile path. -/
def located (e : Entry) : Entry := if e.value = [] then { e with value := e.key } else e

/-- A line without its newlines and without the one carriage return before them. -/
def body (line : Text) : Text :=
  let t := line.trimEnd (· = '\n')
  if t.getLast? = some '\r' then t.dropLast else t

/-- The entry in the body of a line; an empty line holds none. -/
def ofBody? : Text → Option Entry
  | [] => none
  | c :: rest =>
    if c = ' ' then
      let (key, value) := Text.cut ' ' rest
      some (located ⟨Field.key.unescape key, Field.value.unescape value⟩)
    else
      let (key, value) := Text.cut ' ' (c :: rest)
      some (located ⟨key, value⟩)

/-- The entry in a line. -/
def ofLine? (line : Text) : Option Entry := ofBody? (body line)

/-- Whether an entry can be written only in escaped form. The location may hold spaces, for only the
first space of a line divides it, but not what an escaped location has to escape. -/
def mustEscape (e : Entry) : Bool := Field.key.mustEscape e.key || Field.value.mustEscape e.value

/-- The line that holds an entry. -/
def line (e : Entry) : Text :=
  if e.mustEscape then ' ' :: Field.key.escape e.key ++ ' ' :: Field.value.escape e.value ++ ['\n']
  else e.key ++ ' ' :: e.value ++ ['\n']

end Entry

end Manifest

end BazelRunfiles
