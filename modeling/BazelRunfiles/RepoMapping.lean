import BazelRunfiles.Error
import BazelRunfiles.Table
import BazelRunfiles.Text.Quoted

/-!
Repository mappings. Each line names a source repository, a repository as the source knows it, and
that repository's canonical name. A source that ends in an asterisk stands for all sources that
start with the text before it.

Lines for one source and one apparent name are read so that the last counts, and lines for sources
with an asterisk so that the first counts, also where several of them fit. A line for the very
source comes before all others.
-/

namespace BazelRunfiles

namespace RepoMapping

/-- The two names that a mapping goes by. -/
structure Key where
  source : Text
  apparent : Text
  deriving DecidableEq

/-- One line of a mapping. -/
structure Entry where
  source : Text
  apparent : Text
  canonical : Text
  deriving DecidableEq

namespace Entry

/-- A line without the carriage returns and newlines at its end. -/
def body (line : Text) : Text := line.trimEnd fun c => c = '\r' || c = '\n'

/-- The entry in a line: none in an empty one, and an error unless there are three fields. -/
def ofLine (line : Text) : Except Error (Option Entry) :=
  if body line = [] then .ok none
  else match (body line).splitOn ',' with
    | [source, apparent, canonical] => .ok (some ⟨source, apparent, canonical⟩)
    | _ => .error (.malformedMapping (body line))

end Entry

end RepoMapping

/-- Canonical repository names, for single sources and for sources that start alike. -/
structure RepoMapping where
  exact : Table RepoMapping.Key Text
  starting : Table RepoMapping.Key Text

namespace RepoMapping

/-- The mapping without entries. -/
def empty : RepoMapping := ⟨Table.empty, Table.empty⟩

/-- Adds an entry behind the ones that are there. -/
def add (m : RepoMapping) (e : Entry) : RepoMapping :=
  match Text.stem? ['*'] e.source with
  | some start => { m with starting := m.starting.insertNew ⟨start, e.apparent⟩ e.canonical }
  | none => { m with exact := m.exact.insert ⟨e.source, e.apparent⟩ e.canonical }

/-- Adds what the lines hold, up to the first malformed one. -/
def addLines (m : RepoMapping) : List Text → Except Error RepoMapping
  | [] => .ok m
  | line :: rest =>
    match Entry.ofLine line with
    | .error e => .error e
    | .ok none => addLines m rest
    | .ok (some e) => addLines (m.add e) rest

/-- The mapping that the lines hold. -/
def ofLines (lines : List Text) : Except Error RepoMapping := addLines empty lines

/-- The number of entries. -/
def size (m : RepoMapping) : Nat := m.exact.size + m.starting.size

/-- The canonical name of the repository that `source` knows as `apparent`. -/
def canonical? (m : RepoMapping) (source apparent : Text) : Option Text :=
  (m.exact.find? ⟨source, apparent⟩).or <|
    m.starting.rows.findSome? fun (key, canonical) =>
      if key.apparent = apparent && key.source.isPrefixOf source then some canonical else none

/-- A path with its first segment replaced by the canonical name. A path of one segment names a file
of no repository and stays as it is, like a path whose repository is not mapped. -/
def apply (m : RepoMapping) (source path : Text) : Text :=
  if '/' ∈ path then
    match m.canonical? source (path.cut '/').1 with
    | some canonical => canonical ++ '/' :: (path.cut '/').2
    | none => path
  else path

/-- The rows of a table in braces. -/
def describeTable (t : Table Key Text) : Text :=
  let row := fun (entry : Key × Text) =>
    "Key(source=" ++ Quoted.encode entry.1.source ++ ", apparent=" ++ Quoted.encode entry.1.apparent
      ++ "): " ++ Quoted.encode entry.2
  '\x7b' :: List.intercalate ", " (t.rows.map row) ++ ['\x7d']

/-- A mapping with all its entries. -/
def describe (m : RepoMapping) : Text :=
  "RepositoryMapping(exact=" ++ describeTable m.exact ++ ", prefixed=" ++ describeTable m.starting
    ++ ")"

end RepoMapping

end BazelRunfiles
