import BazelRunfiles.Text

/-!
The repository that a source file belongs to, read off the file's name. Generated files lie below
`bazel-out/…/bin/external/NAME/`, checked-out ones below `external/NAME/`, and either part may stand
at the start or behind any slash, since the name of the working directory may come first. All other
files belong to the main repository, whose name is empty.
-/

namespace BazelRunfiles

namespace SourceRepository

/-- What follows `word`, if the text starts with it. -/
def after? (word : String) (t : Text) : Option Text :=
  if word.toList.isPrefixOf t then some (t.drop word.length) else none

/-- A segment that is not empty, and what follows it. -/
def segment? (t : Text) : Option (Text × Text) :=
  let name := t.takeWhile (· != '/')
  if name = [] then none else some (name, t.dropWhile (· != '/'))

/-- The repository in `external/NAME/` at the start of a text. -/
def checkedOut? (t : Text) : Option Text := do
  let (name, rest) ← segment? (← after? "external/" t)
  let _ ← after? "/" rest
  return name

/-- The repository in `bazel-out/CONFIGURATION/bin/external/NAME/` at the start of a text. -/
def generated? (t : Text) : Option Text := do
  let (_, rest) ← segment? (← after? "bazel-out/" t)
  checkedOut? (← after? "/bin/" rest)

/-- The first match behind a slash. -/
def searchBehind (pattern : Text → Option Text) : Text → Option Text
  | [] => none
  | c :: rest =>
    if c = '/' then (pattern rest).or (searchBehind pattern rest) else searchBehind pattern rest

/-- The first match at the start or behind a slash. -/
def search (pattern : Text → Option Text) (t : Text) : Option Text :=
  (pattern t).or (searchBehind pattern t)

/-- The canonical name of the repository that holds a source file. -/
def ofFile (file : Text) : Text :=
  let path := file.map fun c => if c = '\\' then '/' else c
  ((search generated? path).or (search checkedOut? path)).getD []

end SourceRepository

/-- For whom runfiles are looked up: a repository by name, or the one that holds a source file. -/
inductive Caller where
  | repository (name : Text)
  | sourceFile (file : Text)

/-- The canonical name of the caller's repository. -/
def Caller.source : Caller → Text
  | .repository name => name
  | .sourceFile file => SourceRepository.ofFile file

end BazelRunfiles
