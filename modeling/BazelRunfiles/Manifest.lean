import BazelRunfiles.Manifest.Entry
import BazelRunfiles.Path
import BazelRunfiles.Table

/-!
Manifests: tables from runfile paths to locations. An entry for a directory serves the files
below it: a path without an entry of its own is cut back from its end until there is one, so that
the innermost directory counts. An entry with an empty path serves no other path, so nothing is
found by a slash in front alone.

The name of a manifest file tells where Bazel puts the directory with the same
runfiles; see `impliedDirectory`.
-/

namespace BazelRunfiles

/-- Locations by runfile path. -/
abbrev Manifest := Table Text Text

namespace Manifest

/-- A later entry replaces an earlier one for the same path. -/
def ofEntries (entries : List Entry) : Manifest :=
  entries.foldl (fun m e => m.insert e.key e.value) Table.empty

/-- The entries that the lines hold. -/
def ofLines (lines : List Text) : Manifest := ofEntries (lines.filterMap Entry.ofLine?)

/-- The text that holds entries, a line each. -/
def render (entries : List Entry) : Text := entries.flatMap Entry.line

/-- The location of a runfile by an entry for a directory around it. The path is cut back from slash
to slash until there is such an entry, down to a slash that is its first character. What the path
has before the last cut is spelled from the end, and `behind` is what it has after it. -/
def locateInside? (m : Manifest) : (back behind : Text) → Option Text
  | [], _ => none
  | c :: back, behind =>
    if c = '/' then
      if back = [] then none
      else match m.find? back.reverse with
        | some location => some (location ++ '/' :: behind)
        | none => locateInside? m back ('/' :: behind)
    else locateInside? m back (c :: behind)

/-- The location of a runfile: by the entry for it, or else by the
innermost directory with an entry. -/
def locate? (m : Manifest) (path : Text) : Option Text :=
  match m.find? path with
  | some location => some location
  | none => m.locateInside? path.reverse []

/-- The file name of a manifest inside a runfiles directory. -/
def fileName : String := "MANIFEST"

/-- What a runfiles directory's name ends with. -/
def directoryEnding : String := ".runfiles"

/-- What turns a runfiles directory's name into the name of the manifest next to it. -/
def besideEnding : String := "_manifest"

/-- The runfiles directory that the name of a manifest file implies: the one that holds it, the
working directory for a bare name, or the one next to it; none if that would be an empty name. -/
def impliedDirectory (file : Text) : Option Text :=
  let directory :=
    if let some d := Text.stem? ('/' :: fileName) file then some d
    else if let some d := Text.stem? ('\\' :: fileName) file then some d
    else if file = fileName then some ['.']
    else (Text.stem? besideEnding file).filter (directoryEnding.toList.isSuffixOf ·)
  directory.filter (· ≠ [])

end Manifest

end BazelRunfiles
