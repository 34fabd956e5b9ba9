import BazelRunfiles.Path
import BazelRunfiles.Text.Utf8

/-!
What a program may ask of the file system. A `FileSystem` answers questions about names that
hold no NUL character; a name with one never reaches the system, so the predicates are false for
it and opening it fails in a way of its own. All answers are functions of the name: a program
that asks twice hears the same.
-/

namespace BazelRunfiles

/-- What a name leads to, links followed. -/
inductive Kind where
  | file
  | directory
  | other
  deriving DecidableEq, Repr

/-- Why the system refuses. -/
inductive Reason where
  | notFound
  | notADirectory
  | isADirectory
  | nameTooLong
  | tooManyLinks
  | alreadyExists
  | inputOutput
  /-- Any other refusal, in the system's words. -/
  | other (words : String)
  deriving DecidableEq, Repr

/-- The system's words for a refusal. -/
def Reason.message : Reason → String
  | .notFound => "No such file or directory"
  | .notADirectory => "Not a directory"
  | .isADirectory => "Is a directory"
  | .nameTooLong => "File name too long"
  | .tooManyLinks => "Too many levels of symbolic links"
  | .alreadyExists => "File exists"
  | .inputOutput => "Input/output error"
  | .other words => words

/-- Why a file name could not be used. -/
inductive Refusal where
  /-- The name holds a NUL character, and the system was not asked. -/
  | nul
  /-- The system refused. -/
  | system (reason : Reason)
  deriving DecidableEq, Repr

/-- The wording of a refusal. -/
def Refusal.message : Refusal → String
  | .nul => "embedded null byte"
  | .system reason => reason.message

/-- The state of a file system as a program sees it. -/
structure FileSystem where
  /-- Where relative names start. -/
  workingDirectory : Text
  /-- What a name leads to, if it can be examined. -/
  kind? : Text → Option Kind
  /-- The bytes of a file. -/
  contents : Text → Except Reason (List UInt8)
  /-- The target of a link; none for what is no link or cannot be examined. -/
  target? : Text → Option Text
  /-- The empty name leads nowhere. -/
  kind?_nil : kind? [] = none

namespace FileSystem

/-- Whether a name leads to a regular file. -/
def isFile (fs : FileSystem) (name : Text) : Bool :=
  '\x00' ∉ name && fs.kind? name = some .file

/-- Whether a name leads to a directory. -/
def isDirectory (fs : FileSystem) (name : Text) : Bool :=
  '\x00' ∉ name && fs.kind? name = some .directory

/-- The bytes of a file. -/
def read (fs : FileSystem) (name : Text) : Except Refusal (List UInt8) :=
  if '\x00' ∈ name then .error .nul else (fs.contents name).mapError .system

theorem isFile_of_nul {fs : FileSystem} {name : Text} (h : '\x00' ∈ name) :
    fs.isFile name = false := by
  simp [isFile, h]

theorem ne_nil_of_isFile {fs : FileSystem} {name : Text} (h : fs.isFile name) : name ≠ [] := by
  rintro rfl
  simp [isFile, fs.kind?_nil] at h

end FileSystem

end BazelRunfiles
