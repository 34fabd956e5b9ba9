import BazelRunfiles.Table
import BazelRunfiles.Text

/-!
What a program knows about where its runfiles are: its own name, and three variables of its
environment. A variable that is not set counts as empty, and an empty one as not set.
-/

namespace BazelRunfiles

/-- Environment variables by name. -/
abbrev Variables := Table Text Text

namespace Variables

/-- The value of a variable, empty if it is not set. -/
def value (vars : Variables) (name : String) : Text := (vars.find? name).getD []

/-- The variable that names a manifest file. -/
def manifestFile : String := "RUNFILES_MANIFEST_FILE"

/-- The variable that names a runfiles directory. -/
def runfilesDir : String := "RUNFILES_DIR"

/-- The variable that names the directory of a test's sources. -/
def testSrcdir : String := "TEST_SRCDIR"

/-- The variable that names the directory for a test's temporary files. -/
def testTmpdir : String := "TEST_TMPDIR"

end Variables

/-- What discovery goes by; empty texts are not given. -/
structure Hints where
  program : Text
  manifestFile : Text
  runfilesDir : Text
  testSrcdir : Text
  deriving DecidableEq

/-- What a program of a given name reads off its environment. -/
def Hints.ofVariables (vars : Variables) (program : Text) : Hints where
  program := program
  manifestFile := vars.value Variables.manifestFile
  runfilesDir := vars.value Variables.runfilesDir
  testSrcdir := vars.value Variables.testSrcdir

end BazelRunfiles
