import BazelRunfiles.Resolver

/-!
The host of a program: the file system, the environment variables and the arguments that a process
starts with. Whatever a caller leaves out is taken from the host.
-/

namespace BazelRunfiles

/-- What a process finds when it starts. -/
structure Host where
  platform : Platform
  files : FileSystem
  environment : Variables
  /-- The name of the program, if it is known, and what follows it. -/
  arguments : List Text

namespace Host

/-- The name of the running program. -/
def program (h : Host) : Text := h.arguments.head?.getD []

/-- What discovery goes by, with the host's values for what is not given. -/
def hints (h : Host) (environment? : Option Variables) (program? : Option Text) : Hints :=
  Hints.ofVariables (environment?.getD h.environment) (program?.getD h.program)

end Host

end BazelRunfiles
