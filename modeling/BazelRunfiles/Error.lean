import BazelRunfiles.FileSystem

/-!
Why runfiles cannot be set up. Most causes are faults of the runfiles themselves; two are not, and
callers that handle the former do not expect them: a name with a NUL character, and a manifest that
is no UTF-8. `isRunfilesFault` tells them apart.
-/

namespace BazelRunfiles

/-- A cause of failure while runfiles are set up. -/
inductive Error where
  /-- The manifest cannot be opened or read. -/
  | unreadableManifest (file : Text) (reason : Reason)
  /-- The manifest is no UTF-8. -/
  | undecodableManifest (fault : Utf8.Fault)
  /-- The repository mapping cannot be opened or read. -/
  | unreadableMapping (file : Text) (reason : Reason)
  /-- The repository mapping is no UTF-8. -/
  | undecodableMapping (file : Text) (fault : Utf8.Fault)
  /-- A line of the repository mapping has not three fields. -/
  | malformedMapping (line : Text)
  /-- A manifest and a directory are given, and neither is there. -/
  | invalidLocations (manifest directory : Text)
  /-- Nothing is given, and there is nothing next to the program. -/
  | noRunfiles (program : Text)
  /-- No directory is given that is there, and there is none around the program. -/
  | noDirectory (program : Text)
  /-- A name that has to be opened or read as a link holds a NUL character. -/
  | nulInName
  deriving DecidableEq, Repr

namespace Error

/-- Whether the runfiles are at fault. -/
def isRunfilesFault : Error → Bool
  | .undecodableManifest _ => false
  | .nulInName => false
  | _ => true

/-- A text between typographic quotes. -/
def named (name : Text) : String := "“" ++ String.ofList name ++ "”"

/-- The wording of a cause. -/
def message : Error → String
  | .unreadableManifest file reason =>
    "can’t open runfiles manifest " ++ named file ++ ": " ++ reason.message
  | .undecodableManifest fault => fault.message
  | .unreadableMapping file reason =>
    "can’t read repository mapping " ++ named file ++ ": " ++ reason.message
  | .undecodableMapping file fault =>
    "repository mapping " ++ named file ++ " isn’t valid UTF-8: " ++ fault.message
  | .malformedMapping line => "invalid repository mapping entry " ++ named line
  | .invalidLocations manifest directory =>
    "neither runfiles manifest " ++ named manifest ++ " nor runfiles directory " ++ named directory
      ++ " is valid"
  | .noRunfiles program => "no runfiles found for program " ++ named program
  | .noDirectory program => "no runfiles directory found for program " ++ named program
  | .nulInName => Refusal.nul.message

variable {α β : Type}

theorem bind_eq_ok_iff {x : Except Error α} {f : α → Except Error β} {b : β} :
    x.bind f = .ok b ↔ ∃ a, x = .ok a ∧ f a = .ok b := by
  cases x <;> simp [Except.bind]

theorem map_eq_ok_iff {x : Except Error α} {f : α → β} {b : β} :
    x.map f = .ok b ↔ ∃ a, x = .ok a ∧ f a = b := by
  cases x <;> simp [Except.map]

end Error

end BazelRunfiles
