import BazelRunfiles.Command
import Std.Time.Zoned

/-!
The program: it looks at the names that a run may ask about, makes the run, and writes what the run
leaves. There are two rounds of looking, since the second asks about the repository mapping of the
store that the first one found.
-/

namespace BazelRunfiles

namespace Program

/-- The system's reason in an error. -/
def reason : IO.Error → Reason
  | .noFileOrDirectory .. => .notFound
  | .inappropriateType _ _ words => .other words
  | .permissionDenied _ _ words => .other words
  | .invalidArgument _ _ words => .other words
  | .resourceExhausted _ _ words => .other words
  | .hardwareFault _ words => .other words
  | .otherError _ words => .other words
  | e => .other (toString e)

/-- Looks at a name. -/
def look (name : Text) : IO Finding := do
  let path := String.ofList name
  let kind? ← try
      let info ← (← IO.FS.realPath path).metadata
      pure <| some <| match info.type with
        | .file => Kind.file
        | .dir => Kind.directory
        | _ => Kind.other
    catch _ => pure none
  let contents ← try
      if kind? = some .directory then pure (.error .isADirectory)
      else pure (.ok (← IO.FS.readBinFile path).toList)
    catch e => pure (.error (reason e))
  return ⟨kind?, contents⟩

/-- Looks at names. -/
def survey (names : List Text) : IO (Table Text Finding) :=
  names.foldlM (fun t name => do
    if name = [] ∨ '\x00' ∈ name then return t else return t.insert name (← look name)) Table.empty

/-- The variables of the environment that a run may read. -/
def environment : IO Variables := do
  let mut vars : Variables := Table.empty
  for name in [Variables.manifestFile, Variables.runfilesDir, Variables.testSrcdir] do
    if let some value ← IO.getEnv name then vars := vars.insert name.toList value.toList
  return vars

/-- A number with at least `width` digits. -/
def padded (width n : Nat) : String :=
  let digits := toString n
  String.ofList (List.replicate (width - digits.length) '0') ++ digits

/-- The time as it stands in front of a record. -/
def timestamp : IO String := do
  let now ← Std.Time.PlainDateTime.now
  let day := toString now.date.year.toInt ++ "-" ++ padded 2 now.date.month.val.toNat
    ++ "-" ++ padded 2 now.date.day.val.toNat
  let clock := padded 2 now.time.hour.val.toNat ++ ":" ++ padded 2 now.time.minute.val.toNat
    ++ ":" ++ padded 2 now.time.second.val.toNat
  return day ++ " " ++ clock ++ "," ++ padded 3 (now.time.nanosecond.val.toNat / 1000000)

/-- Writes what was logged and what is printed. -/
def write (output : Text) (log : List Command.Record) : IO Unit := do
  for record in log do
    IO.eprint ((← timestamp) ++ " " ++ String.ofList record.line)
  IO.print (String.ofList output)

/-- A run of the program with its arguments. -/
def start (arguments : List String) : IO UInt32 := do
  let arguments := arguments.map String.toList
  let program := (← IO.appPath).toString
  let workingDirectory := (← IO.currentDir).toString.toList
  let vars ← environment
  let host (files : FileSystem) : Host := ⟨.posix, files, vars, program.toList :: arguments⟩
  let unseen := FileSystem.ofSurvey workingDirectory Table.empty
  let mut files := unseen
  if let .run o := Command.Request.ofArguments arguments then
    let hints := o.hints (host unseen)
    files := .ofSurvey workingDirectory (← survey (Command.namesToAsk unseen hints))
    files := .ofSurvey workingDirectory (← survey (Command.namesToAsk files hints))
  match Command.run (host files) arguments with
  | .help =>
    IO.print Command.usage
    return 0
  | .mistake e =>
    IO.eprint (Command.usage ++ "rlocate: error: " ++ e.message ++ "\n")
    return 2
  | .failure e =>
    IO.eprintln e.message
    return 1
  | .lack l output log =>
    write output log
    IO.eprintln l.message
    return 1
  | .report r =>
    write r.output r.log
    return r.status.toUInt32

end Program

end BazelRunfiles

/-- Prints the locations of runfiles. -/
def main (arguments : List String) : IO UInt32 := BazelRunfiles.Program.start arguments
