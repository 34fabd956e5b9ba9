import BazelRunfiles.Command.Options
import BazelRunfiles.Host

/-!
The command line. A run prints the locations of the paths that are asked for, or the variables for
child processes, and logs every path without a location. Locations that are given as options replace
both variables of the environment that name one.

The file system is asked about few names, which `namesToAsk` lists; so a run can be made from
a survey of those names alone.
-/

namespace BazelRunfiles

namespace Command

/-- How grave a record of the log is. -/
inductive Level where
  | info
  | warning
  | error
  deriving DecidableEq, Repr

/-- The name of a level. -/
def Level.name : Level → String
  | .info => "INFO"
  | .warning => "WARNING"
  | .error => "ERROR"

/-- A record of the log. -/
structure Record where
  level : Level
  text : Text
  deriving DecidableEq

/-- A record as it is written, but for the time. -/
def Record.line (r : Record) : Text :=
  r.level.name.toList ++ " rlocation.rlocate " ++ r.text ++ ['\n']

/-- What a run leaves: its exit status, what it prints, and what it logs. -/
structure Report where
  status : Nat
  output : Text
  log : List Record
  deriving DecidableEq

/-- What a run cannot do without. -/
inductive Lack where
  /-- The name of the program, which stands before its arguments. -/
  | program
  /-- A source repository for which a path has to be mapped. -/
  | source
  deriving DecidableEq, Repr

/-- The wording of a lack. -/
def Lack.message : Lack → String
  | .program => "list index out of range"
  | .source => "unhashable type: 'list'"

/-- How a run ends. -/
inductive Outcome where
  | report (r : Report)
  | mistake (e : UsageError)
  | help
  /-- A failure that is not the runfiles' fault ends a run without a report. -/
  | failure (e : Error)
  /-- So does a lack, after what has been printed and logged. -/
  | lack (l : Lack) (output : Text) (log : List Record)

/-- The variables with the locations among the options in place of theirs. -/
def Options.replaceIn (o : Options) (vars : Variables) : Variables :=
  let vars :=
    if o.manifestFile.isSome ∨ o.runfilesDir.isSome then
      (vars.erase Variables.manifestFile).erase Variables.runfilesDir
    else vars
  let vars := match o.manifestFile with
    | some file => vars.insert Variables.manifestFile file.toText
    | .none => vars
  match o.runfilesDir with
    | some root => vars.insert Variables.runfilesDir root.toText
    | .none => vars

/-- What discovery goes by. -/
def Options.hints (o : Options) (host : Host) : Hints :=
  host.hints (some (o.replaceIn host.environment)) (o.program.map Value.toText)

/-- The variables in the order of their names, a line each. -/
def variableLines (vars : Variables) : Text :=
  (vars.rows.mergeSort fun a b => a.1.isAtMost b.1).flatMap fun (name, value) =>
    name ++ '=' :: value ++ ['\n']

/-- The record of a path without a location. -/
def notFound (path : Text) : Record := ⟨.warning, "runfile " ++ path ++ " not found"⟩

/-- Prints the location of a path. A path without one is logged, and the
run has failed from then on. -/
def Report.lookUp (find? : Text → Option Text) (report : Report) (path : Text) : Report :=
  match find? path with
  | some location => { report with output := report.output ++ location ++ ['\n'] }
  | none => { report with status := 1, log := report.log ++ [notFound path] }

/-- Looks up one path after the other. -/
def Report.lookUpAll (find? : Text → Option Text) (report : Report) (paths : List Text) : Report :=
  paths.foldl (Report.lookUp find?) report

/-- What there is before anything is looked up: with `--verbose`, a record of the resolver. -/
def Options.firstReport (o : Options) (r : Resolver) : Report :=
  ⟨0, [], if o.verbose then [⟨.info, "using " ++ r.describeAs o.source.quoted⟩] else []⟩

/-- What a run prints and logs once it has a resolver. -/
def answer (platform : Platform) (o : Options) (r : Resolver) : Report :=
  if o.childVariables then { o.firstReport r with output := variableLines r.childVariables }
  else (o.firstReport r).lookUpAll (fun path => r.find? platform path none) o.paths

/-- Whether some path has to be mapped, and there is no source repository to map it for. -/
def Options.lackSource (platform : Platform) (o : Options) : Bool :=
  o.source = .nothing && !o.childVariables && o.paths.any (Resolver.asksMapping platform)

/-- The options with only the paths before the first one that has to be mapped. -/
def Options.beforeMapped (platform : Platform) (o : Options) : Options :=
  { o with paths := o.paths.takeWhile fun path => !Resolver.asksMapping platform path }

/-- An error with the program as the options name it. -/
def Options.rename (o : Options) : Error → Error
  | .noRunfiles program => .noRunfiles ((o.program.map Value.named).getD program)
  | e => e

/-- A run with options. -/
def perform (host : Host) (o : Options) : Outcome :=
  match Resolver.discover host.files (o.hints host) (.repository o.source.toText) with
  | .ok r =>
    if o.lackSource host.platform then
      let before := answer host.platform (o.beforeMapped host.platform) r
      .lack .source before.output before.log
    else .report (answer host.platform o r)
  | .error e =>
    if e.isRunfilesFault then .report ⟨1, [], [⟨.error, (o.rename e).message.toList⟩]⟩
    else .failure e

/-- A run with arguments; they are not read by a program without a name. -/
def run (host : Host) (arguments : List Text) : Outcome :=
  if host.arguments = [] then .lack .program [] []
  else match Request.ofArguments arguments with
  | .help => .help
  | .mistake e => .mistake e
  | .run o => perform host o

/-- How the command is used. -/
def usage : String :=
  "usage: rlocate [-h] [--source-repository NAME] [--manifest-file FILE] [--runfiles-dir DIR]\n"
    ++ "               [--argv0 PROGRAM] [--env] [--verbose] [PATH ...]\n"

/-- The names about which a run may ask: the ones that discovery looks at, and the repository
mapping of the store that is found there. -/
def namesToAsk (files : FileSystem) (hints : Hints) : List Text :=
  let given := [hints.manifestFile, hints.runfilesDir, Location.manifestInside hints.program,
    Location.manifestBeside hints.program, Location.directoryBeside hints.program]
  let store := match Location.discover files.probes hints with
    | .ok (.manifest file) => (Store.ofManifestFile files file).toOption
    | .ok (.directory root) => some (.directory root)
    | .error _ => none
  given ++ (store.bind fun s => s.locate? RepoMapping.fileName).toList

end Command

/-- What was found out about a name. -/
structure Finding where
  kind? : Option Kind
  contents : Except Reason (List UInt8)

/-- A file system of which only some names have been looked at. -/
def FileSystem.ofSurvey (workingDirectory : Text) (survey : Table Text Finding) : FileSystem where
  workingDirectory := workingDirectory
  kind? := fun name => if name = [] then none else (survey.find? name).bind (·.kind?)
  contents := fun name => ((survey.find? name).map (·.contents)).getD (.error .notFound)
  target? := fun _ => none
  kind?_nil := rfl

end BazelRunfiles
