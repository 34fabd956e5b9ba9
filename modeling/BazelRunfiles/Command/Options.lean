import BazelRunfiles.Text.Digit
import BazelRunfiles.Text.Quoted

/-!
The options of the command line. Arguments are first told apart by their look, then read from left
to right. An option's value follows it in the same argument behind `=` or in the next one, and the
last one given counts. The paths form one group: paths after an option that follows the group are
not recognized. A double dash makes paths of all that come after it; behind `=` it is no text
either, and the option is then given nothing.

Of several mistakes the first wrong use of an option counts, then all that is not
recognized, then that there are no paths.
-/

namespace BazelRunfiles

namespace Command

/-- An option. -/
inductive Flag where
  | help
  | source
  | manifestFile
  | runfilesDir
  | program
  | childVariables
  | verbose
  deriving DecidableEq, Repr

namespace Flag

/-- All options. -/
def all : List Flag :=
  [.help, .source, .manifestFile, .runfilesDir, .program, .childVariables, .verbose]

/-- The ways to write an option. -/
def names : Flag → List String
  | .help => ["-h", "--help"]
  | .source => ["--source-repository"]
  | .manifestFile => ["--manifest-file"]
  | .runfilesDir => ["--runfiles-dir"]
  | .program => ["--argv0"]
  | .childVariables => ["--env"]
  | .verbose => ["--verbose"]

/-- Whether a value belongs to the option. -/
def takesValue : Flag → Bool
  | .source | .manifestFile | .runfilesDir | .program => true
  | .help | .childVariables | .verbose => false

/-- The option that is written so. -/
def ofName? (t : Text) : Option Flag := all.find? fun f => f.names.any fun name => name.toList = t

end Flag

/-- What an option is given. -/
inductive Value where
  | text (t : Text)
  /-- Nothing, for which a double dash stands. -/
  | nothing
  deriving DecidableEq

namespace Value

/-- The value that stands behind `=`. -/
def ofAttached (t : Text) : Value := if t = ['-', '-'] then .nothing else .text t

/-- The text that is given; an empty one for nothing. -/
def toText : Value → Text
  | .text t => t
  | .nothing => []

/-- What is written for nothing. -/
def nothingWritten : String := "[]"

/-- A value as a name in a message. -/
def named : Value → Text
  | .text t => t
  | .nothing => nothingWritten

/-- A value as a quoted text. -/
def quoted : Value → Text
  | .text t => Quoted.encode t
  | .nothing => nothingWritten

end Value

/-- An argument by its look. -/
inductive Token where
  | word (t : Text)
  | flag (f : Flag) (attached : Option Text)
  /-- An argument that looks like an option but is none. -/
  | unknown (t : Text)
  /-- The first double dash. -/
  | dashes

namespace Token

/-- Whether a text is a negative number: digits behind a dash, perhaps with a point before the last
of them. A newline may follow. -/
def isNegativeNumber (t : Text) : Bool :=
  let t := (Text.stem? ['\n'] t).getD t
  let (whole, fraction) := Text.cut '.' t.tail
  t.head? = some '-' && whole.all isDecimal && fraction.all isDecimal
    && if '.' ∈ t then fraction ≠ [] else whole ≠ []

/-- The option that is joined to a value in one argument. -/
def attached? (t : Text) : Option Token :=
  if '=' ∈ t then
    (Flag.ofName? (t.cut '=').1).map fun f => .flag f (some (t.cut '=').2)
  else none

/-- Help that is asked for by letters, each of which asks once. What
follows the letters is a value. -/
def letters (behind : Text) : Token :=
  match behind.dropWhile (· = 'h') with
  | [] => .flag .help none
  | rest => .flag .help (some rest)

/-- Help that is asked for by its letter with more behind it. -/
def lettered? : Text → Option Token
  | ['-', 'h', '='] => some (.flag .help (some []))
  | '-' :: 'h' :: '=' :: behind => some (letters behind)
  | '-' :: 'h' :: behind => some (letters behind)
  | _ => none

/-- An argument before any double dash. -/
def ofText (t : Text) : Token :=
  if t.head? ≠ some '-' then .word t
  else if let some f := Flag.ofName? t then .flag f none
  else if t = ['-'] then .word t
  else if let some token := lettered? t then token
  else if let some token := attached? t then token
  else if isNegativeNumber t || ' ' ∈ t then .word t
  else .unknown t

/-- The arguments by their look; behind the first double dash there are only words. -/
def ofArguments : List Text → List Token
  | [] => []
  | t :: rest => if t = ['-', '-'] then .dashes :: rest.map .word else ofText t :: ofArguments rest

end Token

/-- What a run is asked for. -/
structure Options where
  source : Value
  manifestFile : Option Value
  runfilesDir : Option Value
  program : Option Value
  /-- Whether the variables for child processes are asked for, and no paths. -/
  childVariables : Bool
  verbose : Bool
  paths : List Text
  deriving DecidableEq

namespace Options

/-- The options when none is given. -/
def none : Options := ⟨.text [], .none, .none, .none, false, false, []⟩

/-- Gives an option a value. -/
def set (o : Options) (value : Value) : Flag → Options
  | .source => { o with source := value }
  | .manifestFile => { o with manifestFile := some value }
  | .runfilesDir => { o with runfilesDir := some value }
  | .program => { o with program := some value }
  | _ => o

/-- Turns an option on. -/
def turnOn (o : Options) : Flag → Options
  | .childVariables => { o with childVariables := true }
  | .verbose => { o with verbose := true }
  | _ => o

end Options

/-- A mistake in the arguments. -/
inductive UsageError where
  | noPaths
  | unrecognized (arguments : List Text)
  | valueMissing (f : Flag)
  | valueIgnored (f : Flag) (value : Text)
  deriving DecidableEq

/-- The wording of a mistake. -/
def UsageError.message : UsageError → String
  | .noPaths => "no runfiles paths given"
  | .unrecognized arguments =>
    "unrecognized arguments: " ++ String.ofList (List.intercalate [' '] arguments)
  | .valueMissing f => "argument " ++ "/".intercalate f.names ++ ": expected one argument"
  | .valueIgnored f value =>
    "argument " ++ "/".intercalate f.names ++ ": ignored explicit argument "
      ++ String.ofList (Quoted.encode value)

/-- Where the reading is with respect to the group of paths. -/
inductive Group where
  | ahead
  | inside
  | behind
  deriving DecidableEq

/-- What has been read. -/
structure Reading where
  options : Options
  group : Group
  /-- What was not recognized, in order. -/
  extras : List Text

namespace Reading

/-- Nothing has been read. -/
def start : Reading := ⟨.none, .ahead, []⟩

/-- An option ends the group of paths. -/
def endGroup (r : Reading) : Reading := if r.group = .inside then { r with group := .behind } else r

/-- Reads a path. -/
def word (r : Reading) (t : Text) : Reading :=
  if r.group = .behind then { r with extras := r.extras ++ [t] }
  else { r with group := .inside, options := { r.options with paths := r.options.paths ++ [t] } }

/-- Reads a double dash, which belongs to the group of paths. -/
def dashes (r : Reading) : Reading :=
  if r.group = .behind then { r with extras := r.extras ++ [['-', '-']] }
  else { r with group := .inside }

/-- Reads an option with its value. -/
def set (r : Reading) (f : Flag) (value : Value) : Reading :=
  { r.endGroup with options := r.options.set value f }

/-- Reads an option without a value. -/
def turnOn (r : Reading) (f : Flag) : Reading :=
  { r.endGroup with options := r.options.turnOn f }

/-- Reads what looks like an option. -/
def unknown (r : Reading) (t : Text) : Reading :=
  { r.endGroup with extras := r.extras ++ [t] }

end Reading

/-- What the arguments ask for. -/
inductive Request where
  | help
  | mistake (e : UsageError)
  | run (o : Options)

/-- What is asked for once everything has been read. -/
def Reading.request (r : Reading) : Request :=
  if r.extras ≠ [] then .mistake (.unrecognized r.extras)
  else if ¬ r.options.childVariables ∧ r.options.paths = [] then .mistake .noPaths
  else .run r.options

/-- Reads arguments from left to right. -/
def Reading.read (r : Reading) : List Token → Request
  | [] => r.request
  | .word t :: rest => (r.word t).read rest
  | .dashes :: rest => r.dashes.read rest
  | .unknown t :: rest => (r.unknown t).read rest
  | .flag f (some value) :: rest =>
    if f.takesValue then (r.set f (.ofAttached value)).read rest
    else .mistake (.valueIgnored f value)
  | .flag f none :: .word value :: rest =>
    if f.takesValue then (r.set f (.text value)).read rest
    else if f = .help then .help
    else ((r.turnOn f).word value).read rest
  | .flag f none :: rest =>
    if f.takesValue then .mistake (.valueMissing f)
    else if f = .help then .help
    else (r.turnOn f).read rest

/-- What the arguments of a program ask for. -/
def Request.ofArguments (arguments : List Text) : Request :=
  Reading.start.read (Token.ofArguments arguments)

end Command

end BazelRunfiles
