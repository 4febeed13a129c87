import WeightedArgumentation.CommandLine.Help
import WeightedArgumentation.Decimal.Setting
import WeightedArgumentation.Semantics.Solver

/-!
# The arguments of a command

An invocation names a command, the path of a document and options with values.
The value of an option is the rest of its argument, behind an equals sign after
a long name and with or without one after a short name, or else the next
argument, unless that starts with a dash and is not a dash alone.  After `--`
every argument is a path.  An option is given at most once.

Arguments are taken in order: the first one that is wrong, or that asks for
help, decides.
-/

namespace WeightedArgumentation.CommandLine

/-- What the program is asked to do. -/
inductive Command where
  | score (path : String) (slider : Float) (solver : SolverConfig Float)
  | export (path : String) (output : Option String) (slider : Float)
  | nextId (path : String)

/-- The options of the commands. -/
inductive OptionKey
  | slider
  | output
  | maxIterations
  | tolerance
  deriving DecidableEq, Repr

namespace OptionKey

/-- The name behind two dashes. -/
def long : OptionKey → String
  | .slider => "slider"
  | .output => "output"
  | .maxIterations => "max-iterations"
  | .tolerance => "tolerance"

/-- The letter behind one dash. -/
def short? : OptionKey → Option Char
  | .slider => some 's'
  | .output => some 'o'
  | .maxIterations | .tolerance => none

/-- The largest cap on passes. -/
def largestCap : Nat := UInt64.size - 1

/-- Whether a value can be read for an option. -/
def accepts : OptionKey → String → Bool
  | .slider, value | .tolerance, value => (Decimal.floatSetting? value).isSome
  | .maxIterations, value => (Decimal.naturalSetting? largestCap value).isSome
  | .output, value => value ≠ ""

end OptionKey

/-- The path and the options of an invocation, as they were given. -/
structure Given where
  path : Option String
  options : List (OptionKey × String)

/-- What an invocation is before anything is given. -/
def Given.nothing : Given := ⟨none, []⟩

/-- The value given for an option. -/
def Given.value? (given : Given) (key : OptionKey) : Option String :=
  given.options.findSome? fun option => if option.1 = key then some option.2 else none

/-- How an argument is meant. -/
inductive Meaning
  | path
  | rest
  | help
  | option (key : OptionKey) (attached : Option String)
  | unknown
  deriving DecidableEq, Repr

/-- A long option, with what follows its equals sign. -/
def readLong (known : List OptionKey) (text : List Char) : Meaning :=
  let name := String.ofList (text.takeWhile (· ≠ '='))
  let attached := match text.dropWhile (· ≠ '=') with
    | [] => none
    | _ :: value => some (String.ofList value)
  match known.find? (·.long = name) with
  | some key => .option key attached
  | none => if name = "help" && attached.isNone then .help else .unknown

/-- A short option, with what follows its letter. -/
def readShort (known : List OptionKey) (letter : Char) (text : List Char) : Meaning :=
  let attached := match text with
    | [] => none
    | '=' :: value => some (String.ofList value)
    | value => some (String.ofList value)
  match known.find? (·.short? = some letter) with
  | some key => .option key attached
  | none => if letter = 'h' then .help else .unknown

/-- How an argument is meant by a command with known options. -/
def readArgument (known : List OptionKey) (argument : String) : Meaning :=
  match argument.toList with
  | ['-', '-'] => .rest
  | '-' :: '-' :: text => readLong known text
  | '-' :: letter :: text => readShort known letter text
  | _ => .path

/-- Whether an argument can be the value of the option before it. -/
def isValue (argument : String) : Bool :=
  match argument.toList with
  | '-' :: _ :: _ => false
  | _ => true

/-- Adds the only path; it is not empty. -/
def Given.addPath (given : Given) (path : String) : Option Given :=
  if given.path.isSome || path = "" then none else some { given with path := some path }

/-- Adds the paths of a list. -/
def Given.addPaths : Given → List String → Option Given
  | given, [] => some given
  | given, path :: rest => (given.addPath path).bind fun given => given.addPaths rest

/-- Adds the value of an option that was not given before. -/
def Given.addOption (given : Given) (key : OptionKey) (value : String) : Option Given :=
  if (given.value? key).isSome || !key.accepts value then none
  else some { given with options := given.options ++ [(key, value)] }

/-- What the arguments of a command come to. -/
inductive Sorted
  | given (given : Given)
  | help

/-- Sorts arguments into a path and options. -/
def sortArguments (known : List OptionKey) : Given → List String → Option Sorted
  | given, [] => some (.given given)
  | given, argument :: rest =>
      match readArgument known argument with
      | .path =>
          match given.addPath argument with
          | some given => sortArguments known given rest
          | none => none
      | .rest => (given.addPaths rest).map .given
      | .help => some .help
      | .unknown => none
      | .option key (some value) =>
          match given.addOption key value with
          | some given => sortArguments known given rest
          | none => none
      | .option key none =>
          match rest with
          | [] => none
          | value :: rest =>
              if isValue value then
                match given.addOption key value with
                | some given => sortArguments known given rest
                | none => none
              else none

/-- The number given for an option, or a default. -/
def Given.real (given : Given) (key : OptionKey) (absent : Float) : Float :=
  ((given.value? key).bind Decimal.floatSetting?).getD absent

/-- The cap on passes that was given, or a default. -/
def Given.cap (given : Given) (absent : Nat) : Nat :=
  ((given.value? .maxIterations).bind (Decimal.naturalSetting? OptionKey.largestCap)).getD absent

/-- The solver settings that were given. -/
def Given.solver (given : Given) : SolverConfig Float :=
  let standard : SolverConfig Float := .default
  { standard with
    maxIterations := given.cap standard.maxIterations
    tolerance := given.real .tolerance standard.tolerance }

/-- What an invocation asks for. -/
inductive Invocation where
  | run (command : Command)
  | help (topic : Topic)

/-- The invocation that the arguments of one command make, with the command
built from its path and its options. -/
def invocation? (topic : Topic) (known : List OptionKey) (build : String → Given → Command)
    (arguments : List String) : Option Invocation :=
  match sortArguments known .nothing arguments with
  | some (.given given) => given.path.map fun path => .run (build path given)
  | some .help => some (.help topic)
  | none => none

/-- The command that scores a document. -/
def scoreInvocation? : List String → Option Invocation :=
  invocation? .score [.slider, .maxIterations, .tolerance] fun path given =>
    .score path (given.real .slider 0.5) given.solver

/-- The command that rewrites a document. -/
def exportInvocation? : List String → Option Invocation :=
  invocation? .export [.output, .slider] fun path given =>
    .export path (given.value? .output) (given.real .slider 0.5)

/-- The command that suggests an id. -/
def nextIdInvocation? : List String → Option Invocation :=
  invocation? .nextId [] fun path _ => .nextId path

/-- The topic that the names behind `help` ask for. -/
def Topic.ofNames? : List String → Option Topic
  | [] => some .program
  | ["score"] => some .score
  | ["export"] => some .export
  | ["next-id"] => some .nextId
  | ["help"] => some .help
  | _ => none

/-- What the arguments of the program ask for. -/
def Invocation.ofArguments? : List String → Option Invocation
  | "score" :: arguments => scoreInvocation? arguments
  | "export" :: arguments => exportInvocation? arguments
  | "next-id" :: arguments => nextIdInvocation? arguments
  | "help" :: names => (Topic.ofNames? names).map .help
  | argument :: _ => if readArgument [] argument = .help then some (.help .program) else none
  | [] => none

end WeightedArgumentation.CommandLine
