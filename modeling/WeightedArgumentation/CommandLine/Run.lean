import WeightedArgumentation.CommandLine.Arguments
import WeightedArgumentation.File.Directory
import WeightedArgumentation.Graph.NextId
import WeightedArgumentation.Startup

/-!
# Running a command

A command reads one document.  It prints a result, or writes one to a file; a
failure is reported on the error output alone.  The exit code tells a graph that
is not valid (1) from arguments that cannot be understood (2) and from files
that cannot be read, understood or written (3).
-/

namespace WeightedArgumentation.CommandLine

/-- What an invocation leaves behind besides files. -/
structure Report where
  exitCode : Nat
  output : String
  errors : String
  deriving DecidableEq, Repr

namespace Report

/-- A line on the output. -/
def success (line : String) : Report := ⟨0, line ++ "\n", ""⟩

/-- A line on the error output. -/
def failure (exitCode : Nat) (line : String) : Report := ⟨exitCode, "", "Error: " ++ line ++ "\n"⟩

/-- The text about a topic on the output. -/
def explanation (topic : Topic) : Report := ⟨0, topic.text, ""⟩

/-- Arguments that cannot be understood. -/
def misuse : Report :=
  failure 2 ("usage: score <file> [-s|--slider <n>] [--max-iterations <n>] [--tolerance <n>], " ++
    "export <file> [-o|--output <file>] [-s|--slider <n>], or next-id <file>")

end Report

/-- How a command ends: with a report, or with a file to write first. -/
inductive Outcome
  | report (report : Report)
  | write (path text : String)
  deriving DecidableEq, Repr

/-- The path of the document that a command reads. -/
def Command.path : Command → String
  | .score path _ _ => path
  | .export path _ _ => path
  | .nextId path => path

/-- The graph of the document at a path, or the report of the failure. -/
def loadGraph (path : String) (source : Except FileFault String) : Except Report Graph :=
  match source with
  | .error fault => .error (.failure 3 ("failed to read '" ++ path ++ "': " ++ fault.message))
  | .ok text =>
      match Document.ofText text with
      | .error failure =>
          .error (.failure 3
            ("'" ++ path ++ "' is not a snapshot document: serialization error: " ++ failure.words))
      | .ok document =>
          match document.toGraph with
          | .error e => .error (.failure 1 ("invalid graph in '" ++ path ++ "': " ++ e.message))
          | .ok graph => .ok graph

/-- The evaluation of a graph at a slider position. -/
def evaluateAt (graph : Graph) (slider : Float) (solver : SolverConfig Float) :
    Evaluation Float :=
  evaluate graph (.ofSlider graph.categories (.nearest slider)) solver

/-- The document of a graph with its scores at a slider position. -/
def exportAt (graph : Graph) (slider : Float) : Document Float :=
  let evaluation := evaluateAt graph slider .default
  .ofGraph graph (some evaluation.scores) (some evaluation.globalScores)

/-- What a command does with a graph. -/
def Command.outcomeOn (graph : Graph) : Command → Outcome
  | .score _ slider solver =>
      .report (.success (evaluateAt graph slider solver).toJson.pretty)
  | .export _ none slider => .report (.success (exportAt graph slider).toText)
  | .export _ (some output) slider => .write output ((exportAt graph slider).toText ++ "\n")
  | .nextId _ => .report (.success graph.suggestId)

/-- What a command does with the text at its path. -/
def Command.outcome (command : Command) (source : Except FileFault String) : Outcome :=
  match loadGraph command.path source with
  | .error report => .report report
  | .ok graph => command.outcomeOn graph

/-- The report after an attempt to write a file. -/
def reportWrite (path : String) : Except FileFault Unit → Report
  | .ok () => ⟨0, "", ""⟩
  | .error fault => .failure 3 ("failed to write '" ++ path ++ "': " ++ fault.message)

/-- Runs an invocation in a directory. -/
def runIn (directory : Directory) (arguments : List String) : Report × Directory :=
  match Invocation.ofArguments? arguments with
  | none => (.misuse, directory)
  | some (.help topic) => (.explanation topic, directory)
  | some (.run command) =>
      match command.outcome (directory.read command.path) with
      | .report report => (report, directory)
      | .write path text =>
          match directory.write path text with
          | .ok written =>
              ({ reportWrite path (.ok ()) with
                  output := written.output, errors := written.errors }, written.directory)
          | .error fault => (reportWrite path (.error fault), directory)

end WeightedArgumentation.CommandLine
