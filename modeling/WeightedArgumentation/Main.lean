import WeightedArgumentation.CommandLine.Run

/-!
# The program

The thin layer that reads and writes files for the command line.
-/

namespace WeightedArgumentation.CommandLine

/-- The fault behind an error of the operating system. -/
def faultOf : IO.Error → FileFault
  | .noFileOrDirectory .. => .notFound
  | .permissionDenied .. => .permissionDenied
  | .inappropriateType _ code _ => if code = 20 then .notDirectory else .isDirectory
  | .resourceExhausted _ 28 _ => .noSpace
  | .invalidArgument _ 36 _ => .nameTooLong
  | e => .other (toString e)

/-- The text of a file. -/
def readFile (path : String) : IO (Except FileFault String) := do
  try
    match String.fromUTF8? (← IO.FS.readBinFile path) with
    | some text => return .ok text
    | none => return .error .notText
  catch e => return .error (faultOf e)

/-- Writes a text to a file. -/
def writeFile (path text : String) : IO (Except FileFault Unit) := do
  try
    IO.FS.writeFile path text
    return .ok ()
  catch e => return .error (faultOf e)

/-- Prints a report and gives its exit code. -/
def finish (report : Report) : IO UInt32 := do
  (← IO.getStdout).putStr report.output
  (← IO.getStderr).putStr report.errors
  return report.exitCode.toUInt32

end WeightedArgumentation.CommandLine

open WeightedArgumentation.CommandLine in
/-- Runs the invocation with the given arguments. -/
def main (arguments : List String) : IO UInt32 := do
  match Invocation.ofArguments? arguments with
  | none => finish .misuse
  | some (.help topic) => finish (.explanation topic)
  | some (.run command) =>
      match command.outcome (← readFile command.path) with
      | .report report => finish report
      | .write path text => finish (reportWrite path (← writeFile path text))
