/-!
# Help

The texts that explain the program and each of its commands.  Terms stand in a
column with their meanings beside them; when the terms take up much of the width
and a meaning does not fit beside them, every meaning goes on a line of its own.
-/

namespace WeightedArgumentation.CommandLine

/-- What help can be asked for. -/
inductive Topic
  | program
  | score
  | export
  | nextId
  | help
  deriving DecidableEq, Repr

/-- A term and its meaning. -/
structure Entry where
  term : String
  meaning : String

/-- The number of columns of a line. -/
def columns : Nat := 100

/-- The width of the longest term. -/
def termWidth (entries : List Entry) : Nat :=
  (entries.map fun entry => entry.term.length).foldl max 0

/-- Whether the terms take up more than two fifths of a line and some meaning
does not fit beside them. -/
def isStacked (entries : List Entry) : Bool :=
  let taken := termWidth entries + 4
  2 * columns < 5 * taken && entries.any fun entry => columns < taken + entry.meaning.length

/-- A text of blanks. -/
def blanks (n : Nat) : String := String.ofList (List.replicate n ' ')

/-- An entry with the meaning beside the term. -/
def Entry.beside (width : Nat) (entry : Entry) : String :=
  "  " ++ entry.term ++ blanks (width - entry.term.length) ++ "  " ++ entry.meaning ++ "\n"

/-- An entry with the meaning below the term. -/
def Entry.stacked (entry : Entry) : String :=
  "  " ++ entry.term ++ "\n" ++ blanks 10 ++ entry.meaning ++ "\n"

/-- A titled list of entries behind an empty line. -/
def listing (title : String) (entries : List Entry) : String :=
  let lines :=
    if isStacked entries then entries.map Entry.stacked
    else entries.map (Entry.beside (termWidth entries))
  "\n" ++ title ++ ":\n" ++ String.join lines

/-- What a text of help says at its top. -/
def opening (purpose usage : String) : String :=
  purpose ++ "\n\nUsage: argweigh " ++ usage ++ "\n"

/-- The commands of the program. -/
def commandEntries : List Entry :=
  [⟨"score", "Score a snapshot and print the evaluation as JSON"⟩,
   ⟨"export", "Rewrite a snapshot with symmetric relations and fresh scores"⟩,
   ⟨"next-id", "Print the suggested id for the next argument"⟩,
   ⟨"help", "Print this message or the help of the given subcommand(s)"⟩]

/-- The document that every command reads. -/
def documentEntry : Entry := ⟨"<SNAPSHOT>", "Path to the snapshot document"⟩

/-- The option for the importance slider. -/
def sliderEntry : Entry :=
  ⟨"-s, --slider <SLIDER>",
   "Importance slider position: 0 = economic, 1 = environmental [default: 0.5]"⟩

/-- The option for help. -/
def helpEntry : Entry := ⟨"-h, --help", "Print help"⟩

/-- The text about a topic. -/
def Topic.text : Topic → String
  | .program =>
      opening "Weighted argument graph scoring tools" "<COMMAND>" ++
        listing "Commands" commandEntries ++ listing "Options" [helpEntry]
  | .score =>
      opening "Score a snapshot and print the evaluation as JSON" "score [OPTIONS] <SNAPSHOT>" ++
        listing "Arguments" [documentEntry] ++
        listing "Options"
          [sliderEntry,
           ⟨"    --max-iterations <MAX_ITERATIONS>", "Upper bound on solver iterations"⟩,
           ⟨"    --tolerance <TOLERANCE>",
            "Convergence tolerance on the largest per-node change"⟩,
           helpEntry]
  | .export =>
      opening "Rewrite a snapshot with symmetric relations and fresh scores"
          "export [OPTIONS] <SNAPSHOT>" ++
        listing "Arguments" [documentEntry] ++
        listing "Options"
          [⟨"-o, --output <OUTPUT>", "Output file (default: stdout)"⟩, sliderEntry, helpEntry]
  | .nextId =>
      opening "Print the suggested id for the next argument" "next-id <SNAPSHOT>" ++
        listing "Arguments" [documentEntry] ++ listing "Options" [helpEntry]
  | .help =>
      opening "Print this message or the help of the given subcommand(s)" "help [COMMAND]..." ++
        listing "Arguments" [⟨"[COMMAND]...", "Print help for the subcommand(s)"⟩]

end WeightedArgumentation.CommandLine
