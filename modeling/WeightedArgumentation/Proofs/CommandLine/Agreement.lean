import WeightedArgumentation.CommandLine.Run
import WeightedArgumentation.Proofs.Service.Reachable
import WeightedArgumentation.Service

/-!
# The command line and the service agree

A command loads, evaluates and exports by itself what a service over the same document
would hold.  Loading ends in one of three ways (`Loading`), from which everything here is
read off: what a command prints or writes is what the service holds after its slider was
moved, and the exit code tells whether a document could be read and whether a service can
be made of it.
-/

namespace WeightedArgumentation.CommandLine

/-- A source holds a document when it can be read as a text and the text states the
document. -/
def Holds (source : Except FileFault String) (document : Document Float) : Prop :=
  ∃ text, source = .ok text ∧ Document.ofText text = .ok document

variable {source : Except FileFault String} {document : Document Float} {g : Graph}

theorem Holds.unique {other : Document Float} (holds : Holds source document)
    (otherHolds : Holds source other) : document = other := by
  obtain ⟨text, rfl, stated⟩ := holds
  obtain ⟨_, same, otherStated⟩ := otherHolds
  cases same
  exact Except.ok.inj (stated.symm.trans otherStated)

/-! ## Loading -/

/-- All the ways in which loading a graph ends. -/
inductive Loading (source : Except FileFault String) : Except Report Graph → Prop
  | unreadable {line : String} (none : ∀ document, ¬ Holds source document) :
      Loading source (.error (.failure 3 line))
  | invalid {document : Document Float} {e : GraphError} {line : String}
      (holds : Holds source document) (refused : document.toGraph = .error e) :
      Loading source (.error (.failure 1 line))
  | loaded {document : Document Float} {g : Graph} (holds : Holds source document)
      (granted : document.toGraph = .ok g) : Loading source (.ok g)

theorem loading (path : String) (source : Except FileFault String) :
    Loading source (loadGraph path source) := by
  cases source with
  | error fault =>
      apply Loading.unreadable
      rintro document ⟨text, read, _⟩
      cases read
  | ok text =>
      rw [loadGraph]
      cases stated : Document.ofText text with
      | error failure =>
          apply Loading.unreadable
          rintro document ⟨other, same, otherStated⟩
          cases same
          rw [stated] at otherStated
          cases otherStated
      | ok document =>
          have holds : Holds (.ok text) document := ⟨text, rfl, stated⟩
          cases granted : document.toGraph with
          | error e => simpa [granted] using Loading.invalid holds granted
          | ok graph => simpa [granted] using Loading.loaded holds granted

theorem loadGraph_eq_ok_iff {path : String} :
    loadGraph path source = .ok g ↔
      ∃ document, Holds source document ∧ document.toGraph = .ok g := by
  constructor
  · intro loaded
    have loads := loading path source
    rw [loaded] at loads
    cases loads with
    | loaded holds granted => exact ⟨_, holds, granted⟩
  · rintro ⟨document, ⟨text, rfl, stated⟩, granted⟩
    simp only [loadGraph, stated, granted]

/-- A command does with a source what it does with the graph of its document. -/
theorem Command.outcome_of_holds (command : Command) (holds : Holds source document)
    (granted : document.toGraph = .ok g) : command.outcome source = command.outcomeOn g := by
  have loaded : loadGraph command.path source = .ok g :=
    loadGraph_eq_ok_iff.2 ⟨document, holds, granted⟩
  simp only [outcome, loaded]

/-! ## Exit codes -/

/-- The report on an outcome whose file, if there is one, could be written. -/
def Outcome.written : Outcome → Report
  | .report given => given
  | .write path _ => reportWrite path (.ok ())

/-- An exit code tells whether a source holds a document and whether a service with these
settings can be made of it. -/
structure Judges (exitCode : Nat) (source : Except FileFault String)
    (solver : SolverConfig Float) : Prop where
  unreadable : exitCode = 3 ↔ ∀ document, ¬ Holds source document
  invalid : exitCode = 1 ↔ ∃ document, Holds source document ∧
    ∃ e, Service.ofDocument document solver = .error e
  granted : exitCode = 0 ↔ ∃ document, Holds source document ∧
    ∃ service, Service.ofDocument document solver = .ok service

theorem ofDocument_eq_error_iff {solver : SolverConfig Float} {e : GraphError} :
    Service.ofDocument document solver = .error e ↔ document.toGraph = .error e := by
  rw [Service.ofDocument]
  cases document.toGraph <;> simp [Except.map]

theorem Command.exitCode_outcomeOn (command : Command) (g : Graph) :
    (command.outcomeOn g).written.exitCode = 0 := by
  cases command with
  | score => rfl
  | «export» _ output => cases output <;> rfl
  | nextId => rfl

theorem Command.judges_outcome (command : Command) (source : Except FileFault String)
    (solver : SolverConfig Float) :
    Judges (command.outcome source).written.exitCode source solver := by
  have loads := loading command.path source
  rw [outcome]
  generalize loadGraph command.path source = result at loads
  cases loads with
  | unreadable none =>
      constructor
      case unreadable => exact iff_of_true rfl none
      case invalid => exact iff_of_false nofun fun ⟨document, holds, _⟩ => none document holds
      case granted => exact iff_of_false nofun fun ⟨document, holds, _⟩ => none document holds
  | invalid holds refused =>
      constructor
      case unreadable => exact iff_of_false nofun fun none => none _ holds
      case invalid => exact iff_of_true rfl ⟨_, holds, _, ofDocument_eq_error_iff.2 refused⟩
      case granted =>
        refine iff_of_false nofun fun ⟨document, held, service, made⟩ => ?_
        rw [← holds.unique held, ofDocument_eq_error_iff.2 refused] at made
        cases made
  | @loaded _ g holds granted =>
      have made : Service.ofDocument _ solver = .ok (.ofGraph g .balanced solver) :=
        Service.ofDocument_eq_ok_iff.2 ⟨g, granted, rfl⟩
      show Judges (command.outcomeOn g).written.exitCode source solver
      rw [command.exitCode_outcomeOn]
      constructor
      case unreadable => exact iff_of_false nofun fun none => none _ holds
      case invalid =>
        refine iff_of_false nofun fun ⟨document, held, e, refused⟩ => ?_
        rw [← holds.unique held, made] at refused
        cases refused
      case granted => exact iff_of_true rfl ⟨_, holds, _, made⟩

/-- A failure is told on the error output alone. -/
theorem Command.output_outcome (command : Command) (source : Except FileFault String)
    (failed : (command.outcome source).written.exitCode ≠ 0) :
    (command.outcome source).written.output = "" := by
  have loads := loading command.path source
  rw [outcome] at failed ⊢
  generalize loadGraph command.path source = result at loads failed ⊢
  cases loads with
  | unreadable => rfl
  | invalid => rfl
  | loaded => exact absurd (command.exitCode_outcomeOn _) failed

/-! ## Runs -/

deriving instance DecidableEq for SolverConfig, Command, Invocation

/-- All the ways in which a run of a command in a directory ends. -/
inductive Ends (directory : Directory) : Outcome → Report × Directory → Prop
  | reported (report : Report) : Ends directory (.report report) (report, directory)
  | written {path text : String} {written : Written}
      (granted : directory.write path text = .ok written) :
      Ends directory (.write path text) (⟨0, written.output, written.errors⟩, written.directory)
  | unwritten {path text line : String} {fault : FileFault}
      (refused : directory.write path text = .error fault) :
      Ends directory (.write path text) (.failure 3 line, directory)

theorem runIn_ends (directory : Directory) {arguments : List String} {command : Command}
    (asked : Invocation.ofArguments? arguments = some (.run command)) :
    Ends directory (command.outcome (directory.read command.path))
      (runIn directory arguments) := by
  rw [runIn, asked]
  cases outcome : command.outcome (directory.read command.path) with
  | report report =>
      simp only [outcome]
      exact .reported report
  | write path text =>
      cases tried : directory.write path text with
      | ok written =>
          simp only [outcome, tried]
          exact .written tried
      | error fault =>
          simp only [outcome, tried]
          exact .unwritten tried

namespace Ends

variable {directory : Directory} {outcome : Outcome} {run : Report × Directory}

/-- A run that fails prints nothing and leaves the directory as it is. -/
theorem silent (ends : Ends directory outcome run)
    (reported : outcome.written.exitCode ≠ 0 → outcome.written.output = "")
    (failed : run.1.exitCode ≠ 0) : run.1.output = "" ∧ run.2 = directory := by
  cases ends with
  | reported => exact ⟨reported failed, rfl⟩
  | written => exact absurd rfl failed
  | unwritten => exact ⟨rfl, rfl⟩

/-- A run whose output can be written exits as its outcome says. -/
theorem exitCode_eq (ends : Ends directory outcome run)
    (writable : ∀ path text, outcome = .write path text →
      ∃ written, directory.write path text = .ok written) :
    run.1.exitCode = outcome.written.exitCode := by
  cases ends with
  | reported => rfl
  | written => rfl
  | unwritten refused =>
      obtain ⟨written, granted⟩ := writable _ _ rfl
      rw [refused] at granted
      cases granted

end Ends

/-- Over every document that can be read and has a graph the commands give what a service
over that document holds after its slider was moved: its evaluation for the same solver
settings, its exported document with the usual settings, and its suggested id.  The exit
code is 3 exactly when no document can be read, 1 exactly when no service can be made of
it, and 0 otherwise, given that the output can be written; a run that fails prints nothing
and changes no file. -/
theorem commands_agree_with_service (source : Except FileFault String) :
    (∀ document solver service, Holds source document →
      Service.ofDocument document solver = .ok service → ∀ path slider,
        (Command.score path slider solver).outcome source =
            .report (.success (service.setSlider slider).evaluation.toJson.pretty) ∧
          (Command.nextId path).outcome source = .report (.success service.graph.suggestId)) ∧
    (∀ document service, Holds source document →
      Service.ofDocument document .default = .ok service → ∀ path slider,
        (Command.export path none slider).outcome source =
            .report (.success (service.setSlider slider).exportDocument.toText) ∧
          ∀ output, (Command.export path (some output) slider).outcome source =
            .write output ((service.setSlider slider).exportDocument.toText ++ "\n")) ∧
    (∀ (command : Command) solver, Judges (command.outcome source).written.exitCode source solver ∧
      ((command.outcome source).written.exitCode ≠ 0 →
        (command.outcome source).written.output = "")) ∧
    ∀ directory arguments (command : Command),
      Invocation.ofArguments? arguments = some (.run command) →
      directory.read command.path = source →
        Ends directory (command.outcome source) (runIn directory arguments) ∧
        ((runIn directory arguments).1.exitCode ≠ 0 →
          (runIn directory arguments).1.output = "" ∧ (runIn directory arguments).2 = directory) ∧
        ((∀ path text, command.outcome source = .write path text →
            ∃ written, directory.write path text = .ok written) →
          ∀ solver, Judges (runIn directory arguments).1.exitCode source solver) := by
  refine ⟨?score, ?«export», ?code, ?run⟩
  case score =>
    intro document solver service holds made path slider
    obtain ⟨g, granted, rfl⟩ := Service.ofDocument_eq_ok_iff.1 made
    constructor
    · exact Command.outcome_of_holds _ holds granted
    · exact Command.outcome_of_holds _ holds granted
  case «export» =>
    intro document service holds made path slider
    obtain ⟨g, granted, rfl⟩ := Service.ofDocument_eq_ok_iff.1 made
    constructor
    · exact Command.outcome_of_holds _ holds granted
    · intro output
      exact Command.outcome_of_holds _ holds granted
  case code =>
    intro command solver
    exact ⟨command.judges_outcome source solver, command.output_outcome source⟩
  case run =>
    intro directory arguments command asked read
    have ends := runIn_ends directory asked
    rw [read] at ends
    refine ⟨ends, ?fails, ?code⟩
    case fails => exact ends.silent (command.output_outcome source)
    case code =>
      intro writable solver
      rw [ends.exitCode_eq writable]
      exact command.judges_outcome source solver

/-- A directory with a document whose attack is stated from one end, a text that is no
document and a document with an id given twice: the first is scored with a slider beyond
its end and a cap, no document can be read from the second, and no service can be made of
the third. -/
theorem commands_agree_with_service_of_directory :
    let valid := "\x7b\"cats\":\x7b\"eco\":\"Economic\",\"env\":\"Environmental\"\x7d,\"nodes\":[" ++
      "\x7b\"id\":\"A1\",\"label\":\"Jobs\",\"cat\":\"eco\",\"attacks\":[\"A2\"]\x7d," ++
      "\x7b\"id\":\"A2\",\"label\":\"Forests\",\"cat\":\"env\"\x7d]\x7d"
    let twice := "\x7b\"nodes\":[\x7b\"id\":\"A1\",\"label\":\"x\",\"cat\":\"eco\"\x7d," ++
      "\x7b\"id\":\"A1\",\"label\":\"y\",\"cat\":\"eco\"\x7d]\x7d"
    let files := ((Table.empty.set "valid.json" valid).set "cut.json" "\x7b").set "twice.json" twice
    let directory : Directory := ⟨files, ["home", "work"], .empty⟩
    let solver : SolverConfig Float := ⟨.hCategorizer, 2, 1e-6⟩
    (∃ document service, Holds (directory.read "valid.json") document ∧
      Service.ofDocument document solver = .ok service ∧
      runIn directory ["score", "valid.json", "-s", "7", "--max-iterations=2"] =
        (.success (service.setSlider 7).evaluation.toJson.pretty, directory)) ∧
    (∀ document, ¬ Holds (directory.read "cut.json") document) ∧
    (∃ document, Holds (directory.read "twice.json") document ∧
      ∃ e, Service.ofDocument document solver = .error e) := by
  intro valid twice files directory solver
  refine ⟨?scored, ?unreadable, ?invalid⟩
  case scored =>
    have loads : (loadGraph "valid.json" (directory.read "valid.json")).toOption.isSome := by
      decide +kernel
    have asked : Invocation.ofArguments? ["score", "valid.json", "-s", "7", "--max-iterations=2"] =
        some (.run (.score "valid.json" 7 solver)) := by decide +kernel
    cases loaded : loadGraph "valid.json" (directory.read "valid.json") with
    | error report => simp [loaded, Except.toOption] at loads
    | ok g =>
        obtain ⟨document, holds, granted⟩ := loadGraph_eq_ok_iff.1 loaded
        have made : Service.ofDocument document solver = .ok (.ofGraph g .balanced solver) :=
          Service.ofDocument_eq_ok_iff.2 ⟨g, granted, rfl⟩
        obtain ⟨score, _, _, run⟩ := commands_agree_with_service (directory.read "valid.json")
        have scored := (score document solver _ holds made "valid.json" 7).1
        have ends := (run directory _ _ asked rfl).1
        rw [scored] at ends
        refine ⟨document, _, holds, made, ?_⟩
        generalize runIn directory ["score", "valid.json", "-s", "7", "--max-iterations=2"] = run
          at ends ⊢
        cases ends
        rfl
  case unreadable =>
    have asked : Invocation.ofArguments? ["next-id", "cut.json"] =
        some (.run (.nextId "cut.json")) := by decide +kernel
    have reported : (Command.nextId "cut.json").outcome (directory.read "cut.json") =
        .report (runIn directory ["next-id", "cut.json"]).1 := by decide +kernel
    have exited : (runIn directory ["next-id", "cut.json"]).1.exitCode = 3 := by decide +kernel
    obtain ⟨_, _, _, run⟩ := commands_agree_with_service (directory.read "cut.json")
    have judged := (run directory _ _ asked rfl).2.2 (by rw [reported]; nofun) solver
    exact judged.unreadable.1 exited
  case invalid =>
    have exited : ((Command.export "twice.json" (some "new.json") 0.5).outcome
        (directory.read "twice.json")).written.exitCode = 1 := by decide +kernel
    have judged := ((commands_agree_with_service (directory.read "twice.json")).2.2.1
      (.export "twice.json" (some "new.json") 0.5) solver).1
    exact judged.invalid.1 exited

end WeightedArgumentation.CommandLine
