import WeightedArgumentation.Proofs.CommandLine.Agreement
import WeightedArgumentation.Proofs.Service.Exported

/-!
# Exporting what was exported

The first export of a document trims its texts, states every attack from both ends, and puts
the scores at a slider position in the place of those that stood there.  All of this is a
function of the graph, and the exported text is read as a document of the same graph, although
the scores in it may be read with other digits.  So no command tells an exported document from
the one it was exported from, and exporting it again at the same position gives the same text.
-/

namespace WeightedArgumentation.CommandLine

/-- Exporting a source at a slider position gives a text: it is what is printed, or what is
written to the file that is asked for. -/
def Exports (slider : Float) (source : Except FileFault String) (exported : String) : Prop :=
  ∀ path, (Command.export path none slider).outcome source = .report ⟨0, exported, ""⟩ ∧
    ∀ output, (Command.export path (some output) slider).outcome source = .write output exported

/-- The text that a graph is exported as, with the end of its last line. -/
def exportedText (g : Graph) (slider : Float) : String := (exportAt g slider).toText ++ "\n"

variable {source : Except FileFault String} {document : Document Float} {g : Graph}

theorem exports_exportedText (holds : Holds source document)
    (granted : document.toGraph = .ok g) (slider : Float) :
    Exports slider source (exportedText g slider) := by
  intro path
  constructor
  · exact Command.outcome_of_holds _ holds granted
  · intro output
    exact Command.outcome_of_holds _ holds granted

/-- An exported text holds a document of the graph that was exported. -/
theorem exists_holds_exportedText (granted : document.toGraph = .ok g) (slider : Float) :
    ∃ again, Holds (.ok (exportedText g slider)) again ∧ again.toGraph = .ok g := by
  -- the export is that of a service after its slider was moved
  let service := (Service.ofGraph g .balanced .default).setSlider slider
  have made : Service.ofDocument document .default = .ok (.ofGraph g .balanced .default) :=
    Service.ofDocument_eq_ok_iff.2 ⟨g, granted, rfl⟩
  have reachable : Service.Reachable .default service :=
    .after (.setSlider slider) (.ofDocument made)
  refine ⟨service.exportDocument.reread, ?holds, ?graph⟩
  case holds => exact ⟨_, rfl, reachable.ofText_exportDocument_line⟩
  case graph => exact reachable.graph_reachable.toGraph_reread _ _

/-- A document that has a graph is exported as a text that holds a document of the same graph.
Exporting that text at the same slider position gives it again, and no command at all tells it
from what it was exported from. -/
theorem export_idempotent (holds : Holds source document) (granted : document.toGraph = .ok g)
    (slider : Float) :
    ∃ exported, Exports slider source exported ∧ Exports slider (.ok exported) exported ∧
      (∃ again, Holds (.ok exported) again ∧ again.toGraph = .ok g) ∧
      ∀ command : Command, command.outcome (.ok exported) = command.outcome source := by
  obtain ⟨again, againHolds, againGranted⟩ := exists_holds_exportedText granted slider
  refine ⟨exportedText g slider, ?first, ?second, ⟨again, againHolds, againGranted⟩, ?others⟩
  case first => exact exports_exportedText holds granted slider
  case second => exact exports_exportedText againHolds againGranted slider
  case others =>
    intro command
    rw [command.outcome_of_holds againHolds againGranted, command.outcome_of_holds holds granted]

/-- A document with padded, repeated, dangling and one-sided attacks and with stale scores is
exported as a text that holds its graph, in which each attack stands once. -/
theorem export_idempotent_of_stale :
    let text := "[\x7b\x7d,\x7b\"env\":\"Env\",\"eco\":\"\\u00e9\"\x7d," ++
      "[\x7b\"eco\":7\x7d,null],[" ++
      "[\" A \",\"a\",\"eco\",0.1,null,[\"B\",\" B \",\"\",\"Z\"],[]]," ++
      "[\"B\",\"b \",\"env\",null,\"\\n\",[],[\"Y\",\"Y\"]]]]"
    ∃ exported, Exports 0.3 (.ok text) exported ∧ Exports 0.3 (.ok exported) exported ∧
      (∃ document g, Holds (.ok exported) document ∧ document.toGraph = .ok g ∧
        g.ids = ["A", "B"] ∧ g.attacks.toList = [⟨"A", "B"⟩, ⟨"A", "Z"⟩, ⟨"Y", "B"⟩]) ∧
      ∀ command : Command, command.outcome (.ok exported) = command.outcome (.ok text) := by
  intro text
  have shown : (loadGraph "" (.ok text)).toOption.map (fun g => (g.ids, g.attacks.toList)) =
      some (["A", "B"], [⟨"A", "B"⟩, ⟨"A", "Z"⟩, ⟨"Y", "B"⟩]) := by decide +kernel
  cases loaded : loadGraph "" (.ok text) with
  | error report => simp [loaded, Except.toOption] at shown
  | ok g =>
      rw [loaded] at shown
      obtain ⟨ids, attacks⟩ := Prod.mk.inj (Option.some.inj shown)
      obtain ⟨document, holds, granted⟩ := loadGraph_eq_ok_iff.1 loaded
      obtain ⟨exported, first, second, ⟨read, readHolds, readGranted⟩, others⟩ :=
        export_idempotent holds granted 0.3
      exact ⟨exported, first, second, ⟨read, g, readHolds, readGranted, ids, attacks⟩, others⟩

end WeightedArgumentation.CommandLine
