import WeightedArgumentation.Proofs.Graph.Relation
import WeightedArgumentation.Service

/-!
# Reachable services

A service starts over an empty graph or over the graph of a document and takes
commands from then on.  A command is tried: when it is refused the service stays
as it was.  The reachable services of given solver settings are those that any
sequence of commands leads to.

Each kind of command has one lemma that says when it is granted and which service
it then leads to; nothing else about a command has to be unfolded.
-/

namespace WeightedArgumentation

universe u

variable {R : Type u} [Scalar R]

namespace Service

/-- What can be asked of a service.  Exporting only reads it. -/
inductive Command (R : Type u)
  | edit (edit : Graph.Edit)
  | load (document : Document R)
  | setSlider (value : R)
  | recompute
  | exportDocument

/-- What becomes of a service when an edit of its graph is tried. -/
def edit (service : Service R) : Graph.Edit → Except GraphError (Service R)
  | .create spec => service.create spec
  | .update id spec => service.update id spec
  | .remove id => service.remove id

/-- What becomes of a service when a command is tried. -/
def attempt (service : Service R) : Command R → Except GraphError (Service R)
  | .edit edit => service.edit edit
  | .load document => service.load document
  | .setSlider value => .ok (service.setSlider value)
  | .recompute => .ok service.recompute
  | .exportDocument => .ok service

/-- The service after a command was tried: a refused command leaves it as it is. -/
def after (service : Service R) (command : Command R) : Service R :=
  match service.attempt command with
  | .ok changed => changed
  | .error _ => service

/-- What holds of a service, and of what a command makes of it when it is granted,
holds after the command was tried. -/
theorem holds_after {P : Service R → Prop} {service : Service R} {command : Command R}
    (held : P service) (granted : ∀ changed, service.attempt command = .ok changed → P changed) :
    P (service.after command) := by
  rw [after]
  split
  next changed ok => exact granted changed ok
  next => exact held

/-- The services that any sequence of commands, granted or refused, leads to from
a new service or from that of a document. -/
inductive Reachable (solver : SolverConfig R) : Service R → Prop
  | new (categories : CategoryConfig) : Reachable solver (.new categories solver)
  | ofDocument {document : Document R} {service : Service R} :
      Service.ofDocument document solver = .ok service → Reachable solver service
  | after {service : Service R} (command : Command R) :
      Reachable solver service → Reachable solver (service.after command)

/-! ## What the commands do -/

theorem map_eq_ok_iff {ε α : Type} {β : Type u} {result : Except ε α} {f : α → β} {value : β} :
    result.map f = .ok value ↔ ∃ a, result = .ok a ∧ value = f a := by
  cases result with
  | error e => simp [Except.map]
  | ok a => simp [Except.map, eq_comm]

/-- The graph decides about an edit, and the service takes the graph that it makes. -/
theorem attempt_edit (service : Service R) (edit : Graph.Edit) :
    service.attempt (.edit edit) = (service.graph.attempt edit).map service.withGraph := by
  cases edit with
  | create spec => rfl
  | update id spec => rfl
  | remove id =>
      rw [attempt, Service.edit, Service.remove, Graph.attempt]
      cases service.graph.remove id <;> rfl

/-- An edit is granted exactly when the graph grants it, and the service then takes
the changed graph. -/
theorem attempt_edit_eq_ok_iff {service changed : Service R} {edit : Graph.Edit} :
    service.attempt (.edit edit) = .ok changed ↔
      ∃ g, service.graph.attempt edit = .ok g ∧ changed = service.withGraph g := by
  rw [attempt_edit, map_eq_ok_iff]

/-- A service is made of a document exactly when the document has a graph, and then
stands over it with a balanced slider. -/
theorem ofDocument_eq_ok_iff {document : Document R} {solver : SolverConfig R}
    {service : Service R} :
    ofDocument document solver = .ok service ↔
      ∃ g, document.toGraph = .ok g ∧ service = ofGraph g .balanced solver :=
  map_eq_ok_iff

/-- A document is loaded exactly when it has a graph.  The slider stays and the
weights are those of the document's categories. -/
theorem attempt_load_eq_ok_iff {service changed : Service R} {document : Document R} :
    service.attempt (.load document) = .ok changed ↔
      ∃ g, document.toGraph = .ok g ∧ changed = ofGraph g service.slider service.solver :=
  map_eq_ok_iff

/-! ## The graph -/

/-- The graph of a reachable service is reachable by edits. -/
theorem Reachable.graph_reachable {solver : SolverConfig R} {service : Service R}
    (reachable : Reachable solver service) : service.graph.Reachable := by
  induction reachable with
  | new categories => exact .empty categories
  | ofDocument made =>
      obtain ⟨g, loaded, rfl⟩ := ofDocument_eq_ok_iff.1 made
      exact .load loaded
  | after command _ ih =>
      refine holds_after (P := fun service => service.graph.Reachable) ih fun changed granted => ?_
      cases command with
      | edit edit =>
          obtain ⟨g, edited, rfl⟩ := attempt_edit_eq_ok_iff.1 granted
          exact ih.of_attempt edited
      | load document =>
          obtain ⟨g, loaded, rfl⟩ := attempt_load_eq_ok_iff.1 granted
          exact .load loaded
      | setSlider value | recompute | exportDocument =>
          cases granted
          exact ih

end Service

end WeightedArgumentation
