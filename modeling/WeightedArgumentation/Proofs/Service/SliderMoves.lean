import WeightedArgumentation.Proofs.Service.Consistent

/-!
# When the slider is moved does not matter

The graph of a service and the position of its slider do not depend on each other, and
weights and evaluation follow from the two.  So moving the slider can change places with
any change of the graph, a refused one included.  A whole run of commands comes to the
changes of the graph in their order and the last position that was asked for.
-/

namespace WeightedArgumentation

universe u

variable {R : Type u} [Scalar R]

/-- A finite value beyond the upper end of the scale stands for that end. -/
theorem Slider.nearest_of_above {value : R} (finite : Scalar.isFinite value = true)
    (notBelow : Scalar.less value 0 = false) (above : Scalar.less 1 value = true) :
    nearest value = ⟨1⟩ := by
  simp [nearest, finite, notBelow, above]

namespace Service

/-! ## Commands by what they change -/

/-- A change of the graph: an edit, or a document that takes the place of the graph. -/
inductive GraphChange (R : Type u)
  | edit (asked : Graph.Edit)
  | load (document : Document R)

namespace GraphChange

/-- The command that asks for a change. -/
def command : GraphChange R → Command R
  | .edit asked => .edit asked
  | .load document => .load document

/-- What becomes of a graph when a change is tried. -/
def attempt (g : Graph) : GraphChange R → Except GraphError Graph
  | .edit asked => g.attempt asked
  | .load document => document.toGraph

/-- The graph after a change was tried: a refused change leaves it as it is. -/
def after (g : Graph) (change : GraphChange R) : Graph :=
  match change.attempt g with
  | .ok changed => changed
  | .error _ => g

end GraphChange

/-- The change of the graph that a command asks for. -/
def Command.change? : Command R → Option (GraphChange R)
  | .edit asked => some (.edit asked)
  | .load document => some (.load document)
  | .setSlider _ | .recompute | .exportDocument => none

/-- The slider position that a command asks for. -/
def Command.position? : Command R → Option (Slider R)
  | .setSlider value => some (.nearest value)
  | .edit _ | .load _ | .recompute | .exportDocument => none

/-- The last slider position that commands ask for, or the one before them. -/
def lastPosition (start : Slider R) (commands : List (Command R)) : Slider R :=
  (commands.filterMap Command.position?).getLast?.getD start

/-! ## What they make of a service -/

variable (g : Graph) (slider : Slider R) (solver : SolverConfig R)

theorem setSlider_ofGraph (value : R) :
    (ofGraph g slider solver).setSlider value = ofGraph g (.nearest value) solver := rfl

/-- The graph decides about a change, and nothing held becomes stale by it. -/
theorem attempt_ofGraph (change : GraphChange R) :
    (ofGraph g slider solver).attempt change.command =
      (change.attempt g).map (ofGraph · slider solver) := by
  cases change with
  | load document => rfl
  | edit asked =>
      rw [GraphChange.command, attempt_edit, GraphChange.attempt]
      change (g.attempt asked).map (ofGraph g slider solver).withGraph = _
      cases tried : g.attempt asked with
      | error e => rfl
      | ok changed =>
          have same := Graph.categories_of_attempt tried
          simp only [Except.map, withGraph_ofGraph slider solver same]

theorem after_ofGraph (change : GraphChange R) :
    (ofGraph g slider solver).after change.command = ofGraph (change.after g) slider solver := by
  rw [after, attempt_ofGraph, GraphChange.after]
  cases change.attempt g with
  | ok changed => rfl
  | error e => rfl

/-- A run changes the graph by its changes and leaves the slider where it was moved last. -/
theorem foldl_after_ofGraph (commands : List (Command R)) :
    commands.foldl after (ofGraph g slider solver) =
      ofGraph ((commands.filterMap Command.change?).foldl GraphChange.after g)
        (lastPosition slider commands) solver := by
  induction commands generalizing g slider with
  | nil => rfl
  | cons command rest ih =>
      have changes (change : GraphChange R) :
          (change.command :: rest).foldl after (ofGraph g slider solver) =
            ofGraph ((rest.filterMap Command.change?).foldl GraphChange.after (change.after g))
              (lastPosition slider rest) solver := by
        rw [List.foldl_cons, after_ofGraph, ih]
      -- a command changes the graph or moves the slider or neither, but never both
      cases command with
      | edit asked => exact changes (.edit asked)
      | load document => exact changes (.load document)
      | setSlider value =>
          have last : lastPosition slider (.setSlider value :: rest) =
              lastPosition (.nearest value) rest := by
            simp [lastPosition, Command.position?, List.getLast?_cons]
          rw [last]
          exact ih g (.nearest value)
      | recompute | exportDocument => exact ih g slider

variable {g slider solver}

/-- Moving the slider changes places with every change of the graph. -/
theorem attempt_setSlider_ofGraph (value : R) (change : GraphChange R) :
    ((ofGraph g slider solver).setSlider value).attempt change.command =
      ((ofGraph g slider solver).attempt change.command).map (·.setSlider value) := by
  rw [setSlider_ofGraph, attempt_ofGraph, attempt_ofGraph]
  cases change.attempt g with
  | ok changed => rfl
  | error e => rfl

theorem after_setSlider_ofGraph (value : R) (change : GraphChange R) :
    ((ofGraph g slider solver).setSlider value).after change.command =
      ((ofGraph g slider solver).after change.command).setSlider value := by
  rw [setSlider_ofGraph, after_ofGraph, after_ofGraph, setSlider_ofGraph]

variable [LE R] [Scalar.FiniteOrder R]

/-- In a reachable service, moving the slider before a change of the graph is granted or
refused with the same error as moving it afterwards, and leads to the same service.  So any
two runs with the same changes of the graph that leave the slider at the same position lead
to the same service, wherever the slider was moved between the changes. -/
theorem slider_commutes {service : Service R} (reachable : Reachable solver service) :
    (∀ (value : R) (change : GraphChange R),
      (service.setSlider value).attempt change.command =
        (service.attempt change.command).map (·.setSlider value) ∧
      (service.setSlider value).after change.command =
        (service.after change.command).setSlider value) ∧
    ∀ commands others : List (Command R),
      commands.filterMap Command.change? = others.filterMap Command.change? →
      lastPosition service.slider commands = lastPosition service.slider others →
        commands.foldl after service = others.foldl after service := by
  have current := reachable.consistent.current
  constructor
  · intro value change
    rw [current]
    exact ⟨attempt_setSlider_ofGraph value change, after_setSlider_ofGraph value change⟩
  · intro commands others sameChanges samePosition
    rw [current, foldl_after_ofGraph, foldl_after_ofGraph, sameChanges]
    exact congrArg (ofGraph _ · solver) samePosition

/-- A creation that is refused and a document with other categories between moves of the
slider, in double precision.  Both runs leave it at its end, the second by asking for
another value beyond it, and before anything else. -/
theorem slider_commutes_of_refused :
    let service : Service Float :=
      .new (CategoryConfig.empty.declare "eco" "Economic" "") .default
    let document : Document Float :=
      ⟨.empty, Table.empty.set "env" "Environmental", none,
        [⟨"V", "v", "env", none, none, [], ["Y"]⟩]⟩
    let creating : Graph.Edit := .create ⟨"A", "a", "eco", none, ["A"], []⟩
    let attacking : Graph.Edit := .create ⟨"B", "b", "env", none, ["V"], []⟩
    let commands : List (Command Float) :=
      [.setSlider 0.25, .edit creating, .recompute, .setSlider 0.75, .edit creating,
        .load document, .setSlider 7.5, .edit attacking]
    let others : List (Command Float) :=
      [.setSlider 9, .edit creating, .edit creating, .load document, .exportDocument,
        .edit attacking]
    Reachable .default service ∧ (commands.foldl after service).graph.ids = ["V", "B"] ∧
      ((commands.foldl after service).weights.weight "env" == 2) = true ∧
      ((service.setSlider 0.25).attempt (GraphChange.edit creating).command =
          (service.attempt (GraphChange.edit creating).command).map (·.setSlider 0.25) ∧
        (service.setSlider 0.25).after (GraphChange.edit creating).command =
          (service.after (GraphChange.edit creating).command).setSlider 0.25) ∧
      commands.foldl after service = others.foldl after service := by
  intro service document creating attacking commands others
  have reachable : Reachable .default service := .new _
  have samePosition : lastPosition service.slider commands =
      lastPosition service.slider others := by
    change Slider.nearest (7.5 : Float) = Slider.nearest 9
    rw [Slider.nearest_of_above (by decide +kernel) (by decide +kernel) (by decide +kernel),
      Slider.nearest_of_above (by decide +kernel) (by decide +kernel) (by decide +kernel)]
  obtain ⟨commutes, runs⟩ := slider_commutes reachable
  exact ⟨reachable, by decide +kernel, by decide +kernel, commutes 0.25 (.edit creating),
    runs commands others rfl samePosition⟩

end Service

end WeightedArgumentation
