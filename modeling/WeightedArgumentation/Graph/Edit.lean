import WeightedArgumentation.Graph.Basic
import WeightedArgumentation.Graph.Error

/-!
# Building and editing graphs

Creating, updating and removing an argument, and loading a graph from a list of
specifications.  Each operation first decides whether it is allowed and then
records or forgets attacks at both of their ends, so a refused operation leaves
no trace.

An argument that is created takes over the attacks that others already state
about its id.
-/

namespace WeightedArgumentation.Graph

/-- The attacks that the arguments of a graph already state about an id. -/
def pending (g : Graph) (id : String) : List Attack :=
  (g.arguments.flatMap Argument.stated).filter fun attack =>
    attack.source = id || attack.target = id

/-- Adds the argument that a specification states. -/
def create (g : Graph) (spec : ArgumentSpec) : Except GraphError Graph :=
  let spec := spec.normalized
  match spec.fault? g.categories with
  | some (field, fault) => .error (.invalid field fault)
  | none =>
      if taken : spec.id ∈ g.ids then .error (.duplicate spec.id)
      else .ok ((g.append (.detached spec) taken).linkAll (g.pending spec.id ++ spec.stated))

/-- The id that an update's specification is read with: a blank one stands for
the current id, and any other must be the current one. -/
def keepId (current : String) (spec : ArgumentSpec) : Except GraphError ArgumentSpec :=
  if spec.id = "" then .ok { spec with id := current }
  else if spec.id = current then .ok spec
  else .error (.invalid .id (.idChange current spec.id))

/-- Replaces the fields and the attacks of an argument by those that a
specification states. -/
def update (g : Graph) (id : String) (spec : ArgumentSpec) : Except GraphError Graph :=
  if id ∈ g.ids then
    match keepId id spec.normalized with
    | .error e => .error e
    | .ok spec =>
        match spec.fault? g.categories with
        | some (field, fault) => .error (.invalid field fault)
        | none =>
            let described := (g.forget id).revise (·.describe spec) fun a => a.id_describe spec
            .ok (described.linkAll spec.stated)
  else .error (.notFound id)

/-- Takes an argument out and forgets every attack it takes part in.  The
argument is returned as it stood. -/
def remove (g : Graph) (id : String) : Except GraphError (Argument × Graph) :=
  match g.get? id with
  | none => .error (.notFound id)
  | some argument => .ok (argument, (g.delete id).forget id)

/-- The first reason, if any, why normalized specifications cannot make a graph
together, given the ids that came before them. -/
def conflict? (categories : CategoryConfig) : List String → List ArgumentSpec → Option GraphError
  | _, [] => none
  | taken, spec :: rest =>
      match spec.fault? categories with
      | some (field, fault) => some (.invalid field fault)
      | none =>
          if spec.id ∈ taken then some (.duplicate spec.id)
          else conflict? categories (spec.id :: taken) rest

/-- Specifications without conflict have distinct ids, none of them taken before. -/
theorem distinct_of_conflict?_eq_none {categories : CategoryConfig} {taken : List String}
    {specs : List ArgumentSpec} (h : conflict? categories taken specs = none) :
    (specs.map ArgumentSpec.id).Nodup ∧ ∀ spec ∈ specs, spec.id ∉ taken := by
  induction specs generalizing taken with
  | nil => simp
  | cons spec rest ih =>
    unfold conflict? at h
    split at h
    · cases h
    · split at h
      · cases h
      · rename_i fresh
        obtain ⟨distinct, free⟩ := ih h
        refine ⟨List.nodup_cons.2 ⟨?_, distinct⟩, ?_⟩
        · intro member
          obtain ⟨other, otherMember, same⟩ := List.mem_map.1 member
          exact free other otherMember (by simp [same])
        · intro other member
          rcases List.mem_cons.1 member with rfl | member
          · exact fresh
          · exact fun inTaken => free other member (List.mem_cons_of_mem _ inTaken)

/-- The arguments of specifications with distinct ids, without attacks. -/
def detached (categories : CategoryConfig) (specs : List ArgumentSpec)
    (distinct : (specs.map ArgumentSpec.id).Nodup) : Graph where
  categories := categories
  arguments := specs.map Argument.detached
  distinct := by
    simpa [List.map_map, Function.comp_def, Argument.detached] using distinct

/-- The graph that a list of specifications describes.  Each attack that any of
them states is recorded at both of its ends. -/
def load (categories : CategoryConfig) (specs : List ArgumentSpec) : Except GraphError Graph :=
  let specs := specs.map ArgumentSpec.normalized
  match h : conflict? categories [] specs with
  | some e => .error e
  | none =>
      let distinct := (distinct_of_conflict?_eq_none h).1
      .ok ((detached categories specs distinct).linkAll (specs.flatMap ArgumentSpec.stated))

end WeightedArgumentation.Graph
