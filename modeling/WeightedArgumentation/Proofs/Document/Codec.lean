import WeightedArgumentation.Document.Codec
import WeightedArgumentation.Proofs.Json.Members

/-!
# Documents read back

The text of a document is read as the document, with whatever texts and in the order in which
everything stands there.  Only numbers are read as what their digits come to.  The mean of a
category cannot be absent, so a document is read back when its means are finite.
-/

namespace WeightedArgumentation

namespace Json

theorem spelled_ofTextTable (texts : Table String) : (ofTextTable texts).Spelled := by
  refine .object fun member listed => ?_
  obtain ⟨row, _, rfl⟩ := List.mem_map.1 listed
  exact .string row.2

theorem tableOf_text_ofTextTable (texts : Table String) :
    tableOf text (ofTextTable texts).reading = .ok texts := by
  have read : tableOf text (ofTextTable texts).reading = .ok (texts.map id) :=
    tableOf_reading .string id fun _ _ => rfl
  have same : texts.map id = texts := Table.ext (List.map_id' _)
  rwa [same] at read

end Json

open Json (Record Value reread?)

/-! ## Scores of the whole graph -/

namespace GlobalScores

/-- What scores are read as. -/
def reread (scores : GlobalScores Float) : GlobalScores Float where
  categoryScores := scores.categoryScores.map Json.reread
  finalScore := scores.finalScore.bind reread?

/-- The mean of every category is finite. -/
def FiniteMeans (scores : GlobalScores Float) : Prop :=
  ∀ row ∈ scores.categoryScores.rows, row.2.isFinite = true

theorem spelled_toJson (scores : GlobalScores Float) : scores.toJson.Spelled := by
  rw [toJson, Json.optionalNumber_eq]
  exact .object (List.forall_mem_cons.2 ⟨Json.spelled_ofScores _,
    Json.spelled_optionalMember Json.spelled_ofFloat _ _⟩)

theorem read_toJson {scores : GlobalScores Float} (finite : scores.FiniteMeans) :
    read scores.toJson.reading = .ok scores.reread := by
  rw [read, toJson, Json.optionalNumber_eq]
  refine Json.record_reading "GlobalScores" (by decide) ?_ fun places found => ?_
  · exact .cons_cons "categoryScores" (Json.sublist_optionalMember _ _)
  · have means : Table.find "categoryScores" places =
        some (Json.ofScores scores.categoryScores).reading := by simp [found]
    have final : Table.find "finalScore" places =
        (scores.finalScore.map Value.ofFloat).map Value.reading := by simp [found]
    exact ((Record.fits_pure GlobalScores.mk).required means
      (Json.tableOf_real_ofScores finite)).optional
        (final ▸ Json.elim_nullable .ofFloat reread? fun x _ => Json.nullable_real_ofFloat x)

end GlobalScores

/-! ## Nodes -/

namespace DocumentNode

/-- What a node is read as. -/
def reread (node : DocumentNode Float) : DocumentNode Float :=
  { node with score := node.score.bind reread? }

theorem spelled_toJson (node : DocumentNode Float) : node.toJson.Spelled := by
  have score := Json.spelled_optionalMember Json.spelled_ofFloat "score" node.score
  have description := Json.spelled_optionalMember Value.Spelled.string "desc" node.description
  rw [toJson, Json.optionalNumber_eq]
  refine .object ?_
  simp only [List.forall_mem_append, List.forall_mem_cons]
  exact ⟨⟨⟨⟨.string _, .string _, .string _, nofun⟩, score⟩, description⟩,
    Json.spelled_ofTexts _, Json.spelled_ofTexts _, nofun⟩

theorem read_toJson (node : DocumentNode Float) : read node.toJson.reading = .ok node.reread := by
  rw [read, toJson, Json.optionalNumber_eq]
  refine Json.record_reading "SnapshotNode" (by decide) ?_ fun places found => ?_
  · simp only [List.map_append]
    exact (((List.Sublist.refl ["id", "label", "cat"]).append
      (Json.sublist_optionalMember _ _)).append (Json.sublist_optionalMember _ _)).append
        (.refl ["attacks", "attackedBy"])
  · have id : Table.find "id" places = some (Value.string node.id).reading := by simp [found]
    have label : Table.find "label" places = some (Value.string node.label).reading := by
      simp [found]
    have category : Table.find "cat" places = some (Value.string node.category).reading := by
      simp [found]
    have score : Table.find "score" places =
        (node.score.map Value.ofFloat).map Value.reading := by simp [found]
    have description : Table.find "desc" places =
        (node.description.map Value.string).map Value.reading := by simp [found]
    have attacks : Table.find "attacks" places =
        some (Value.ofTexts node.attacks).reading := by simp [found]
    have attackedBy : Table.find "attackedBy" places =
        some (Value.ofTexts node.attackedBy).reading := by simp [found]
    have scoreRead : (Table.find "score" places).elim (.ok none) (Json.nullable Json.real) =
        .ok (node.score.bind reread?) :=
      score ▸ Json.elim_nullable .ofFloat reread? fun x _ => Json.nullable_real_ofFloat x
    have descriptionRead : (Table.find "desc" places).elim (.ok none) (Json.nullable Json.text) =
        .ok node.description := by
      rw [description, Json.elim_nullable .string some fun _ _ => rfl, Option.bind_fun_some]
    exact (((((((Record.fits_pure DocumentNode.mk).required id (Json.text_string _)).required label
      (Json.text_string _)).required category (Json.text_string _)).optional scoreRead).optional
        descriptionRead).present attacks (Json.listOf_text_ofTexts _)).present attackedBy
          (Json.listOf_text_ofTexts _)

end DocumentNode

/-! ## Documents -/

namespace Document

/-- What a document is read as. -/
def reread (document : Document Float) : Document Float where
  colors := document.colors
  labels := document.labels
  globalScores := document.globalScores.map GlobalScores.reread
  nodes := document.nodes.map DocumentNode.reread

theorem spelled_toJson (document : Document Float) : document.toJson.Spelled := by
  have globalScores := Json.spelled_optionalMember GlobalScores.spelled_toJson "globalScores"
    document.globalScores
  rw [toJson]
  refine .object ?_
  simp only [List.forall_mem_append, List.forall_mem_cons]
  refine ⟨⟨⟨Json.spelled_ofTextTable _, Json.spelled_ofTextTable _, nofun⟩, globalScores⟩,
    .array fun item member => ?_, nofun⟩
  obtain ⟨node, _, rfl⟩ := List.mem_map.1 member
  exact node.spelled_toJson

theorem read_toJson {document : Document Float}
    (finite : ∀ scores, document.globalScores = some scores → scores.FiniteMeans) :
    read document.toJson.reading = .ok document.reread := by
  rw [read, toJson]
  refine Json.record_reading "SnapshotDocument" (by decide) ?_ fun places found => ?_
  · simp only [List.map_append]
    exact ((List.Sublist.refl ["colors", "cats"]).append (Json.sublist_optionalMember _ _)).append
      (.refl ["nodes"])
  · have colors : Table.find "colors" places = some (Json.ofTextTable document.colors).reading := by
      simp [found]
    have labels : Table.find "cats" places = some (Json.ofTextTable document.labels).reading := by
      simp [found]
    have globalScores : Table.find "globalScores" places =
        (document.globalScores.map GlobalScores.toJson).map Value.reading := by simp [found]
    have nodes : Table.find "nodes" places =
        some (Value.array (document.nodes.map DocumentNode.toJson)).reading := by simp [found]
    have scoresRead :
        (Table.find "globalScores" places).elim (.ok none) (Json.nullable GlobalScores.read) =
          .ok (document.globalScores.map GlobalScores.reread) := by
      rw [globalScores, Json.elim_nullable GlobalScores.toJson fun scores => some scores.reread]
      · rw [Option.map_eq_bind]
        rfl
      · intro scores present
        have read := GlobalScores.read_toJson (finite scores present)
        rw [GlobalScores.toJson] at read ⊢
        rw [Json.nullable_object, read]
        rfl
    exact ((((Record.fits_pure Document.mk).present colors
      (Json.tableOf_text_ofTextTable _)).present labels
        (Json.tableOf_text_ofTextTable _)).optional scoresRead).present nodes
        (Json.listOf_reading DocumentNode.toJson DocumentNode.reread fun node _ => node.read_toJson)

/-- The text of a document with finite means is read as the document, with or without line
breaks and with any blanks behind it. -/
theorem decode_toJson_append {document : Document Float}
    (finite : ∀ scores, document.globalScores = some scores → scores.FiniteMeans)
    (style : Json.Style) {blanks : List Char} (blank : ∀ c ∈ blanks, Json.isSpace c = true) :
    Json.decode read (String.ofList (document.toJson.write style ++ blanks)) =
      .ok document.reread := by
  rw [Json.decode_write read document.spelled_toJson style blank, read_toJson finite]

theorem decode_toJson {document : Document Float}
    (finite : ∀ scores, document.globalScores = some scores → scores.FiniteMeans)
    (style : Json.Style) :
    Json.decode read (String.ofList (document.toJson.write style)) = .ok document.reread := by
  have read := decode_toJson_append finite style (List.forall_mem_nil _)
  rwa [List.append_nil] at read

end Document

/-! ## Round trips -/

section Map

universe u v w

variable {R : Type u} {S : Type v} {T : Type w}

/-- The same scores with other numbers. -/
def GlobalScores.map (f : R → S) (scores : GlobalScores R) : GlobalScores S :=
  ⟨scores.categoryScores.map f, scores.finalScore.map f⟩

/-- The same node with another number. -/
def DocumentNode.map (f : R → S) (node : DocumentNode R) : DocumentNode S :=
  ⟨node.id, node.label, node.category, node.score.map f, node.description, node.attacks,
    node.attackedBy⟩

namespace Document

/-- The same document with other numbers. -/
def map (f : R → S) (document : Document R) : Document S :=
  ⟨document.colors, document.labels, document.globalScores.map (GlobalScores.map f),
    document.nodes.map (DocumentNode.map f)⟩

/-- Everything in a document but the values of its numbers: which of them there are, and in
which order, is part of it. -/
def outline (document : Document R) : Document Unit := document.map fun _ => ()

theorem outline_map (f : R → S) (document : Document R) :
    (document.map f).outline = document.outline := by
  have scores (scores : GlobalScores R) :
      (scores.map f).map (fun _ => ()) = scores.map fun _ => () := by
    simp [GlobalScores.map, Table.map, Function.comp_def]
  have nodes (node : DocumentNode R) : (node.map f).map (fun _ => ()) = node.map fun _ => () := by
    simp [DocumentNode.map, Function.comp_def]
  simp [outline, map, Function.comp_def, scores, nodes]

/-- A document without numbers keeps what it has. -/
theorem map_eq_self {f : R → R} {document : Document R} (unscored : document.globalScores = none)
    (bare : ∀ node ∈ document.nodes, node.score = none) : document.map f = document := by
  obtain ⟨colors, labels, globalScores, nodes⟩ := document
  cases unscored
  have kept : nodes.map (DocumentNode.map f) = nodes := by
    refine (List.map_congr_left fun node member => ?_).trans (List.map_id nodes)
    obtain ⟨id, label, category, score, description, attacks, attackedBy⟩ := node
    cases bare _ member
    rfl
  rw [map, kept]
  rfl

end Document

end Map

namespace Document

/-- Every number in a document is finite. -/
structure FiniteScores (document : Document Float) : Prop where
  means : ∀ scores, document.globalScores = some scores → scores.FiniteMeans
  final : ∀ scores, document.globalScores = some scores →
    ∀ x, scores.finalScore = some x → x.isFinite = true
  nodes : ∀ node ∈ document.nodes, ∀ x, node.score = some x → x.isFinite = true

theorem bind_reread? {number : Option Float} (finite : ∀ x, number = some x → x.isFinite = true) :
    number.bind reread? = number.map Json.reread := by
  cases number with
  | none => rfl
  | some x => exact if_pos (finite x rfl)

namespace FiniteScores

variable {document : Document Float}

theorem reread_eq (finite : document.FiniteScores) :
    document.reread = document.map Json.reread := by
  have scores : ∀ scores ∈ document.globalScores,
      scores.reread = scores.map Json.reread := fun scores present => by
    rw [GlobalScores.reread, GlobalScores.map, bind_reread? (finite.final scores present)]
  have nodes : ∀ node ∈ document.nodes, node.reread = node.map Json.reread := fun node member => by
    rw [DocumentNode.reread, DocumentNode.map, bind_reread? (finite.nodes node member)]
  rw [reread, map, Option.map_congr scores, List.map_congr_left nodes]

theorem map_reread (finite : document.FiniteScores) :
    (document.map Json.reread).FiniteScores where
  means := by
    intro scores present row member
    obtain ⟨written, presentBefore, rfl⟩ := Option.map_eq_some_iff.1 present
    obtain ⟨rowBefore, memberBefore, rfl⟩ := List.mem_map.1 member
    exact Json.isFinite_reread (finite.means written presentBefore rowBefore memberBefore)
  final := by
    intro scores present x given
    obtain ⟨written, presentBefore, rfl⟩ := Option.map_eq_some_iff.1 present
    obtain ⟨before, givenBefore, rfl⟩ := Option.map_eq_some_iff.1 given
    exact Json.isFinite_reread (finite.final written presentBefore before givenBefore)
  nodes := by
    intro node member x given
    obtain ⟨written, memberBefore, rfl⟩ := List.mem_map.1 member
    obtain ⟨before, givenBefore, rfl⟩ := Option.map_eq_some_iff.1 given
    exact Json.isFinite_reread (finite.nodes written memberBefore before givenBefore)

end FiniteScores

/-- The text of a document whose scores are all finite is read as a document that differs from
it at most in the values of its scores, which are finite again.  Without scores it is read as
the document itself. -/
theorem ofText_toText {document : Document Float} (finite : document.FiniteScores) :
    ∃ read, ofText document.toText = .ok read ∧ read.FiniteScores ∧
      read.outline = document.outline ∧
      (document.globalScores = none → (∀ node ∈ document.nodes, node.score = none) →
        read = document) := by
  refine ⟨document.map Json.reread, ?_, finite.map_reread, outline_map _ _, map_eq_self⟩
  have read := decode_toJson finite.means (.indented 0)
  rw [finite.reread_eq] at read
  exact read

/-- Quotes, backslashes, control characters and line breaks in ids, labels, descriptions and
keys, some of them empty; numbers that are written with an exponent and a negative zero; nodes with
and without score and description; and the same document without its scores. -/
theorem ofText_toText_of_escapes :
    let colors := (Table.empty.set "" "#000\x0a").set "\"a\\b\"" ""
    let labels := Table.empty.set "\x00\x1f" "line\r\nbreak\t\u2028"
    let means := (Table.empty.set "" (-0.0)).set "\"" 1e22
    let nodes (score : Option Float) : List (DocumentNode Float) :=
      [⟨"\\", "", "\"a\\b\"", score, some "", ["\\", "\n", ""], ["\x7f"]⟩,
        ⟨"", "\\u0041", "é😀", none, none, [], []⟩]
    let document : Document Float := ⟨colors, labels, some ⟨means, some 0.61⟩, nodes (some 2.5e-9)⟩
    let bare : Document Float := ⟨colors, labels, none, nodes none⟩
    document.FiniteScores ∧
      (∃ read, ofText document.toText = .ok read ∧ read.FiniteScores ∧
        read.outline = document.outline ∧
        (document.globalScores = none → (∀ node ∈ document.nodes, node.score = none) →
          read = document)) ∧
      ofText bare.toText = .ok bare := by
  intro colors labels means nodes document bare
  have finite : document.FiniteScores := by
    constructor
    · rintro scores ⟨⟩
      show ∀ row ∈ means.rows, row.2.isFinite = true
      decide +kernel
    · rintro scores ⟨⟩ x ⟨⟩
      decide +kernel
    · intro node member x given
      rcases List.mem_pair.1 member with rfl | rfl
      · cases given
        decide +kernel
      · cases given
  have unscored : ∀ node ∈ bare.nodes, node.score = none := by
    intro node member
    rcases List.mem_pair.1 member with rfl | rfl <;> rfl
  have bareFinite : bare.FiniteScores := by
    constructor
    · exact nofun
    · exact nofun
    · intro node member x given
      rw [unscored node member] at given
      cases given
  obtain ⟨read, ok, _, _, same⟩ := ofText_toText bareFinite
  rw [same rfl unscored] at ok
  exact ⟨finite, ofText_toText finite, ok⟩

end Document

end WeightedArgumentation
