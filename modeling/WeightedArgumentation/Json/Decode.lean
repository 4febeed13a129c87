import WeightedArgumentation.Json.Quantity
import WeightedArgumentation.Json.Reading
import WeightedArgumentation.Json.Value
import WeightedArgumentation.Table
import WeightedArgumentation.Text.Visible

/-!
# Decoding typed values

A reader turns what a text shows into a value of some type.  It walks the text
from the front and the first problem decides the failure: the text is malformed
or unfinished, or it holds well-formed JSON that does not fit the type.

A record is read from an object, whose unknown members are skipped, or from an
array of its fields in order.  `Record` puts records together field by field.
-/

namespace WeightedArgumentation.Json

open Decimal (Numeral)

universe u v

/-- What a text holds where something else is wanted. -/
inductive Found where
  | null
  | bool (value : Bool)
  | natural (n : Nat)
  | negative (n : Nat)
  | real (x : Float)
  | string (text : String)
  | sequence
  | map

/-- How well-formed JSON fails to fit a type. -/
inductive Mismatch where
  | wrongType (found : Found) (wanted : String)
  | wrongValue (found : Found) (wanted : String)
  | missingField (name : String)
  | duplicateField (name : String)
  | wrongLength (length : Nat) (record : String) (fields : Nat)
  | unknownVariant (name : String) (known : String)

/-- Why a text cannot be read as a typed value. -/
inductive Failure where
  | malformed
  | unfinished
  | mismatch (mismatch : Mismatch)

/-- A reader of values of one type. -/
abbrev Reader (α : Type u) := Reading → Except Failure α

/-- The failure at a place where a text stops. -/
def Failure.ofStop : Stop → Failure
  | .malformed => .malformed
  | .unfinished => .unfinished

/-! ## Messages -/

/-- A character inside the quotes of a message.  One that does not show by
itself is written by its code point. -/
def messageChar (c : Char) : List Char :=
  match c with
  | '"' => ['\\', '"']
  | '\\' => ['\\', '\\']
  | '\n' => ['\\', 'n']
  | '\r' => ['\\', 'r']
  | '\t' => ['\\', 't']
  | '\x00' => ['\\', '0']
  | _ =>
      if Text.isVisible c then [c]
      else ['\\', 'u', '\x7b'] ++ Nat.toDigits 16 c.toNat ++ ['\x7d']

/-- The words for what was found. -/
def Found.words : Found → String
  | .null => "null"
  | .bool value => "boolean `" ++ (if value then "true" else "false") ++ "`"
  | .natural n => "integer `" ++ toString n ++ "`"
  | .negative n => "integer `-" ++ toString n ++ "`"
  | .real x => "floating point `" ++ String.ofList (numberLayout.numeral x).text ++ "`"
  | .string text => "string \"" ++ String.ofList (text.toList.flatMap messageChar) ++ "\""
  | .sequence => "sequence"
  | .map => "map"

/-- The message of a mismatch. -/
def Mismatch.message : Mismatch → String
  | .wrongType found wanted => "invalid type: " ++ found.words ++ ", expected " ++ wanted
  | .wrongValue found wanted => "invalid value: " ++ found.words ++ ", expected " ++ wanted
  | .missingField name => "missing field `" ++ name ++ "`"
  | .duplicateField name => "duplicate field `" ++ name ++ "`"
  | .wrongLength length record fields =>
      "invalid length " ++ toString length ++ ", expected struct " ++ record ++ " with " ++
        toString fields ++ (if fields = 1 then " element" else " elements")
  | .unknownVariant name known =>
      "unknown variant `" ++ name ++ "`, expected `" ++ known ++ "`"

/-! ## Plain values -/

/-- What a number shows where no number is wanted. -/
def Found.ofQuantity : Quantity → Found
  | .natural n => .natural n
  | .negative n => .negative n
  | .real x => .real x

/-- What a place shows, if it can be told. -/
def Reading.found : Reading → Except Failure Found
  | .null => .ok .null
  | .bool value => .ok (.bool value)
  | .number numeral =>
      match quantity? numeral with
      | some quantity => .ok (.ofQuantity quantity)
      | none => .error .malformed
  | .string (some text) => .ok (.string text)
  | .string none => .error .malformed
  | .array _ _ => .ok .sequence
  | .object _ _ => .ok .map
  | .broken asValue _ => .error (.ofStop asValue)
  | .stuck asValue _ => .error (.ofStop asValue)

/-- Fails because another type is wanted than the place shows. -/
def Reading.refuse {α : Type u} (reading : Reading) (wanted : String) : Except Failure α :=
  match reading.found with
  | .ok found => .error (.mismatch (.wrongType found wanted))
  | .error failure => .error failure

/-- Reads a text. -/
def text : Reader String
  | .string (some text) => .ok text
  | other => other.refuse "a string"

/-- Reads a truth value. -/
def flag : Reader Bool
  | .bool value => .ok value
  | other => other.refuse "a boolean"

/-- Reads a floating-point number; integers are welcome. -/
def real : Reader Float
  | .number numeral =>
      match quantity? numeral with
      | some quantity => .ok quantity.toFloat
      | none => .error .malformed
  | other => other.refuse "f64"

/-- Reads a natural number. -/
def count : Reader Nat
  | .number numeral =>
      match quantity? numeral with
      | some (.natural n) => .ok n
      | some (.negative n) => .error (.mismatch (.wrongValue (.negative n) "usize"))
      | some (.real x) => .error (.mismatch (.wrongType (.real x) "usize"))
      | none => .error .malformed
  | other => other.refuse "usize"

/-- Reads null as nothing and anything else as a value. -/
def nullable {α : Type u} (reader : Reader α) : Reader (Option α)
  | .null => .ok none
  | other => (reader other).map some

/-- The failure, if any, at the end of an array or object. -/
def checkEnding : Option Stop → Except Failure Unit
  | none => .ok ()
  | some stop => .error (.ofStop stop)

/-- Reads items one after another. -/
def readEach {α : Type u} (reader : Reader α) : List Reading → Except Failure (List α)
  | [] => .ok []
  | item :: rest =>
      match reader item with
      | .error failure => .error failure
      | .ok value => (readEach reader rest).map (value :: ·)

/-- Reads an array of values of one type. -/
def listOf {α : Type u} (reader : Reader α) : Reader (List α)
  | .array items ending =>
      match readEach reader items, checkEnding ending with
      | .error failure, _ => .error failure
      | .ok _, .error failure => .error failure
      | .ok values, .ok () => .ok values
  | other => other.refuse "a sequence"

/-- Reads the name of a member. -/
def memberName : Reading → Except Failure String
  | .string (some name) => .ok name
  | .stuck asValue _ => .error (.ofStop asValue)
  | _ => .error .malformed

/-- Reads members into a table; a repeated name replaces the value it had. -/
def readRows {α : Type u} (reader : Reader α) :
    Table α → List (Reading × Reading) → Except Failure (Table α)
  | table, [] => .ok table
  | table, (name, value) :: rest =>
      match memberName name with
      | .error failure => .error failure
      | .ok name =>
          match reader value with
          | .error failure => .error failure
          | .ok value => readRows reader (table.set name value) rest

/-- Reads an object whose members are values of one type. -/
def tableOf {α : Type u} (reader : Reader α) : Reader (Table α)
  | .object members ending =>
      match readRows reader .empty members, checkEnding ending with
      | .error failure, _ => .error failure
      | .ok _, .error failure => .error failure
      | .ok table, .ok () => .ok table
  | other => other.refuse "a map"

/-- Reads the only variant of a type: its name, or an object with the name and
null. -/
def onlyVariant {α : Type u} (known : String) (value : α) : Reader α
  | .string (some name) =>
      if name = known then .ok value else .error (.mismatch (.unknownVariant name known))
  | .object [] _ => .error .malformed
  | .object ((name, content) :: rest) ending =>
      match name with
      | .string (some name) =>
          if name = known then
            match content, rest, ending with
            | .null, [], none => .ok value
            | .null, [], some stop => .error (.ofStop stop)
            | .null, _ :: _, _ => .error .malformed
            | other, _, _ => other.refuse "unit"
          else .error (.mismatch (.unknownVariant name known))
      | .stuck asValue _ => .error (.ofStop asValue)
      | _ => .error .malformed
  | .stuck asValue _ => .error (.ofStop asValue)
  | _ => .error .malformed

/-! ## Records -/

/-- When a field may be left out of a record. -/
inductive Presence
  | always
  | inArrays
  | never
  deriving DecidableEq, Repr

/-- What is known of a field before its value: its name, where it is required,
and whether a place holds a value for it. -/
structure Field where
  name : String
  required : Presence
  check : Reading → Except Failure Unit

/-- The places found for the fields of a record. -/
abbrev Slots := List (String × Reading)

/-- A way to read a record: its fields in order, and how the record is built
from the places found for them. -/
structure Record (α : Type u) where
  fields : List Field
  build : Slots → Except Failure α

namespace Record

/-- A record without fields. -/
def pure {α : Type u} (value : α) : Record α := ⟨[], fun _ => .ok value⟩

/-- One more field, with the value to take when no place is found for it. -/
def field {α : Type u} {β : Type v} (record : Record (α → β)) (name : String)
    (required : Presence) (reader : Reader α) (absent : Except Failure α) : Record β where
  fields := record.fields ++ [⟨name, required, fun reading => (reader reading).map fun _ => ()⟩]
  build slots :=
    match record.build slots with
    | .error failure => .error failure
    | .ok f =>
        match (Table.find name slots).elim absent reader with
        | .error failure => .error failure
        | .ok value => .ok (f value)

/-- One more field that must be there. -/
def required {α : Type u} {β : Type v} (record : Record (α → β)) (name : String)
    (reader : Reader α) : Record β :=
  record.field name .always reader (.error (.mismatch (.missingField name)))

/-- One more field that may be left out. -/
def optional {α : Type u} {β : Type v} (record : Record (α → β)) (name : String)
    (reader : Reader α) (absent : α) : Record β :=
  record.field name .never reader (.ok absent)

/-- One more field that may be left out of an object, but not of an array. -/
def namedOptional {α : Type u} {β : Type v} (record : Record (α → β)) (name : String)
    (reader : Reader α) (absent : α) : Record β :=
  record.field name .inArrays reader (.ok absent)

end Record

/-- Finds the places for fields among the members of an object. -/
def slotsOfMembers (fields : List Field) : Slots → List (Reading × Reading) → Except Failure Slots
  | slots, [] => .ok slots
  | slots, (name, value) :: rest =>
      match memberName name with
      | .error failure => .error failure
      | .ok name =>
          match fields.find? (·.name = name) with
          | none =>
              match value.flaw? with
              | some stop => .error (.ofStop stop)
              | none => slotsOfMembers fields slots rest
          | some field =>
              if (Table.find name slots).isSome then
                .error (.mismatch (.duplicateField name))
              else
                match field.check value with
                | .error failure => .error failure
                | .ok () => slotsOfMembers fields ((name, value) :: slots) rest

/-- The places for fields among the items of an array, from the field with a
given index on. -/
def slotsOfItems (name : String) (size : Nat) (ending : Option Stop) :
    Nat → List Field → List Reading → Except Failure Slots
  | _, [], [] => (checkEnding ending).map fun () => []
  | _, [], _ :: _ => .error .malformed
  | index, field :: fields, item :: items =>
      match field.check item with
      | .error failure => .error failure
      | .ok () =>
          (slotsOfItems name size ending (index + 1) fields items).map ((field.name, item) :: ·)
  | index, field :: fields, [] =>
      match checkEnding ending with
      | .error failure => .error failure
      | .ok () =>
          if field.required = .never then slotsOfItems name size ending (index + 1) fields []
          else .error (.mismatch (.wrongLength index name size))

/-- Reads a record. -/
def record {α : Type u} (name : String) (record : Record α) : Reader α
  | .object members ending =>
      match slotsOfMembers record.fields [] members, checkEnding ending with
      | .error failure, _ => .error failure
      | .ok _, .error failure => .error failure
      | .ok slots, .ok () => record.build slots
  | .array items ending =>
      match slotsOfItems name record.fields.length ending 0 record.fields items with
      | .error failure => .error failure
      | .ok slots => record.build slots
  | other => other.refuse ("struct " ++ name)

/-! ## Whole texts -/

/-- Reads a whole text as one value. -/
def decode {α : Type u} (reader : Reader α) (source : String) : Except Failure α :=
  let (reading, rest) := readFront source.toList
  match reader reading with
  | .error failure => .error failure
  | .ok value => if (skipSpace rest).isEmpty then .ok value else .error .malformed

end WeightedArgumentation.Json
