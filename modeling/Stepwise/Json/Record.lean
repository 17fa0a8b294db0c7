import Stepwise.Json.Numeral

set_option autoImplicit false

/-! # Records in JSON

A record is a list of named fields. It is written as an object of its fields in order,
without those that are absent. It is read from an object, in which the fields may stand in
any order among members of other names, or from an array of the fields in order, which may
be shorter than the record. A field found twice is an error; a field not found is absent.
-/

namespace Stepwise

namespace JsonValue

/-! ## Writing -/

/-- The object of the fields that are present. -/
def record (fields : List (String × Option JsonValue)) : JsonValue :=
  .object (fields.filterMap fun field =>
    field.2.map fun value => (JsonString.ofText field.1.toList, value))

/-! ## Reading -/

/-- The member of a name, if there is one; nothing when there are two. -/
def field? (members : List (Text × JsonValue)) (name : String) : Option (Option JsonValue) :=
  match members.filter fun member => member.1 = name.toList with
  | [] => some none
  | [member] => some (some member.2)
  | _ => none

/-- The members of an object with the texts of their names. -/
def namedMembers? (members : List (JsonString × JsonValue)) :
    Option (List (Text × JsonValue)) :=
  members.mapM fun member => (JsonString.text? member.1).map (·, member.2)

/-- The fields of a record by their names. -/
def fields? (names : List String) : JsonValue → Option (List (Option JsonValue))
  | .object members => do
      let members ← namedMembers? members
      names.mapM (field? members)
  | .array items =>
      if items.length ≤ names.length then
        some (items.map some ++ List.replicate (names.length - items.length) none)
      else none
  | _ => none

/-! ## Fields of the basic types -/

/-- A truth value. -/
def bool? : JsonValue → Option Bool
  | .bool b => some b
  | _ => none

/-- A natural number up to a limit. -/
def nat? (limit : Nat) : JsonValue → Option Nat
  | .number n => n.word? limit
  | _ => none

/-- A binary64 number. -/
def binary64? : JsonValue → Option Binary64
  | .number n => n.binary64?
  | _ => none

/-- A text. -/
def string? : JsonValue → Option String
  | .string s => (JsonString.text? s).map String.ofList
  | _ => none

/-- A field that has to be there. -/
def required? {α : Type} (read : JsonValue → Option α) (field : Option JsonValue) : Option α :=
  field.bind read

/-- A field that may be absent or null. -/
def optional? {α : Type} (read : JsonValue → Option α) : Option JsonValue → Option (Option α)
  | none => some none
  | some .null => some none
  | some value => (read value).map some

end JsonValue

end Stepwise
