import FilterQuery.Error
import FilterQuery.Row

/-!
# Records

A record is anything with named fields, read and written by name, and named methods. It knows the
name of its type. A record that says nothing else refuses every write and every call.

An entity is a record given by the lists of its fields and methods. A method called without
arguments answers its listed value, and otherwise the last argument.
-/

namespace FilterQuery

class Record (α : Type) where
  recordType : α → String
  field? : α → String → Option Value
  setField : α → String → Value → Except Error α :=
    fun record field _ => .error (.unknownField (recordType record) field)
  call : α → String → List Value → Except Error Value :=
    fun record method _ => .error (.unknownMethod (recordType record) method)

export Record (recordType)

/-- A field that is there, or the error that names it. -/
def Record.readField {α : Type} [Record α] (record : α) (field : String) : Except Error Value :=
  match Record.field? record field with
  | some value => .ok value
  | none => .error (.unknownField (recordType record) field)

structure Entity where
  type : String
  fields : List (String × Value) := []
  methods : List (String × Value) := []
  deriving DecidableEq, Repr

namespace Entity

/-- The value of the first pair of that name. -/
def find? (name : String) (pairs : List (String × Value)) : Option Value :=
  (pairs.find? fun pair => pair.1 == name).map Prod.snd

/-- Replaces the value of the first pair of that name. -/
def replace (name : String) (value : Value) : List (String × Value) → List (String × Value)
  | [] => []
  | (n, v) :: rest => if n = name then (n, value) :: rest else (n, v) :: replace name value rest

instance : Record Entity where
  recordType entity := entity.type
  field? entity field := find? field entity.fields
  setField entity field value :=
    if (find? field entity.fields).isSome then
      .ok { entity with fields := replace field value entity.fields }
    else .error (.unknownField entity.type field)
  call entity method arguments :=
    match find? method entity.methods with
    | some value => .ok (arguments.getLast?.getD value)
    | none => .error (.unknownMethod entity.type method)

/-- The entity of a row that has all the required columns. The column `_type` names its type if it
holds a text. -/
def ofRow (defaultType : String) (required : List String) (row : Row) : Except Error Entity :=
  match required.find? fun column => (row.get? column).isNone with
  | some column => .error (.hydration (.refused ("missing " ++ column)))
  | none =>
    .ok { type := ((row.get? "_type").bind Value.text?).getD defaultType, fields := row.cells }

end Entity

end FilterQuery
