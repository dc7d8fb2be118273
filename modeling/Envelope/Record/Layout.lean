import Envelope.Json.Basic
import Envelope.Text.Quoted

/-!
# The written form of records

A record type is laid out in named columns.  Reading accepts an object, whose
unknown fields do not matter, or an array that gives the columns in order;
writing produces an object with the columns in order.  Both are defined once,
for any list of columns, so that what holds of them holds of every record.
-/

namespace Envelope
namespace Record

/-- What a column holds. -/
inductive Kind where
  | text
  | optionalText
  | flag
  | properties
  | version
  | time
deriving DecidableEq, Repr

namespace Kind

/-- The values of a column. -/
abbrev Value : Kind → Type
  | text => String
  | optionalText => Option String
  | flag => Bool
  | properties => Properties
  | version => UInt32
  | time => Int64

/-- What messages call the values of a column. -/
def wanted : Kind → String
  | text => "a string"
  | optionalText => "a string"
  | flag => "a boolean"
  | properties => "a map"
  | version => "u32"
  | time => "i64"

end Kind

/-- Why a JSON value is not a written record. -/
inductive ReadError where
  /-- A value of another type than the one wanted. -/
  | wrongType (found : Json) (wanted : String)
  /-- A whole number out of the range of its column. -/
  | outOfRange (number : Int) (wanted : String)
  /-- An object without a required field. -/
  | missingField (name : String)
  /-- An array that ends before a required column. -/
  | tooShort (length : Nat) (title : String) (columns : Nat)
  /-- An array with more items than there are columns. -/
  | tooLong (length : Nat)

/-- How messages show a value that was not wanted. -/
def describe : Json → String
  | .null => "null"
  | .bool value => s!"boolean `{value}`"
  | .integer value => s!"integer `{value}`"
  | .real negative magnitude => s!"floating point `{Json.realText negative magnitude}`"
  | .string value => s!"string {Text.quoted value}"
  | .array _ => "sequence"
  | .object _ => "map"

/-- The wording of a refusal. -/
def ReadError.message : ReadError → String
  | wrongType found wanted => s!"invalid type: {describe found}, expected {wanted}"
  | outOfRange number wanted => s!"invalid value: integer `{number}`, expected {wanted}"
  | missingField name => s!"missing field `{name}`"
  | tooShort length title columns =>
    s!"invalid length {length}, expected {title} with {columns} elements"
  | tooLong length => s!"invalid length {length}, expected fewer elements in array"

namespace Kind

/-- Reads a text. -/
def readText : Json → Except ReadError String
  | .string value => .ok value
  | found => .error (.wrongType found text.wanted)

/-- Reads the values of an object in the order of their names. -/
def readProperties (fields : Dict Json) : Except ReadError Properties := do
  let entries ← fields.entries.mapM fun (name, value) => return (name, ← readText value)
  return Dict.ofList entries

/-- Reads a value of a column. -/
def read : (kind : Kind) → Json → Except ReadError kind.Value
  | text, value => readText value
  | optionalText, .null => .ok none
  | optionalText, value => some <$> readText value
  | flag, .bool value => .ok value
  | flag, found => .error (.wrongType found flag.wanted)
  | properties, .object fields => readProperties (Dict.ofList fields)
  | properties, found => .error (.wrongType found properties.wanted)
  | version, .integer n =>
    if 0 ≤ n ∧ n < UInt32.size then .ok (UInt32.ofNat n.toNat)
    else .error (.outOfRange n version.wanted)
  | version, found => .error (.wrongType found version.wanted)
  | time, .integer n =>
    if Int64.minValue.toInt ≤ n ∧ n ≤ Int64.maxValue.toInt then .ok (Int64.ofInt n)
    else .error (.outOfRange n time.wanted)
  | time, found => .error (.wrongType found time.wanted)

/-- Writes a value of a column; an absent optional text is not written. -/
def write : (kind : Kind) → kind.Value → Option Json
  | text, value => some (.string value)
  | optionalText, value => value.map .string
  | flag, value => some (.bool value)
  | properties, value => some (.object (value.map Json.string).entries)
  | version, value => some (.integer value.toNat)
  | time, value => some (.integer value.toInt)

end Kind

/-- A named column; one without a default is required. -/
structure Column where
  name : String
  kind : Kind
  default? : Option kind.Value

/-- The values of all columns of a record. -/
abbrev Row : List Column → Type
  | [] => Unit
  | column :: columns => column.kind.Value × Row columns

namespace Row

/-- The fields of a written row. -/
def write : (columns : List Column) → Row columns → List (String × Json)
  | [], _ => []
  | column :: columns, (value, row) =>
    match column.kind.write value with
    | some json => (column.name, json) :: write columns row
    | none => write columns row

/-- Refuses the first field, in the order of names, that holds no value of
its column. -/
def checkFields (columns : List Column) : List (String × Json) → Except ReadError Unit
  | [] => .ok ()
  | (name, value) :: fields =>
    match columns.find? fun column => column.name = name with
    | some column => do
      let _ ← column.kind.read value
      checkFields columns fields
    | none => checkFields columns fields

/-- The row of the fields of an object, columns examined in order. -/
def collect : (columns : List Column) → Dict Json → Except ReadError (Row columns)
  | [], _ => .ok ()
  | column :: columns, fields => do
    let value ←
      match fields.get? column.name, column.default? with
      | some json, _ => column.kind.read json
      | none, some value => .ok value
      | none, none => .error (.missingField column.name)
    return (value, ← collect columns fields)

/-- Reads a row from the fields of an object.  Wrong values are reported
before missing fields. -/
def ofFields (columns : List Column) (fields : Dict Json) : Except ReadError (Row columns) := do
  checkFields columns fields.entries
  collect columns fields

/-- Reads a row from the items of an array, the first of which stands at
`index`; `short` is the report of an array that ends too early. -/
def ofItems (short : Nat → ReadError) :
    (columns : List Column) → (index : Nat) → List Json → Except ReadError (Row columns)
  | [], _, _ => .ok ()
  | column :: columns, index, items => do
    let value ←
      match items, column.default? with
      | json :: _, _ => column.kind.read json
      | [], some value => .ok value
      | [], none => .error (short index)
    return (value, ← ofItems short columns (index + 1) (items.drop 1))

end Row
end Record

/-- A type of records: its name in messages, its columns, and how values and
rows correspond. -/
class Record (α : Type) where
  title : String
  columns : List Record.Column
  ofRow : Record.Row columns → α
  toRow : α → Record.Row columns

namespace Record

variable {α : Type} [Record α]

/-- Reads a record from its object or array form. -/
def read (json : Json) : Except ReadError α :=
  let columns := columns α
  match json with
  | .object fields => do
    return ofRow (← Row.ofFields columns (Dict.ofList fields))
  | .array items => do
    let short := fun length => ReadError.tooShort length (title α) columns.length
    let row ← Row.ofItems short columns 0 items
    if columns.length < items.length then
      throw (.tooLong items.length)
    return ofRow row
  | found => .error (.wrongType found (title α))

/-- Writes a record as an object. -/
def write (record : α) : Json :=
  .object (Row.write (columns α) (toRow record))

end Record
end Envelope
