import Envelope.Dict
import Envelope.Bytes

/-!
# Rules and values

A rule runs in a mode, on a subject, with parameters of its own and of the
schema it belongs to.  It is applied to values of a declared type.
-/

namespace Envelope

/-- The mode in which a rule runs. -/
inductive Mode where
  | upgrade
  | downgrade
  | upDown
  /-- Producing: plaintext in, ciphertext out. -/
  | write
  /-- Consuming: ciphertext in, plaintext out. -/
  | read
  | writeRead
deriving DecidableEq, Repr

namespace Mode

/-- All modes. -/
def all : List Mode := [upgrade, downgrade, upDown, write, read, writeRead]

/-- The name of a mode. -/
def name : Mode → String
  | upgrade => "UPGRADE"
  | downgrade => "DOWNGRADE"
  | upDown => "UPDOWN"
  | write => "WRITE"
  | read => "READ"
  | writeRead => "WRITEREAD"

/-- The mode with a given name. -/
def ofName? (text : String) : Option Mode :=
  all.find? fun mode => mode.name = text

end Mode

/-- The declared type of a field. -/
inductive FieldType where
  | record
  | enum
  | array
  | map
  | combined
  | fixed
  | string
  | bytes
  | int
  | long
  | float
  | double
  | boolean
  | null
deriving DecidableEq, Repr

namespace FieldType

/-- All types. -/
def all : List FieldType :=
  [record, enum, array, map, combined, fixed, string, bytes, int, long, float, double, boolean,
    null]

/-- The name of a type. -/
def name : FieldType → String
  | record => "Record"
  | enum => "Enum"
  | array => "Array"
  | map => "Map"
  | combined => "Combined"
  | fixed => "Fixed"
  | string => "String"
  | bytes => "Bytes"
  | int => "Int"
  | long => "Long"
  | float => "Float"
  | double => "Double"
  | boolean => "Boolean"
  | null => "Null"

/-- The type with a given name. -/
def ofName? (text : String) : Option FieldType :=
  all.find? fun type => type.name = text

end FieldType

/-- The value of a field. -/
inductive FieldValue where
  | string (value : String)
  | bytes (value : Bytes)
  | int (value : Int64)
  /-- A floating-point number, given by its bits. -/
  | float (bits : UInt64)
  | boolean (value : Bool)
deriving DecidableEq, Repr

/-- What a rule is run with. -/
structure Context where
  subject : String
  mode : Mode
  /-- The parameters of the rule itself. -/
  params : Properties
  /-- The properties of the schema. -/
  metadata : Properties
deriving DecidableEq

/-- A parameter of a rule, looked up in the rule first and then in the
schema. -/
def Context.parameter (context : Context) (name : String) : Option String :=
  (context.params.get? name).or (context.metadata.get? name)

end Envelope
