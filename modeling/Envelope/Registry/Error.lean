/-!
# Errors of a key registry

A registry reports failures by a status code, either plain or followed by
further digits.  Two families of codes matter: a record that is absent and a
record that another writer has registered first.
-/

namespace Envelope

/-- A failed call of a registry. -/
structure RegistryError where
  code : UInt32
  message : String
deriving DecidableEq, Repr

namespace RegistryError

/-- Whether the digits of a code begin with those of a status. -/
def inFamily (status code : Nat) : Bool :=
  (Nat.toDigits 10 status).isPrefixOf (Nat.toDigits 10 code)

/-- Whether the record asked for is absent. -/
def isNotFound (e : RegistryError) : Bool :=
  inFamily 404 e.code.toNat

/-- Whether the record to be registered exists already. -/
def isConflict (e : RegistryError) : Bool :=
  inFamily 409 e.code.toNat

/-- The plain report of an absent record. -/
def notFound (message : String) : RegistryError := ⟨404, message⟩

/-- The plain report of a record registered already. -/
def conflict (message : String) : RegistryError := ⟨409, message⟩

/-- The wording of a report. -/
def shown (e : RegistryError) : String :=
  s!"registry error {e.code}: {e.message}"

end RegistryError
end Envelope
