import Envelope.Random
import Envelope.Record.Dek
import Envelope.Record.Kek
import Envelope.Registry.Error

/-!
# Calls of a key registry

A registry keeps the records of key-encryption and data-encryption keys.  It
understands four calls; whoever answers them, for whatever reason, is a
registry.
-/

namespace Envelope

/-- What names a data-encryption key in a look-up; version 0 asks for the
newest one. -/
structure DekId where
  kekName : String
  subject : String
  version : UInt32
  algorithm : String
deriving DecidableEq

namespace Registry

/-- A call of a registry.  A look-up says whether it wants to see soft-deleted
records too. -/
inductive Call where
  | getKek (name : String) (deleted : Bool)
  | registerKek (request : KekRequest)
  | getDek (id : DekId) (deleted : Bool)
  | registerDek (kekName : String) (request : DekRequest)
deriving DecidableEq

/-- The records that a call is answered with. -/
abbrev Call.Result : Call → Type
  | getKek _ _ => Kek
  | registerKek _ => Kek
  | getDek _ _ => Dek
  | registerDek _ _ => Dek

/-- The answers to a call. -/
abbrev Call.Answer (call : Call) : Type :=
  Except RegistryError call.Result

end Registry

/-- The states of a registry, and how it answers a call at a given time.  It
may draw random bytes to do so. -/
class Registry (ρ : Type) where
  answer (call : Registry.Call) (now : Int64) (state : ρ) : Draw (call.Answer × ρ)

end Envelope
