import Envelope.Kms.Local

/-!
# Rehearsal drivers

Drivers for rehearsing failures: a rehearsal driver refuses its first few
connections and then connects to a local client, whatever its configuration.
The systems behind these drivers count the connections that were tried.
-/

namespace Envelope
namespace Kms

/-- The number of connections tried so far, by the number of the driver. -/
abbrev Tries := List Nat

/-- A rehearsal driver. -/
structure Rehearsal where
  urlPrefix : String
  /-- The beginning of the addresses that its clients serve. -/
  clientPrefix : String
  secret : String
  /-- The number of connections refused. -/
  refusals : Nat
deriving DecidableEq, Repr

namespace Rehearsal

/-- Tries to connect for the driver with a given number. -/
def connect (r : Rehearsal) (number : Nat) : StateM Tries (Except Error Client) := fun tries =>
  let before := tries.getD number 0
  let outcome :=
    if before < r.refusals then .error (.config "handshake refused")
    else .ok (Local.client r.clientPrefix r.secret)
  (outcome, tries.set number (before + 1))

/-- The driver with a given number. -/
def driver (r : Rehearsal) (number : Nat) : Driver Tries where
  urlPrefix := r.urlPrefix
  connect _ _ := r.connect number

end Rehearsal
end Kms
end Envelope
