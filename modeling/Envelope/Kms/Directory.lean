import Envelope.Event
import Envelope.Kms.Driver

/-!
# Drivers and clients

A directory holds the registered drivers and, for every master-key address
that has been used, the client that serves it.  A client is connected once per
address and kept for good: whatever configuration or driver is given later,
the address keeps its client.  An attempt to connect first claims a slot for
the address and gives it back if it fails.
-/

namespace Envelope
namespace Kms

/-- Drivers and clients; the state of the systems behind the drivers is kept
in `σ`. -/
structure Directory (σ : Type) where
  /-- The drivers, the one registered last in the last place. -/
  drivers : List (Driver σ)
  /-- The slots by address; a slot without client is claimed by an attempt. -/
  slots : Dict (Option Client)

/-- What a request for a client comes to. -/
structure Attempt (σ α : Type) where
  outcome : Except Error α
  directory : Directory σ
  systems : σ
  events : List Event

namespace Directory

variable {σ : Type}

/-- The directory without drivers and clients. -/
def empty : Directory σ := ⟨[], ∅⟩

/-- Registers a driver in place of any other that claims the same
addresses. -/
def register (k : Directory σ) (driver : Driver σ) : Directory σ :=
  { k with
    drivers := (k.drivers.filter fun d => d.urlPrefix ≠ driver.urlPrefix) ++ [driver] }

/-- The number of drivers. -/
def driverCount (k : Directory σ) : Nat :=
  k.drivers.length

/-- The number of addresses with a slot. -/
def slotCount (k : Directory σ) : Nat :=
  k.slots.size

/-- The number of addresses with a connected client. -/
def clientCount (k : Directory σ) : Nat :=
  (k.slots.entries.filter fun slot => slot.2.isSome).length

/-- Of two drivers the one with the longer claim, the later one if they are
equally long. -/
def preferred (best : Option (Driver σ)) (driver : Driver σ) : Option (Driver σ) :=
  match best with
  | none => some driver
  | some b => if b.urlPrefix.length ≤ driver.urlPrefix.length then driver else b

/-- The driver with the longest claim to an address. -/
def resolve (k : Directory σ) (url : String) : Except Error (Driver σ) :=
  match (k.drivers.filter fun d => claims d.urlPrefix url).foldl preferred none with
  | some driver => .ok driver
  | none => .error (.noDriver url)

/-- The client of an address, connected by `driver` unless there is one. -/
def client (k : Directory σ) (driver : Driver σ) (config : Properties) (url : String)
    (systems : σ) : Attempt σ Client :=
  match k.slots.get? url with
  | some (some client) => ⟨.ok client, k, systems, []⟩
  | _ =>
    let claimed := k.slots.insert url none
    let events := [.clientConnecting driver.urlPrefix]
    match driver.connect config url systems with
    | (.ok client, systems) =>
      ⟨.ok client, { k with slots := claimed.insert url (some client) }, systems, events⟩
    | (.error e, systems) =>
      ⟨.error e, { k with slots := claimed.erase url }, systems, events⟩

/-- The handle of the master key at an address. -/
def handle (k : Directory σ) (config : Properties) (url : String) (systems : σ) :
    Attempt σ Handle :=
  match k.resolve url with
  | .error e => ⟨.error e, k, systems, []⟩
  | .ok driver =>
    let attempt := k.client driver config url systems
    { attempt with outcome := attempt.outcome >>= fun client => client.handle url }

end Directory
end Kms
end Envelope
