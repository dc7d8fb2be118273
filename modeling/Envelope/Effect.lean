import Envelope.Event
import Envelope.Registry.Call

/-!
# The surroundings of the engine

The engine that resolves keys and transforms values asks its surroundings for
five things: an answer of the key registry, the time, fresh random bytes, a
handle of a master key, and a place for its log.  Everything it does is a
program over these requests, so that what holds of the program holds for every
registry, clock, random source and key management system.
-/

namespace Envelope

/-- What the engine asks for. -/
inductive Effect where
  | registry (call : Registry.Call)
  | clock
  | random (n : Nat)
  | keyHandle (config : Properties) (url : String)
  | log (event : Event)

namespace Effect

/-- The answers to a request. -/
abbrev Answer : Effect → Type
  | registry call => call.Answer
  | clock => Int64
  | random n => { bytes : Bytes // bytes.length = n }
  | keyHandle _ _ => Except Kms.Error Kms.Handle
  | log _ => Unit

/-- The requests of the engine with their answers. -/
def signature : Signature := ⟨Effect, Answer⟩

end Effect

/-- A program of the engine. -/
abbrev Engine := Program Effect.signature

namespace Engine

/-- Calls the key registry. -/
def call (c : Registry.Call) : Engine c.Answer :=
  @Program.request Effect.signature (.registry c)

/-- Reads the clock, in milliseconds. -/
def now : Engine Int64 :=
  @Program.request Effect.signature .clock

/-- Asks for a handle of the master key at an address. -/
def keyHandle (config : Properties) (url : String) : Engine (Except Kms.Error Kms.Handle) :=
  @Program.request Effect.signature (.keyHandle config url)

/-- Logs an event. -/
def log (event : Event) : Engine Unit :=
  @Program.request Effect.signature (.log event)

/-- Runs a drawing as part of the engine. -/
def draw {α : Type} (d : Draw α) : Engine α :=
  d.interpret fun n => @Program.request Effect.signature (.random n)

end Engine
end Envelope
