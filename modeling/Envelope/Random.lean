import Envelope.Bytes
import Envelope.Program

/-!
# Random bytes

Keys and nonces are drawn from a source of random bytes.  A drawing is a
program whose only requests are for a number of fresh bytes; a source answers
each request with the next bytes of an endless stream.
-/

namespace Envelope

/-- Requests for fresh bytes, answered by as many bytes as asked for. -/
def Draw.signature : Signature where
  Request := Nat
  Answer n := { bytes : Bytes // bytes.length = n }

/-- A program that only draws random bytes. -/
abbrev Draw := Program Draw.signature

/-- Draws `n` fresh bytes. -/
def Draw.fresh (n : Nat) : Draw { bytes : Bytes // bytes.length = n } :=
  @Program.request Draw.signature n

/-- An endless stream of bytes, read up to a position. -/
structure RandomSource where
  byte : Nat → UInt8
  position : Nat

namespace RandomSource

/-- The next `n` bytes, and the source after them. -/
def next (source : RandomSource) (n : Nat) :
    { bytes : Bytes // bytes.length = n } × RandomSource :=
  (⟨(List.range n).map fun i => source.byte (source.position + i), by simp⟩,
    { source with position := source.position + n })

/-- Answers a request for fresh bytes. -/
def answer (n : Nat) : StateM RandomSource { bytes : Bytes // bytes.length = n } :=
  fun source => source.next n

/-- Runs a drawing from a source. -/
def run {α : Type} (draw : Draw α) : StateM RandomSource α :=
  draw.interpret answer

end RandomSource
end Envelope
