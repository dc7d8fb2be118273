import Envelope.Bytes

/-!
# UTF-8

Texts as byte strings.  A byte string that is not the encoding of a text is
refused with the length of its longest well-formed beginning and, unless the
string merely ends too early, the length of the ill-formed part that follows.
-/

namespace Envelope
namespace Utf8

/-- The bytes of a text. -/
def encode (text : String) : Bytes :=
  text.toUTF8.data.toList

/-- Where a byte string stops being well formed. -/
structure Malformed where
  /-- The length of the longest well-formed beginning. -/
  validLength : Nat
  /-- The length of the ill-formed part, or nothing if the bytes end within a
  character. -/
  wrongLength : Option Nat
deriving DecidableEq, Repr

/-- The wording of a refusal. -/
def Malformed.message (m : Malformed) : String :=
  match m.wrongLength with
  | some n => s!"invalid utf-8 sequence of {n} bytes from index {m.validLength}"
  | none => s!"incomplete utf-8 byte sequence from index {m.validLength}"

/-- The ranges of the bytes that must follow a first byte, or nothing if no
character starts with it. -/
def following (first : UInt8) : Option (List (UInt8 × UInt8)) :=
  let any := (0x80, 0xbf)
  if first < 0x80 then some []
  else if first < 0xc2 then none
  else if first < 0xe0 then some [any]
  else if first = 0xe0 then some [(0xa0, 0xbf), any]
  else if first = 0xed then some [(0x80, 0x9f), any]
  else if first < 0xf0 then some [any, any]
  else if first = 0xf0 then some [(0x90, 0xbf), any, any]
  else if first < 0xf4 then some [any, any, any]
  else if first = 0xf4 then some [(0x80, 0x8f), any, any]
  else none

/-- What the bytes after a first byte amount to. -/
inductive Continuation where
  | complete
  | endsEarly
  | wrong (length : Nat)

/-- Compares bytes with the ranges required of them, after `length` good
bytes of the same character. -/
def continuation (length : Nat) : List (UInt8 × UInt8) → Bytes → Continuation
  | [], _ => .complete
  | _ :: _, [] => .endsEarly
  | (low, high) :: ranges, b :: rest =>
    if low ≤ b ∧ b ≤ high then continuation (length + 1) ranges rest else .wrong length

/-- Locates the first ill-formed part after `index` well-formed bytes. -/
def locate (index : Nat) : Bytes → Malformed
  | [] => ⟨index, none⟩
  | first :: rest =>
    match following first with
    | none => ⟨index, some 1⟩
    | some ranges =>
      match continuation 1 ranges rest with
      | .complete => locate (index + 1 + ranges.length) (rest.drop ranges.length)
      | .endsEarly => ⟨index, none⟩
      | .wrong length => ⟨index, some length⟩
termination_by bytes => bytes.length
decreasing_by
  simp only [List.length_cons, List.length_drop]
  omega

/-- The text that a byte string encodes. -/
def decode (bytes : Bytes) : Except Malformed String :=
  match String.fromUTF8? ⟨bytes.toArray⟩ with
  | some text => .ok text
  | none => .error (locate 0 bytes)

end Utf8
end Envelope
