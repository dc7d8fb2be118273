import Envelope.Bytes
import Envelope.Text.Hex

/-!
# Framed ciphertexts

Under rotating keys a ciphertext carries the version of its key: a marker byte,
the version in four bytes, most significant first, and the ciphertext itself.
-/

namespace Envelope

/-- A ciphertext together with the version of the key that made it. -/
structure Frame where
  version : UInt32
  body : Bytes
deriving DecidableEq, Repr

namespace Frame

/-- The first byte of every written frame. -/
def marker : UInt8 := 0

/-- The number of bytes before the ciphertext. -/
def headerLength : Nat := 5

/-- Why a byte string is not a written frame. -/
inductive Error where
  /-- Fewer bytes than the header has. -/
  | truncated (length : Nat)
  /-- A first byte other than the marker. -/
  | unknownMarker (byte : UInt8)
deriving DecidableEq, Repr

/-- The wording of a refusal. -/
def Error.message : Error → String
  | truncated length =>
    s!"framed ciphertext too short: expected at least {headerLength} bytes, got {length}"
  | unknownMarker byte => s!"unknown format marker: 0x{Hex.encode [byte]}"

/-- The written form of a frame. -/
def encode (frame : Frame) : Bytes :=
  marker :: Bytes.ofNat 4 frame.version.toNat ++ frame.body

/-- The frame written by a byte string.  The length is checked first. -/
def decode (bytes : Bytes) : Except Error Frame :=
  match bytes with
  | first :: a :: b :: c :: d :: body =>
    if first = marker then
      .ok ⟨UInt32.ofNat (Bytes.toNat [a, b, c, d]), body⟩
    else
      .error (.unknownMarker first)
  | short => .error (.truncated short.length)

end Frame
end Envelope
