import Envelope.Bytes

/-!
# SHA-256 and key derivation

The hash function SHA-256 (FIPS 180-4), the keyed hash HMAC over it, and the
key derivation HKDF (RFC 5869) for outputs of one hash length.
-/

namespace Envelope
namespace Cipher
namespace Sha256

/-- The first 32 bits of the fractional parts of the cube roots of the first
64 primes. -/
def roundConstants : List UInt32 := [
  0x428a2f98, 0x71374491, 0xb5c0fbcf, 0xe9b5dba5, 0x3956c25b, 0x59f111f1, 0x923f82a4, 0xab1c5ed5,
  0xd807aa98, 0x12835b01, 0x243185be, 0x550c7dc3, 0x72be5d74, 0x80deb1fe, 0x9bdc06a7, 0xc19bf174,
  0xe49b69c1, 0xefbe4786, 0x0fc19dc6, 0x240ca1cc, 0x2de92c6f, 0x4a7484aa, 0x5cb0a9dc, 0x76f988da,
  0x983e5152, 0xa831c66d, 0xb00327c8, 0xbf597fc7, 0xc6e00bf3, 0xd5a79147, 0x06ca6351, 0x14292967,
  0x27b70a85, 0x2e1b2138, 0x4d2c6dfc, 0x53380d13, 0x650a7354, 0x766a0abb, 0x81c2c92e, 0x92722c85,
  0xa2bfe8a1, 0xa81a664b, 0xc24b8b70, 0xc76c51a3, 0xd192e819, 0xd6990624, 0xf40e3585, 0x106aa070,
  0x19a4c116, 0x1e376c08, 0x2748774c, 0x34b0bcb5, 0x391c0cb3, 0x4ed8aa4a, 0x5b9cca4f, 0x682e6ff3,
  0x748f82ee, 0x78a5636f, 0x84c87814, 0x8cc70208, 0x90befffa, 0xa4506ceb, 0xbef9a3f7, 0xc67178f2]

/-- The chaining value: eight words. -/
structure State where
  a : UInt32
  b : UInt32
  c : UInt32
  d : UInt32
  e : UInt32
  f : UInt32
  g : UInt32
  h : UInt32

/-- The first 32 bits of the fractional parts of the square roots of the first
eight primes. -/
def initial : State :=
  ⟨0x6a09e667, 0xbb67ae85, 0x3c6ef372, 0xa54ff53a, 0x510e527f, 0x9b05688c, 0x1f83d9ab, 0x5be0cd19⟩

/-- Rotation of a word to the right. -/
def rotate (w n : UInt32) : UInt32 :=
  (w >>> n) ||| (w <<< (32 - n))

/-- The message schedule, latest word first, extended by one word. -/
def extend (previous : List UInt32) : List UInt32 :=
  let w2 := previous.getD 1 0
  let w7 := previous.getD 6 0
  let w15 := previous.getD 14 0
  let w16 := previous.getD 15 0
  let s0 := rotate w15 7 ^^^ rotate w15 18 ^^^ (w15 >>> 3)
  let s1 := rotate w2 17 ^^^ rotate w2 19 ^^^ (w2 >>> 10)
  (w16 + s0 + w7 + s1) :: previous

/-- The sixty-four schedule words of a piece of 64 bytes. -/
def schedule (piece : Bytes) : List UInt32 :=
  let words := (piece.chunks 4).map fun w => UInt32.ofNat (Bytes.toNat w)
  ((List.range 48).foldl (fun previous _ => extend previous) words.reverse).reverse

/-- One round with a round constant and a schedule word. -/
def round (s : State) (k w : UInt32) : State :=
  let s1 := rotate s.e 6 ^^^ rotate s.e 11 ^^^ rotate s.e 25
  let choice := (s.e &&& s.f) ^^^ (~~~s.e &&& s.g)
  let t1 := s.h + s1 + choice + k + w
  let s0 := rotate s.a 2 ^^^ rotate s.a 13 ^^^ rotate s.a 22
  let majority := (s.a &&& s.b) ^^^ (s.a &&& s.c) ^^^ (s.b &&& s.c)
  ⟨t1 + (s0 + majority), s.a, s.b, s.c, s.d + t1, s.e, s.f, s.g⟩

/-- The chaining value after one more piece of 64 bytes. -/
def compress (s : State) (piece : Bytes) : State :=
  let t := (roundConstants.zip (schedule piece)).foldl (fun t (k, w) => round t k w) s
  ⟨s.a + t.a, s.b + t.b, s.c + t.c, s.d + t.d, s.e + t.e, s.f + t.f, s.g + t.g, s.h + t.h⟩

/-- The message, a one bit, zeros up to the length field, and its bit length. -/
def pad (message : Bytes) : Bytes :=
  message ++ [0x80] ++ Bytes.zeros ((119 - message.length % 64) % 64) ++
    Bytes.ofNat 8 (8 * message.length)

/-- The digest of a message: 32 bytes. -/
def hash (message : Bytes) : Bytes :=
  let s := ((pad message).chunks 64).foldl compress initial
  [s.a, s.b, s.c, s.d, s.e, s.f, s.g, s.h].flatMap fun w => Bytes.ofNat 4 w.toNat

/-- The keyed hash of a message. -/
def hmac (key message : Bytes) : Bytes :=
  let short := if 64 < key.length then hash key else key
  let padded := short ++ Bytes.zeros (64 - short.length)
  let outer := padded.map fun b => b ^^^ 0x5c
  let inner := padded.map fun b => b ^^^ 0x36
  hash (outer ++ hash (inner ++ message))

/-- Thirty-two bytes derived from `secret` with neither salt nor context. -/
def deriveKey (secret : Bytes) : Bytes :=
  hmac (hmac (Bytes.zeros 32) secret) [1]

end Sha256
end Cipher
end Envelope
