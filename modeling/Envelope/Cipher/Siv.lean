import Envelope.Cipher.Block

/-!
# Synthetic initialisation vectors

Deterministic authenticated encryption in the mode of RFC 5297.  The vector
`S2V` of the associated data and the plaintext is both tag and counter, so
equal inputs give equal outputs.  The associated data is always one component
of the vector, also when it is empty.  Main statement: decryption accepts
exactly what encryption produces (`decrypt_eq_some_iff`).
-/

namespace Envelope
namespace Cipher
namespace Siv

/-- The message authentication code CMAC of `message`. -/
def cmac (cipher : BlockCipher) (message : Bytes) : Block :=
  let once := (cipher 0#128).double
  let whole := (message.length - 1) / 16
  let rest := message.drop (16 * whole)
  let last :=
    if rest.length = 16 then Block.ofBytes rest ^^^ once
    else Block.ofBytes (rest ++ [0x80]) ^^^ once.double
  let chained := (Block.split (message.take (16 * whole))).foldl
    (fun acc block => cipher (acc ^^^ block)) 0#128
  cipher (chained ^^^ last)

/-- The vector of one component of associated data and a plaintext. -/
def vector (mac : BlockCipher) (aad plain : Bytes) : Block :=
  let d := (cmac mac (Bytes.zeros 16)).double ^^^ cmac mac aad
  if 16 ≤ plain.length then
    let start := plain.length - 16
    cmac mac (plain.take start ++ Bytes.xor (plain.drop start) d.toBytes)
  else
    cmac mac (d.double ^^^ Block.ofBytes (plain ++ [0x80])).toBytes

/-- The counter block `i` of a vector, whose bits 31 and 63 are cleared first. -/
def counter (vector : Bytes) (i : Nat) : Block :=
  (Block.ofBytes vector &&& ~~~(0x80000000_80000000#128)) + BitVec.ofNat 128 i

/-- The text under the keystream of `vector`. -/
def crypt (cipher : BlockCipher) (vector text : Bytes) : Bytes :=
  counterMode cipher (counter vector) text

/-- The vector followed by the ciphertext. -/
def encrypt (mac cipher : BlockCipher) (aad plain : Bytes) : Bytes :=
  let v := (vector mac aad plain).toBytes
  v ++ crypt cipher v plain

/-- The plaintext of a sealed text whose vector is right. -/
def decrypt (mac cipher : BlockCipher) (aad sealed : Bytes) : Option Bytes :=
  if sealed.length < 16 then
    none
  else
    let v := sealed.take 16
    let plain := crypt cipher v (sealed.drop 16)
    if (vector mac aad plain).toBytes = v then some plain else none

theorem crypt_crypt (cipher : BlockCipher) (vector text : Bytes) :
    crypt cipher vector (crypt cipher vector text) = text :=
  counterMode_counterMode _ _ _

theorem length_crypt (cipher : BlockCipher) (vector text : Bytes) :
    (crypt cipher vector text).length = text.length :=
  length_counterMode _ _ _

/-- Decryption accepts exactly what encryption produces. -/
theorem decrypt_eq_some_iff {mac cipher : BlockCipher} {aad plain sealed : Bytes} :
    decrypt mac cipher aad sealed = some plain ↔ encrypt mac cipher aad plain = sealed := by
  constructor
  · intro h
    unfold decrypt at h
    split at h
    · simp at h
    · dsimp only at h
      split at h
      · rename_i _ found
        obtain rfl := Option.some.inj h
        simp only [encrypt, found, crypt_crypt, List.take_append_drop]
      · simp at h
  · rintro rfl
    have length := Block.length_toBytes (vector mac aad plain)
    simp [encrypt, decrypt, length, crypt_crypt]

end Siv
end Cipher
end Envelope
