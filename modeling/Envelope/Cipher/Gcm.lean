import Envelope.Cipher.Block

/-!
# Galois/Counter Mode

Authenticated encryption in the mode of NIST SP 800-38D with a nonce of twelve
bytes and a tag of sixteen.  Main statements: decryption accepts exactly
what encryption produces (`decrypt_eq_some_iff`), and a sealed text is sixteen
bytes longer than its plaintext.
-/

namespace Envelope
namespace Cipher

/-- The longest text and the longest associated data, in bytes, that one
nonce may protect: `2 ^ 36`. -/
def maxLength : Nat := 0x10_0000_0000

namespace Gcm

/-- Multiplication in the field of `2 ^ 128` elements, where the most
significant bit is the coefficient of `x ^ 0`. -/
def mul (a b : Block) : Block :=
  ((List.range 128).foldl
    (fun (sum, power) i =>
      let sum := if a.getMsbD i then sum ^^^ power else sum
      let power :=
        if power.getLsbD 0 then (power >>> 1) ^^^ (0xe1#128 <<< 120) else power >>> 1
      (sum, power))
    (0#128, b)).1

/-- The polynomial hash of a list of blocks at the point `h`. -/
def hash (h : Block) (blocks : List Block) : Block :=
  blocks.foldl (fun acc block => mul (acc ^^^ block) h) 0#128

/-- The block of the two lengths, in bits, that ends the hashed text. -/
def lengths (aad text : Bytes) : Block :=
  Block.ofBytes (Bytes.ofNat 8 (8 * aad.length) ++ Bytes.ofNat 8 (8 * text.length))

/-- The counter block `i` after a nonce; only its last 32 bits count. -/
def counter (nonce : Bytes) (i : Nat) : Block :=
  Block.ofBytes (nonce.take 12 ++ Bytes.ofNat 4 i)

/-- The authentication tag of a ciphertext. -/
def tag (cipher : BlockCipher) (nonce aad text : Bytes) : Bytes :=
  let h := cipher 0#128
  let digest := hash h (Block.split aad ++ Block.split text ++ [lengths aad text])
  (digest ^^^ cipher (counter nonce 1)).toBytes

/-- The text under the keystream of `nonce`, which starts at counter 2. -/
def crypt (cipher : BlockCipher) (nonce text : Bytes) : Bytes :=
  counterMode cipher (fun i => counter nonce (i + 2)) text

/-- The ciphertext followed by its tag, unless an input is too long. -/
def encrypt (cipher : BlockCipher) (nonce aad plain : Bytes) : Option Bytes :=
  if maxLength < plain.length ∨ maxLength < aad.length then
    none
  else
    let text := crypt cipher nonce plain
    some (text ++ tag cipher nonce aad text)

/-- The plaintext of a sealed text whose tag is right. -/
def decrypt (cipher : BlockCipher) (nonce aad sealed : Bytes) : Option Bytes :=
  if sealed.length < 16 then
    none
  else
    let text := sealed.take (sealed.length - 16)
    let found := sealed.drop (sealed.length - 16)
    if maxLength < text.length ∨ maxLength < aad.length then
      none
    else if tag cipher nonce aad text = found then
      some (crypt cipher nonce text)
    else
      none

theorem length_tag (cipher : BlockCipher) (nonce aad text : Bytes) :
    (tag cipher nonce aad text).length = 16 :=
  Block.length_toBytes _

theorem length_crypt (cipher : BlockCipher) (nonce text : Bytes) :
    (crypt cipher nonce text).length = text.length :=
  length_counterMode _ _ _

theorem length_of_encrypt {cipher : BlockCipher} {nonce aad plain sealed : Bytes}
    (h : encrypt cipher nonce aad plain = some sealed) : sealed.length = plain.length + 16 := by
  unfold encrypt at h
  split at h
  · cases h
  · obtain rfl := Option.some.inj h
    rw [List.length_append, length_crypt, length_tag]

theorem crypt_crypt (cipher : BlockCipher) (nonce text : Bytes) :
    crypt cipher nonce (crypt cipher nonce text) = text :=
  counterMode_counterMode _ _ _

theorem decrypt_of_encrypt {cipher : BlockCipher} {nonce aad plain sealed : Bytes}
    (h : encrypt cipher nonce aad plain = some sealed) :
    decrypt cipher nonce aad sealed = some plain := by
  unfold encrypt at h
  split at h
  · simp at h
  · rename_i short
    obtain rfl := Option.some.inj h
    simp [decrypt, length_tag, length_crypt, crypt_crypt, short]

theorem encrypt_of_decrypt {cipher : BlockCipher} {nonce aad plain sealed : Bytes}
    (h : decrypt cipher nonce aad sealed = some plain) :
    encrypt cipher nonce aad plain = some sealed := by
  unfold decrypt at h
  split at h
  · simp at h
  · dsimp only at h
    split at h
    · simp at h
    · split at h
      · rename_i short found
        obtain rfl := Option.some.inj h
        simp only [encrypt, length_crypt, crypt_crypt, if_neg short, found, List.take_append_drop]
      · simp at h

/-- Decryption accepts exactly what encryption produces. -/
theorem decrypt_eq_some_iff {cipher : BlockCipher} {nonce aad plain sealed : Bytes} :
    decrypt cipher nonce aad sealed = some plain ↔
      encrypt cipher nonce aad plain = some sealed :=
  ⟨encrypt_of_decrypt, decrypt_of_encrypt⟩

end Gcm
end Cipher
end Envelope
