import Envelope.Cipher.Aes
import Envelope.Cipher.Gcm

/-!
# AES-256-GCM-SIV

Nonce-misuse resistant authenticated encryption as in RFC 8452, with keys of
32 bytes, nonces of twelve and tags of sixteen.  Main statement: decryption
accepts exactly what encryption produces (`decrypt_eq_some_iff`).
-/

namespace Envelope
namespace Cipher
namespace GcmSiv

/-- Multiplication by `x` where the most significant bit is the coefficient of
`x ^ 0`. -/
def shift (block : Block) : Block :=
  if block.getLsbD 0 then (block >>> 1) ^^^ (0xe1#128 <<< 120) else block >>> 1

/-- The polynomial hash whose bits are read in the opposite order. -/
def hash (h : Block) (blocks : List Block) : Block :=
  (Gcm.hash (shift h.reverseBytes) (blocks.map Block.reverseBytes)).reverseBytes

/-- Eight bytes of key material for a nonce. -/
def keyPart (cipher : BlockCipher) (nonce : Bytes) (i : Nat) : Bytes :=
  (cipher (Block.ofBytes (Bytes.ofNatLittle 4 i ++ nonce.take 12))).toBytes.take 8

/-- The keys that protect the messages under one nonce. -/
structure NonceKeys where
  /-- The point at which the polynomial hash is taken. -/
  hashKey : Block
  /-- The cipher of the keystream and of the tag. -/
  cipher : BlockCipher

/-- The keys of one nonce. -/
def nonceKeys (key nonce : Bytes) : NonceKeys :=
  let cipher := Aes.cipher key
  { hashKey := Block.ofBytes ([0, 1].flatMap (keyPart cipher nonce))
    cipher := Aes.cipher ([2, 3, 4, 5].flatMap (keyPart cipher nonce)) }

/-- The block of the two lengths, in bits, that ends the hashed text. -/
def lengths (aad plain : Bytes) : Block :=
  Block.ofBytes
    (Bytes.ofNatLittle 8 (8 * aad.length) ++ Bytes.ofNatLittle 8 (8 * plain.length))

/-- The authentication tag of a plaintext; its last bit is cleared before it
is enciphered. -/
def tag (keys : NonceKeys) (nonce aad plain : Bytes) : Bytes :=
  let digest := hash keys.hashKey (Block.split aad ++ Block.split plain ++ [lengths aad plain])
  let masked := (digest ^^^ Block.ofBytes nonce) &&& ~~~(0x80#128)
  (keys.cipher masked).toBytes

/-- The counter block `i` of a tag: its first four bytes count, least
significant first, and its last bit is set. -/
def counter (tag : Bytes) (i : Nat) : Block :=
  Block.ofBytes (Bytes.ofNatLittle 4 (Bytes.toNatLittle (tag.take 4) + i) ++ tag.drop 4)
    ||| 0x80#128

/-- The text under the keystream of `tag`. -/
def crypt (cipher : BlockCipher) (tag text : Bytes) : Bytes :=
  counterMode cipher (counter tag) text

/-- The ciphertext followed by its tag, unless an input is too long. -/
def encrypt (key nonce aad plain : Bytes) : Option Bytes :=
  if maxLength < plain.length ∨ maxLength < aad.length then
    none
  else
    let keys := nonceKeys key nonce
    let t := tag keys nonce aad plain
    some (crypt keys.cipher t plain ++ t)

/-- The plaintext of a sealed text whose tag is right. -/
def decrypt (key nonce aad sealed : Bytes) : Option Bytes :=
  if sealed.length < 16 then
    none
  else
    let text := sealed.take (sealed.length - 16)
    let t := sealed.drop (sealed.length - 16)
    if maxLength < text.length ∨ maxLength < aad.length then
      none
    else
      let keys := nonceKeys key nonce
      let plain := crypt keys.cipher t text
      if tag keys nonce aad plain = t then some plain else none

theorem length_tag (keys : NonceKeys) (nonce aad plain : Bytes) :
    (tag keys nonce aad plain).length = 16 :=
  Block.length_toBytes _

theorem length_crypt (cipher : BlockCipher) (tag text : Bytes) :
    (crypt cipher tag text).length = text.length :=
  length_counterMode _ _ _

theorem crypt_crypt (cipher : BlockCipher) (tag text : Bytes) :
    crypt cipher tag (crypt cipher tag text) = text :=
  counterMode_counterMode _ _ _

theorem decrypt_of_encrypt {key nonce aad plain sealed : Bytes}
    (h : encrypt key nonce aad plain = some sealed) :
    decrypt key nonce aad sealed = some plain := by
  unfold encrypt at h
  split at h
  · simp at h
  · rename_i short
    obtain rfl := Option.some.inj h
    simp [decrypt, length_tag, length_crypt, crypt_crypt, short]

theorem encrypt_of_decrypt {key nonce aad plain sealed : Bytes}
    (h : decrypt key nonce aad sealed = some plain) :
    encrypt key nonce aad plain = some sealed := by
  unfold decrypt at h
  split at h
  · simp at h
  · dsimp only at h
    split at h
    · simp at h
    · split at h
      · rename_i short found
        obtain rfl := Option.some.inj h
        simp only [encrypt, length_crypt, crypt_crypt, if_neg short, found,
          List.take_append_drop]
      · simp at h

/-- Decryption accepts exactly what encryption produces. -/
theorem decrypt_eq_some_iff {key nonce aad plain sealed : Bytes} :
    decrypt key nonce aad sealed = some plain ↔
      encrypt key nonce aad plain = some sealed :=
  ⟨encrypt_of_decrypt, decrypt_of_encrypt⟩

end GcmSiv
end Cipher
end Envelope
