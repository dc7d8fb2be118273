import Envelope.Cipher.Aes
import Envelope.Cipher.Gcm
import Envelope.Cipher.Siv
import Envelope.Random
import Envelope.Record.Dek

/-!
# Field ciphers

The algorithms under which data-encryption keys encrypt field values.  The
randomised algorithms draw a fresh nonce for every value and put it in front;
the deterministic one draws nothing, so that equal values stay equal.
-/

namespace Envelope

/-- A supported algorithm. -/
inductive Algorithm where
  | aes128Gcm
  | aes256Gcm
  | aes256Siv
deriving DecidableEq, Repr

namespace Algorithm

/-- The name of an algorithm on records. -/
def name : Algorithm → String
  | aes128Gcm => "AES128_GCM"
  | aes256Gcm => "AES256_GCM"
  | aes256Siv => "AES256_SIV"

/-- The algorithm with a given name. -/
def ofName? (text : String) : Option Algorithm :=
  [aes128Gcm, aes256Gcm, aes256Siv].find? fun a => a.name = text

/-- Whether equal inputs give equal outputs. -/
def isDeterministic : Algorithm → Bool
  | aes256Siv => true
  | _ => false

/-- The length of a key in bytes. -/
def keyLength : Algorithm → Nat
  | aes128Gcm => 16
  | aes256Gcm => 32
  | aes256Siv => 64

end Algorithm

/-- Why a cipher operation fails. -/
inductive CipherError where
  | unsupportedAlgorithm (name : String)
  | invalidKeyLength (expected got : Nat)
  /-- A sealed text too short to hold its nonce. -/
  | ciphertextTooShort
  /-- An input too long, or a sealed text that is not authentic. -/
  | aeadFailure
deriving DecidableEq, Repr

/-- The wording of a failure. -/
def CipherError.message : CipherError → String
  | unsupportedAlgorithm name => s!"unsupported dek algorithm: {name}"
  | invalidKeyLength expected got =>
    s!"invalid dek length: expected {expected} bytes, got {got}"
  | ciphertextTooShort => "ciphertext too short"
  | aeadFailure => "aead operation failed"

/-- A choice of algorithm by name.  Any name may be chosen; every operation
under an unsupported one fails. -/
structure Cryptor where
  format : String
deriving DecidableEq, Repr

namespace Cryptor

/-- The number of bytes of a nonce. -/
def nonceLength : Nat := 12

/-- The choice of a name, or of the default algorithm. -/
def choose (name? : Option String) : Cryptor :=
  ⟨name?.getD Algorithm.aes256Gcm.name⟩

/-- The algorithm chosen, if it is supported. -/
def algorithm? (c : Cryptor) : Option Algorithm :=
  Algorithm.ofName? c.format

/-- The algorithm chosen. -/
def algorithm (c : Cryptor) : Except CipherError Algorithm :=
  match c.algorithm? with
  | some a => .ok a
  | none => .error (.unsupportedAlgorithm c.format)

/-- The algorithm chosen, for a key of its length. -/
def algorithmFor (c : Cryptor) (key : Bytes) : Except CipherError Algorithm := do
  let a ← c.algorithm
  if key.length ≠ a.keyLength then
    throw (.invalidKeyLength a.keyLength key.length)
  return a

/-- A fresh key for the chosen algorithm. -/
def generateKey (c : Cryptor) : ExceptT CipherError Draw KeyMaterial := do
  let a ← (c.algorithm : Except CipherError Algorithm)
  let key ← (Draw.fresh a.keyLength : Draw _)
  return ⟨key.val⟩

/-- The sealed text of a nonce, associated data and a plaintext; the nonce of
the deterministic algorithm is ignored. -/
def sealWith (a : Algorithm) (key nonce aad plain : Bytes) : Except CipherError Bytes :=
  match a with
  | .aes256Siv =>
    .ok (Cipher.Siv.encrypt (Cipher.Aes.cipher (key.take 32)) (Cipher.Aes.cipher (key.drop 32))
      aad plain)
  | .aes128Gcm | .aes256Gcm =>
    match Cipher.Gcm.encrypt (Cipher.Aes.cipher key) nonce aad plain with
    | some sealed => .ok (nonce ++ sealed)
    | none => .error .aeadFailure

/-- Encrypts a value.  Algorithm and key are accepted before a nonce is
drawn. -/
def encrypt (c : Cryptor) (key plain aad : Bytes) : ExceptT CipherError Draw Bytes := do
  let a ← (c.algorithmFor key : Except CipherError Algorithm)
  if a.isDeterministic then
    (sealWith a key [] aad plain : Except CipherError Bytes)
  else
    let nonce ← (Draw.fresh nonceLength : Draw _)
    (sealWith a key nonce.val aad plain : Except CipherError Bytes)

/-- Decrypts a sealed value. -/
def decrypt (c : Cryptor) (key sealed aad : Bytes) : Except CipherError Bytes := do
  let a ← c.algorithmFor key
  let opened ←
    match a with
    | .aes256Siv =>
      pure (Cipher.Siv.decrypt (Cipher.Aes.cipher (key.take 32)) (Cipher.Aes.cipher (key.drop 32))
        aad sealed)
    | .aes128Gcm | .aes256Gcm =>
      if sealed.length < nonceLength then throw .ciphertextTooShort
      pure (Cipher.Gcm.decrypt (Cipher.Aes.cipher key) (sealed.take nonceLength) aad
        (sealed.drop nonceLength))
  match opened with
  | some plain => return plain
  | none => throw .aeadFailure

end Cryptor
end Envelope
