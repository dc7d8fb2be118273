import Envelope.Cipher.GcmSiv
import Envelope.Cipher.Sha256
import Envelope.Kms.Driver
import Envelope.Text.Utf8

/-!
# The local key management system

A stand-in for development and for deployments without a key management
system.  Its only master key is derived from a secret, so that every client
with the same secret unwraps what another one wrapped.  A wrapped key is the
nonce followed by the sealed key.
-/

namespace Envelope
namespace Kms
namespace Local

/-- The beginning of the addresses of local master keys. -/
def urlPrefix : String := "local-kms://"

/-- The configuration entry that holds the secret. -/
def secretKey : String := "secret"

/-- The number of bytes of a nonce. -/
def nonceLength : Nat := 12

/-- The master key of a secret. -/
def masterKey (secret : String) : Bytes :=
  Cipher.Sha256.deriveKey (Utf8.encode secret)

/-- Wraps a key under a nonce. -/
def wrapWith (master nonce plain aad : Bytes) : Except Error Bytes :=
  match Cipher.GcmSiv.encrypt master nonce aad plain with
  | some sealed => .ok (nonce ++ sealed)
  | none => .error (.operation "local KMS wrap failed")

/-- Unwraps a key. -/
def unwrap (master wrapped aad : Bytes) : Except Error Bytes :=
  if wrapped.length < nonceLength then
    .error (.operation "wrapped key too short")
  else
    match Cipher.GcmSiv.decrypt master (wrapped.take nonceLength) aad
        (wrapped.drop nonceLength) with
    | some plain => .ok plain
    | none => .error (.operation "local KMS unwrap failed")

/-- The handle of a master key. -/
def handle (master : Bytes) : Handle where
  wrap plain aad := do
    let nonce ← Draw.fresh nonceLength
    return wrapWith master nonce.val plain aad
  unwrap := unwrap master

/-- The client that serves all addresses with a given beginning under the
master key of a secret. -/
def client (urlPrefix secret : String) : Client :=
  let master := masterKey secret
  { supports := fun url => claims urlPrefix url
    handle := fun url =>
      if claims urlPrefix url then .ok (handle master) else .error (.unsupportedKeyUrl url) }

/-- The driver of local master keys, which needs a secret in its
configuration. -/
def driver {σ : Type} : Driver σ where
  urlPrefix := urlPrefix
  connect config _ :=
    match (config.get? secretKey).filter fun secret => secret ≠ "" with
    | some secret => return .ok (client urlPrefix secret)
    | none => return .error (.config "cannot load secret for local KMS")

end Local
end Kms
end Envelope
