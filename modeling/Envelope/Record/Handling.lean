import Envelope.KeyError

/-!
# Data keys in hand

Whoever holds the record of a data key asks for its wrapped key and for its raw
key, keeps a raw key on it, copies it, and assigns key material to it.  The raw
key is decoded from the key material when it is first asked for.
-/

namespace Envelope
namespace Dek

/-- Asks for the raw key, which is decoded from the key material unless one is
known already.  A text that cannot be decoded leaves the record as it is. -/
def askRawKey : ExceptT Base64.DecodeError (StateM Dek) (Option KeyMaterial) := do
  let dek ← get
  if dek.rawKey.isNone then
    if let some text := dek.keyMaterial then
      let raw ← decodeMaterial text
      set { dek with rawKey := some ⟨raw⟩ }
  let dek ← get
  return dek.rawKey

/-- What can be done with a record in hand. -/
inductive Step where
  /-- Asks for the wrapped key. -/
  | askWrapped
  /-- Asks for the raw key, decoding it if need be. -/
  | askRaw
  /-- Asks for the raw key that is known, without decoding anything. -/
  | askKnown
  /-- Asks for the raw key, and takes it for a failure if none is known. -/
  | askKey
  /-- Keeps a raw key that was unwrapped elsewhere. -/
  | keep (raw : KeyMaterial)
  | copy
  | assignMaterial (text : Option String)
  | assignWrapped (text : Option String)
deriving DecidableEq

/-- What comes back from a step. -/
inductive Reply where
  | wrapped (answer : Except Base64.DecodeError (Option Bytes))
  | raw (answer : Except Base64.DecodeError (Option KeyMaterial))
  | known (answer : Option KeyMaterial)
  | key (answer : Except KeyError KeyMaterial)
  | copied (dek : Dek)
  | done

/-- Performs a step on a record. -/
def perform : Step → StateM Dek Reply
  | .askWrapped => return .wrapped (← get).wrappedKey
  | .askRaw => return .raw (← askRawKey.run)
  | .askKnown => return .known (← get).rawKey
  | .askKey => return .key (← get).key
  | .keep raw => do
    modify fun dek => { dek with rawKey := some raw }
    return .done
  | .copy => return .copied (← get)
  | .assignMaterial text => do
    modify fun dek => { dek with keyMaterial := text }
    return .done
  | .assignWrapped text => do
    modify fun dek => { dek with encryptedKeyMaterial := text }
    return .done

end Dek
end Envelope
