import Envelope.Record.Layout
import Envelope.Text.Base64
import Envelope.Text.Utf8

/-!
# Data-encryption keys

A data-encryption key (DEK) belongs to a key-encryption key, a subject and an
algorithm, and has a version.  The registry stores it wrapped, or in the clear
under a shared key-encryption key.  A record in hand may also carry the raw
key; it is never written and never shown.
-/

namespace Envelope

/-- A raw key. -/
structure KeyMaterial where
  bytes : Bytes
deriving DecidableEq

/-- What messages show of a raw key. -/
def KeyMaterial.shown (_ : KeyMaterial) : String :=
  "KeyMaterial([REDACTED])"

/-- A data-encryption key as the registry stores it, with the raw key once it
is known. -/
structure Dek where
  kekName : String
  subject : String
  version : UInt32
  algorithm : String
  /-- The wrapped key in base64. -/
  encryptedKeyMaterial : Option String
  /-- The key in base64, given out by the registry under a shared
  key-encryption key. -/
  keyMaterial : Option String
  /-- The time of registration in milliseconds. -/
  timestamp : Int64
  /-- Whether the record is soft-deleted. -/
  deleted : Bool
  /-- The raw key, if it has been decoded or unwrapped. -/
  rawKey : Option KeyMaterial
deriving DecidableEq

/-- The registration of a new version of a data-encryption key. -/
structure DekRequest where
  subject : String
  version : UInt32
  algorithm : String
  encryptedKeyMaterial : Option String
deriving DecidableEq

namespace Dek

/-- The version that asks for the newest one. -/
def latestVersion : UInt32 := 0

/-- A record without key material. -/
def bare (kekName subject : String) (version : UInt32) (algorithm : String) : Dek :=
  ⟨kekName, subject, version, algorithm, none, none, 0, false, none⟩

/-- Decodes base64 text. -/
def decodeMaterial (text : String) : Except Base64.DecodeError Bytes :=
  Base64.decode (Utf8.encode text)

/-- The wrapped key, decoded. -/
def wrappedKey (dek : Dek) : Except Base64.DecodeError (Option Bytes) :=
  match dek.encryptedKeyMaterial with
  | some text => some <$> decodeMaterial text
  | none => .ok none

/-- The record with the raw key filled in from the key material that the
registry gave out, unless a raw key is known already. -/
def resolveRawKey (dek : Dek) : Except Base64.DecodeError Dek :=
  match dek.rawKey, dek.keyMaterial with
  | none, some text => do
    return { dek with rawKey := some ⟨← decodeMaterial text⟩ }
  | _, _ => .ok dek

/-- What messages show of an optional text. -/
def showOption : Option String → String
  | some text => "Some(" ++ Text.quoted text ++ ")"
  | none => "None"

/-- What messages show of a record: every stored field but the key material,
of which they show only whether there is any. -/
def shown (dek : Dek) : String :=
  "Dek \x7b kek_name: " ++ Text.quoted dek.kekName ++
  ", subject: " ++ Text.quoted dek.subject ++
  ", version: " ++ toString dek.version ++
  ", algorithm: " ++ Text.quoted dek.algorithm ++
  ", encrypted_key_material: " ++ showOption dek.encryptedKeyMaterial ++
  ", key_material: " ++ showOption (dek.keyMaterial.map fun _ => "[REDACTED]") ++
  ", ts: " ++ toString dek.timestamp ++
  ", deleted: " ++ toString dek.deleted ++ " \x7d"

end Dek

instance : Record Dek where
  title := "struct Dek"
  columns := [
    ⟨"kekName", .text, none⟩,
    ⟨"subject", .text, none⟩,
    ⟨"version", .version, none⟩,
    ⟨"algorithm", .text, none⟩,
    ⟨"encryptedKeyMaterial", .optionalText, some none⟩,
    ⟨"keyMaterial", .optionalText, some none⟩,
    ⟨"ts", .time, some 0⟩,
    ⟨"deleted", .flag, some false⟩]
  ofRow := fun (kekName, subject, version, algorithm, wrapped, material, timestamp, deleted, ()) =>
    ⟨kekName, subject, version, algorithm, wrapped, material, timestamp, deleted, none⟩
  toRow := fun d =>
    (d.kekName, d.subject, d.version, d.algorithm, d.encryptedKeyMaterial, d.keyMaterial,
      d.timestamp, d.deleted, ())

instance : Record DekRequest where
  title := "struct CreateDekRequest"
  columns := [
    ⟨"subject", .text, none⟩,
    ⟨"version", .version, none⟩,
    ⟨"algorithm", .text, none⟩,
    ⟨"encryptedKeyMaterial", .optionalText, some none⟩]
  ofRow := fun (subject, version, algorithm, wrapped, ()) =>
    ⟨subject, version, algorithm, wrapped⟩
  toRow := fun r => (r.subject, r.version, r.algorithm, r.encryptedKeyMaterial, ())

end Envelope
