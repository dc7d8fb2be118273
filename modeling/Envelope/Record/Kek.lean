import Envelope.Record.Layout

/-!
# Key-encryption keys

A key-encryption key (KEK) is a named reference to a master key that a key
management system holds.  The registry stores such records and never the
master key itself.
-/

namespace Envelope

/-- A key-encryption key as the registry stores it. -/
structure Kek where
  name : String
  kmsType : String
  kmsKeyId : String
  kmsProps : Properties
  doc : Option String
  /-- Whether the registry wraps and unwraps the data keys itself. -/
  shared : Bool
  /-- The time of registration in milliseconds. -/
  timestamp : Int64
  /-- Whether the record is soft-deleted. -/
  deleted : Bool
deriving DecidableEq

/-- The registration of a new key-encryption key. -/
structure KekRequest where
  name : String
  kmsType : String
  kmsKeyId : String
  kmsProps : Properties
  doc : Option String
  shared : Bool
deriving DecidableEq

/-- The address of the master key, by which drivers are chosen. -/
def Kek.url (kek : Kek) : String :=
  kek.kmsType ++ "://" ++ kek.kmsKeyId

instance : Record Kek where
  title := "struct Kek"
  columns := [
    ⟨"name", .text, none⟩,
    ⟨"kmsType", .text, none⟩,
    ⟨"kmsKeyId", .text, none⟩,
    ⟨"kmsProps", .properties, some ∅⟩,
    ⟨"doc", .optionalText, some none⟩,
    ⟨"shared", .flag, some false⟩,
    ⟨"ts", .time, some 0⟩,
    ⟨"deleted", .flag, some false⟩]
  ofRow := fun (name, kmsType, kmsKeyId, kmsProps, doc, shared, timestamp, deleted, ()) =>
    ⟨name, kmsType, kmsKeyId, kmsProps, doc, shared, timestamp, deleted⟩
  toRow := fun k =>
    (k.name, k.kmsType, k.kmsKeyId, k.kmsProps, k.doc, k.shared, k.timestamp, k.deleted, ())

instance : Record KekRequest where
  title := "struct CreateKekRequest"
  columns := [
    ⟨"name", .text, none⟩,
    ⟨"kmsType", .text, none⟩,
    ⟨"kmsKeyId", .text, none⟩,
    ⟨"kmsProps", .properties, some ∅⟩,
    ⟨"doc", .optionalText, some none⟩,
    ⟨"shared", .flag, some false⟩]
  ofRow := fun (name, kmsType, kmsKeyId, kmsProps, doc, shared, ()) =>
    ⟨name, kmsType, kmsKeyId, kmsProps, doc, shared⟩
  toRow := fun r => (r.name, r.kmsType, r.kmsKeyId, r.kmsProps, r.doc, r.shared, ())

end Envelope
