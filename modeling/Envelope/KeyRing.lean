import Envelope.Effect
import Envelope.Rule

/-!
# Obtaining keys

A key ring resolves the key-encryption key of a rule and the data-encryption
key of a subject.  Writers register what is missing; when another writer was
first, its record is fetched once.  A positive expiry makes a writer that
finds the newest data key expired register the next version, and fall back on
the old one if it cannot.  A writer that cannot compute the age of a data key in
64 bits stops there.  Readers register nothing and see soft-deleted records
too.
-/

namespace Envelope

/-- What keys are resolved by: the name of the key-encryption key, the cipher,
the expiry in days (0 for none), and the configuration for the drivers. -/
structure KeyRing where
  kekName : String
  cryptor : Cryptor
  expiryDays : UInt32
  config : Properties
deriving DecidableEq

namespace KeyRing

/-- A program of the engine that may fail to obtain a key. -/
abbrev Action := ExceptT KeyError Engine

/-- The version used when keys do not rotate, and the first one when they
do. -/
def firstVersion : UInt32 := 1

/-- The number of milliseconds in a day. -/
def millisPerDay : Int64 := 86400000

/-- Whether keys rotate. -/
def rotates (ring : KeyRing) : Bool :=
  0 < ring.expiryDays

/-- The time that has passed since a moment, if it fits into 64 bits. -/
def elapsed (since now : Int64) : Except Overflow Int64 :=
  if BitVec.ssubOverflow now.toBitVec since.toBitVec then
    .error ⟨now, since⟩
  else
    .ok (now - since)

/-- Whether a data key has expired at a given time: only for writers, only
with a positive expiry, and once that many whole days have passed since its
registration.  Where the time passed is of no account, it is not computed. -/
def isExpired (ring : KeyRing) (mode : Mode) (now : Int64) (dek : Option Dek) :
    Except Overflow Bool :=
  match dek with
  | some dek =>
    if mode ≠ .read ∧ ring.rotates then do
      let passed ← elapsed dek.timestamp now
      return decide (Int64.ofNat ring.expiryDays.toNat ≤ passed / millisPerDay)
    else
      return false
  | none => return false

/-- A text that is not empty. -/
def nonempty (text : Option String) : Option String :=
  text.filter fun t => t ≠ ""

/-- An answer of the registry in which an absent record is no failure. -/
def present {α : Type} : Except RegistryError α → Except KeyError (Option α)
  | .ok record => .ok (some record)
  | .error e => if e.isNotFound then .ok none else .error (.registry e)

/-- Runs a program that may fail, its failures made failures to obtain a key. -/
def orFail {ε α : Type} (cause : ε → KeyError) (program : Engine (Except ε α)) : Action α :=
  (ExceptT.mk program).adapt cause

/-! ## Key-encryption keys -/

/-- Looks up the key-encryption key. -/
def findKek (ring : KeyRing) (mode : Mode) : Action (Option Kek) := do
  let answer ← Engine.call (.getKek ring.kekName (mode = .read))
  present answer

/-- Registers the key-encryption key, unless another writer was first. -/
def storeKek (ring : KeyRing) (kmsType kmsKeyId : String) : Action (Option Kek) := do
  let request : KekRequest :=
    { name := ring.kekName
      kmsType := kmsType
      kmsKeyId := kmsKeyId
      kmsProps := ∅
      doc := none
      shared := false }
  match ← Engine.call (.registerKek request) with
  | .ok kek =>
    Engine.log (.kekRegistered kek.name kek.kmsType)
    return some kek
  | .error e =>
    if e.isConflict then
      Engine.log (.kekConflicted ring.kekName)
      return none
    else
      throw (.registry e)

/-- Registers the key-encryption key, or fetches what another writer
registered. -/
def createKek (ring : KeyRing) (mode : Mode) (kmsType kmsKeyId : String) : Action Kek := do
  match ← ring.storeKek kmsType kmsKeyId with
  | some kek => return kek
  | none =>
    match ← ring.findKek mode with
    | some kek => return kek
    | none => throw (.kekNotFoundOnWrite ring.kekName)

/-- Refuses a key-encryption key that belongs to another master key than the
rule names. -/
def checkBinding (ring : KeyRing) (kmsType kmsKeyId : Option String) (kek : Kek) :
    Except KeyError Unit := do
  if let some rule := kmsType then
    if rule ≠ kek.kmsType then
      throw (.kmsTypeMismatch ring.kekName kek.kmsType rule)
  if let some rule := kmsKeyId then
    if rule ≠ kek.kmsKeyId then
      throw (.kmsKeyIdMismatch ring.kekName kek.kmsKeyId rule)

/-- The key-encryption key of a rule that names a type of key management
system and a master key; empty names count as absent. -/
def kek (ring : KeyRing) (mode : Mode) (kmsType kmsKeyId : Option String) : Action Kek := do
  let kmsType := nonempty kmsType
  let kmsKeyId := nonempty kmsKeyId
  let kek ←
    match ← ring.findKek mode with
    | some kek => pure kek
    | none =>
      if mode = .read then
        throw (.kekNotFoundOnRead ring.kekName)
      else
        match kmsType, kmsKeyId with
        | none, _ => throw (.missingKmsType ring.kekName)
        | some _, none => throw (.missingKmsKeyId ring.kekName)
        | some kmsType, some kmsKeyId => ring.createKek mode kmsType kmsKeyId
  ring.checkBinding kmsType kmsKeyId kek
  return kek

/-! ## Data-encryption keys -/

/-- The identity of the data key of a subject. -/
def dekId (ring : KeyRing) (subject : String) (version : Option UInt32) : DekId :=
  ⟨ring.kekName, subject, version.getD firstVersion, ring.cryptor.format⟩

/-- Looks up a data key. -/
def findDek (id : DekId) (mode : Mode) : Action (Option Dek) := do
  let answer ← Engine.call (.getDek id (mode = .read))
  present answer

/-- Registers a data key, unless another writer was first. -/
def storeDek (ring : KeyRing) (request : DekRequest) : Action (Option Dek) := do
  match ← Engine.call (.registerDek ring.kekName request) with
  | .ok dek =>
    Engine.log (.dekRegistered ring.kekName dek.subject dek.version dek.algorithm)
    return some dek
  | .error e =>
    if e.isConflict then
      Engine.log (.dekConflicted ring.kekName request.subject request.version)
      return none
    else
      throw (.registry e)

/-- Registers a new version of a data key, or fetches what another writer
registered, under the identity that was looked up first. -/
def createDek (ring : KeyRing) (id : DekId) (mode : Mode) (version : UInt32)
    (wrapped : Option Bytes) : Action Dek := do
  let request : DekRequest :=
    { subject := id.subject
      version := version
      algorithm := id.algorithm
      encryptedKeyMaterial := wrapped.map Base64.encode }
  match ← ring.storeDek request with
  | some dek => return dek
  | none =>
    match ← findDek id mode with
    | some dek => return dek
    | none => throw (.dekNotFoundOnWrite ring.kekName id.subject)

/-- The handle of the master key of a key-encryption key. -/
def keyHandle (ring : KeyRing) (kek : Kek) : Action Kms.Handle :=
  orFail .kms (Engine.keyHandle ring.config kek.url)

/-- Generates a data key and wraps it. -/
def wrapFreshKey (ring : KeyRing) (handle : Kms.Handle) : Action Bytes := do
  let key ← orFail .cipher (Engine.draw ring.cryptor.generateKey.run)
  orFail .kms (Engine.draw (handle.wrap key.bytes []))

/-- The version that a writer registers, after the version that has expired if
there is one. -/
def nextVersion (ring : KeyRing) (subject : String) : Option Dek → Except KeyError UInt32
  | some prior =>
    if prior.version = UInt32.ofNat (UInt32.size - 1) then
      .error (.versionExhausted ring.kekName subject)
    else
      .ok (prior.version + 1)
  | none => .ok firstVersion

/-- Creates a data key where there is none, or a successor of an expired one,
which is used on if its successor cannot be registered.  Gives back the handle
of the master key if it was needed. -/
def rotate (ring : KeyRing) (kek : Kek) (id : DekId) (mode : Mode) (prior : Option Dek) :
    Action (Option Kms.Handle × Dek) := do
  let version ← ring.nextVersion id.subject prior
  let (handle, wrapped) ←
    if kek.shared then
      pure (none, none)
    else do
      let handle ← ring.keyHandle kek
      let wrapped ← ring.wrapFreshKey handle
      pure (some handle, some wrapped)
  let dek ←
    match prior with
    | none => ring.createDek id mode version wrapped
    | some prior =>
      tryCatch (ring.createDek id mode version wrapped) fun e => do
        Engine.log (.dekKept ring.kekName id.subject version e)
        return prior
  return (handle, dek)

/-- The record with its raw key, decoded or unwrapped if it is not known
yet. -/
def unlock (ring : KeyRing) (kek : Kek) (handle : Option Kms.Handle) (dek : Dek) :
    Action Dek := do
  let dek ← (dek.resolveRawKey).mapError KeyError.keyMaterialEncoding
  if dek.rawKey.isSome then
    return dek
  else
    let handle ←
      match handle with
      | some handle => pure handle
      | none => ring.keyHandle kek
    match ← (dek.wrappedKey).mapError KeyError.keyMaterialEncoding with
    | none => throw (.missingKeyMaterial dek.kekName dek.subject dek.version)
    | some wrapped =>
      let raw ← (handle.unwrap wrapped []).mapError KeyError.kms
      return { dek with rawKey := some ⟨raw⟩ }

/-- The data key of a subject with its raw key.  Without a version, keys do
not rotate; a rotating writer asks for the latest version and a reader for the
version in a frame. -/
def dek (ring : KeyRing) (kek : Kek) (subject : String) (version : Option UInt32) (mode : Mode) :
    Action Dek := do
  let id := ring.dekId subject version
  let found ← findDek id mode
  let now ← (Engine.now : Engine Int64)
  match found with
  | some dek =>
    if ← (ring.isExpired mode now (some dek)).mapError KeyError.overflow then
      let (handle, dek) ← ring.rotate kek id mode (some dek)
      ring.unlock kek handle dek
    else
      ring.unlock kek none dek
  | none =>
    if mode = .read then
      throw (.dekNotFoundOnRead ring.kekName subject)
    else
      let (handle, dek) ← ring.rotate kek id mode none
      ring.unlock kek handle dek

end KeyRing
end Envelope
