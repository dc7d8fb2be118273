import Envelope.Frame
import Envelope.KeyRing
import Envelope.Parameter

/-!
# Transforming values

A transform encrypts or decrypts one value under the data key of its subject.
Text is carried as base64 and binary values as they are; when keys rotate, the
ciphertext is framed with the version of its key.
-/

namespace Envelope

/-- Why a value cannot be transformed. -/
inductive Error where
  | config (error : ConfigError)
  /-- The executor is bound to no registry. -/
  | notConfigured
  | unsupportedFieldType (type : FieldType)
  | unsupportedMode (mode : Mode)
  | key (error : KeyError)
  | cipher (error : CipherError)
  | framing (error : Frame.Error)
  | base64 (error : Base64.DecodeError)
  | invalidUtf8 (error : Utf8.Malformed)
deriving DecidableEq, Repr

/-- The wording of a failure. -/
def Error.message : Error → String
  | config error => error.message
  | notConfigured => "executor has no registry client; call configure first"
  | unsupportedFieldType type => s!"type '{type.name}' not supported for encryption"
  | unsupportedMode mode => s!"unsupported rule mode {mode.name}"
  | key error => error.message
  | cipher error => error.message
  | framing error => error.message
  | base64 error => s!"invalid base64 ciphertext: {error.message}"
  | invalidUtf8 error => s!"decrypted value is not valid UTF-8: {error.message}"

/-- A program of the engine that may fail to transform a value. -/
abbrev Action := ExceptT Error Engine

/-- A key ring together with the key-encryption key that it resolved. -/
structure Transform where
  ring : KeyRing
  kek : Kek
deriving DecidableEq

namespace Transform

/-- The bytes of a text or binary value of its declared type. -/
def bytesOf : FieldType → FieldValue → Option Bytes
  | .string, .string text => some (Utf8.encode text)
  | .bytes, .bytes bytes => some bytes
  | _, _ => none

/-- Encrypts the bytes of a value. -/
def encrypt (t : Transform) (subject : String) (type : FieldType) (plain : Bytes) :
    Action FieldValue := do
  let version := if t.ring.rotates then some Dek.latestVersion else none
  let dek ← (t.ring.dek t.kek subject version .write).adapt Error.key
  let key ← (dek.key).mapError Error.key
  let sealed ←
    (ExceptT.mk (Engine.draw (t.ring.cryptor.encrypt key.bytes plain []).run)).adapt Error.cipher
  let carried := if t.ring.rotates then Frame.encode ⟨dek.version, sealed⟩ else sealed
  Engine.log (.fieldEncrypted t.kek.name subject dek.version)
  return if type = .string then .string (Base64.encode carried) else .bytes carried

/-- Decrypts the bytes of a value. -/
def decrypt (t : Transform) (subject : String) (type : FieldType) (bytes : Bytes) :
    Action FieldValue := do
  let carried ← if type = .string then (Base64.decode bytes).mapError Error.base64 else pure bytes
  let (version, sealed) ←
    if t.ring.rotates then do
      let frame ← (Frame.decode carried).mapError Error.framing
      pure (some frame.version, frame.body)
    else
      pure (none, carried)
  let dek ← (t.ring.dek t.kek subject version .read).adapt Error.key
  let key ← (dek.key).mapError Error.key
  let plain ← (t.ring.cryptor.decrypt key.bytes sealed []).mapError Error.cipher
  if type = .string then
    let text ← (Utf8.decode plain).mapError Error.invalidUtf8
    return .string text
  else
    return .bytes plain

/-- Transforms a value as the mode of its context says.  An absent value stays
absent; on reading, a value that is neither text nor binary stays as it is. -/
def apply (t : Transform) (context : Context) (type : FieldType) (value : Option FieldValue) :
    Action (Option FieldValue) := do
  match value with
  | none => return none
  | some value =>
    match context.mode with
    | .write =>
      match bytesOf type value with
      | some plain => some <$> t.encrypt context.subject type plain
      | none => throw (.unsupportedFieldType type)
    | .read =>
      match bytesOf type value with
      | some bytes => some <$> t.decrypt context.subject type bytes
      | none => return some value
    | mode => throw (.unsupportedMode mode)

end Transform
end Envelope
