import Envelope.Cryptor
import Envelope.Kms.Driver
import Envelope.Registry.Error

/-!
# Failures to obtain a key

The causes for which no key-encryption or data-encryption key can be had for
a value.
-/

namespace Envelope

/-- A difference of two times that does not fit into 64 bits. -/
structure Overflow where
  minuend : Int64
  subtrahend : Int64
deriving DecidableEq, Repr

/-- The wording of an overflow. -/
def Overflow.message (_ : Overflow) : String :=
  "attempt to subtract with overflow"

/-- Why a key cannot be had. -/
inductive KeyError where
  | kekNotFoundOnRead (kek : String)
  | kekNotFoundOnWrite (kek : String)
  | missingKmsType (kek : String)
  | missingKmsKeyId (kek : String)
  /-- The rule names another type of key management system than the record. -/
  | kmsTypeMismatch (kek found rule : String)
  /-- The rule names another master key than the record. -/
  | kmsKeyIdMismatch (kek found rule : String)
  | dekNotFoundOnRead (kek subject : String)
  | dekNotFoundOnWrite (kek subject : String)
  /-- The greatest version has expired. -/
  | versionExhausted (kek subject : String)
  /-- The record holds neither a clear nor a wrapped key. -/
  | missingKeyMaterial (kek subject : String) (version : UInt32)
  | keyMaterialEncoding (error : Base64.DecodeError)
  | registry (error : RegistryError)
  | kms (error : Kms.Error)
  | cipher (error : CipherError)
  /-- The age of a record cannot be computed.  This is no error to be handled: the
  engine stops. -/
  | overflow (cause : Overflow)
deriving DecidableEq, Repr

/-- The wording of a failure. -/
def KeyError.message : KeyError → String
  | kekNotFoundOnRead kek => s!"no kek found for {kek} during consume"
  | kekNotFoundOnWrite kek => s!"no kek found for {kek} during produce"
  | missingKmsType kek => s!"no kms type found for {kek} during produce"
  | missingKmsKeyId kek => s!"no kms key id found for {kek} during produce"
  | kmsTypeMismatch kek found rule =>
    s!"found {kek} with kms type {found} which differs from rule kms type {rule}"
  | kmsKeyIdMismatch kek found rule =>
    s!"found {kek} with kms key id {found} which differs from rule kms key id {rule}"
  | dekNotFoundOnRead kek subject => s!"no dek found for {kek}, subject {subject} during consume"
  | dekNotFoundOnWrite kek subject => s!"no dek found for {kek}, subject {subject} during produce"
  | versionExhausted kek subject => s!"dek versions exhausted for {kek}, subject {subject}"
  | missingKeyMaterial kek subject version =>
    s!"dek for {kek}, subject {subject}, version {version} carries no key material"
  | keyMaterialEncoding error => s!"invalid key material encoding: {error.message}"
  | registry error => error.shown
  | kms error => error.message
  | cipher error => error.message
  | overflow cause => cause.message

/-- The raw key of a record. -/
def Dek.key (dek : Dek) : Except KeyError KeyMaterial :=
  match dek.rawKey with
  | some key => .ok key
  | none => .error (.missingKeyMaterial dek.kekName dek.subject dek.version)

end Envelope
