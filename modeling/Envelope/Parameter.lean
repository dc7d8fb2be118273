import Envelope.Text.Digits

/-!
# Rule parameters

The names of the parameters that select keys, and how their texts are read.
-/

namespace Envelope

/-- Why an executor cannot be configured or a rule cannot be run. -/
inductive ConfigError where
  | missingKekName
  | emptyKekName
  | invalidExpiry (text : String)
  /-- The executor is bound to another registry. -/
  | alreadyConfigured
  /-- A configuration entry has another value already. -/
  | alreadySet (key : String)
deriving DecidableEq, Repr

namespace Parameter

/-- The name of the key-encryption key. -/
def kekName : String := "encrypt.kek.name"

/-- The type of the key management system of a new key-encryption key. -/
def kmsType : String := "encrypt.kms.type"

/-- The master key of a new key-encryption key. -/
def kmsKeyId : String := "encrypt.kms.key.id"

/-- The algorithm of the data keys. -/
def dekAlgorithm : String := "encrypt.dek.algorithm"

/-- The number of days after which a data key is replaced. -/
def dekExpiryDays : String := "encrypt.dek.expiry.days"

/-- Reads the name of the key-encryption key, which must be given. -/
def readKekName : Option String → Except ConfigError String
  | none => .error .missingKekName
  | some name => if name = "" then .error .emptyKekName else .ok name

/-- Reads a number of days; none given means that keys do not expire. -/
def readExpiryDays : Option String → Except ConfigError UInt32
  | none => .ok 0
  | some text =>
    match Digits.readWord text with
    | some days => .ok days
    | none => .error (.invalidExpiry text)

end Parameter

/-- The wording of a failure. -/
def ConfigError.message : ConfigError → String
  | missingKekName => "no kek name found"
  | emptyKekName => "empty kek name"
  | invalidExpiry text => s!"invalid value for {Parameter.dekExpiryDays}: {text}"
  | alreadyConfigured => "executor already configured"
  | alreadySet key => s!"rule config key already set: {key}"

end Envelope
