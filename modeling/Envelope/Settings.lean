import Envelope.Cryptor
import Envelope.Dict
import Envelope.Kms.Local
import Envelope.Parameter
import Envelope.Text.Blank
import Envelope.Variable

/-!
# Settings from the environment

Defaults that the environment sets for a whole process, checked when they are
loaded and handed to executors as a configuration.
-/

namespace Envelope

/-- The settings of a process. -/
structure Settings where
  logLevel : String
  localSecret : Option String
  kekName : Option String
  kmsType : Option String
  kmsKeyId : Option String
  dekAlgorithm : Option String
  dekExpiryDays : Option String
deriving DecidableEq

namespace Settings

/-- Why settings are refused. -/
inductive Error where
  | nested (setting : String) (shape : Variable.Shape)
  | blankKekName
  | unknownAlgorithm (name : String)
  | invalidExpiry (error : ConfigError)
  | blankSecret
deriving DecidableEq, Repr

/-- The wording of a refusal. -/
def Error.message : Error → String
  | nested setting shape =>
    let found := match shape with | .map => "map" | .sequence => "sequence"
    s!"failed to deserialise configuration: invalid type: {found}, " ++
      s!"expected a string for key `{setting}`"
  | blankKekName => "KEK_NAME must not be empty when set"
  | unknownAlgorithm name => s!"DEK_ALGORITHM {name} is not a supported algorithm"
  | invalidExpiry error =>
    s!"DEK_EXPIRY_DAYS must be a non-negative integer: {error.message}"
  | blankSecret => "LOCAL_SECRET must not be empty when set"

/-- The text of a setting, if the environment holds one. -/
def readText (entries : Dict Variable.Entry) (name : String) : Except Error (Option String) :=
  match entries.get? name with
  | none => .ok none
  | some (.text value) => .ok (some value)
  | some (.nested shape) => .error (.nested name shape)

/-- The settings that an environment makes, unchecked. -/
def ofEntries (entries : Dict Variable.Entry) : Except Error Settings := do
  let dekAlgorithm ← readText entries "dek_algorithm"
  let dekExpiryDays ← readText entries "dek_expiry_days"
  let kekName ← readText entries "kek_name"
  let kmsKeyId ← readText entries "kms_key_id"
  let kmsType ← readText entries "kms_type"
  let localSecret ← readText entries "local_secret"
  let logLevel ← readText entries "log_level"
  return {
    logLevel := logLevel.getD "info"
    localSecret, kekName, kmsType, kmsKeyId, dekAlgorithm, dekExpiryDays }

/-- Refuses settings under which no executor could work. -/
def validate (s : Settings) : Except Error Unit := do
  if s.kekName.any Text.isBlank then
    throw .blankKekName
  if let some name := s.dekAlgorithm then
    if (Algorithm.ofName? name).isNone then
      throw (.unknownAlgorithm name)
  let _ ← (Parameter.readExpiryDays s.dekExpiryDays).mapError Error.invalidExpiry
  if s.localSecret.any Text.isBlank then
    throw .blankSecret

/-- Loads the settings from an environment. -/
def load (environment : Properties) : Except Error Settings := do
  let settings ← ofEntries (Variable.entries environment)
  settings.validate
  return settings

/-- The configuration of an executor: the entries that are set. -/
def executorConfig (s : Settings) : Properties :=
  Dict.ofList <| [
    (Parameter.kekName, s.kekName),
    (Parameter.kmsType, s.kmsType),
    (Parameter.kmsKeyId, s.kmsKeyId),
    (Parameter.dekAlgorithm, s.dekAlgorithm),
    (Parameter.dekExpiryDays, s.dekExpiryDays),
    (Kms.Local.secretKey, s.localSecret)].filterMap fun (key, value) =>
      value.map fun v => (key, v)

end Settings
end Envelope
