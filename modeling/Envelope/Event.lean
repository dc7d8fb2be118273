import Envelope.KeyError

/-!
# Log events

What the engine reports of its work: registrations, lost races, fallbacks and
encryptions, never a plaintext or a raw key.
-/

namespace Envelope

/-- A log event. -/
inductive Event where
  | driverRegistered (urlPrefix : String)
  | clientConnecting (urlPrefix : String)
  | kekRegistered (kek kmsType : String)
  | kekConflicted (kek : String)
  | dekRegistered (kek subject : String) (version : UInt32) (algorithm : String)
  | dekConflicted (kek subject : String) (version : UInt32)
  /-- A new version could not be registered and the one at hand is used on. -/
  | dekKept (kek subject : String) (version : UInt32) (error : KeyError)
  | fieldEncrypted (kek subject : String) (version : UInt32)
  | executorConfigured (keys : Nat)
deriving DecidableEq, Repr

namespace Event

/-- The severity of an event. -/
def level : Event → String
  | driverRegistered _ => "INFO"
  | clientConnecting _ => "DEBUG"
  | kekRegistered _ _ => "INFO"
  | kekConflicted _ => "DEBUG"
  | dekRegistered _ _ _ _ => "INFO"
  | dekConflicted _ _ _ => "DEBUG"
  | dekKept _ _ _ _ => "WARN"
  | fieldEncrypted _ _ _ => "DEBUG"
  | executorConfigured _ => "DEBUG"

/-- The wording of an event. -/
def message : Event → String
  | driverRegistered _ => "registered KMS driver"
  | clientConnecting _ => "constructing KMS client"
  | kekRegistered _ _ => "registered kek"
  | kekConflicted _ => "kek registration conflicted, refetching"
  | dekRegistered _ _ _ _ => "registered dek"
  | dekConflicted _ _ _ => "dek registration conflicted, refetching"
  | dekKept _ _ _ _ => "failed to create dek, using existing dek"
  | fieldEncrypted _ _ _ => "encrypted field"
  | executorConfigured _ => "configured encryption executor"

/-- The named values of an event. -/
def fields : Event → List (String × String)
  | driverRegistered urlPrefix => [("prefix", urlPrefix)]
  | clientConnecting urlPrefix => [("prefix", urlPrefix)]
  | kekRegistered kek kmsType => [("kek", kek), ("kms_type", kmsType)]
  | kekConflicted kek => [("kek", kek)]
  | dekRegistered kek subject version algorithm =>
    [("kek", kek), ("subject", subject), ("version", toString version), ("algorithm", algorithm)]
  | dekConflicted kek subject version =>
    [("kek", kek), ("subject", subject), ("version", toString version)]
  | dekKept kek subject version error =>
    [("kek", kek), ("subject", subject), ("version", toString version), ("error", error.message)]
  | fieldEncrypted kek subject version =>
    [("kek", kek), ("subject", subject), ("version", toString version)]
  | executorConfigured keys => [("keys", toString keys)]

end Event
end Envelope
