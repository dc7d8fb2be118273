import Envelope.Dict
import Envelope.Random

/-!
# Key management systems

A key management system holds master keys and wraps data keys under them.  A
driver claims the master-key addresses with a certain beginning and connects
to clients; a client hands out handles, and a handle wraps and unwraps keys
under one master key.
-/

namespace Envelope
namespace Kms

/-- Why a key management operation fails. -/
inductive Error where
  /-- No driver claims the address. -/
  | noDriver (url : String)
  /-- The client does not serve the address. -/
  | unsupportedKeyUrl (url : String)
  /-- A driver cannot connect with its configuration. -/
  | config (reason : String)
  /-- A key cannot be wrapped or unwrapped. -/
  | operation (reason : String)
deriving DecidableEq, Repr

/-- The wording of a failure. -/
def Error.message : Error → String
  | noDriver url => s!"no KMS driver found for key url: {url}"
  | unsupportedKeyUrl url => s!"KMS client does not support key url: {url}"
  | config reason => s!"invalid KMS configuration: {reason}"
  | operation reason => s!"KMS operation failed: {reason}"

/-- Whether an address begins with the text that a driver or client claims. -/
def claims (urlPrefix url : String) : Bool :=
  urlPrefix.toList.isPrefixOf url.toList

/-- A handle of one master key.  Wrapping may draw random bytes. -/
structure Handle where
  wrap : (plain aad : Bytes) → Draw (Except Error Bytes)
  unwrap : (wrapped aad : Bytes) → Except Error Bytes

/-- A connected client. -/
structure Client where
  supports : (url : String) → Bool
  handle : (url : String) → Except Error Handle

/-- A driver.  Whether it can connect, and to what client, may depend on
everything that happened to the systems behind the drivers, whose state is
kept in `σ`. -/
structure Driver (σ : Type) where
  /-- The beginning of the addresses that the driver claims. -/
  urlPrefix : String
  connect : (config : Properties) → (url : String) → StateM σ (Except Error Client)

end Kms
end Envelope
