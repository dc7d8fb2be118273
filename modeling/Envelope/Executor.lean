import Envelope.Transform

/-!
# Executors

An executor is bound once to a key registry and configured step by step; each
rule invocation then gets a transform of its own.  A parameter is looked up in
the rule, then in its schema, then in the configuration.
-/

namespace Envelope

/-- What an executor is applied to: single fields or whole payloads. -/
inductive ExecutorKind where
  | field
  | payload
deriving DecidableEq, Repr

/-- The type of rule that an executor handles. -/
def ExecutorKind.ruleType : ExecutorKind → String
  | field => "ENCRYPT"
  | payload => "ENCRYPT_PAYLOAD"

/-- An executor; `κ` are the registries it can be bound to. -/
@[ext]
structure Executor (κ : Type) where
  client : Option κ
  config : Properties
deriving DecidableEq

namespace Executor

variable {κ : Type}

/-- The executor without registry and configuration. -/
def fresh : Executor κ := ⟨none, ∅⟩

/-- The first entry of `config` that has another value in the configuration
of an executor. -/
def conflict? (e : Executor κ) (config : Properties) : Option String :=
  (config.entries.find? fun entry =>
    match e.config.get? entry.1 with
    | some value => value ≠ entry.2
    | none => false).map Prod.fst

/-- Binds an executor to a registry, if it was not bound to another one. -/
def bindTo [DecidableEq κ] (client : κ) : ExceptT ConfigError (StateM (Executor κ)) Unit := do
  match (← get).client with
  | some bound => if bound ≠ client then throw .alreadyConfigured
  | none => modify fun e => { e with client := some client }

/-- Adds to the configuration of an executor.  Every entry is checked before
the first one is added. -/
def extend (config : Properties) : ExceptT ConfigError (StateM (Executor κ)) Unit := do
  match (← get).conflict? config with
  | some key => throw (.alreadySet key)
  | none => modify fun e => { e with config := e.config.merge config }

/-- Binds an executor to a registry and then adds to its configuration. -/
def setUp [DecidableEq κ] (client : κ) (config : Properties) :
    ExceptT ConfigError (StateM (Executor κ)) Unit := do
  bindTo client
  extend config

/-- Binds an executor to a registry and adds to its configuration, at once.
Another registry than the first one, or another value than the one set, is
refused and nothing changes. -/
def configure [DecidableEq κ] (e : Executor κ) (client : κ) (config : Properties) :
    Except ConfigError (Executor κ) := do
  if e.client.any fun bound => bound ≠ client then
    throw .alreadyConfigured
  if let some key := e.conflict? config then
    throw (.alreadySet key)
  return ⟨some client, e.config.merge config⟩

/-- A parameter of a rule. -/
def parameter (e : Executor κ) (context : Context) (name : String) : Option String :=
  (context.parameter name).or (e.config.get? name)

/-- The key ring of a rule. -/
def ring (e : Executor κ) (context : Context) : Except ConfigError KeyRing := do
  let kekName ← Parameter.readKekName (e.parameter context Parameter.kekName)
  let expiryDays ← Parameter.readExpiryDays (e.parameter context Parameter.dekExpiryDays)
  return {
    kekName := kekName
    cryptor := Cryptor.choose (e.parameter context Parameter.dekAlgorithm)
    expiryDays := expiryDays
    config := e.config }

/-- The transform of a rule invocation, its key-encryption key resolved. -/
def newTransform (e : Executor κ) (context : Context) : Action Transform := do
  let ring ← (e.ring context).mapError Error.config
  if e.client.isNone then
    throw .notConfigured
  if context.mode ≠ .write ∧ context.mode ≠ .read then
    throw (.unsupportedMode context.mode)
  let kek ←
    (ring.kek context.mode (e.parameter context Parameter.kmsType)
      (e.parameter context Parameter.kmsKeyId)).adapt Error.key
  return ⟨ring, kek⟩

/-- Transforms one field of a declared type. -/
def transformField (e : Executor κ) (context : Context) (type : FieldType)
    (value : Option FieldValue) : Action (Option FieldValue) := do
  (← e.newTransform context).apply context type value

/-- Transforms a whole payload. -/
def transformPayload (e : Executor κ) (context : Context) (value : Option FieldValue) :
    Action (Option FieldValue) :=
  e.transformField context .bytes value

end Executor
end Envelope
