import Envelope.Executor
import Envelope.Kms.Rehearsal
import Envelope.Registry.Scripted
import Envelope.Registry.Store
import Envelope.World

/-!
# Sessions

A session is a bench on which several executors, registries and drivers work
together: registries in memory behind scripts, two directories of drivers, one
of the session and one that outlives it, rehearsal drivers, and one clock that
is moved by hand.  A session is driven step by step; a failing step does not
end it, unless nothing can recover from the failure (`Failure.isFatal`).
-/

namespace Envelope

/-- The directory that a step or an executor uses. -/
inductive Scope where
  /-- The directory of the session. -/
  | session
  /-- The directory that outlives the session. -/
  | process
deriving DecidableEq, Repr

/-- An executor of a session: what it is applied to, which directory it uses,
and whether it reads the clock of the system instead of that of the session. -/
structure SessionExecutor where
  executor : Executor String
  kind : ExecutorKind
  scope : Scope
  onSystemClock : Bool

/-- A bench of executors, registries and drivers. -/
structure Session where
  registries : Dict (Scripted Store)
  executors : Dict SessionExecutor
  /-- The drivers and clients of the session. -/
  own : Kms.Directory Kms.Tries
  /-- The drivers and clients that outlive the session. -/
  shared : Kms.Directory Kms.Tries
  tries : Kms.Tries
  /-- The rehearsal drivers of the session and their numbers. -/
  rehearsals : Dict (Kms.Rehearsal × Nat)
  /-- The addresses whose clients were seen, in the order of their first
  appearance. -/
  seen : List (Scope × String)
  clock : Int64
  systemClock : Int64
  random : RandomSource
  log : List Event

namespace Session

/-- The directory that outlives every session, as it is at first. -/
def initialShared : Kms.Directory Kms.Tries :=
  Kms.Directory.empty.register Kms.Local.driver

/-- A session at its beginning. -/
def start (shared : Kms.Directory Kms.Tries) (tries : Kms.Tries) (clock systemClock : Int64)
    (random : RandomSource) : Session where
  registries := ∅
  executors := ∅
  own := .empty
  shared := shared
  tries := tries
  rehearsals := ∅
  seen := []
  clock := clock
  systemClock := systemClock
  random := random
  log := []

/-- A step of a session. -/
inductive Step where
  /-- Puts replies at the end of the queues of a registry. -/
  | script (registry : String) (replies : Script)
  /-- Calls a registry past its script. -/
  | call (registry : String) (call : Registry.Call)
  | softDeleteKek (registry name : String)
  | countVersions (registry : String) (path : DekPath)
  | setClock (now : Int64)
  | advanceClock (amount : Int64)
  | registerLocal (scope : Scope)
  | registerRehearsal (scope : Scope) (id : String) (driver : Kms.Rehearsal)
  | resolveDriver (scope : Scope) (url : String)
  /-- Asks for the client of an address, by a rehearsal driver or by the driver
  that claims the address, and tries it on a second address. -/
  | client (scope : Scope) (url : String) (config : Properties) (driver : Option String)
      (probe : String)
  | wrap (scope : Scope) (url : String) (config : Properties) (plain aad : Bytes)
  | unwrap (scope : Scope) (url : String) (config : Properties) (wrapped aad : Bytes)
  | count (scope : Scope)
  | kek (registry : String) (ring : KeyRing) (mode : Mode) (kmsType kmsKeyId : Option String)
  | dek (registry : String) (ring : KeyRing) (kek : Kek) (subject : String)
      (version : Option UInt32) (mode : Mode)
  | expired (ring : KeyRing) (mode : Mode) (dek : Option Dek)
  | executor (name : String) (kind : ExecutorKind) (scope : Scope) (onSystemClock : Bool)
  | configure (executor registry : String) (config : Properties)
  | config (executor : String)
  | bind (executor : String) (context : Context)
  | transform (executor : String) (context : Context) (type : FieldType)
      (value : Option FieldValue)
  /-- Binds a transform in one mode and applies it in another. -/
  | rebind (executor : String) (context : Context) (thenMode : Mode) (type : FieldType)
      (value : Option FieldValue)

/-- What a step that succeeds gives. -/
inductive Answer where
  | nothing
  | number (n : Int)
  | text (value : String)
  | bytes (value : Bytes)
  | kek (record : Kek)
  | dek (record : Dek)
  | key (dek : Dek) (key : KeyMaterial)
  | client (number : Nat) (supported : Bool) (failure : Option Kms.Error)
  | counts (drivers clients slots : Nat) (tries : List (String × Nat))
  | expiry (expired rotates : Bool) (kekName format : String)
  | transform (kek : Kek) (rotates : Bool)
  | value (value : Option FieldValue)
  | config (config : Properties)

/-- Why a step fails. -/
inductive Failure where
  | registry (error : RegistryError)
  | kms (error : Kms.Error)
  | engine (error : Error)
  /-- The step names a driver that the session does not have. -/
  | unknownDriver (id : String)
  /-- The step names an executor that was not made. -/
  | unknownExecutor (name : String)
  | overflow (cause : Overflow)

/-- Whether a failure ends the session, all its answers with it: a missing
executor, and a difference of times that does not fit. -/
def Failure.isFatal : Failure → Bool
  | unknownExecutor _ | overflow _ | engine (.key (.overflow _)) => true
  | registry _ | kms _ | engine _ | unknownDriver _ => false

/-- What a step comes to: its answer, the calls of the engine to the registry,
and the events logged. -/
structure Outcome where
  answer : Except Failure Answer
  calls : List Registry.Call
  log : List Event

/-- Whether a step ends the session. -/
def Outcome.isFatal (o : Outcome) : Bool :=
  match o.answer with
  | .ok _ => false
  | .error e => e.isFatal

/-! ## Parts of a session -/

/-- A registry by name; it is made when first named. -/
def registry (s : Session) (name : String) : Scripted Store :=
  (s.registries.get? name).getD (.ofRegistry ∅)

/-- An executor by name. -/
def executorNamed (s : Session) (name : String) : Except Failure SessionExecutor :=
  match s.executors.get? name with
  | some e => .ok e
  | none => .error (.unknownExecutor name)

/-- A directory. -/
def directory (s : Session) : Scope → Kms.Directory Kms.Tries
  | .session => s.own
  | .process => s.shared

/-- The session with another directory. -/
def withDirectory (s : Session) (directory : Kms.Directory Kms.Tries) : Scope → Session
  | .session => { s with own := directory }
  | .process => { s with shared := directory }

/-- The session with another registry in memory behind a script. -/
def withStore (s : Session) (name : String) (store : Store) : Session :=
  { s with registries := s.registries.insert name { s.registry name with inner := store } }

/-- The surroundings of an engine that uses a directory and a registry, or a
registry without records that is dropped afterwards. -/
def world (s : Session) (registry : Option String) (scope : Scope) (onSystemClock : Bool) :
    World (Scripted Store) Kms.Tries where
  registry := (registry.map s.registry).getD (.ofRegistry ∅)
  directory := s.directory scope
  systems := s.tries
  clock := s.clock
  engineClock := if onSystemClock then some s.systemClock else none
  random := s.random
  log := s.log

/-- The session after its surroundings have changed. -/
def ofWorld (s : Session) (registry : Option String) (scope : Scope)
    (w : World (Scripted Store) Kms.Tries) : Session :=
  { s.withDirectory w.directory scope with
    registries :=
      match registry with
      | some name => s.registries.insert name w.registry
      | none => s.registries
    tries := w.systems
    random := w.random
    log := w.log }

/-- Runs something in the surroundings that a registry and a directory make. -/
def within {α : Type} (registry : Option String) (scope : Scope) (onSystemClock : Bool)
    (action : StateM (World (Scripted Store) Kms.Tries) α) : StateM Session α := fun s =>
  let (a, w) := action.run (s.world registry scope onSystemClock)
  (a, s.ofWorld registry scope w)

/-- Runs a program that may fail. -/
def perform {ε α : Type} (registry : Option String) (scope : Scope) (onSystemClock : Bool)
    (program : ExceptT ε Engine α) : StateM Session (Except ε α) :=
  within registry scope onSystemClock (World.run program.run)

/-- Runs a program with an executor that was made, which may depend on what the
executor is applied to. -/
def withExecutor {α : Type} (name : String)
    (program : ExecutorKind → Executor String → ExceptT Error Engine α) :
    StateM Session (Except Failure α) := do
  match (← get).executorNamed name with
  | .error e => return .error e
  | .ok e =>
    let result ← perform e.executor.client e.scope e.onSystemClock (program e.kind e.executor)
    return result.mapError Failure.engine

/-- Sets up an executor that was made. -/
def configure (name registry : String) (config : Properties) :
    StateM Session (Except Failure Answer) := do
  let s ← get
  match s.executorNamed name with
  | .error e => return .error e
  | .ok e =>
    let (outcome, executor) := (Executor.setUp registry config).run.run e.executor
    set { s with executors := s.executors.insert name { e with executor := executor } }
    match outcome with
    | .ok () =>
      modify fun s => { s with log := s.log ++ [Event.executorConfigured config.size] }
      return .ok .nothing
    | .error cause => return .error (.engine (.config cause))

/-- The number of the client of an address, in the order of first
appearance. -/
def numberClient (scope : Scope) (url : String) : StateM Session Nat := fun s =>
  match s.seen.idxOf? (scope, url) with
  | some number => (number, s)
  | none => (s.seen.length, { s with seen := s.seen ++ [(scope, url)] })

/-- Drops the calls and events recorded so far. -/
def forgetRecords (s : Session) : Session :=
  { s with
    registries := s.registries.map fun r => { r with calls := [] }
    log := [] }

/-- The calls recorded since they were last dropped. -/
def recordedCalls (s : Session) : List Registry.Call :=
  s.registries.entries.flatMap fun entry => entry.2.calls

/-! ## Steps -/

/-- Adds replies to the queues of a script. -/
def appendReplies (a b : Script) : Script :=
  ⟨a.getKek ++ b.getKek, a.registerKek ++ b.registerKek, a.getDek ++ b.getDek,
    a.registerDek ++ b.registerDek⟩

/-- Calls the store of a registry past its script. -/
def callStore (name : String) (c : Registry.Call) : StateM Session c.Answer := fun s =>
  let ((answer, store), random) :=
    (RandomSource.run (Store.answer c s.clock (s.registry name).inner)).run s.random
  (answer, { s.withStore name store with random := random })

/-- The record that a call is answered with. -/
def recordAnswer : (c : Registry.Call) → c.Result → Answer
  | .getKek _ _, record => .kek record
  | .registerKek _, record => .kek record
  | .getDek _ _, record => .dek record
  | .registerDek _ _, record => .dek record

/-- The client of an address, and whether it serves a second address. -/
def probeClient (scope : Scope) (url : String) (config : Properties) (driver : Option String)
    (probe : String) : StateM Session (Except Failure Answer) := do
  let s ← get
  let chosen : Except Failure (Kms.Driver Kms.Tries) :=
    match driver with
    | some id =>
      match s.rehearsals.get? id with
      | some (r, number) => .ok (r.driver number)
      | none => .error (.unknownDriver id)
    | none => ((s.directory scope).resolve url).mapError Failure.kms
  match chosen with
  | .error e => return .error e
  | .ok driver =>
    let attempt := (s.directory scope).client driver config url s.tries
    set { s.withDirectory attempt.directory scope with
      tries := attempt.systems
      log := s.log ++ attempt.events }
    match attempt.outcome with
    | .error e => return .error (.kms e)
    | .ok client =>
      let number ← numberClient scope url
      let failure :=
        match client.handle probe with
        | .ok _ => none
        | .error e => some e
      return .ok (.client number (client.supports probe) failure)

/-- Wraps or unwraps with the handle of an address. -/
def useHandle (scope : Scope) (url : String) (config : Properties)
    (use : Kms.Handle → Draw (Except Kms.Error Bytes)) :
    StateM Session (Except Failure Answer) := do
  let bytes ← within none scope false <| do
    match ← World.keyHandle config url with
    | .ok handle => World.draw (use handle)
    | .error e => return .error e
  return (bytes.map Answer.bytes).mapError Failure.kms

/-- Takes a step. -/
def advance : Step → StateM Session (Except Failure Answer)
  | .script name replies => do
    modify fun s =>
      let r := s.registry name
      let script := appendReplies r.script replies
      { s with registries := s.registries.insert name { r with script := script } }
    return .ok .nothing
  | .call name c => do
    return ((← callStore name c).map (recordAnswer c)).mapError Failure.registry
  | .softDeleteKek name kek => do
    let s ← get
    let (answer, store) := (s.registry name).inner.softDeleteKek kek
    set (s.withStore name store)
    return (answer.map fun _ => .nothing).mapError Failure.registry
  | .countVersions name path => do
    return .ok (.number (((← get).registry name).inner.countVersions path))
  | .setClock now => do
    modify fun s => { s with clock := now }
    return .ok (.number now.toInt)
  | .advanceClock amount => do
    modify fun s => { s with clock := s.clock + amount }
    return .ok (.number (← get).clock.toInt)
  | .registerLocal scope => do
    within none scope false (World.registerDriver Kms.Local.driver)
    return .ok (.number ((← get).directory scope).driverCount)
  | .registerRehearsal scope id r => do
    let number := (← get).tries.length
    modify fun s =>
      { s with
        tries := s.tries ++ [0]
        rehearsals := s.rehearsals.insert id (r, number) }
    within none scope false (World.registerDriver (r.driver number))
    match scope with
    | .session => return .ok (.number (← get).own.driverCount)
    | .process => return .ok .nothing
  | .resolveDriver scope url => do
    let found := ((← get).directory scope).resolve url
    return (found.map fun driver => .text driver.urlPrefix).mapError Failure.kms
  | .client scope url config driver probe => probeClient scope url config driver probe
  | .wrap scope url config plain aad => useHandle scope url config fun h => h.wrap plain aad
  | .unwrap scope url config wrapped aad =>
    useHandle scope url config fun h => pure (h.unwrap wrapped aad)
  | .count scope => do
    let s ← get
    let k := s.directory scope
    let tries := s.rehearsals.entries.map fun (id, _, number) => (id, s.tries.getD number 0)
    return .ok (.counts k.driverCount k.clientCount k.slotCount tries)
  | .kek name ring mode kmsType kmsKeyId => do
    let found ← perform (some name) .session false (ring.kek mode kmsType kmsKeyId)
    return (found.map Answer.kek).mapError fun e => .engine (.key e)
  | .dek name ring kek subject version mode => do
    let found ← perform (some name) .session false (ring.dek kek subject version mode)
    return (found >>= fun dek => return .key dek (← dek.key)).mapError fun e => .engine (.key e)
  | .expired ring mode dek => do
    let verdict := ring.isExpired mode (← get).clock dek
    return (verdict.map fun expired =>
      .expiry expired ring.rotates ring.kekName ring.cryptor.format).mapError Failure.overflow
  | .executor name kind scope onSystemClock => do
    modify fun s =>
      { s with executors := s.executors.insert name ⟨.fresh, kind, scope, onSystemClock⟩ }
    return .ok (.text kind.ruleType)
  | .configure name registry config => configure name registry config
  | .config name => do
    return ((← get).executorNamed name).map fun e => .config e.executor.config
  | .bind name context => do
    let found ← withExecutor name fun _ e => e.newTransform context
    return found.map fun t => .transform t.kek t.ring.rotates
  | .transform name context type value => do
    let result ← withExecutor name fun kind e =>
      match kind with
      | .field => e.transformField context type value
      | .payload => e.transformPayload context value
    return result.map Answer.value
  | .rebind name context thenMode type value => do
    let result ← withExecutor name fun _ e => do
      (← e.newTransform context).apply { context with mode := thenMode } type value
    return result.map Answer.value

/-- Takes a step and reports what it comes to. -/
def step (s : Session) (step : Step) : Outcome × Session :=
  let (answer, s) := (advance step).run s.forgetRecords
  (⟨answer, s.recordedCalls, s.log⟩, s)

end Session
end Envelope
