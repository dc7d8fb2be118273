import Envelope.Effect
import Envelope.Kms.Directory

/-!
# Running the engine

A world is everything that surrounds the engine: a key registry, the drivers
and clients of key management systems, a clock, a source of random bytes, and
the log so far.  It answers every request of the engine, and so runs its
programs.
-/

namespace Envelope

/-- The surroundings of the engine; `ρ` are the states of its registry and `σ`
those of the systems behind its drivers. -/
structure World (ρ σ : Type) where
  registry : ρ
  directory : Kms.Directory σ
  systems : σ
  /-- The time by which the registry stamps its records. -/
  clock : Int64
  /-- The time that the engine reads, if it is not that of the registry. -/
  engineClock : Option Int64
  random : RandomSource
  /-- The events so far, the first one first. -/
  log : List Event

namespace World

variable {ρ σ : Type}

/-- The time that the engine reads. -/
def now (w : World ρ σ) : Int64 :=
  w.engineClock.getD w.clock

/-- Calls the registry. -/
def call [Registry ρ] (c : Registry.Call) : StateM (World ρ σ) c.Answer := fun w =>
  let ((answer, registry), random) :=
    (RandomSource.run (Registry.answer c w.clock w.registry)).run w.random
  (answer, { w with registry := registry, random := random })

/-- Obtains a handle of a master key. -/
def keyHandle (config : Properties) (url : String) :
    StateM (World ρ σ) (Except Kms.Error Kms.Handle) := fun w =>
  let attempt := w.directory.handle config url w.systems
  (attempt.outcome,
    { w with
      directory := attempt.directory
      systems := attempt.systems
      log := w.log ++ attempt.events })

/-- Draws random bytes. -/
def draw {α : Type} (d : Draw α) : StateM (World ρ σ) α := fun w =>
  let (value, random) := (RandomSource.run d).run w.random
  (value, { w with random := random })

/-- Adds an event to the log. -/
def record (event : Event) : StateM (World ρ σ) Unit := fun w =>
  ((), { w with log := w.log ++ [event] })

/-- Answers a request of the engine. -/
def answer [Registry ρ] : (request : Effect) → StateM (World ρ σ) request.Answer
  | .registry c => call c
  | .clock => fun w => (w.now, w)
  | .random n => draw (Draw.fresh n)
  | .keyHandle config url => keyHandle config url
  | .log event => record event

/-- Runs a program of the engine. -/
def run [Registry ρ] {α : Type} (program : Engine α) : StateM (World ρ σ) α :=
  program.interpret answer

/-- Registers a driver. -/
def registerDriver (driver : Kms.Driver σ) : StateM (World ρ σ) Unit := fun w =>
  ((), { w with
    directory := w.directory.register driver
    log := w.log ++ [.driverRegistered driver.urlPrefix] })

end World
end Envelope
