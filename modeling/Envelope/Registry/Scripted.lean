import Envelope.Registry.Call

/-!
# Scripted registries

A registry in front of another one that records every call and may answer
calls in its place.  Each kind of call has a queue of replies; the first reply
is used up by the next call of its kind, and an empty queue lets calls through.
-/

namespace Envelope

/-- What a script does with a call. -/
inductive Reply (α : Type) where
  /-- Lets the call through. -/
  | passOn
  | refuse (error : RegistryError)
  | give (record : α)

/-- The queues of replies to calls of each kind. -/
structure Script where
  getKek : List (Reply Kek)
  registerKek : List (Reply Kek)
  getDek : List (Reply Dek)
  registerDek : List (Reply Dek)

namespace Script

/-- The script that lets all calls through. -/
def empty : Script := ⟨[], [], [], []⟩

/-- The first reply to a call, and the script without it. -/
def next (script : Script) : (call : Registry.Call) → Reply call.Result × Script
  | .getKek _ _ =>
    (script.getKek.headD .passOn, { script with getKek := script.getKek.drop 1 })
  | .registerKek _ =>
    (script.registerKek.headD .passOn, { script with registerKek := script.registerKek.drop 1 })
  | .getDek _ _ =>
    (script.getDek.headD .passOn, { script with getDek := script.getDek.drop 1 })
  | .registerDek _ _ =>
    (script.registerDek.headD .passOn, { script with registerDek := script.registerDek.drop 1 })

end Script

/-- A registry behind a script. -/
structure Scripted (ρ : Type) where
  inner : ρ
  script : Script
  /-- The calls so far, the first one first. -/
  calls : List Registry.Call

namespace Scripted

/-- A registry behind an empty script. -/
def ofRegistry {ρ : Type} (inner : ρ) : Scripted ρ :=
  ⟨inner, .empty, []⟩

/-- Records a call and answers it by the script or by the registry behind it. -/
def answer {ρ : Type} [Registry ρ] (call : Registry.Call) (now : Int64) (state : Scripted ρ) :
    Draw (call.Answer × Scripted ρ) := do
  let (reply, script) := state.script.next call
  let state := { state with script := script, calls := state.calls ++ [call] }
  match reply with
  | .refuse error => return (.error error, state)
  | .give record => return (.ok record, state)
  | .passOn =>
    let (result, inner) ← Registry.answer call now state.inner
    return (result, { state with inner := inner })

instance {ρ : Type} [Registry ρ] : Registry (Scripted ρ) := ⟨answer⟩

end Scripted
end Envelope
