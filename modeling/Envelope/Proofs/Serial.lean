import Envelope.Proofs.Backing
import Envelope.Proofs.Conversation
import Envelope.Proofs.Service

/-!
# Running alone

A program that runs alone is answered by one state of its surroundings after
the other, and nothing happens in between.  For a world this means that its
clock stands still, and that what becomes of its registry can be read off the
calls and their answers (`Store.Answers`).
-/

namespace Envelope

open Program Engine

namespace Program

variable {S : Signature} {α ω : Type}

/-- The surroundings answered the exchanges of a trace on their way from one
state to another, and nothing else happened to them. -/
inductive Serial (answer : (r : S.Request) → StateM ω (S.Answer r)) :
    ω → List (Exchange S) → ω → Prop where
  | nil (w : ω) : Serial answer w [] w
  | cons {w w' : ω} {r : S.Request} {t : List (Exchange S)}
      (rest : Serial answer ((answer r).run w).2 t w') :
      Serial answer w (⟨r, ((answer r).run w).1⟩ :: t) w'

variable {answer : (r : S.Request) → StateM ω (S.Answer r)} {P : ω → Prop} {w w' : ω}
  {t : List (Exchange S)}

theorem Serial.nil_eq (h : Serial answer w [] w') : w' = w := by
  cases h with
  | nil w => rfl

/-- The first exchange of a run was answered by the state at its start. -/
theorem Serial.first {r : S.Request} {x : S.Answer r} (h : Serial answer w (⟨r, x⟩ :: t) w') :
    x = ((answer r).run w).1 ∧ Serial answer ((answer r).run w).2 t w' := by
  cases h with
  | cons rest => exact ⟨rfl, rest⟩

theorem Serial.split {t' : List (Exchange S)} (h : Serial answer w (t ++ t') w') :
    ∃ u, Serial answer w t u ∧ Serial answer u t' w' := by
  induction t generalizing w with
  | nil => exact ⟨w, .nil w, h⟩
  | cons x t ih =>
    obtain ⟨r, answered⟩ := x
    obtain ⟨rfl, hrest⟩ := h.first
    obtain ⟨u, hleft, hright⟩ := ih hrest
    exact ⟨u, .cons hleft, hright⟩

/-- What every answer keeps, a run keeps. -/
theorem Serial.invariant (hstep : ∀ r u, P u → P ((answer r).run u).2)
    (h : Serial answer w t w') (hw : P w) : P w' := by
  induction h with
  | nil w => exact hw
  | cons rest ih => exact ih (hstep _ _ hw)

/-- Every exchange was answered by a state on the way. -/
theorem Serial.answered (h : Serial answer w t w') {x : Exchange S} (hx : x ∈ t) :
    ∃ u t₁ t₂, Serial answer w t₁ u ∧ x.2 = ((answer x.1).run u).1 ∧
      Serial answer ((answer x.1).run u).2 t₂ w' := by
  induction h with
  | nil w => cases hx
  | @cons w w' r t rest ih =>
    rcases List.mem_cons.mp hx with rfl | hx
    · exact ⟨w, [], t, .nil w, rfl, rest⟩
    · obtain ⟨u, t₁, t₂, hbefore, hanswer, hafter⟩ := ih hx
      exact ⟨u, _, t₂, .cons hbefore, hanswer, hafter⟩

theorem exists_serial (answer : (r : S.Request) → StateM ω (S.Answer r)) (p : Program S α)
    (w : ω) :
    ∃ t, Runs p t ((p.interpret answer).run w).1 ∧
      Serial answer w t ((p.interpret answer).run w).2 := by
  induction p generalizing w with
  | done a => exact ⟨[], .start _, .nil w⟩
  | ask r next ih =>
    obtain ⟨t, hruns, hserial⟩ := ih ((answer r).run w).1 ((answer r).run w).2
    exact ⟨⟨r, _⟩ :: t, .ask _ hruns, .cons hserial⟩

end Program

/-! ## The registry of a program that runs alone -/

namespace Store

/-- A store answered calls one after the other at a standing clock, and nothing
else happened to it. -/
inductive Answers (now : Int64) : Store → List Answered → Store → Prop where
  | nil (s : Store) : Answers now s [] s
  | cons {s s₁ s' : Store} {c : Registry.Call} {x : c.Answer}
      {draws : List (Exchange Draw.signature)} {calls : List Answered}
      (h : Runs (Store.answer c now s) draws (x, s₁)) (rest : Answers now s₁ calls s') :
      Answers now s (⟨c, x⟩ :: calls) s'

variable {now : Int64} {s s' : Store} {calls calls' : List Answered}

theorem Answers.nil_eq (h : Answers now s [] s') : s' = s := by
  cases h with
  | nil s => rfl

theorem Answers.split (h : Answers now s (calls ++ calls') s') :
    ∃ s₁, Answers now s calls s₁ ∧ Answers now s₁ calls' s' := by
  induction calls generalizing s with
  | nil => exact ⟨s, .nil s, h⟩
  | cons x calls ih =>
    cases h with
    | cons h rest =>
      obtain ⟨s₁, hleft, hright⟩ := ih rest
      exact ⟨s₁, .cons h hleft, hright⟩

theorem Answers.getKek {name : String} {deleted : Bool} {x : Except RegistryError Kek}
    (h : Answers now s (⟨.getKek name deleted, x⟩ :: calls) s') :
    x = s.getKek name deleted ∧ Answers now s calls s' := by
  cases h with
  | cons h rest =>
    obtain ⟨-, hx⟩ := runs_done_iff.mp h
    obtain ⟨rfl, rfl⟩ := Prod.mk.inj hx
    exact ⟨rfl, rest⟩

theorem Answers.registerKek {request : KekRequest} {x : Except RegistryError Kek}
    (h : Answers now s (⟨.registerKek request, x⟩ :: calls) s') :
    x = (s.registerKek request now).1 ∧ Answers now (s.registerKek request now).2 calls s' := by
  cases h with
  | cons h rest =>
    obtain ⟨-, hx⟩ := runs_done_iff.mp h
    rw [← hx]
    exact ⟨rfl, rest⟩

theorem Answers.getDek {id : DekId} {deleted : Bool} {x : Except RegistryError Dek}
    (h : Answers now s (⟨.getDek id deleted, x⟩ :: calls) s') :
    x = s.getDek id deleted ∧ Answers now s calls s' := by
  cases h with
  | cons h rest =>
    obtain ⟨-, hx⟩ := runs_done_iff.mp h
    obtain ⟨rfl, rfl⟩ := Prod.mk.inj hx
    exact ⟨rfl, rest⟩

theorem Answers.registerDek {kekName : String} {request : DekRequest}
    {x : Except RegistryError Dek}
    (h : Answers now s (⟨.registerDek kekName request, x⟩ :: calls) s') :
    ∃ s₁, s.DekOutcome kekName request now x s₁ ∧ Answers now s₁ calls s' := by
  cases h with
  | cons h rest => exact ⟨_, registerDek_runs h, rest⟩

end Store

/-! ## Worlds in which a program runs alone -/

namespace World

variable {σ : Type} {w w' : World Store σ} {t : Trace} {config : Properties} {url : String}
  {handle : Kms.Handle}

/-- A world answered a trace, and nothing else happened to it. -/
abbrev Serial (w : World Store σ) (t : Trace) (w' : World Store σ) : Prop :=
  Program.Serial (fun r : Effect => World.answer r) w t w'

theorem clock_answer (w : World Store σ) (r : Effect) :
    ((answer r).run w).2.clock = w.clock ∧ ((answer r).run w).2.engineClock = w.engineClock := by
  cases r <;> exact ⟨rfl, rfl⟩

theorem Serial.clock (h : Serial w t w') :
    w'.clock = w.clock ∧ w'.engineClock = w.engineClock := by
  refine Program.Serial.invariant
    (P := fun u => u.clock = w.clock ∧ u.engineClock = w.engineClock) (fun r u hu => ?_) h
    ⟨rfl, rfl⟩
  obtain ⟨hclock, hengine⟩ := clock_answer u r
  exact ⟨hclock.trans hu.1, hengine.trans hu.2⟩

/-- Every reading of the clock gives the same time. -/
theorem Serial.now_eq {now : Int64} (h : Serial w t w') (hmem : clocked now ∈ t) :
    now = w.now := by
  obtain ⟨u, t₁, t₂, hbefore, hanswer, -⟩ := h.answered hmem
  obtain ⟨hclock, hengine⟩ := Serial.clock hbefore
  have hnow : now = u.now := hanswer
  rw [hnow, World.now, World.now, hclock, hengine]

theorem Serial.extends (h : Serial w t w') : World.Extends w w' :=
  Program.Serial.invariant (P := World.Extends w)
    (fun r u hu => hu.trans (extends_answer u r)) h (.refl w)

theorem Serial.backs (h : Serial w t w') : w'.Backs t := by
  intro x hx
  obtain ⟨u, t₁, t₂, -, hanswer, hafter⟩ := h.answered hx
  exact ⟨u, hanswer, Serial.extends hafter⟩

theorem sound_answer (h : w.directory.Sound) (r : Effect) :
    ((answer r).run w).2.directory.Sound := by
  cases r with
  | keyHandle config url => exact h.handle
  | registry c => exact h
  | clock => exact h
  | random n => exact h
  | log event => exact h

/-- Every handle that a sound directory handed out unwraps what it has
wrapped. -/
theorem Serial.inverts (h : Serial w t w') (hsound : w.directory.Sound)
    (hmem : handed config url (.ok handle) ∈ t) : handle.Inverts := by
  obtain ⟨u, t₁, t₂, hbefore, hanswer, -⟩ := h.answered hmem
  have hu : u.directory.Sound := Program.Serial.invariant
    (P := fun v : World Store σ => v.directory.Sound) (fun r v hv => sound_answer hv r) hbefore
    hsound
  exact hu.inverts hanswer.symm

/-- What became of the registry follows from its calls and their answers. -/
theorem Serial.registry (h : Serial w t w') :
    Store.Answers w.clock w.registry (registryCalls t) w'.registry := by
  induction h with
  | nil w => exact .nil w.registry
  | @cons w w' r t rest ih =>
    cases r with
    | registry c =>
      obtain ⟨draws, hruns⟩ := exists_runs RandomSource.answer
        (Store.answer c w.clock w.registry) w.random
      exact .cons hruns ih
    | clock => exact ih
    | random n => exact ih
    | keyHandle config url => exact ih
    | log event => exact ih

end World
end Envelope
