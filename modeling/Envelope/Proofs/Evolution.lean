import Envelope.Proofs.Footprint

/-!
# The history of a deployment

A deployment evolves by steps of some kind, and by requests for handles of
master keys that come from outside its executors.  Where no data key is
registered past the executors, its files change only in the course of a
transformed value, and this change is known (`transform_leaves`).
-/

namespace Envelope

open Program Engine

namespace Deployment

variable {ι σ : Type}

/-- Asks for a handle of a master key past all executors. -/
def askHandle (d : Deployment ι σ) (config : Properties) (url : String) : Deployment ι σ :=
  { d with world := ((World.keyHandle config url).run d.world).2 }

/-- A step registers no data key past the executors. -/
def Step.Indirect : Step ι σ → Prop
  | .call (.registerDek _ _) => False
  | _ => True

theorem Step.indirect_iff {s : Step ι σ} :
    s.Indirect ↔ ∀ kekName request, s ≠ .call (.registerDek kekName request) := by
  constructor
  · rintro h kekName request rfl
    exact h
  · intro h
    cases s with
    | call c =>
      cases c with
      | registerDek kekName request => exact (h kekName request rfl).elim
      | _ => trivial
    | _ => trivial

theorem Step.Indirect.proper {s : Step ι σ} (h : s.Indirect) : s.Proper := by
  cases s with
  | call c =>
    cases c with
    | registerDek kekName request => exact h.elim
    | _ => trivial
  | _ => trivial

/-- The transformation of a value is the course of an executor, and nothing else
happens meanwhile. -/
theorem transform_serial (d : Deployment ι σ) (i : ι) (kind : ExecutorKind) (context : Context)
    (type : FieldType) (value : Option FieldValue) :
    ∃ t, (d.executors i).Transformation context (kind.declared type) value t
        (d.transform i kind context type value).1 ∧
      World.Serial d.world t (d.transform i kind context type value).2.world := by
  unfold Deployment.transform
  rw [Executor.transform_eq]
  obtain ⟨t, hruns, hserial⟩ := exists_serial (fun r : Effect => World.answer r)
    ((d.executors i).transformField context (kind.declared type) value).run d.world
  exact ⟨t, Executor.transformField_comesTo hruns, hserial⟩

/-- The transformation of a value leaves of the registry what the executor
leaves of it, in a world in which nothing else happens. -/
theorem transform_leaves (d : Deployment ι σ) (i : ι) (kind : ExecutorKind) (context : Context)
    (type : FieldType) (value : Option FieldValue) :
    ∃ t, World.Serial d.world t (d.transform i kind context type value).2.world ∧
      (d.executors i).Leaves context (kind.declared type) value t d.world.clock
        d.world.registry (d.transform i kind context type value).2.world.registry := by
  obtain ⟨t, hcourse, hserial⟩ := d.transform_serial i kind context type value
  exact ⟨t, hserial, hcourse.leaves hserial⟩

variable [DecidableEq ι]

/-- A deployment comes from another one by allowed steps and by requests for
handles. -/
inductive Evolves (allowed : Step ι σ → Prop) (d : Deployment ι σ) : Deployment ι σ → Prop where
  | start : Evolves allowed d d
  | step {d' : Deployment ι σ} (h : Evolves allowed d d') (s : Step ι σ) (hs : allowed s) :
      Evolves allowed d (d'.advance s)
  | handle {d' : Deployment ι σ} (h : Evolves allowed d d') (config : Properties) (url : String) :
      Evolves allowed d (d'.askHandle config url)

variable {allowed allowed' : Step ι σ → Prop} {d d' d₁ d₂ : Deployment ι σ} {s : Step ι σ}

theorem Evolves.trans (h : Evolves allowed d d₁) (h' : Evolves allowed d₁ d₂) :
    Evolves allowed d d₂ := by
  induction h' with
  | start => exact h
  | step h' s hs ih => exact .step ih s hs
  | handle h' config url ih => exact .handle ih config url

theorem Evolves.mono (hweaker : ∀ s, allowed s → allowed' s) (h : Evolves allowed d d') :
    Evolves allowed' d d' := by
  induction h with
  | start => exact .start
  | step h s hs ih => exact .step ih s (hweaker s hs)
  | handle h config url ih => exact .handle ih config url

/-- What every step and every request for a handle keeps, a history keeps. -/
theorem Evolves.invariant {P : Deployment ι σ → Prop}
    (hstep : ∀ d s, allowed s → P d → P (d.advance s))
    (hhandle : ∀ d config url, P d → P (d.askHandle config url)) (h : Evolves allowed d d')
    (hd : P d) : P d' := by
  induction h with
  | start => exact hd
  | step h s hs ih => exact hstep _ s hs ih
  | handle h config url ih => exact hhandle _ config url ih

/-- Files change only in the course of a transformed value. -/
theorem files_advance (d : Deployment ι σ) (hs : s.Indirect) :
    (∃ i kind context type value, s = .transform i kind context type value) ∨
      (d.advance s).world.registry.files = d.world.registry.files := by
  cases s with
  | transform i kind context type value => exact .inl ⟨i, kind, context, type, value, rfl⟩
  | configure i config =>
    refine .inr ?_
    unfold advance
    dsimp only
    split
    · rfl
    · rfl
  | call c =>
    refine .inr ?_
    cases c with
    | getKek name deleted => rfl
    | getDek id deleted => rfl
    | registerDek kekName request => exact hs.elim
    | registerKek request =>
      exact Store.files_registerKek
  | softDeleteKek name => exact .inr Store.files_softDeleteKek
  | registerDriver driver => exact .inr rfl
  | setClock clock engineClock => exact .inr rfl
  | setSystems systems => exact .inr rfl

/-- The clock stands still but where it is set. -/
theorem clock_advance (d : Deployment ι σ)
    (hs : ∀ clock engineClock, s ≠ .setClock clock engineClock) :
    (d.advance s).world.clock = d.world.clock ∧
      (d.advance s).world.engineClock = d.world.engineClock := by
  cases s with
  | transform i kind context type value =>
    obtain ⟨t, hserial, -⟩ := d.transform_leaves i kind context type value
    exact hserial.clock
  | configure i config =>
    unfold advance
    dsimp only
    split
    · exact ⟨rfl, rfl⟩
    · exact ⟨rfl, rfl⟩
  | setClock clock engineClock => exact absurd rfl (hs clock engineClock)
  | call c => exact ⟨rfl, rfl⟩
  | softDeleteKek name => exact ⟨rfl, rfl⟩
  | registerDriver driver => exact ⟨rfl, rfl⟩
  | setSystems systems => exact ⟨rfl, rfl⟩

end Deployment
end Envelope
