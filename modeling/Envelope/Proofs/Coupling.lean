import Envelope.Proofs.Serial

/-!
# Two programs side by side

Two programs, each run in a state of its own, are coupled (`Program.Coupled`)
if related states make them come to related results and leave related states.
Of programs that may fail it is asked that both fail with the same error or
none does (`Program.Matched`).  There is one rule for each way in which a
program is put together.  A program that asks only for what related states
answer alike is matched with itself (`Program.matched_of_quiet`).
-/

namespace Envelope
namespace Program

variable {S : Signature} {ω α β ε ε' : Type} {answer : (r : S.Request) → StateM ω (S.Answer r)}
  {E P P' : ω → ω → Prop}

/-- Programs that are started in states related by `P` come to results, and
leave states, that are related by `Q`. -/
def Coupled (answer : (r : S.Request) → StateM ω (S.Answer r)) (P : ω → ω → Prop)
    (p p' : Program S α) (Q : α → α → ω → ω → Prop) : Prop :=
  ∀ w w', P w w' →
    Q ((p.interpret answer).run w).1 ((p'.interpret answer).run w').1
      ((p.interpret answer).run w).2 ((p'.interpret answer).run w').2

/-- Two results that are the same failure, in states related by `E`, or two
values, related by `Q` together with the states. -/
inductive Outcomes (E : ω → ω → Prop) (Q : α → α → ω → ω → Prop) :
    Except ε α → Except ε α → ω → ω → Prop where
  | failed (e : ε) {w w' : ω} (h : E w w') : Outcomes E Q (.error e) (.error e) w w'
  | done {a a' : α} {w w' : ω} (h : Q a a' w w') : Outcomes E Q (.ok a) (.ok a') w w'

/-- Programs that may fail are coupled by the relation that their results are
the same failure or two related values. -/
def Matched (answer : (r : S.Request) → StateM ω (S.Answer r)) (P : ω → ω → Prop)
    (x x' : ExceptT ε (Program S) α) (E : ω → ω → Prop) (Q : α → α → ω → ω → Prop) : Prop :=
  Coupled answer P x.run x'.run (Outcomes E Q)

/-- The same value, in related states. -/
def Same (P : ω → ω → Prop) (a a' : α) (w w' : ω) : Prop :=
  a' = a ∧ P w w'

variable {p p' : Program S α} {f f' : α → Program S β} {Q R : α → α → ω → ω → Prop}
  {Q' : β → β → ω → ω → Prop} {x x' : ExceptT ε (Program S) α}
  {g g' : α → ExceptT ε (Program S) β}

/-! ## Programs -/

theorem coupled_done {a a' : α} (h : ∀ w w', P w w' → Q a a' w w') :
    Coupled answer P (done a) (done a') Q :=
  h

theorem Coupled.bind (h : Coupled answer P p p' Q)
    (hf : ∀ a a', Coupled answer (Q a a') (f a) (f' a') Q') :
    Coupled answer P (p >>= f) (p' >>= f') Q' := by
  intro w w' hw
  rw [interpret_bind, interpret_bind]
  exact hf _ _ _ _ (h w w' hw)

theorem Coupled.mono (h : Coupled answer P p p' Q) (hP : ∀ w w', P' w w' → P w w')
    (hQ : ∀ a a' w w', Q a a' w w' → R a a' w w') : Coupled answer P' p p' R :=
  fun w w' hw => hQ _ _ _ _ (h w w' (hP w w' hw))

/-- A program is coupled with itself by sameness if related states give the same
answer to every request that it may come to. -/
theorem coupled_of_quiet {quiet : S.Request → Prop}
    (hanswer : ∀ r, quiet r → ∀ w w', P w w' →
      Same P ((answer r).run w).1 ((answer r).run w').1 ((answer r).run w).2
        ((answer r).run w').2)
    (hquiet : ∀ t a, Runs p t a → ∀ y ∈ t, quiet y.1) : Coupled answer P p p (Same P) := by
  induction p with
  | done a => exact fun w w' hw => ⟨rfl, hw⟩
  | ask r next ih =>
    intro w w' hw
    obtain ⟨t, hruns, -⟩ :=
      exists_serial answer (next ((answer r).run w).1) ((answer r).run w).2
    have hr : quiet r := hquiet _ _ (.ask _ hruns) _ List.mem_cons_self
    obtain ⟨hsame, hrelated⟩ := hanswer r hr w w' hw
    have hnext : Coupled answer P (next ((answer r).run w).1) (next ((answer r).run w).1)
        (Same P) := by
      apply ih
      intro t a hruns y hy
      exact hquiet _ _ (.ask _ hruns) y (List.mem_cons_of_mem _ hy)
    show Same P (((next ((answer r).run w).1).interpret answer).run ((answer r).run w).2).1
      (((next ((answer r).run w').1).interpret answer).run ((answer r).run w').2).1
      (((next ((answer r).run w).1).interpret answer).run ((answer r).run w).2).2
      (((next ((answer r).run w').1).interpret answer).run ((answer r).run w').2).2
    rw [hsame]
    exact hnext _ _ hrelated

/-! ## Programs that may fail -/

theorem matched_pure {a a' : α} (h : ∀ w w', P w w' → Q a a' w w') :
    Matched answer P (pure a : ExceptT ε (Program S) α) (pure a') E Q :=
  fun w w' hw => .done (h w w' hw)

theorem matched_throw {e : ε} (h : ∀ w w', P w w' → E w w') :
    Matched answer P (throw e : ExceptT ε (Program S) α) (throw e) E Q :=
  fun w w' hw => .failed e (h w w' hw)

theorem matched_lift (h : Coupled answer P p p' Q) :
    Matched answer P (liftM p : ExceptT ε (Program S) α) (liftM p') E Q := by
  show Coupled answer P (Except.ok <$> p) (Except.ok <$> p') _
  rw [map_eq_pure_bind, map_eq_pure_bind]
  exact h.bind fun a a' => coupled_done fun w w' hw => .done hw

theorem Matched.bind (h : Matched answer P x x' E Q)
    (hg : ∀ a a', Matched answer (Q a a') (g a) (g' a') E Q') :
    Matched answer P (x >>= g) (x' >>= g') E Q' := by
  unfold Matched
  rw [ExceptT.run_bind, ExceptT.run_bind]
  refine Coupled.bind h fun r r' w w' hr => ?_
  cases hr with
  | failed e hw => exact .failed e hw
  | done ha => exact hg _ _ w w' ha

theorem Matched.adapt (h : Matched answer P x x' E Q) (cause : ε → ε') :
    Matched answer P (x.adapt cause) (x'.adapt cause) E Q := by
  show Coupled answer P (Except.mapError cause <$> x.run) (Except.mapError cause <$> x'.run) _
  rw [map_eq_pure_bind, map_eq_pure_bind]
  refine Coupled.bind h fun r r' => coupled_done fun w w' hr => ?_
  cases hr with
  | failed e hw => exact .failed (cause e) hw
  | done ha => exact .done ha

theorem Matched.tryCatch {handler handler' : ε → ExceptT ε (Program S) α}
    (h : Matched answer P x x' P' Q)
    (hhandler : ∀ e, Matched answer P' (handler e) (handler' e) E Q) :
    Matched answer P (tryCatch x handler) (tryCatch x' handler') E Q := by
  show Coupled answer P (x.run >>= _) (x'.run >>= _) _
  refine Coupled.bind h fun r r' w w' hr => ?_
  cases hr with
  | failed e hw => exact hhandler e w w' hw
  | done ha => exact .done ha

theorem Matched.mono (h : Matched answer P x x' E Q) (hP : ∀ w w', P' w w' → P w w')
    (hQ : ∀ a a' w w', Q a a' w w' → R a a' w w') : Matched answer P' x x' E R := by
  refine Coupled.mono h hP fun r r' w w' hr => ?_
  cases hr with
  | failed e hw => exact .failed e hw
  | done ha => exact .done (hQ _ _ _ _ ha)

/-- A value that was come to is the end of a trace. -/
theorem Matched.comesTo (h : Matched answer P x x' E Q) :
    Matched answer P x x' E fun a a' w w' => (∃ t, ComesTo x t (.ok a)) ∧ Q a a' w w' := by
  intro w w' hw
  obtain ⟨t, hruns⟩ := exists_runs answer x.run w
  have hends := h w w' hw
  generalize ((x.run.interpret answer).run w).1 = r, ((x'.run.interpret answer).run w').1 = r',
    ((x.run.interpret answer).run w).2 = u, ((x'.run.interpret answer).run w').2 = u'
    at hruns hends ⊢
  cases hends with
  | failed e hw => exact .failed e hw
  | done ha => exact .done ⟨⟨t, hruns⟩, ha⟩

/-- What follows a result that is the same on both sides. -/
theorem Matched.bind_same (h : Matched answer P x x' E (Same P'))
    (hg : ∀ a, Matched answer P' (g a) (g' a) E Q') :
    Matched answer P (x >>= g) (x' >>= g') E Q' := by
  refine h.bind fun a a' w w' ha => ?_
  obtain ⟨rfl, hw⟩ := ha
  exact hg _ w w' hw

theorem matched_except {r : Except ε α} (hE : ∀ w w', P w w' → E w w') :
    Matched answer P (liftM r : ExceptT ε (Program S) α) (liftM r) E (Same P) := by
  cases r with
  | error e => exact matched_throw hE
  | ok a => exact matched_pure fun w w' hw => ⟨rfl, hw⟩

/-- A program that asks only for what related states answer alike is matched
with itself. -/
theorem matched_of_quiet {quiet : S.Request → Prop}
    (hanswer : ∀ r, quiet r → ∀ w w', P w w' →
      Same P ((answer r).run w).1 ((answer r).run w').1 ((answer r).run w).2
        ((answer r).run w').2)
    (hE : ∀ w w', P w w' → E w w') (hquiet : ∀ t r, ComesTo x t r → ∀ y ∈ t, quiet y.1) :
    Matched answer P x x E (Same P) := by
  intro w w' hw
  obtain ⟨hsame, hrelated⟩ := coupled_of_quiet hanswer hquiet w w' hw
  rw [hsame]
  cases ((x.run.interpret answer).run w).1 with
  | error e => exact .failed e (hE _ _ hrelated)
  | ok a => exact .done ⟨rfl, hrelated⟩

end Program
end Envelope
