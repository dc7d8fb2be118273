/-!
# Programs with effects

A program either is done or asks its surroundings for something and goes on
with the answer.  Programs are finite trees, so that every run ends; what the
surroundings do is left open and given later by an interpretation.
-/

namespace Envelope

/-- What a program may ask for, and the type of each answer. -/
structure Signature where
  Request : Type
  Answer : Request → Type

/-- A program that asks for the requests of `S` and ends with a value of `α`. -/
inductive Program (S : Signature) (α : Type) : Type where
  | done (value : α)
  | ask (request : S.Request) (next : S.Answer request → Program S α)

namespace Program

variable {S T : Signature} {α β : Type}

/-- Goes on with the value at which a program ends. -/
protected def bind : Program S α → (α → Program S β) → Program S β
  | done value, f => f value
  | ask request next, f => ask request fun answer => (next answer).bind f

instance : Monad (Program S) where
  pure := done
  bind := Program.bind

/-- The program that asks once and ends with the answer. -/
def request (r : S.Request) : Program S (S.Answer r) :=
  ask r done

/-- Runs a program in a monad that can answer its requests. -/
def interpret {m : Type → Type} [Monad m] (answer : (r : S.Request) → m (S.Answer r)) :
    Program S α → m α
  | done value => pure value
  | ask r next => do
    let a ← answer r
    (next a).interpret answer

@[simp] theorem pure_eq_done (a : α) : (pure a : Program S α) = done a := rfl

@[simp] theorem done_bind (a : α) (f : α → Program S β) : (done a >>= f) = f a := rfl

@[simp] theorem ask_bind (r : S.Request) (next : S.Answer r → Program S α)
    (f : α → Program S β) : (ask r next >>= f) = ask r fun a => next a >>= f := rfl

@[simp] theorem bind_done (p : Program S α) : p >>= done = p := by
  induction p with
  | done a => rfl
  | ask r next ih => simp only [ask_bind, ih]

theorem bind_bind {γ : Type} (p : Program S α) (f : α → Program S β) (g : β → Program S γ) :
    p >>= f >>= g = p >>= fun a => f a >>= g := by
  induction p with
  | done a => rfl
  | ask r next ih => simp only [ask_bind, ih]

instance : LawfulMonad (Program S) :=
  LawfulMonad.mk' (Program S) bind_done (fun _ _ => rfl) bind_bind

theorem interpret_bind {m : Type → Type} [Monad m] [LawfulMonad m]
    (answer : (r : S.Request) → m (S.Answer r)) (p : Program S α) (f : α → Program S β) :
    (p >>= f).interpret answer = p.interpret answer >>= fun a => (f a).interpret answer := by
  induction p with
  | done a => exact (pure_bind a fun a => (f a).interpret answer).symm
  | ask r next ih =>
    rw [ask_bind, interpret, interpret, bind_assoc]
    exact bind_congr ih

theorem interpret_map {m : Type → Type} [Monad m] [LawfulMonad m]
    (answer : (r : S.Request) → m (S.Answer r)) (f : α → β) (p : Program S α) :
    (f <$> p).interpret answer = f <$> p.interpret answer := by
  induction p with
  | done a => exact (map_pure f a).symm
  | ask r next ih =>
    have hnext : (f <$> ask r next : Program S β) = ask r fun a => f <$> next a := rfl
    rw [hnext, interpret, interpret, map_bind]
    exact bind_congr fun a => ih a

end Program
end Envelope
