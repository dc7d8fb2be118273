import Envelope.Program
import Envelope.Random

/-!
# Traces of programs

A program is run by answering its requests one after the other.  What has been
asked and answered is a trace; nothing is assumed of the answers, so that a
statement about all traces of a program holds whoever answers it.

A program that may fail comes to a result.  Its traces are taken apart at each
step of the program by the lemmas `comesTo_*`.
-/

namespace Envelope

/-! ## Results -/

theorem exists_of_bind_eq_ok {ε α β : Type} {x : Except ε α} {f : α → Except ε β} {b : β}
    (h : x >>= f = .ok b) : ∃ a, x = .ok a ∧ f a = .ok b := by
  cases x with
  | error e => cases h
  | ok a => exact ⟨a, rfl, h⟩

theorem bind_eq_ok_iff {ε α β : Type} {x : Except ε α} {f : α → Except ε β} {b : β} :
    x >>= f = .ok b ↔ ∃ a, x = .ok a ∧ f a = .ok b := by
  constructor
  · exact exists_of_bind_eq_ok
  · rintro ⟨a, rfl, h⟩
    exact h

/-- A check lets through what does not meet its condition. -/
theorem check_eq_ok_iff {ε α : Type} {p : Prop} [Decidable p] {cause : ε}
    {next : Unit → Except ε α} {a : α} :
    (if p then throw cause >>= next else next ()) = .ok a ↔ ¬ p ∧ next () = .ok a := by
  by_cases hp : p
  · rw [if_pos hp]
    exact iff_of_false (fun h => nomatch h) fun h => h.1 hp
  · rw [if_neg hp]
    exact (and_iff_right hp).symm

theorem lastCheck_eq_ok_iff {ε : Type} {p : Prop} [Decidable p] {cause : ε} :
    (if p then throw cause else pure () : Except ε Unit) = .ok () ↔ ¬ p := by
  by_cases hp : p
  · rw [if_pos hp]
    exact iff_of_false (fun h => nomatch h) fun h => h hp
  · rw [if_neg hp]
    exact iff_of_true rfl hp

namespace Program

variable {S : Signature} {α β ε ε' : Type}

/-- A request together with an answer to it. -/
abbrev Exchange (S : Signature) : Type :=
  (r : S.Request) × S.Answer r

/-- After the exchanges of a trace, the second program is left of the first. -/
inductive After : Program S α → List (Exchange S) → Program S α → Prop where
  | start (p : Program S α) : After p [] p
  | ask {r : S.Request} {next : S.Answer r → Program S α} {t : List (Exchange S)}
      {q : Program S α} (x : S.Answer r) (rest : After (next x) t q) :
      After (ask r next) (⟨r, x⟩ :: t) q

/-- The exchanges of a trace bring a program to its end. -/
def Runs (p : Program S α) (t : List (Exchange S)) (a : α) : Prop :=
  After p t (done a)

/-- The exchanges of a trace bring a program that may fail to a result. -/
def ComesTo (p : ExceptT ε (Program S) α) (t : List (Exchange S)) (r : Except ε α) : Prop :=
  Runs p.run t r

theorem After.append {p q s : Program S α} {t u : List (Exchange S)}
    (h : After p t q) (h' : After q u s) : After p (t ++ u) s := by
  induction h with
  | start p => exact h'
  | ask x rest ih => exact .ask x (ih h')

/-- The next exchange goes to the end of the trace. -/
theorem After.next {p : Program S α} {r : S.Request} {next : S.Answer r → Program S α}
    {t : List (Exchange S)} (h : After p t (.ask r next)) (x : S.Answer r) :
    After p (t ++ [⟨r, x⟩]) (next x) :=
  h.append (.ask x (.start _))

theorem runs_done_iff {a b : α} {t : List (Exchange S)} :
    Runs (done a : Program S α) t b ↔ t = [] ∧ b = a := by
  constructor
  · intro h
    cases h with
    | start => exact ⟨rfl, rfl⟩
  · rintro ⟨rfl, rfl⟩
    exact .start _

theorem runs_ask_iff {r : S.Request} {next : S.Answer r → Program S α}
    {t : List (Exchange S)} {a : α} :
    Runs (ask r next) t a ↔ ∃ x u, t = ⟨r, x⟩ :: u ∧ Runs (next x) u a := by
  constructor
  · intro h
    cases h with
    | ask x rest => exact ⟨x, _, rfl, rest⟩
  · rintro ⟨x, u, rfl, rest⟩
    exact .ask x rest

theorem runs_request_iff {r : S.Request} {t : List (Exchange S)} {x : S.Answer r} :
    Runs (request r) t x ↔ t = [⟨r, x⟩] := by
  simp only [request, runs_ask_iff, runs_done_iff]
  constructor
  · rintro ⟨y, u, rfl, rfl, rfl⟩
    rfl
  · rintro rfl
    exact ⟨x, [], rfl, rfl, rfl⟩

/-- A trace of one program followed by another splits where the first ends. -/
theorem runs_bind_iff {p : Program S α} {f : α → Program S β} {t : List (Exchange S)} {b : β} :
    Runs (p >>= f) t b ↔ ∃ t₁ t₂ a, Runs p t₁ a ∧ Runs (f a) t₂ b ∧ t = t₁ ++ t₂ := by
  induction p generalizing t with
  | done a =>
    rw [done_bind]
    constructor
    · intro h
      exact ⟨[], t, a, runs_done_iff.mpr ⟨rfl, rfl⟩, h, rfl⟩
    · rintro ⟨t₁, t₂, a', h, h', rfl⟩
      obtain ⟨rfl, rfl⟩ := runs_done_iff.mp h
      exact h'
  | ask r next ih =>
    rw [ask_bind, runs_ask_iff]
    constructor
    · rintro ⟨x, u, rfl, h⟩
      obtain ⟨t₁, t₂, a, h₁, h₂, rfl⟩ := (ih x).mp h
      exact ⟨⟨r, x⟩ :: t₁, t₂, a, runs_ask_iff.mpr ⟨x, t₁, rfl, h₁⟩, h₂, rfl⟩
    · rintro ⟨t₁, t₂, a, h₁, h₂, rfl⟩
      obtain ⟨x, u, rfl, h⟩ := runs_ask_iff.mp h₁
      exact ⟨x, u ++ t₂, rfl, (ih x).mpr ⟨u, t₂, a, h, h₂, rfl⟩⟩

/-- The trace of a program whose requests are answered by a function. -/
def transcript (answer : (r : S.Request) → S.Answer r) : Program S α → List (Exchange S)
  | done _ => []
  | ask r next => ⟨r, answer r⟩ :: (next (answer r)).transcript answer

theorem runs_transcript (answer : (r : S.Request) → S.Answer r) (p : Program S α) :
    Runs p (p.transcript answer) (p.interpret (m := Id) answer) := by
  induction p with
  | done a => exact .start _
  | ask r next ih => exact .ask (answer r) (ih (answer r))

theorem answer_of_mem_transcript {answer : (r : S.Request) → S.Answer r} {p : Program S α}
    {x : Exchange S} (h : x ∈ p.transcript answer) : x.2 = answer x.1 := by
  induction p with
  | done a => cases h
  | ask r next ih =>
    rcases List.mem_cons.mp h with rfl | h
    · rfl
    · exact ih _ h

/-- What is left of a program can be run to its end. -/
theorem After.complete {p q : Program S α} {t : List (Exchange S)} (h : After p t q)
    (answer : (r : S.Request) → S.Answer r) :
    Runs p (t ++ q.transcript answer) (q.interpret (m := Id) answer) :=
  h.append (runs_transcript answer q)

/-! ## Programs that may fail -/

@[simp] theorem mapError_ok {f : ε → ε'} {a : α} :
    (Except.ok a : Except ε α).mapError f = .ok a := rfl

@[simp] theorem mapError_error {f : ε → ε'} {e : ε} :
    (Except.error e : Except ε α).mapError f = .error (f e) := rfl

theorem mapError_eq_ok_iff {x : Except ε α} {f : ε → ε'} {a : α} :
    x.mapError f = .ok a ↔ x = .ok a := by
  cases x with
  | error e => simp
  | ok a' => simp

theorem mapError_eq_error_iff {x : Except ε α} {f : ε → ε'} {e : ε'} :
    x.mapError f = .error e ↔ ∃ e', x = .error e' ∧ e = f e' := by
  cases x with
  | error e' => simp [eq_comm]
  | ok a => simp

theorem exists_ok_of_isOk {x : Except ε α} (h : x.isOk = true) : ∃ a, x = .ok a := by
  cases x with
  | error e => cases h
  | ok a => exact ⟨a, rfl⟩

theorem comesTo_pure {a : α} {t : List (Exchange S)} {r : Except ε α} :
    ComesTo (pure a) t r ↔ t = [] ∧ r = .ok a :=
  runs_done_iff

theorem comesTo_throw {e : ε} {t : List (Exchange S)} {r : Except ε α} :
    ComesTo (throw e) t r ↔ t = [] ∧ r = .error e :=
  runs_done_iff

theorem comesTo_except {x : Except ε α} {t : List (Exchange S)} {r : Except ε α} :
    ComesTo (liftM x) t r ↔ t = [] ∧ r = x :=
  runs_done_iff

theorem comesTo_bind {p : ExceptT ε (Program S) α} {f : α → ExceptT ε (Program S) β}
    {t : List (Exchange S)} {r : Except ε β} :
    ComesTo (p >>= f) t r ↔
      (∃ e, ComesTo p t (.error e) ∧ r = .error e) ∨
        ∃ t₁ t₂ a, ComesTo p t₁ (.ok a) ∧ ComesTo (f a) t₂ r ∧ t = t₁ ++ t₂ := by
  unfold ComesTo
  rw [ExceptT.run_bind, runs_bind_iff]
  constructor
  · rintro ⟨t₁, t₂, x, h, h', rfl⟩
    cases x with
    | error e =>
      obtain ⟨rfl, rfl⟩ := runs_done_iff.mp h'
      exact .inl ⟨e, by rwa [List.append_nil], rfl⟩
    | ok a => exact .inr ⟨t₁, t₂, a, h, h', rfl⟩
  · rintro (⟨e, h, rfl⟩ | ⟨t₁, t₂, a, h, h', rfl⟩)
    · exact ⟨t, [], .error e, h, runs_done_iff.mpr ⟨rfl, rfl⟩, (List.append_nil t).symm⟩
    · exact ⟨t₁, t₂, .ok a, h, h', rfl⟩

/-- A step that asks for nothing only changes the result. -/
theorem comesTo_bind_except {p : ExceptT ε (Program S) α} {f : α → ExceptT ε (Program S) β}
    {g : α → Except ε β} (hf : ∀ a t r, ComesTo (f a) t r ↔ t = [] ∧ r = g a)
    {t : List (Exchange S)} {r : Except ε β} :
    ComesTo (p >>= f) t r ↔ ∃ r', ComesTo p t r' ∧ r = r' >>= g := by
  rw [comesTo_bind]
  constructor
  · rintro (⟨e, h, rfl⟩ | ⟨t₁, t₂, a, h, h', rfl⟩)
    · exact ⟨.error e, h, rfl⟩
    · obtain ⟨rfl, rfl⟩ := (hf a _ _).mp h'
      exact ⟨.ok a, by rwa [List.append_nil], rfl⟩
  · rintro ⟨r', h, rfl⟩
    cases r' with
    | error e => exact .inl ⟨e, h, rfl⟩
    | ok a => exact .inr ⟨t, [], a, h, (hf a _ _).mpr ⟨rfl, rfl⟩, (List.append_nil t).symm⟩

theorem comesTo_transcript {answer : (r : S.Request) → S.Answer r}
    {p : ExceptT ε (Program S) α} {r : Except ε α}
    (h : p.run.interpret (m := Id) answer = r) : ComesTo p (p.run.transcript answer) r := by
  rw [← h]
  exact runs_transcript answer p.run

/-- A program that does not fail, within one that may. -/
theorem comesTo_lift {p : Program S α} {t : List (Exchange S)} {r : Except ε α} :
    ComesTo (liftM p) t r ↔ ∃ a, Runs p t a ∧ r = .ok a := by
  show Runs (Except.ok <$> p) t r ↔ _
  rw [map_eq_pure_bind, runs_bind_iff]
  constructor
  · rintro ⟨t₁, t₂, a, h, h', rfl⟩
    obtain ⟨rfl, rfl⟩ := runs_done_iff.mp h'
    exact ⟨a, by rwa [List.append_nil], rfl⟩
  · rintro ⟨a, h, rfl⟩
    exact ⟨t, [], a, h, runs_done_iff.mpr ⟨rfl, rfl⟩, (List.append_nil t).symm⟩

theorem comesTo_lift_bind {p : Program S α} {f : α → ExceptT ε (Program S) β}
    {t : List (Exchange S)} {r : Except ε β} :
    ComesTo (liftM p >>= f) t r ↔
      ∃ t₁ t₂ a, Runs p t₁ a ∧ ComesTo (f a) t₂ r ∧ t = t₁ ++ t₂ := by
  rw [comesTo_bind]
  constructor
  · rintro (⟨e, hfail, -⟩ | ⟨t₁, t₂, a, hdone, hrest, rfl⟩)
    · obtain ⟨a, -, hr⟩ := comesTo_lift.mp hfail
      cases hr
    · obtain ⟨a', hruns, hr⟩ := comesTo_lift.mp hdone
      obtain rfl := Except.ok.inj hr
      exact ⟨t₁, t₂, a, hruns, hrest, rfl⟩
  · rintro ⟨t₁, t₂, a, hruns, hrest, rfl⟩
    exact .inr ⟨t₁, t₂, a, comesTo_lift.mpr ⟨a, hruns, rfl⟩, hrest, rfl⟩

theorem comesTo_request_bind {q : S.Request} {f : S.Answer q → ExceptT ε (Program S) β}
    {t : List (Exchange S)} {r : Except ε β} :
    ComesTo (liftM (request q) >>= f) t r ↔ ∃ x u, t = ⟨q, x⟩ :: u ∧ ComesTo (f x) u r := by
  rw [comesTo_lift_bind]
  simp only [runs_request_iff]
  constructor
  · rintro ⟨t₁, u, x, rfl, hrest, rfl⟩
    exact ⟨x, u, rfl, hrest⟩
  · rintro ⟨x, u, rfl, hrest⟩
    exact ⟨[⟨q, x⟩], u, x, rfl, hrest, rfl⟩

theorem comesTo_except_bind {x : Except ε α} {f : α → ExceptT ε (Program S) β}
    {t : List (Exchange S)} {r : Except ε β} :
    ComesTo (liftM x >>= f) t r ↔
      (∃ e, x = .error e ∧ t = [] ∧ r = .error e) ∨ ∃ a, x = .ok a ∧ ComesTo (f a) t r := by
  rw [comesTo_bind]
  constructor
  · rintro (⟨e, hfail, rfl⟩ | ⟨t₁, t₂, a, hdone, hrest, rfl⟩)
    · obtain ⟨rfl, hx⟩ := comesTo_except.mp hfail
      exact .inl ⟨e, hx.symm, rfl, rfl⟩
    · obtain ⟨rfl, hx⟩ := comesTo_except.mp hdone
      exact .inr ⟨a, hx.symm, hrest⟩
  · rintro (⟨e, hx, rfl, rfl⟩ | ⟨a, hx, hrest⟩)
    · exact .inl ⟨e, comesTo_except.mpr ⟨rfl, hx.symm⟩, rfl⟩
    · exact .inr ⟨[], t, a, comesTo_except.mpr ⟨rfl, hx.symm⟩, hrest, rfl⟩

theorem comesTo_map {p : ExceptT ε (Program S) α} {f : α → β} {t : List (Exchange S)}
    {r : Except ε β} :
    ComesTo (f <$> p) t r ↔ ∃ r', ComesTo p t r' ∧ r = r'.map f := by
  rw [map_eq_pure_bind, comesTo_bind_except fun a t r => comesTo_pure]
  simp only [Except.map, bind, Except.bind]

theorem comesTo_adapt {p : ExceptT ε (Program S) α} {f : ε → ε'} {t : List (Exchange S)}
    {r : Except ε' α} :
    ComesTo (p.adapt f) t r ↔ ∃ r', ComesTo p t r' ∧ r = r'.mapError f := by
  show Runs (Except.mapError f <$> p.run) t r ↔ _
  rw [map_eq_pure_bind, runs_bind_iff]
  constructor
  · rintro ⟨t₁, t₂, a, h, h', rfl⟩
    obtain ⟨rfl, rfl⟩ := runs_done_iff.mp h'
    exact ⟨a, by rwa [List.append_nil], rfl⟩
  · rintro ⟨r', h, rfl⟩
    exact ⟨t, [], r', h, runs_done_iff.mpr ⟨rfl, rfl⟩, (List.append_nil t).symm⟩

theorem comesTo_adapt_bind {p : ExceptT ε (Program S) α} {g : ε → ε'}
    {f : α → ExceptT ε' (Program S) β} {t : List (Exchange S)} {r : Except ε' β} :
    ComesTo (p.adapt g >>= f) t r ↔
      (∃ e, ComesTo p t (.error e) ∧ r = .error (g e)) ∨
        ∃ t₁ t₂ a, ComesTo p t₁ (.ok a) ∧ ComesTo (f a) t₂ r ∧ t = t₁ ++ t₂ := by
  rw [comesTo_bind]
  constructor
  · rintro (⟨e, hfail, rfl⟩ | ⟨t₁, t₂, a, hdone, hrest, rfl⟩)
    · obtain ⟨r', h, hr⟩ := comesTo_adapt.mp hfail
      obtain ⟨e', rfl, rfl⟩ := mapError_eq_error_iff.mp hr.symm
      exact .inl ⟨e', h, rfl⟩
    · obtain ⟨r', h, hr⟩ := comesTo_adapt.mp hdone
      obtain rfl := mapError_eq_ok_iff.mp hr.symm
      exact .inr ⟨t₁, t₂, a, h, hrest, rfl⟩
  · rintro (⟨e, h, rfl⟩ | ⟨t₁, t₂, a, h, hrest, rfl⟩)
    · exact .inl ⟨g e, comesTo_adapt.mpr ⟨.error e, h, rfl⟩, rfl⟩
    · exact .inr ⟨t₁, t₂, a, comesTo_adapt.mpr ⟨.ok a, h, rfl⟩, hrest, rfl⟩

theorem comesTo_tryCatch {p : ExceptT ε (Program S) α} {f : ε → ExceptT ε (Program S) α}
    {t : List (Exchange S)} {r : Except ε α} :
    ComesTo (tryCatch p f) t r ↔
      (∃ a, ComesTo p t (.ok a) ∧ r = .ok a) ∨
        ∃ t₁ t₂ e, ComesTo p t₁ (.error e) ∧ ComesTo (f e) t₂ r ∧ t = t₁ ++ t₂ := by
  show Runs (p.run >>= _) t r ↔ _
  rw [runs_bind_iff]
  constructor
  · rintro ⟨t₁, t₂, x, h, h', rfl⟩
    cases x with
    | error e => exact .inr ⟨t₁, t₂, e, h, h', rfl⟩
    | ok a =>
      obtain ⟨rfl, rfl⟩ := runs_done_iff.mp h'
      exact .inl ⟨a, by rwa [List.append_nil], rfl⟩
  · rintro (⟨a, h, rfl⟩ | ⟨t₁, t₂, e, h, h', rfl⟩)
    · exact ⟨t, [], .ok a, h, runs_done_iff.mpr ⟨rfl, rfl⟩, (List.append_nil t).symm⟩
    · exact ⟨t₁, t₂, .error e, h, h', rfl⟩

end Program
end Envelope
