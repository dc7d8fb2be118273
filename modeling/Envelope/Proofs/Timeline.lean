import Envelope.Proofs.Trace

/-!
# Traces in time

A trace says what was answered.  A timeline also says when: the exchanges were
answered one after the other by states of the surroundings, each of which has
an invariant and comes after the one before.  Between two answers the
surroundings may move on by themselves, so that a timeline also describes a
program that runs beside others.
-/

namespace Envelope
namespace Program

variable {S : Signature} {α ω : Type}

/-- The surroundings answered the exchanges of a trace on their way from one
state to another.  All their states have the invariant `P` and follow one
another along `E`. -/
inductive Timeline (answer : (r : S.Request) → StateM ω (S.Answer r)) (P : ω → Prop)
    (E : ω → ω → Prop) : ω → List (Exchange S) → ω → Prop where
  | nil {w w' : ω} (hw : P w) (hw' : P w') (h : E w w') : Timeline answer P E w [] w'
  | cons {w u w' : ω} {r : S.Request} {t : List (Exchange S)} (hw : P w) (hu : P u) (h : E w u)
      (hstep : E u ((answer r).run u).2)
      (rest : Timeline answer P E ((answer r).run u).2 t w') :
      Timeline answer P E w (⟨r, ((answer r).run u).1⟩ :: t) w'

variable {answer : (r : S.Request) → StateM ω (S.Answer r)} {P : ω → Prop} {E : ω → ω → Prop}
  {w u w' : ω} {t t' : List (Exchange S)}

theorem Timeline.start (h : Timeline answer P E w t w') : P w := by
  cases h with
  | nil hw hw' h => exact hw
  | cons hw hu h hstep rest => exact hw

theorem Timeline.finish (h : Timeline answer P E w t w') : P w' := by
  induction h with
  | nil hw hw' h => exact hw'
  | cons hw hu h hstep rest ih => exact ih

/-- The surroundings also have every weaker invariant. -/
theorem Timeline.mono {Q : ω → Prop} (h : Timeline answer P E w t w') (hweaker : ∀ u, P u → Q u) :
    Timeline answer Q E w t w' := by
  induction h with
  | nil hw hw' h => exact .nil (hweaker _ hw) (hweaker _ hw') h
  | cons hw hu h hstep rest ih => exact .cons (hweaker _ hw) (hweaker _ hu) h hstep ih

/-- The surroundings move on after the last answer. -/
theorem Timeline.later (htrans : ∀ {a b c}, E a b → E b c → E a c)
    (h : Timeline answer P E w t u) (hE : E u w') (hw' : P w') : Timeline answer P E w t w' := by
  induction h with
  | nil hw hu h => exact .nil hw hw' (htrans h hE)
  | cons hw hu h hstep rest ih => exact .cons hw hu h hstep (ih hE)

/-- One more request is answered at the end. -/
theorem Timeline.next (hrefl : ∀ a, E a a) {r : S.Request} (h : Timeline answer P E w t u)
    (hstep : E u ((answer r).run u).2) (hP : P ((answer r).run u).2) :
    Timeline answer P E w (t ++ [⟨r, ((answer r).run u).1⟩]) ((answer r).run u).2 := by
  induction h with
  | nil hw hu h => exact .cons hw hu h hstep (.nil hP hP (hrefl _))
  | cons hw hu h hstep' rest ih => exact .cons hw hu h hstep' (ih hstep hP)

theorem Timeline.extends (htrans : ∀ {a b c}, E a b → E b c → E a c)
    (h : Timeline answer P E w t w') : E w w' := by
  induction h with
  | nil hw hw' h => exact h
  | cons hw hu h hstep rest ih => exact htrans h (htrans hstep ih)

theorem Timeline.split (h : Timeline answer P E w (t ++ t') w') (hrefl : ∀ a, E a a) :
    ∃ u, Timeline answer P E w t u ∧ Timeline answer P E u t' w' := by
  induction t generalizing w with
  | nil => exact ⟨w, .nil h.start h.start (hrefl w), h⟩
  | cons x t ih =>
    cases h with
    | cons hw hu h hstep rest =>
      obtain ⟨v, hleft, hright⟩ := ih rest
      exact ⟨v, .cons hw hu h hstep hleft, hright⟩

/-- What comes after the first exchange. -/
theorem Timeline.tail {x : Exchange S} (h : Timeline answer P E w (x :: t) w')
    (htrans : ∀ {a b c}, E a b → E b c → E a c) :
    ∃ u, P u ∧ E w u ∧ x.2 = ((answer x.1).run u).1 ∧
      E w ((answer x.1).run u).2 ∧ Timeline answer P E ((answer x.1).run u).2 t w' := by
  cases h with
  | cons hw hu h hstep rest => exact ⟨_, hu, h, rfl, htrans h hstep, rest⟩

/-- Every exchange was answered by some state in between. -/
theorem Timeline.answered (htrans : ∀ {a b c}, E a b → E b c → E a c)
    (h : Timeline answer P E w t w') {x : Exchange S} (hx : x ∈ t) :
    ∃ u, P u ∧ E w u ∧ x.2 = ((answer x.1).run u).1 ∧ P ((answer x.1).run u).2 ∧
      E ((answer x.1).run u).2 w' := by
  induction h with
  | nil hw hw' h => cases hx
  | @cons w u w' r t hw hu h hstep rest ih =>
    rcases List.mem_cons.mp hx with rfl | hx
    · exact ⟨u, hu, h, rfl, rest.start, rest.extends htrans⟩
    · obtain ⟨v, hv, hE, hanswer, hP, hE'⟩ := ih hx
      exact ⟨v, hv, htrans h (htrans hstep hE), hanswer, hP, hE'⟩

/-- A program that runs alone is answered by one state after the other. -/
theorem exists_timeline {p : Program S α} (hrefl : ∀ a, E a a)
    (hstep : ∀ {t r next u}, After p t (.ask r next) → P u →
      P ((answer r).run u).2 ∧ E u ((answer r).run u).2) (hw : P w) :
    ∃ t, Runs p t ((p.interpret answer).run w).1 ∧
      Timeline answer P E w t ((p.interpret answer).run w).2 := by
  induction p generalizing w with
  | done a => exact ⟨[], .start _, .nil hw hw (hrefl w)⟩
  | ask r next ih =>
    obtain ⟨hP, hE⟩ := hstep (.start _) hw
    obtain ⟨t, hruns, htimeline⟩ := ih ((answer r).run w).1
      (fun hafter hu => hstep (.ask _ hafter) hu) hP
    exact ⟨⟨r, _⟩ :: t, .ask _ hruns, .cons hw hw (hrefl w) hE htimeline⟩

/-- Whoever answers, a program runs to the value that it ends with. -/
theorem exists_runs (answer : (r : S.Request) → StateM ω (S.Answer r)) (p : Program S α) (w : ω) :
    ∃ t, Runs p t ((p.interpret answer).run w).1 := by
  have htimeline : ∃ t, Runs p t ((p.interpret answer).run w).1 ∧
      Timeline answer (fun _ => True) (fun _ _ => True) w t ((p.interpret answer).run w).2 :=
    exists_timeline (fun _ => trivial) (fun _ _ => ⟨trivial, trivial⟩) trivial
  obtain ⟨t, hruns, -⟩ := htimeline
  exact ⟨t, hruns⟩

end Program
end Envelope
