import Envelope.Proofs.KeyCourse
import Envelope.Proofs.Numerals

/-!
# Failures of the registry

The families of status codes are told apart by the digits that a code begins
with.  Cutting digits off at the end divides a number by a power of ten, so that a
code is in the family of a status if and only if some such quotient is the status
(`RegistryError.inFamily_iff`), and no code is in two families unless one of the
two statuses is in the family of the other (`RegistryError.inFamily_or_inFamily`).

A key ring asks the registry in two ways.  To a look-up (`KeyRing.LooksUp`) an
absent record is no failure, and to a registration (`KeyRing.Registers`) a lost
race is none.
-/

namespace Envelope

open Program

namespace RegistryError

variable {status status' n : Nat}

theorem inFamily_eq_true_iff :
    inFamily status n = true ↔ Nat.toDigits 10 status <+: Nat.toDigits 10 n :=
  List.isPrefixOf_iff_prefix

theorem inFamily_iff (h : 0 < status) : inFamily status n = true ↔ ∃ k, n / 10 ^ k = status :=
  inFamily_eq_true_iff.trans (Digits.toDigits_prefix_iff h)

/-- Two statuses that a code begins with begin with each other. -/
theorem inFamily_or_inFamily (h : inFamily status n = true) (h' : inFamily status' n = true) :
    inFamily status status' = true ∨ inFamily status' status = true := by
  rw [inFamily_eq_true_iff] at h h'
  rw [inFamily_eq_true_iff, inFamily_eq_true_iff]
  exact List.prefix_or_prefix_of_prefix h h'

theorem isNotFound_iff {e : RegistryError} :
    e.isNotFound = true ↔ ∃ k, e.code.toNat / 10 ^ k = 404 :=
  inFamily_iff (by decide)

theorem isConflict_iff {e : RegistryError} :
    e.isConflict = true ↔ ∃ k, e.code.toNat / 10 ^ k = 409 :=
  inFamily_iff (by decide)

end RegistryError

namespace KeyRing

open Engine

variable {α : Type}

/-- A look-up asks the registry once and comes to what it answers.  An error
comes to no record if 404 is left of its code when digits are cut off at the end,
and else to a failure. -/
structure LooksUp (find : Action (Option α)) (lookUp : Except RegistryError α → Exchange) :
    Prop where
  asks : ∀ {t r}, ComesTo find t r → ∃ answer, t = [lookUp answer]
  found : ∀ {record r}, ComesTo find [lookUp (.ok record)] r ↔ r = .ok (some record)
  failed : ∀ {e r}, ComesTo find [lookUp (.error e)] r ↔
    (∃ k, e.code.toNat / 10 ^ k = 404) ∧ r = .ok none ∨
      (¬ ∃ k, e.code.toNat / 10 ^ k = 404) ∧ r = .error (.registry e)

/-- A registration asks the registry once and logs that the record is registered.
An error is a lost race, which is logged too, if 409 is left of its code when
digits are cut off at the end, and else it comes to a failure. -/
structure Registers (store : Action (Option α)) (register : Except RegistryError α → Exchange)
    (registered : α → Event) (conflicted : Event) : Prop where
  asks : ∀ {t r}, ComesTo store t r → ∃ answer u, t = register answer :: u
  stored : ∀ {record u r}, ComesTo store (register (.ok record) :: u) r ↔
    u = [logged (registered record)] ∧ r = .ok (some record)
  failed : ∀ {e u r}, ComesTo store (register (.error e) :: u) r ↔
    (∃ k, e.code.toNat / 10 ^ k = 409) ∧ u = [logged conflicted] ∧ r = .ok none ∨
      (¬ ∃ k, e.code.toNat / 10 ^ k = 409) ∧ u = [] ∧ r = .error (.registry e)

theorem present_error (e : RegistryError) :
    present (.error e : Except RegistryError α) =
      if e.isNotFound then .ok none else .error (.registry e) :=
  rfl

theorem called_injective (c : Registry.Call) : Function.Injective (called c) := by
  intro answer answer' h
  cases h
  rfl

/-- A program that starts by asking the registry goes on with the answer. -/
theorem ask_comesTo {β : Type} {ask : Engine (Except RegistryError α)}
    {next : Except RegistryError α → Action β} {exchange : Except RegistryError α → Exchange}
    (hask : ∀ {t x}, Runs ask t x ↔ t = [exchange x]) {t : Trace} {r : Except KeyError β} :
    ComesTo (liftM ask >>= next) t r ↔ ∃ x u, t = exchange x :: u ∧ ComesTo (next x) u r := by
  rw [comesTo_lift_bind]
  simp only [hask]
  constructor
  · rintro ⟨_, u, x, rfl, hrest, rfl⟩
    exact ⟨x, u, rfl, hrest⟩
  · rintro ⟨x, u, rfl, hrest⟩
    exact ⟨[exchange x], u, x, rfl, hrest, rfl⟩

theorem ask_cons_comesTo {β : Type} {ask : Engine (Except RegistryError α)}
    {next : Except RegistryError α → Action β} {exchange : Except RegistryError α → Exchange}
    (hask : ∀ {t x}, Runs ask t x ↔ t = [exchange x]) (hinj : Function.Injective exchange)
    {x : Except RegistryError α} {u : Trace} {r : Except KeyError β} :
    ComesTo (liftM ask >>= next) (exchange x :: u) r ↔ ComesTo (next x) u r := by
  rw [ask_comesTo hask]
  constructor
  · rintro ⟨x', u', h, hrest⟩
    obtain ⟨hx, rfl⟩ := List.cons.inj h
    obtain rfl := hinj hx
    exact hrest
  · intro hrest
    exact ⟨x, u, rfl, hrest⟩

theorem log_comesTo {event : Event} {a : α} {u : Trace} {r : Except KeyError α} :
    ComesTo (do
      log event
      return a : Action α) u r ↔ u = [logged event] ∧ r = .ok a := by
  have hlog : ∀ {t x}, Runs (log event) t x ↔ t = [logged event] := runs_request_iff
  rw [comesTo_lift_bind]
  simp only [hlog, comesTo_pure]
  constructor
  · rintro ⟨_, _, _, rfl, ⟨rfl, rfl⟩, rfl⟩
    exact ⟨rfl, rfl⟩
  · rintro ⟨rfl, rfl⟩
    exact ⟨_, [], (), rfl, ⟨rfl, rfl⟩, rfl⟩

theorem looksUp {ask : Engine (Except RegistryError α)}
    {lookUp : Except RegistryError α → Exchange} (hask : ∀ {t x}, Runs ask t x ↔ t = [lookUp x])
    (hinj : Function.Injective lookUp) :
    LooksUp (do
      let answer ← (ask : Action (Except RegistryError α))
      present answer) lookUp where
  asks h := by
    obtain ⟨answer, u, rfl, hrest⟩ := (ask_comesTo hask).mp h
    obtain ⟨rfl, -⟩ := comesTo_except.mp hrest
    exact ⟨answer, rfl⟩
  found := by
    intro record r
    rw [ask_cons_comesTo hask hinj, comesTo_except]
    exact and_iff_right rfl
  failed := by
    intro e r
    rw [ask_cons_comesTo hask hinj, comesTo_except, present_error, ← RegistryError.isNotFound_iff]
    by_cases habsent : e.isNotFound = true
    · simp [habsent]
    · simp [habsent]

theorem registers {ask : Engine (Except RegistryError α)}
    {next : Except RegistryError α → Action (Option α)}
    {register : Except RegistryError α → Exchange} {registered : α → Event} {conflicted : Event}
    (hask : ∀ {t x}, Runs ask t x ↔ t = [register x]) (hinj : Function.Injective register)
    (hok : ∀ record, next (.ok record) = do
      log (registered record)
      return some record)
    (herror : ∀ e, next (.error e) =
      if e.isConflict then do
        log conflicted
        return none
      else
        throw (.registry e)) :
    Registers (liftM ask >>= next) register registered conflicted where
  asks h := by
    obtain ⟨answer, u, rfl, -⟩ := (ask_comesTo hask).mp h
    exact ⟨answer, u, rfl⟩
  stored := by
    intro record u r
    rw [ask_cons_comesTo hask hinj, hok, log_comesTo]
  failed := by
    intro e u r
    rw [ask_cons_comesTo hask hinj, herror, ← RegistryError.isConflict_iff]
    by_cases hlost : e.isConflict = true
    · rw [if_pos hlost, log_comesTo]
      simp [hlost]
    · rw [if_neg hlost, comesTo_throw]
      simp [hlost]

/-- Codes are told apart as numbers.  A code reports an absent record if 404 is
left of it when digits are cut off at the end, and a lost race if 409 is; no code
does both.  By this alone each error of a look-up is an absent record or a
failure, and each error of a registration is a lost race or a failure. -/
theorem failures_told_apart :
    (∀ n, RegistryError.inFamily 404 n = true ↔ ∃ k, n / 10 ^ k = 404) ∧
    (∀ n, RegistryError.inFamily 409 n = true ↔ ∃ k, n / 10 ^ k = 409) ∧
    (∀ n, ¬ (RegistryError.inFamily 404 n = true ∧ RegistryError.inFamily 409 n = true)) ∧
    (∀ e : RegistryError, (e.isNotFound = true ↔ ∃ k, e.code.toNat / 10 ^ k = 404) ∧
      (e.isConflict = true ↔ ∃ k, e.code.toNat / 10 ^ k = 409) ∧
      ¬ (e.isNotFound = true ∧ e.isConflict = true)) ∧
    (∀ (ring : KeyRing) mode,
      LooksUp (ring.findKek mode) (called (.getKek ring.kekName (mode = .read)))) ∧
    (∀ id mode, LooksUp (findDek id mode) (called (.getDek id (mode = .read)))) ∧
    (∀ (ring : KeyRing) kmsType kmsKeyId,
      Registers (ring.storeKek kmsType kmsKeyId)
        (called (.registerKek (ring.kekRequest kmsType kmsKeyId)))
        (fun kek => .kekRegistered kek.name kek.kmsType) (.kekConflicted ring.kekName)) ∧
    ∀ (ring : KeyRing) request,
      Registers (ring.storeDek request) (called (.registerDek ring.kekName request))
        (fun dek => .dekRegistered ring.kekName dek.subject dek.version dek.algorithm)
        (.dekConflicted ring.kekName request.subject request.version) := by
  have hdisjoint (n : Nat) :
      ¬ (RegistryError.inFamily 404 n = true ∧ RegistryError.inFamily 409 n = true) := by
    rintro ⟨hnotFound, hconflict⟩
    have hapart :
        ¬ (RegistryError.inFamily 404 409 = true ∨ RegistryError.inFamily 409 404 = true) := by
      decide
    exact hapart (RegistryError.inFamily_or_inFamily hnotFound hconflict)
  refine ⟨fun n => RegistryError.inFamily_iff (by decide),
    fun n => RegistryError.inFamily_iff (by decide), hdisjoint, fun e => ?_, fun ring mode => ?_,
    fun id mode => ?_, fun ring kmsType kmsKeyId => ?_, fun ring request => ?_⟩
  · exact ⟨RegistryError.isNotFound_iff, RegistryError.isConflict_iff, hdisjoint e.code.toNat⟩
  · exact looksUp runs_call (called_injective _)
  · exact looksUp runs_call (called_injective _)
  · exact registers runs_call (called_injective _) (fun _ => rfl) fun _ => rfl
  · exact registers runs_call (called_injective _) (fun _ => rfl) fun _ => rfl

/-- Codes with and without digits behind the status, and codes that contain one
elsewhere. -/
example :
    [404, 4040, 40470, 14040, 50001].map (RegistryError.inFamily 404) =
        [true, true, true, false, false] ∧
      [409, 40971, 40499, 4294967295].map (RegistryError.inFamily 409) =
        [true, true, false, false] := by
  decide

end KeyRing

end Envelope
