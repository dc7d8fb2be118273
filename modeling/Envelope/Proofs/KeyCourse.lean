import Envelope.KeyRing
import Envelope.Proofs.Carriage

/-!
# The course of obtaining keys

For every trace of a key ring, whoever answered its requests, this module says
which requests were made, in what order, and what the ring came to.  There is
one relation between traces and results for each part of the work: a
registration that may lose a race (`Registration`), the search for a
key-encryption key (`KekSearch`), the preparation of a new data key
(`Preparation`), its registration or the fallback on the old one (`Rotation`),
the recovery of the raw key (`Unlocking`), and the whole (`DekSearch`).
-/

namespace Envelope

open Program

namespace Engine

/-- A request of the engine with its answer. -/
abbrev Exchange : Type := Program.Exchange Effect.signature

/-- What the engine asked and was answered, the first exchange first. -/
abbrev Trace : Type := List Exchange

/-- A call of the registry and its answer. -/
abbrev called (c : Registry.Call) (answer : c.Answer) : Exchange := ⟨Effect.registry c, answer⟩

/-- A reading of the clock. -/
abbrev clocked (now : Int64) : Exchange := ⟨Effect.clock, now⟩

/-- A request for a handle and its answer. -/
abbrev handed (config : Properties) (url : String) (answer : Except Kms.Error Kms.Handle) :
    Exchange := ⟨Effect.keyHandle config url, answer⟩

/-- A drawing of random bytes. -/
abbrev drawn (n : Nat) (bytes : { bytes : Bytes // bytes.length = n }) : Exchange :=
  ⟨Effect.random n, bytes⟩

/-- An event written to the log. -/
abbrev logged (event : Event) : Exchange := ⟨Effect.log event, ()⟩

theorem runs_call {c : Registry.Call} {t : Trace} {x : c.Answer} :
    Runs (call c) t x ↔ t = [called c x] :=
  runs_request_iff

theorem runs_keyHandle {config : Properties} {url : String} {t : Trace}
    {x : Except Kms.Error Kms.Handle} :
    Runs (keyHandle config url) t x ↔ t = [handed config url x] :=
  runs_request_iff

/-- The exchanges of a drawing that is part of the engine. -/
def drawnTrace (t : List (Program.Exchange Draw.signature)) : Trace :=
  t.map fun x => drawn x.1 x.2

theorem runs_draw {α : Type} {d : Draw α} {t : Trace} {a : α} :
    Runs (draw d) t a ↔ ∃ u, Runs d u a ∧ t = drawnTrace u := by
  induction d generalizing t with
  | done b =>
    show Runs (done b) t a ↔ _
    simp only [runs_done_iff]
    constructor
    · rintro ⟨rfl, rfl⟩
      exact ⟨[], ⟨rfl, rfl⟩, rfl⟩
    · rintro ⟨u, ⟨rfl, rfl⟩, rfl⟩
      exact ⟨rfl, rfl⟩
  | ask n next ih =>
    have first : Runs (draw (ask n next)) t a ↔
        ∃ x u, t = drawn n x :: u ∧ Runs (draw (next x)) u a :=
      runs_ask_iff
    rw [first]
    constructor
    · rintro ⟨x, u, rfl, h⟩
      obtain ⟨v, hv, rfl⟩ := (ih x).mp h
      exact ⟨⟨n, x⟩ :: v, runs_ask_iff.mpr ⟨x, v, rfl, hv⟩, rfl⟩
    · rintro ⟨v, hv, rfl⟩
      obtain ⟨x, u, rfl, h⟩ := runs_ask_iff.mp hv
      exact ⟨x, drawnTrace u, rfl, (ih x).mpr ⟨u, h, rfl⟩⟩

/-- Surroundings in which a call is always answered alike, the clock stands
still, and the answer is the same for every master key. -/
def surroundings (registry : (c : Registry.Call) → c.Answer)
    (handle : Except Kms.Error Kms.Handle) : (r : Effect) → r.Answer
  | .registry c => registry c
  | .clock => 0
  | .random n => ⟨Bytes.zeros n, List.length_replicate⟩
  | .keyHandle _ _ => handle
  | .log _ => ()

/-- A registry that answers the calls of one kind alike. -/
def replies (getKek registerKek : Except RegistryError Kek)
    (getDek registerDek : Except RegistryError Dek) : (c : Registry.Call) → c.Answer
  | .getKek _ _ => getKek
  | .registerKek _ => registerKek
  | .getDek _ _ => getDek
  | .registerDek _ _ => registerDek

end Engine

namespace KeyRing

open Engine

/-! ## Look-ups and registrations -/

theorem present_eq_error_iff {α : Type} {answer : Except RegistryError α} {e : KeyError} :
    present answer = .error e ↔
      ∃ e', answer = .error e' ∧ e'.isNotFound = false ∧ e = .registry e' := by
  cases answer with
  | ok record => simp [present]
  | error e' =>
    cases h : e'.isNotFound with
    | true => simp [present, h]
    | false => simp only [present, h, Bool.false_eq_true, if_false, Except.error.injEq]; grind

theorem present_eq_some_iff {α : Type} {answer : Except RegistryError α} {record : α} :
    present answer = .ok (some record) ↔ answer = .ok record := by
  cases answer with
  | ok record => simp [present]
  | error e' => cases h : e'.isNotFound <;> simp [present, h]

theorem present_eq_none_iff {α : Type} {answer : Except RegistryError α} :
    present answer = .ok none ↔ ∃ e, answer = .error e ∧ e.isNotFound = true := by
  cases answer with
  | ok record => simp [present]
  | error e' => cases h : e'.isNotFound <;> simp [present, h]

/-- What a refetch comes to, where an absent record is a failure. -/
def fetched {α : Type} (absent : KeyError) (answer : Except RegistryError α) :
    Except KeyError α :=
  match present answer with
  | .ok (some record) => .ok record
  | .ok none => .error absent
  | .error e => .error e

/-- The course of a registration: the record is registered, or the
registration is refused, or another writer was first and one look-up settles
what it comes to. -/
inductive Registration {α : Type} (register lookUp : Except RegistryError α → Exchange)
    (registered : α → Event) (conflicted : Event) (absent : KeyError) :
    Trace → Except KeyError α → Prop where
  | registered (record : α) :
      Registration register lookUp registered conflicted absent
        [register (.ok record), logged (registered record)] (.ok record)
  | refused (e : RegistryError) (fatal : e.isConflict = false) :
      Registration register lookUp registered conflicted absent
        [register (.error e)] (.error (.registry e))
  | settled (e : RegistryError) (lost : e.isConflict = true) (answer : Except RegistryError α) :
      Registration register lookUp registered conflicted absent
        [register (.error e), logged conflicted, lookUp answer] (fetched absent answer)

theorem findKek_comesTo {ring : KeyRing} {mode : Mode} {t : Trace}
    {r : Except KeyError (Option Kek)} (h : ComesTo (ring.findKek mode) t r) :
    ∃ answer, t = [called (.getKek ring.kekName (mode = .read)) answer] ∧ r = present answer := by
  obtain ⟨answer, u, rfl, hrest⟩ := comesTo_request_bind.mp h
  obtain ⟨rfl, rfl⟩ := comesTo_except.mp hrest
  exact ⟨answer, rfl, rfl⟩

theorem findDek_comesTo {id : DekId} {mode : Mode} {t : Trace}
    {r : Except KeyError (Option Dek)} (h : ComesTo (findDek id mode) t r) :
    ∃ answer, t = [called (.getDek id (mode = .read)) answer] ∧ r = present answer := by
  obtain ⟨answer, u, rfl, hrest⟩ := comesTo_request_bind.mp h
  obtain ⟨rfl, rfl⟩ := comesTo_except.mp hrest
  exact ⟨answer, rfl, rfl⟩

/-- A program that starts with a look-up fails with it, or goes on with the
record or without one. -/
theorem lookUp_comesTo {α β : Type} {find : Action (Option α)} {next : Option α → Action β}
    {lookUp : Except RegistryError α → Exchange}
    (hfind : ∀ {t r}, ComesTo find t r → ∃ answer, t = [lookUp answer] ∧ r = present answer)
    {t : Trace} {r : Except KeyError β} (h : ComesTo (find >>= next) t r) :
    (∃ e : RegistryError, e.isNotFound = false ∧ t = [lookUp (.error e)] ∧
      r = .error (.registry e)) ∨
      (∃ record u, t = lookUp (.ok record) :: u ∧ ComesTo (next (some record)) u r) ∨
      ∃ (e : RegistryError) (u : Trace), e.isNotFound = true ∧ t = lookUp (.error e) :: u ∧
        ComesTo (next none) u r := by
  rcases comesTo_bind.mp h with ⟨e, hfail, rfl⟩ | ⟨t₁, t₂, found, hdone, hrest, rfl⟩
  · obtain ⟨answer, rfl, hr⟩ := hfind hfail
    obtain ⟨e', rfl, fatal, rfl⟩ := present_eq_error_iff.mp hr.symm
    exact .inl ⟨e', fatal, rfl, rfl⟩
  · obtain ⟨answer, rfl, hr⟩ := hfind hdone
    cases found with
    | some record =>
      obtain rfl := present_eq_some_iff.mp hr.symm
      exact .inr (.inl ⟨record, t₂, rfl, hrest⟩)
    | none =>
      obtain ⟨e, rfl, absent⟩ := present_eq_none_iff.mp hr.symm
      exact .inr (.inr ⟨e, t₂, absent, rfl, hrest⟩)

/-- The attempt that a registration starts with; a lost race is no failure. -/
inductive Submission {α : Type} (register : Except RegistryError α → Exchange)
    (registered : α → Event) (conflicted : Event) : Trace → Except KeyError (Option α) → Prop where
  | registered (record : α) :
      Submission register registered conflicted
        [register (.ok record), logged (registered record)] (.ok (some record))
  | lost (e : RegistryError) (lost : e.isConflict = true) :
      Submission register registered conflicted
        [register (.error e), logged conflicted] (.ok none)
  | refused (e : RegistryError) (fatal : e.isConflict = false) :
      Submission register registered conflicted [register (.error e)] (.error (.registry e))

theorem submission_comesTo {α : Type} {call : Engine (Except RegistryError α)}
    {next : Except RegistryError α → Action (Option α)}
    {register : Except RegistryError α → Exchange} {registered : α → Event} {conflicted : Event}
    (hcall : ∀ {t x}, Runs call t x → t = [register x])
    (hok : ∀ record, next (.ok record) = do
      log (registered record)
      return some record)
    (herror : ∀ e, next (.error e) =
      if e.isConflict then do
        log conflicted
        return none
      else
        throw (.registry e))
    {t : Trace} {r : Except KeyError (Option α)} (h : ComesTo (liftM call >>= next) t r) :
    Submission register registered conflicted t r := by
  obtain ⟨t₁, t₂, answer, hruns, hnext, rfl⟩ := comesTo_lift_bind.mp h
  obtain rfl := hcall hruns
  cases answer with
  | ok record =>
    rw [hok] at hnext
    obtain ⟨_, u, rfl, hdone⟩ := comesTo_request_bind.mp hnext
    obtain ⟨rfl, rfl⟩ := comesTo_pure.mp hdone
    exact .registered record
  | error e =>
    rw [herror] at hnext
    by_cases lost : e.isConflict = true
    · rw [if_pos lost] at hnext
      obtain ⟨_, u, rfl, hdone⟩ := comesTo_request_bind.mp hnext
      obtain ⟨rfl, rfl⟩ := comesTo_pure.mp hdone
      exact .lost e lost
    · rw [if_neg lost] at hnext
      obtain ⟨rfl, rfl⟩ := comesTo_throw.mp hnext
      exact .refused e (eq_false_of_ne_true lost)

/-- An attempt to register, followed after a lost race by one look-up. -/
theorem registration_comesTo {α : Type} {store find : Action (Option α)}
    {next settle : Option α → Action α}
    {register lookUp : Except RegistryError α → Exchange} {registered : α → Event}
    {conflicted : Event} {absent : KeyError}
    (hstore : ∀ {t r}, ComesTo store t r → Submission register registered conflicted t r)
    (hfind : ∀ {t r}, ComesTo find t r → ∃ answer, t = [lookUp answer] ∧ r = present answer)
    (hstored : ∀ record, next (some record) = pure record) (hlost : next none = find >>= settle)
    (hfound : ∀ record, settle (some record) = pure record) (habsent : settle none = throw absent)
    {t : Trace} {r : Except KeyError α} (h : ComesTo (store >>= next) t r) :
    Registration register lookUp registered conflicted absent t r := by
  -- The look-up decides alone: an absent record and a failure differ only in their cause.
  have hsettled : ∀ {t r}, ComesTo (find >>= settle) t r →
      ∃ answer, t = [lookUp answer] ∧ r = fetched absent answer := by
    intro t r h
    rcases comesTo_bind.mp h with ⟨e, hfail, rfl⟩ | ⟨t₁, t₂, found, hdone, hrest, rfl⟩
    · obtain ⟨answer, rfl, hr⟩ := hfind hfail
      exact ⟨answer, rfl, by rw [fetched, ← hr]⟩
    · obtain ⟨answer, rfl, hr⟩ := hfind hdone
      cases found with
      | some record =>
        rw [hfound] at hrest
        obtain ⟨rfl, rfl⟩ := comesTo_pure.mp hrest
        exact ⟨answer, rfl, by rw [fetched, ← hr]⟩
      | none =>
        rw [habsent] at hrest
        obtain ⟨rfl, rfl⟩ := comesTo_throw.mp hrest
        exact ⟨answer, rfl, by rw [fetched, ← hr]⟩
  rcases comesTo_bind.mp h with ⟨e, hfail, rfl⟩ | ⟨t₁, t₂, stored, hdone, hrest, rfl⟩
  · cases hstore hfail with
    | refused e' fatal => exact .refused e' fatal
  · cases hstore hdone with
    | registered record =>
      rw [hstored] at hrest
      obtain ⟨rfl, rfl⟩ := comesTo_pure.mp hrest
      exact .registered record
    | lost e lost =>
      rw [hlost] at hrest
      obtain ⟨answer, rfl, rfl⟩ := hsettled hrest
      exact .settled e lost answer

/-! ## Key-encryption keys -/

/-- The registration that a writer asks for. -/
def kekRequest (ring : KeyRing) (kmsType kmsKeyId : String) : KekRequest where
  name := ring.kekName
  kmsType := kmsType
  kmsKeyId := kmsKeyId
  kmsProps := ∅
  doc := none
  shared := false

/-- The course of registering a key-encryption key. -/
def KekRegistration (ring : KeyRing) (mode : Mode) (kmsType kmsKeyId : String) :
    Trace → Except KeyError Kek → Prop :=
  Registration (called (.registerKek (ring.kekRequest kmsType kmsKeyId)))
    (called (.getKek ring.kekName (mode = .read)))
    (fun kek : Kek => .kekRegistered kek.name kek.kmsType) (.kekConflicted ring.kekName)
    (.kekNotFoundOnWrite ring.kekName)

/-- The course of the search for a key-encryption key, by a rule that names a
master key or not, before the record is compared with the rule. -/
inductive KekSearch (ring : KeyRing) (mode : Mode) (kmsType kmsKeyId : Option String) :
    Trace → Except KeyError Kek → Prop where
  | failed (e : RegistryError) (fatal : e.isNotFound = false) :
      KekSearch ring mode kmsType kmsKeyId
        [called (.getKek ring.kekName (mode = .read)) (.error e)] (.error (.registry e))
  | found (kek : Kek) :
      KekSearch ring mode kmsType kmsKeyId
        [called (.getKek ring.kekName (mode = .read)) (.ok kek)] (.ok kek)
  | unread (e : RegistryError) (absent : e.isNotFound = true) (reads : mode = .read) :
      KekSearch ring mode kmsType kmsKeyId
        [called (.getKek ring.kekName (mode = .read)) (.error e)]
        (.error (.kekNotFoundOnRead ring.kekName))
  | untyped (e : RegistryError) (absent : e.isNotFound = true) (writes : mode ≠ .read)
      (htype : kmsType = none) :
      KekSearch ring mode kmsType kmsKeyId
        [called (.getKek ring.kekName (mode = .read)) (.error e)]
        (.error (.missingKmsType ring.kekName))
  | unnamed (e : RegistryError) (absent : e.isNotFound = true) (writes : mode ≠ .read)
      (type : String) (htype : kmsType = some type) (hid : kmsKeyId = none) :
      KekSearch ring mode kmsType kmsKeyId
        [called (.getKek ring.kekName (mode = .read)) (.error e)]
        (.error (.missingKmsKeyId ring.kekName))
  | created (e : RegistryError) (absent : e.isNotFound = true) (writes : mode ≠ .read)
      (type id : String) (htype : kmsType = some type) (hid : kmsKeyId = some id)
      {t : Trace} {r : Except KeyError Kek} (rest : ring.KekRegistration mode type id t r) :
      KekSearch ring mode kmsType kmsKeyId
        (called (.getKek ring.kekName (mode = .read)) (.error e) :: t) r

theorem createKek_comesTo {ring : KeyRing} {mode : Mode} {kmsType kmsKeyId : String} {t : Trace}
    {r : Except KeyError Kek} (h : ComesTo (ring.createKek mode kmsType kmsKeyId) t r) :
    ring.KekRegistration mode kmsType kmsKeyId t r := by
  refine registration_comesTo (fun h => ?_) findKek_comesTo (fun _ => rfl) rfl (fun _ => rfl)
    rfl h
  exact submission_comesTo runs_call.mp (fun _ => rfl) (fun _ => rfl) h

/-- The record that was found, unless it belongs to another master key than the
rule names. -/
def bound (ring : KeyRing) (kmsType kmsKeyId : Option String) (kek : Kek) :
    Except KeyError Kek := do
  ring.checkBinding kmsType kmsKeyId kek
  return kek

/-- A text that a rule names, if it names one, is the given one. -/
def Agrees (named : Option String) (text : String) : Prop :=
  ∀ t, named = some t → t = text

theorem bound_eq_ok_iff {ring : KeyRing} {kmsType kmsKeyId : Option String} {kek kek' : Kek} :
    ring.bound kmsType kmsKeyId kek = .ok kek' ↔
      kek' = kek ∧ Agrees kmsType kek.kmsType ∧ Agrees kmsKeyId kek.kmsKeyId := by
  simp only [bound, checkBinding, bind, Except.bind, pure, Except.pure, throw, throwThe,
    MonadExceptOf.throw, Agrees]
  rcases kmsType with _ | type <;> rcases kmsKeyId with _ | id <;> grind

theorem bound_comesTo {ring : KeyRing} {kmsType kmsKeyId : Option String} {p : Action Kek}
    {t : Trace} {r : Except KeyError Kek}
    (h : ComesTo (do
      let kek ← p
      ring.checkBinding kmsType kmsKeyId kek
      return kek) t r) :
    ∃ r', ComesTo p t r' ∧ r = r' >>= ring.bound kmsType kmsKeyId := by
  refine (comesTo_bind_except fun kek t r => ?_).mp h
  rw [comesTo_bind_except fun _ t r => comesTo_pure]
  simp only [comesTo_except]
  constructor
  · rintro ⟨r', ⟨rfl, rfl⟩, rfl⟩
    exact ⟨rfl, rfl⟩
  · rintro ⟨rfl, rfl⟩
    exact ⟨_, ⟨rfl, rfl⟩, rfl⟩

/-- A key ring searches for its key-encryption key and compares what it finds
with the rule. -/
theorem kek_comesTo {ring : KeyRing} {mode : Mode} {kmsType kmsKeyId : Option String} {t : Trace}
    {r : Except KeyError Kek} (h : ComesTo (ring.kek mode kmsType kmsKeyId) t r) :
    ∃ r', ring.KekSearch mode (nonempty kmsType) (nonempty kmsKeyId) t r' ∧
      r = r' >>= ring.bound (nonempty kmsType) (nonempty kmsKeyId) := by
  unfold kek at h
  rcases lookUp_comesTo findKek_comesTo h with ⟨e, fatal, rfl, rfl⟩ | ⟨kek, u, rfl, hrest⟩ |
    ⟨e, u, absent, rfl, hrest⟩
  · exact ⟨_, .failed e fatal, rfl⟩
  · obtain ⟨r', hp, rfl⟩ := bound_comesTo hrest
    obtain ⟨rfl, rfl⟩ := comesTo_pure.mp hp
    exact ⟨_, .found kek, rfl⟩
  · dsimp only at hrest
    split at hrest
    · rename_i reads
      obtain ⟨r', hp, rfl⟩ := bound_comesTo hrest
      obtain ⟨rfl, rfl⟩ := comesTo_throw.mp hp
      exact ⟨_, .unread e absent reads, rfl⟩
    · rename_i writes
      split at hrest
      · rename_i htype
        obtain ⟨r', hp, rfl⟩ := bound_comesTo hrest
        obtain ⟨rfl, rfl⟩ := comesTo_throw.mp hp
        exact ⟨_, .untyped e absent writes htype, rfl⟩
      · rename_i type htype hid
        obtain ⟨r', hp, rfl⟩ := bound_comesTo hrest
        obtain ⟨rfl, rfl⟩ := comesTo_throw.mp hp
        exact ⟨_, .unnamed e absent writes type htype hid, rfl⟩
      · rename_i type id htype hid
        obtain ⟨r', hp, rfl⟩ := bound_comesTo hrest
        exact ⟨r', .created e absent writes type id htype hid (createKek_comesTo hp), rfl⟩

/-! ## Data-encryption keys -/

/-- The registration of a version of a data key that a writer asks for. -/
def dekRequest (id : DekId) (version : UInt32) (wrapped : Option Bytes) : DekRequest where
  subject := id.subject
  version := version
  algorithm := id.algorithm
  encryptedKeyMaterial := wrapped.map Base64.encode

/-- The course of registering a data key. -/
def DekRegistration (ring : KeyRing) (id : DekId) (mode : Mode) (version : UInt32)
    (wrapped : Option Bytes) : Trace → Except KeyError Dek → Prop :=
  Registration (called (.registerDek ring.kekName (dekRequest id version wrapped)))
    (called (.getDek id (mode = .read)))
    (fun dek : Dek => .dekRegistered ring.kekName dek.subject dek.version dek.algorithm)
    (.dekConflicted ring.kekName id.subject version) (.dekNotFoundOnWrite ring.kekName id.subject)

theorem createDek_comesTo {ring : KeyRing} {id : DekId} {mode : Mode} {version : UInt32}
    {wrapped : Option Bytes} {t : Trace} {r : Except KeyError Dek}
    (h : ComesTo (ring.createDek id mode version wrapped) t r) :
    ring.DekRegistration id mode version wrapped t r := by
  unfold createDek at h
  refine registration_comesTo (fun h => ?_) findDek_comesTo (fun _ => rfl) rfl (fun _ => rfl)
    rfl h
  exact submission_comesTo runs_call.mp (fun _ => rfl) (fun _ => rfl) h

/-- A program that starts with a handle fails without it. -/
theorem keyHandle_bind_comesTo {α : Type} {ring : KeyRing} {kek : Kek}
    {next : Kms.Handle → Action α} {t : Trace} {r : Except KeyError α}
    (h : ComesTo (ring.keyHandle kek >>= next) t r) :
    (∃ e, t = [handed ring.config kek.url (.error e)] ∧ r = .error (.kms e)) ∨
      ∃ handle u, t = handed ring.config kek.url (.ok handle) :: u ∧
        ComesTo (next handle) u r := by
  rcases comesTo_adapt_bind.mp h with ⟨e, hfail, rfl⟩ | ⟨t₁, t₂, handle, hdone, hrest, rfl⟩
  · obtain rfl := runs_keyHandle.mp hfail
    exact .inl ⟨e, rfl, rfl⟩
  · obtain rfl := runs_keyHandle.mp hdone
    exact .inr ⟨handle, t₂, rfl, hrest⟩

/-- The course of generating and wrapping a data key: an unsupported algorithm
is refused before anything is drawn. -/
inductive Wrapping (ring : KeyRing) (handle : Kms.Handle) :
    Trace → Except KeyError Bytes → Prop where
  | unsupported (e : CipherError) (h : ring.cryptor.algorithm = .error e) :
      Wrapping ring handle [] (.error (.cipher e))
  | wrapped (a : Algorithm) (h : ring.cryptor.algorithm = .ok a)
      (key : { bytes : Bytes // bytes.length = a.keyLength })
      {t : List (Program.Exchange Draw.signature)} {r : Except Kms.Error Bytes}
      (wrap : Runs (handle.wrap key.val []) t r) :
      Wrapping ring handle (drawn a.keyLength key :: drawnTrace t) (r.mapError .kms)

theorem wrapFreshKey_comesTo {ring : KeyRing} {handle : Kms.Handle} {t : Trace}
    {r : Except KeyError Bytes} (h : ComesTo (ring.wrapFreshKey handle) t r) :
    ring.Wrapping handle t r := by
  unfold wrapFreshKey at h
  rcases comesTo_adapt_bind.mp h with ⟨e, hfail, rfl⟩ | ⟨t₁, t₂, key, hdone, hwrap, rfl⟩
  · obtain ⟨u, hgenerate, rfl⟩ := runs_draw.mp hfail
    rcases Cryptor.generateKey_comesTo hgenerate with ⟨e', halgorithm, rfl, hr⟩ |
      ⟨a, -, key, -, hr⟩
    · obtain rfl := Except.error.inj hr
      exact .unsupported e halgorithm
    · cases hr
  · obtain ⟨u, hgenerate, rfl⟩ := runs_draw.mp hdone
    rcases Cryptor.generateKey_comesTo hgenerate with ⟨e', -, -, hr⟩ |
      ⟨a, halgorithm, bytes, rfl, hr⟩
    · cases hr
    · obtain rfl := Except.ok.inj hr
      obtain ⟨r', hdraw, rfl⟩ := comesTo_adapt.mp hwrap
      obtain ⟨u, hu, rfl⟩ := runs_draw.mp hdraw
      exact .wrapped a halgorithm bytes hu

/-- The course of what comes before the registration of a new data key: under a
shared key-encryption key nothing, else a handle and a wrapped key are
obtained. -/
inductive Preparation (ring : KeyRing) (kek : Kek) :
    Trace → Except KeyError (Option Kms.Handle × Option Bytes) → Prop where
  | shared (h : kek.shared = true) : Preparation ring kek [] (.ok (none, none))
  | unhandled (h : kek.shared = false) (e : Kms.Error) :
      Preparation ring kek [handed ring.config kek.url (.error e)] (.error (.kms e))
  | handled (h : kek.shared = false) (handle : Kms.Handle) {t : Trace} {r : Except KeyError Bytes}
      (wrapping : ring.Wrapping handle t r) :
      Preparation ring kek (handed ring.config kek.url (.ok handle) :: t)
        (r.map fun wrapped => (some handle, some wrapped))

/-- The course of replacing a data key that is absent or has expired: its
successor is registered, or the old one is kept if the registration fails. -/
inductive Rotation (ring : KeyRing) (kek : Kek) (id : DekId) (mode : Mode) :
    Option Dek → Trace → Except KeyError (Option Kms.Handle × Dek) → Prop where
  | exhausted {prior : Option Dek} (e : KeyError)
      (h : ring.nextVersion id.subject prior = .error e) :
      Rotation ring kek id mode prior [] (.error e)
  | unprepared {prior : Option Dek} (version : UInt32)
      (hversion : ring.nextVersion id.subject prior = .ok version) {t : Trace} {e : KeyError}
      (prepared : ring.Preparation kek t (.error e)) :
      Rotation ring kek id mode prior t (.error e)
  | replaced {prior : Option Dek} (version : UInt32)
      (hversion : ring.nextVersion id.subject prior = .ok version) {t t' : Trace}
      {handle : Option Kms.Handle} {wrapped : Option Bytes}
      (prepared : ring.Preparation kek t (.ok (handle, wrapped))) {dek : Dek}
      (registered : ring.DekRegistration id mode version wrapped t' (.ok dek)) :
      Rotation ring kek id mode prior (t ++ t') (.ok (handle, dek))
  | failed (version : UInt32)
      (hversion : ring.nextVersion id.subject none = .ok version) {t t' : Trace}
      {handle : Option Kms.Handle} {wrapped : Option Bytes}
      (prepared : ring.Preparation kek t (.ok (handle, wrapped))) {e : KeyError}
      (registered : ring.DekRegistration id mode version wrapped t' (.error e)) :
      Rotation ring kek id mode none (t ++ t') (.error e)
  | kept (prior : Dek) (version : UInt32)
      (hversion : ring.nextVersion id.subject (some prior) = .ok version) {t t' : Trace}
      {handle : Option Kms.Handle} {wrapped : Option Bytes}
      (prepared : ring.Preparation kek t (.ok (handle, wrapped))) {e : KeyError}
      (registered : ring.DekRegistration id mode version wrapped t' (.error e)) :
      Rotation ring kek id mode (some prior)
        (t ++ t' ++ [logged (.dekKept ring.kekName id.subject version e)]) (.ok (handle, prior))

/-- What is done with a prepared key follows its preparation. -/
theorem preparation_comesTo {ring : KeyRing} {kek : Kek} {α : Type}
    {next : Option Kms.Handle × Option Bytes → Action α} {t : Trace} {r : Except KeyError α}
    (h : ComesTo
      (if kek.shared then pure (none, none) >>= next
      else do
        let handle ← ring.keyHandle kek
        let wrapped ← ring.wrapFreshKey handle
        pure (some handle, some wrapped) >>= next) t r) :
    (∃ e, ring.Preparation kek t (.error e) ∧ r = .error e) ∨
      ∃ t₁ t₂ x, ring.Preparation kek t₁ (.ok x) ∧ ComesTo (next x) t₂ r ∧ t = t₁ ++ t₂ := by
  cases shared : kek.shared with
  | true =>
    rw [shared, if_pos rfl, pure_bind] at h
    exact .inr ⟨[], t, _, .shared shared, h, rfl⟩
  | false =>
    rw [shared, if_neg Bool.false_ne_true] at h
    rcases keyHandle_bind_comesTo h with ⟨e, rfl, rfl⟩ | ⟨handle, u, rfl, hrest⟩
    · exact .inl ⟨_, .unhandled shared e, rfl⟩
    · rcases comesTo_bind.mp hrest with ⟨e, hfail, rfl⟩ | ⟨t₁, t₂, wrapped, hdone, hnext, rfl⟩
      · exact .inl ⟨e, .handled shared handle (wrapFreshKey_comesTo hfail), rfl⟩
      · rw [pure_bind] at hnext
        exact .inr ⟨_ :: t₁, t₂, _, .handled shared handle (wrapFreshKey_comesTo hdone), hnext, rfl⟩

theorem rotate_comesTo {ring : KeyRing} {kek : Kek} {id : DekId} {mode : Mode}
    {prior : Option Dek} {t : Trace} {r : Except KeyError (Option Kms.Handle × Dek)}
    (h : ComesTo (ring.rotate kek id mode prior) t r) :
    ring.Rotation kek id mode prior t r := by
  unfold rotate at h
  rcases comesTo_except_bind.mp h with ⟨e, hversion, rfl, rfl⟩ | ⟨version, hversion, hrest⟩
  · exact .exhausted e hversion
  rcases preparation_comesTo hrest with ⟨e, prepared, rfl⟩ |
    ⟨t₁, t₂, ⟨handle, wrapped⟩, prepared, hnext, rfl⟩
  · exact .unprepared version hversion prepared
  cases prior with
  | none =>
    obtain ⟨r', hcreate, rfl⟩ := (comesTo_bind_except fun _ _ _ => comesTo_pure).mp hnext
    cases r' with
    | error e => exact .failed version hversion prepared (createDek_comesTo hcreate)
    | ok dek => exact .replaced version hversion prepared (createDek_comesTo hcreate)
  | some prior =>
    obtain ⟨r', hcreate, rfl⟩ := (comesTo_bind_except fun _ _ _ => comesTo_pure).mp hnext
    rcases comesTo_tryCatch.mp hcreate with ⟨dek, hdone, rfl⟩ | ⟨t₃, t₄, e, hfail, hkeep, rfl⟩
    · exact .replaced version hversion prepared (createDek_comesTo hdone)
    · obtain ⟨_, u, rfl, hreturn⟩ := comesTo_request_bind.mp hkeep
      obtain ⟨rfl, rfl⟩ := comesTo_pure.mp hreturn
      rw [← List.append_assoc]
      exact .kept prior version hversion prepared (createDek_comesTo hfail)

/-- A record whose raw key is unwrapped with a handle. -/
def opened (handle : Kms.Handle) (dek : Dek) : Except KeyError Dek := do
  match ← (dek.wrappedKey).mapError KeyError.keyMaterialEncoding with
  | none => throw (.missingKeyMaterial dek.kekName dek.subject dek.version)
  | some wrapped =>
    let raw ← (handle.unwrap wrapped []).mapError KeyError.kms
    return { dek with rawKey := some ⟨raw⟩ }

/-- A record that is unwrapped gets a raw key and is otherwise the same. -/
theorem opened_eq_ok {handle : Kms.Handle} {dek d : Dek} (h : opened handle dek = .ok d) :
    ∃ key, d = { dek with rawKey := some key } := by
  unfold opened at h
  cases hwrapped : dek.wrappedKey.mapError KeyError.keyMaterialEncoding with
  | error e =>
    rw [hwrapped] at h
    cases h
  | ok found =>
    rw [hwrapped] at h
    cases found with
    | none => cases h
    | some wrapped =>
      change ((handle.unwrap wrapped []).mapError KeyError.kms >>= fun raw =>
        Except.ok { dek with rawKey := some ⟨raw⟩ }) = .ok d at h
      cases hraw : (handle.unwrap wrapped []).mapError KeyError.kms with
      | error e =>
        rw [hraw] at h
        cases h
      | ok raw =>
        rw [hraw] at h
        exact ⟨⟨raw⟩, (Except.ok.inj h).symm⟩

/-- The course of recovering the raw key of a record: it is known or given out
by the registry, or it is unwrapped with the handle at hand or a new one. -/
inductive Unlocking (ring : KeyRing) (kek : Kek) (dek : Dek) :
    Option Kms.Handle → Trace → Except KeyError Dek → Prop where
  | misencoded {handle : Option Kms.Handle} (e : Base64.DecodeError)
      (h : dek.resolveRawKey = .error e) :
      Unlocking ring kek dek handle [] (.error (.keyMaterialEncoding e))
  | known {handle : Option Kms.Handle} (d : Dek) (h : dek.resolveRawKey = .ok d)
      (hkey : d.rawKey.isSome = true) :
      Unlocking ring kek dek handle [] (.ok d)
  | given (handle : Kms.Handle) (d : Dek) (h : dek.resolveRawKey = .ok d)
      (hkey : d.rawKey = none) :
      Unlocking ring kek dek (some handle) [] (opened handle d)
  | fetched (d : Dek) (h : dek.resolveRawKey = .ok d) (hkey : d.rawKey = none)
      (handle : Kms.Handle) :
      Unlocking ring kek dek none [handed ring.config kek.url (.ok handle)] (opened handle d)
  | unhandled (d : Dek) (h : dek.resolveRawKey = .ok d) (hkey : d.rawKey = none) (e : Kms.Error) :
      Unlocking ring kek dek none [handed ring.config kek.url (.error e)] (.error (.kms e))

theorem opened_comesTo {handle : Kms.Handle} {dek : Dek} {t : Trace} {r : Except KeyError Dek}
    (h : ComesTo (do
      match ← (dek.wrappedKey).mapError KeyError.keyMaterialEncoding with
      | none => throw (.missingKeyMaterial dek.kekName dek.subject dek.version)
      | some wrapped =>
        let raw ← (handle.unwrap wrapped []).mapError KeyError.kms
        return { dek with rawKey := some ⟨raw⟩ } : Action Dek) t r) :
    t = [] ∧ r = opened handle dek := by
  unfold opened
  rcases comesTo_except_bind.mp h with ⟨e, hwrapped, rfl, rfl⟩ | ⟨found, hwrapped, hrest⟩
  · rw [hwrapped]
    exact ⟨rfl, rfl⟩
  · rw [hwrapped]
    cases found with
    | none => exact comesTo_throw.mp hrest
    | some wrapped =>
      obtain ⟨r', hraw, rfl⟩ := (comesTo_bind_except fun _ _ _ => comesTo_pure).mp hrest
      obtain ⟨rfl, rfl⟩ := comesTo_except.mp hraw
      exact ⟨rfl, rfl⟩

theorem unlock_comesTo {ring : KeyRing} {kek : Kek} {handle : Option Kms.Handle} {dek : Dek}
    {t : Trace} {r : Except KeyError Dek} (h : ComesTo (ring.unlock kek handle dek) t r) :
    ring.Unlocking kek dek handle t r := by
  unfold unlock at h
  rcases comesTo_except_bind.mp h with ⟨e, hfail, rfl, rfl⟩ | ⟨d, hdone, hrest⟩
  · obtain ⟨e', hresolve, rfl⟩ := mapError_eq_error_iff.mp hfail
    exact .misencoded e' hresolve
  have hresolve : dek.resolveRawKey = .ok d := mapError_eq_ok_iff.mp hdone
  cases hkey : d.rawKey with
  | some key =>
    rw [hkey, Option.isSome_some, if_pos rfl] at hrest
    obtain ⟨rfl, rfl⟩ := comesTo_pure.mp hrest
    exact .known d hresolve (by rw [hkey]; rfl)
  | none =>
    rw [hkey, Option.isSome_none, if_neg Bool.false_ne_true] at hrest
    cases handle with
    | some handle =>
      dsimp only at hrest
      rw [pure_bind] at hrest
      obtain ⟨rfl, rfl⟩ := opened_comesTo hrest
      exact .given handle d hresolve hkey
    | none =>
      rcases keyHandle_bind_comesTo hrest with ⟨e, rfl, rfl⟩ | ⟨handle, u, rfl, hfinish⟩
      · exact .unhandled d hresolve hkey e
      · obtain ⟨rfl, rfl⟩ := opened_comesTo hfinish
        exact .fetched d hresolve hkey handle

/-- The answer to the first look-up and the reading of the clock call for a new
version, beside the expired record if there is one. -/
inductive Outdated (ring : KeyRing) (mode : Mode) (now : Int64) :
    Except RegistryError Dek → Option Dek → Prop where
  | expired (dek : Dek) (h : ring.isExpired mode now (some dek) = .ok true) :
      Outdated ring mode now (.ok dek) (some dek)
  | absent (e : RegistryError) (h : e.isNotFound = true) (writes : mode ≠ .read) :
      Outdated ring mode now (.error e) none

/-- The course of obtaining a data key with its raw key. -/
inductive DekSearch (ring : KeyRing) (kek : Kek) (subject : String) (version : Option UInt32)
    (mode : Mode) : Trace → Except KeyError Dek → Prop where
  | failed (e : RegistryError) (fatal : e.isNotFound = false) :
      DekSearch ring kek subject version mode
        [called (.getDek (ring.dekId subject version) (mode = .read)) (.error e)]
        (.error (.registry e))
  | unread (e : RegistryError) (absent : e.isNotFound = true) (reads : mode = .read)
      (now : Int64) :
      DekSearch ring kek subject version mode
        [called (.getDek (ring.dekId subject version) (mode = .read)) (.error e), clocked now]
        (.error (.dekNotFoundOnRead ring.kekName subject))
  | overflowed (dek : Dek) (now : Int64) (cause : Overflow)
      (h : ring.isExpired mode now (some dek) = .error cause) :
      DekSearch ring kek subject version mode
        [called (.getDek (ring.dekId subject version) (mode = .read)) (.ok dek), clocked now]
        (.error (.overflow cause))
  | current (dek : Dek) (now : Int64) (fresh : ring.isExpired mode now (some dek) = .ok false)
      {t : Trace} {r : Except KeyError Dek} (unlocked : ring.Unlocking kek dek none t r) :
      DekSearch ring kek subject version mode
        (called (.getDek (ring.dekId subject version) (mode = .read)) (.ok dek) ::
          clocked now :: t) r
  | unrotated (answer : Except RegistryError Dek) (now : Int64) {prior : Option Dek}
      (due : ring.Outdated mode now answer prior) {t : Trace} {e : KeyError}
      (rotated : ring.Rotation kek (ring.dekId subject version) mode prior t (.error e)) :
      DekSearch ring kek subject version mode
        (called (.getDek (ring.dekId subject version) (mode = .read)) answer ::
          clocked now :: t) (.error e)
  | rotated (answer : Except RegistryError Dek) (now : Int64) {prior : Option Dek}
      (due : ring.Outdated mode now answer prior) {t t' : Trace} {handle : Option Kms.Handle}
      {dek : Dek}
      (rotated : ring.Rotation kek (ring.dekId subject version) mode prior t (.ok (handle, dek)))
      {r : Except KeyError Dek} (unlocked : ring.Unlocking kek dek handle t' r) :
      DekSearch ring kek subject version mode
        (called (.getDek (ring.dekId subject version) (mode = .read)) answer ::
          clocked now :: (t ++ t')) r

theorem dek_comesTo {ring : KeyRing} {kek : Kek} {subject : String} {version : Option UInt32}
    {mode : Mode} {t : Trace} {r : Except KeyError Dek}
    (h : ComesTo (ring.dek kek subject version mode) t r) :
    ring.DekSearch kek subject version mode t r := by
  have hreplaced : ∀ {answer now} {prior : Option Dek} {t r}, ring.Outdated mode now answer prior →
      ComesTo (ring.rotate kek (ring.dekId subject version) mode prior >>= fun x =>
        ring.unlock kek x.1 x.2) t r →
      ring.DekSearch kek subject version mode
        (called (.getDek (ring.dekId subject version) (mode = .read)) answer ::
          clocked now :: t) r := by
    intro answer now prior t r due h
    rcases comesTo_bind.mp h with ⟨e, hfail, rfl⟩ | ⟨t₁, t₂, ⟨handle, dek⟩, hdone, hrest, rfl⟩
    · exact .unrotated answer now due (rotate_comesTo hfail)
    · exact .rotated answer now due (rotate_comesTo hdone) (unlock_comesTo hrest)
  unfold KeyRing.dek at h
  rcases lookUp_comesTo findDek_comesTo h with ⟨e, fatal, rfl, rfl⟩ | ⟨dek, u, rfl, hrest⟩ |
    ⟨e, u, absent, rfl, hrest⟩
  · exact .failed e fatal
  · obtain ⟨now, v, rfl, hclocked⟩ := comesTo_request_bind.mp hrest
    dsimp only at hclocked
    rcases comesTo_except_bind.mp hclocked with ⟨e, hfail, rfl, rfl⟩ | ⟨old, hdone, hrest⟩
    · obtain ⟨cause, hstops, rfl⟩ := mapError_eq_error_iff.mp hfail
      exact .overflowed dek now cause hstops
    · have hverdict : ring.isExpired mode now (some dek) = .ok old := mapError_eq_ok_iff.mp hdone
      cases old with
      | true => exact hreplaced (.expired dek hverdict) hrest
      | false => exact .current dek now hverdict (unlock_comesTo hrest)
  · obtain ⟨now, v, rfl, hclocked⟩ := comesTo_request_bind.mp hrest
    dsimp only at hclocked
    split at hclocked
    · rename_i reads
      obtain ⟨rfl, rfl⟩ := comesTo_throw.mp hclocked
      exact .unread e absent reads now
    · rename_i writes
      exact hreplaced (.absent e absent writes) hclocked

end KeyRing
end Envelope
