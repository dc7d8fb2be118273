import Envelope.Proofs.Reading

/-!
# Readers change and notice little

A reader leaves of a world everything but the client of its own master key.
What it comes to depends on records and handles alone: not on the time, not on
random bytes, not on the number of days after which a writer replaces a key, and
not on deleted marks.
-/

namespace Envelope

open Program Engine

/-! ## Handles -/

namespace Kms.Directory

variable {σ : Type} {k k' : Directory σ} {url : String} {config config' : Properties} {systems : σ}

/-- A directory is left as it was, but for a client that was published at an
address. -/
structure Publishes (k : Directory σ) (url : String) (k' : Directory σ) : Prop where
  drivers : k'.drivers = k.drivers
  others : ∀ other, other ≠ url → k'.slots.get? other = k.slots.get? other
  kept : ∀ client, k.slots.get? url = some (some client) → k'.slots.get? url = some (some client)
  /-- No slot stays claimed. -/
  unclaimed : k'.slots.get? url = some none → k.slots.get? url = some none

theorem Publishes.refl (k : Directory σ) (url : String) : k.Publishes url k :=
  ⟨rfl, fun _ _ => rfl, fun _ => id, id⟩

theorem Connection.publishes {driver : Driver σ} {attempt : Attempt σ Client}
    (h : k.Connection driver config url systems attempt) : k.Publishes url attempt.directory := by
  refine ⟨h.drivers, ?_, ?_, ?_⟩
  · intro other hother
    exact h.get?_of_ne hother
  · intro client hclient
    exact h.extends.clients hclient
  · intro hclaimed
    cases h with
    | known client hclient => exact hclaimed
    | connected hnew client systems' events slots hconnect hslots =>
      have hslot : slots.get? url = some (some client) := (hslots url).trans (if_pos rfl)
      rw [show slots.get? url = some none from hclaimed] at hslot
      cases hslot
    | refused hnew e systems' events slots hconnect hslots =>
      have hslot : slots.get? url = none := (hslots url).trans (if_pos rfl)
      rw [show slots.get? url = some none from hclaimed] at hslot
      cases hslot

/-- A request for a handle publishes a client at its own address at most. -/
theorem publishes_handle (k : Directory σ) (config : Properties) (url : String) (systems : σ) :
    k.Publishes url (k.handle config url systems).directory := by
  cases hresolve : k.resolve url with
  | error e =>
    rw [(handle_of_unresolved hresolve config systems).1]
    exact .refl k url
  | ok driver =>
    rw [(handle_of_resolve hresolve config systems).1]
    exact (client_connection k driver config url systems).publishes

/-- A configuration matters to handles only as far as it matters to the
drivers. -/
theorem handle_congr
    (hconnect : ∀ driver ∈ k.drivers, driver.connect config' url = driver.connect config url)
    (systems : σ) : k.handle config' url systems = k.handle config url systems := by
  cases hresolve : k.resolve url with
  | error e =>
    unfold Directory.handle
    rw [hresolve]
  | ok driver =>
    have hsame := hconnect driver (mem_of_resolve hresolve)
    have hclient : k.client driver config' url systems = k.client driver config url systems := by
      unfold Directory.client
      rw [hsame]
    unfold Directory.handle
    rw [hresolve]
    dsimp only
    rw [hclient]

end Kms.Directory

/-! ## Rules that read alike -/

namespace Executor

variable {κ : Type} {e e' : Executor κ} {context context' : Context}

/-- A number of days that makes keys rotate. -/
def Rotating (days : Option String) : Prop :=
  ∃ n, Parameter.readExpiryDays days = .ok n ∧ 0 < n

/-- Two rules, each with its executor, are the same but for the number of days
after which a key is replaced, if it is positive in both. -/
structure ReadsAlike (e : Executor κ) (context : Context) (e' : Executor κ) (context' : Context) :
    Prop where
  client : e'.client = e.client
  mode : context'.mode = context.mode
  subject : context'.subject = context.subject
  parameters : ∀ name, name ≠ Parameter.dekExpiryDays →
    e'.parameter context' name = e.parameter context name
  expiry : e'.parameter context' Parameter.dekExpiryDays =
      e.parameter context Parameter.dekExpiryDays ∨
    (Rotating (e.parameter context Parameter.dekExpiryDays) ∧
      Rotating (e'.parameter context' Parameter.dekExpiryDays))

variable {ring ring' : KeyRing}

theorem namedType_congr (h : e.ReadsAlike context e' context') :
    e'.namedType context' = e.namedType context := by
  unfold namedType
  rw [h.parameters Parameter.kmsType (by decide)]

theorem namedKey_congr (h : e.ReadsAlike context e' context') :
    e'.namedKey context' = e.namedKey context := by
  unfold namedKey
  rw [h.parameters Parameter.kmsKeyId (by decide)]

/-- The key ring of a rule, from the number of days that was read. -/
theorem ring_eq_of_expiry {days : UInt32}
    (h : Parameter.readExpiryDays (e.parameter context Parameter.dekExpiryDays) = .ok days) :
    e.ring context = (Parameter.readKekName (e.parameter context Parameter.kekName)).map
      fun name => ⟨name, Cryptor.choose (e.parameter context Parameter.dekAlgorithm), days,
        e.config⟩ := by
  unfold ring
  rw [h]
  cases Parameter.readKekName (e.parameter context Parameter.kekName) with
  | error error => rfl
  | ok name => rfl

/-- Rules that read alike have key rings that use the same keys, or fail alike. -/
theorem ring_congr (h : e.ReadsAlike context e' context') :
    (∃ error, e.ring context = .error error ∧ e'.ring context' = .error error) ∨
      ∃ ring ring', e.ring context = .ok ring ∧ e'.ring context' = .ok ring' ∧
        ring.Alike ring' ∧ ring.config = e.config ∧ ring'.config = e'.config := by
  have hname := h.parameters Parameter.kekName (by decide)
  have halgorithm := h.parameters Parameter.dekAlgorithm (by decide)
  -- Only whether the number of days is positive matters.
  have hread : ∀ {days days' : UInt32},
      Parameter.readExpiryDays (e.parameter context Parameter.dekExpiryDays) = .ok days →
      Parameter.readExpiryDays (e'.parameter context' Parameter.dekExpiryDays) = .ok days' →
      decide (0 < days') = decide (0 < days) →
      (∃ error, e.ring context = .error error ∧ e'.ring context' = .error error) ∨
        ∃ ring ring', e.ring context = .ok ring ∧ e'.ring context' = .ok ring' ∧
          ring.Alike ring' ∧ ring.config = e.config ∧ ring'.config = e'.config := by
    intro days days' hdays hdays' hpositive
    rw [ring_eq_of_expiry hdays, ring_eq_of_expiry hdays', hname, halgorithm]
    cases Parameter.readKekName (e.parameter context Parameter.kekName) with
    | error error => exact .inl ⟨error, rfl, rfl⟩
    | ok name => exact .inr ⟨_, _, rfl, rfl, ⟨rfl, rfl, hpositive⟩, rfl, rfl⟩
  rcases h.expiry with hsame | ⟨⟨days, hdays, hpositive⟩, ⟨days', hdays', hpositive'⟩⟩
  · cases hdays : Parameter.readExpiryDays (e.parameter context Parameter.dekExpiryDays) with
    | ok days =>
      apply hread hdays
      · rw [hsame]
        exact hdays
      · rfl
    | error error =>
      left
      unfold ring
      rw [hname, hsame, hdays]
      cases Parameter.readKekName (e.parameter context Parameter.kekName) with
      | error error' => exact ⟨error', rfl, rfl⟩
      | ok name => exact ⟨error, rfl, rfl⟩
  · apply hread hdays hdays'
    rw [decide_eq_true hpositive, decide_eq_true hpositive']

/-- Rules that read alike are taken on by both executors, or refused alike. -/
theorem admitted_congr (h : e.ReadsAlike context e' context') :
    (∃ error, e.admitted context = .error error ∧ e'.admitted context' = .error error) ∨
      ∃ ring ring', e.admitted context = .ok ring ∧ e'.admitted context' = .ok ring' ∧
        ring.Alike ring' ∧ ring.config = e.config ∧ ring'.config = e'.config := by
  unfold admitted
  rw [h.client, h.mode]
  rcases ring_congr h with ⟨error, hring, hring'⟩ | ⟨ring, ring', hring, hring', hsame⟩
  · left
    rw [hring, hring']
    exact ⟨.config error, rfl, rfl⟩
  · rw [hring, hring']
    by_cases hclient : e.client.isNone = true
    · left
      simp only [hclient, if_true]
      exact ⟨.notConfigured, rfl, rfl⟩
    · by_cases hmode : context.mode ≠ .write ∧ context.mode ≠ .read
      · left
        simp only [hclient, if_pos hmode]
        exact ⟨.unsupportedMode context.mode, rfl, rfl⟩
      · right
        simp only [hclient, if_neg hmode]
        exact ⟨ring, ring', rfl, rfl, hsame⟩

end Executor

/-! ## Worlds that read alike -/

/-- A key-encryption key without its deleted mark. -/
def Kek.unmarked (kek : Kek) : Kek :=
  { kek with deleted := false }

namespace World

variable {σ κ : Type} {w w' : World Store σ} {config config' : Properties} {ring ring' : KeyRing}
  {url subject : String} {type : FieldType}

/-- Readers find the same in two worlds, each with its configuration: the same
key-encryption keys, up to deleted marks, the same data keys and the same
handles. -/
structure Resembles (w : World Store σ) (config : Properties) (w' : World Store σ)
    (config' : Properties) : Prop where
  keks : ∀ name, (w'.registry.keks.get? name).map Kek.unmarked =
    (w.registry.keks.get? name).map Kek.unmarked
  deks : ∀ id, w'.registry.getDek id true = w.registry.getDek id true
  handles : ∀ url, w'.handleAt config' url = w.handleAt config url

/-- The deleted mark of a key-encryption key is not looked at, neither when it is
compared with a rule nor when its master key is named. -/
theorem bound_url_congr (kmsType kmsKeyId : Option String) (halike : ring.Alike ring')
    {kek kek' : Kek} (h : kek'.unmarked = kek.unmarked) :
    (ring'.bound kmsType kmsKeyId kek').map Kek.url =
      (ring.bound kmsType kmsKeyId kek).map Kek.url := by
  obtain ⟨name, type, id, props, doc, shared, timestamp, deleted⟩ := kek
  obtain ⟨name', type', id', props', doc', shared', timestamp', deleted'⟩ := kek'
  simp only [Kek.unmarked, Kek.mk.injEq, and_true] at h
  obtain ⟨rfl, rfl, rfl, rfl, rfl, rfl, rfl⟩ := h
  have hcheck : ring'.checkBinding kmsType kmsKeyId
        ⟨name', type', id', props', doc', shared', timestamp', deleted'⟩ =
      ring.checkBinding kmsType kmsKeyId
        ⟨name', type', id', props', doc', shared', timestamp', deleted⟩ := by
    unfold KeyRing.checkBinding
    rw [halike.kekName]
  unfold KeyRing.bound
  rw [hcheck]
  cases ring.checkBinding kmsType kmsKeyId
      ⟨name', type', id', props', doc', shared', timestamp', deleted⟩ with
  | error error => rfl
  | ok _ => rfl

theorem foundUrl_congr (h : w.Resembles config w' config') (halike : ring.Alike ring')
    (kmsType kmsKeyId : Option String) :
    w'.foundUrl ring' kmsType kmsKeyId = w.foundUrl ring kmsType kmsKeyId := by
  have hkeks := h.keks ring.kekName
  unfold foundUrl Store.getKek
  rw [halike.kekName]
  cases hkek : w.registry.keks.get? ring.kekName with
  | none =>
    rw [hkek, Option.map_none, Option.map_eq_none_iff] at hkeks
    rw [hkeks]
    dsimp only
    rw [KeyRing.fetched_of_absent (Store.isNotFound_kekNotFound ring.kekName)]
    rfl
  | some kek =>
    rw [hkek, Option.map_some, Option.map_eq_some_iff] at hkeks
    obtain ⟨kek', hkek', hunmarked⟩ := hkeks
    rw [hkek']
    exact bound_url_congr kmsType kmsKeyId halike hunmarked

theorem foundDek_congr (h : w.Resembles ring.config w' ring'.config) (halike : ring.Alike ring')
    (url subject : String) (version : Option UInt32) :
    w'.foundDek ring' url subject version = w.foundDek ring url subject version := by
  have hid : ring'.dekId subject version = ring.dekId subject version := by
    unfold KeyRing.dekId
    rw [halike.kekName, halike.cryptor]
  unfold foundDek
  rw [hid, h.deks, h.handles, halike.kekName]

theorem readValue_congr (h : w.Resembles ring.config w' ring'.config) (halike : ring.Alike ring')
    (url subject : String) (type : FieldType) (value : Option FieldValue) :
    w'.readValue ring' url subject type value = w.readValue ring url subject type value := by
  have hreceived : Transform.received ring' type = Transform.received ring type := by
    unfold Transform.received Transform.unframed
    rw [halike.rotates]
  have hdecrypted : w'.decrypted ring' url subject type = w.decrypted ring url subject type := by
    funext bytes
    unfold decrypted
    rw [hreceived, halike.cryptor]
    simp only [foundDek_congr h halike]
  unfold readValue
  rw [hdecrypted]

/-- Rules that read alike come to the same in worlds in which readers find the
same. -/
theorem reading_congr {e e' : Executor κ} {context context' : Context}
    (h : w.Resembles e.config w' e'.config) (hrules : e.ReadsAlike context e' context')
    (type : FieldType) (value : Option FieldValue) :
    w'.reading e' context' type value = w.reading e context type value := by
  rcases Executor.admitted_congr hrules with ⟨error, htaken, htaken'⟩ |
    ⟨ring, ring', htaken, htaken', halike, hconfig, hconfig'⟩
  · rw [reading_of_rejected htaken, reading_of_rejected htaken']
  · rw [← hconfig, ← hconfig'] at h
    have hurl : w'.foundUrl ring' (e'.namedType context') (e'.namedKey context') =
        w.foundUrl ring (e.namedType context) (e.namedKey context) := by
      rw [Executor.namedType_congr hrules, Executor.namedKey_congr hrules]
      exact foundUrl_congr h halike _ _
    cases hfound : w.foundUrl ring (e.namedType context) (e.namedKey context) with
    | error error =>
      rw [hfound] at hurl
      rw [reading_of_unresolved htaken hfound, reading_of_unresolved htaken' hurl]
    | ok url =>
      rw [hfound] at hurl
      rw [reading_of_resolved htaken hfound, reading_of_resolved htaken' hurl, hrules.subject]
      exact readValue_congr h halike url context.subject type value

/-- Two worlds hold the same keys: the same records, clients and systems.  Their
clocks, random bytes and logs may differ. -/
structure SameKeys (w w' : World Store σ) : Prop where
  registry : w'.registry = w.registry
  directory : w'.directory = w.directory
  systems : w'.systems = w.systems

theorem SameKeys.resembles (h : w.SameKeys w')
    (hconnect : ∀ driver ∈ w.directory.drivers, driver.connect config' = driver.connect config) :
    w.Resembles config w' config' := by
  refine ⟨?_, ?_, ?_⟩
  · intro name
    rw [h.registry]
  · intro id
    rw [h.registry]
  · intro url
    unfold handleAt
    rw [h.directory, h.systems, Kms.Directory.handle_congr]
    intro driver hdriver
    rw [hconnect driver hdriver]

/-- Readers have no side effects on keys: they leave every record as it was, draw
no random bytes, and publish at most a client of the master key of their own
key-encryption key.  What they come to is the same at every time, with every
random source, and for every positive number of days after which a key is
replaced, as far as the drivers do not look at it. -/
theorem read_only {e : Executor κ} {kind : ExecutorKind} {context : Context}
    {value : Option FieldValue} {result : Except Error (Option FieldValue)}
    (reads : context.mode = .read)
    (h : (run (e.transform kind context type value).run).run w = (result, w')) :
    w'.registry = w.registry ∧ w'.random = w.random ∧
      (w'.directory = w.directory ∨
        ∃ ring kek, e.ring context = .ok ring ∧
          w.registry.keks.get? ring.kekName = some kek ∧
          w.directory.Publishes kek.url w'.directory) ∧
      ∀ (e' : Executor κ) (context' : Context) (v : World Store σ),
        e.ReadsAlike context e' context' → w.SameKeys v →
        (∀ driver ∈ w.directory.drivers, driver.connect e'.config = driver.connect e.config) →
        ((run (e'.transform kind context' type value).run).run v).1 = result := by
  obtain ⟨hresult, hworld⟩ := run_reading w e kind reads type value
  rw [h] at hresult hworld
  dsimp only at hresult hworld
  have hsame : ∀ (e' : Executor κ) (context' : Context) (v : World Store σ),
      e.ReadsAlike context e' context' → w.SameKeys v →
      (∀ driver ∈ w.directory.drivers, driver.connect e'.config = driver.connect e.config) →
      ((run (e'.transform kind context' type value).run).run v).1 = result := by
    intro e' context' v hrules hkeys hconnect
    have reads' : context'.mode = .read := hrules.mode.trans reads
    obtain ⟨hresult', -⟩ := run_reading v e' kind reads' type value
    rw [hresult', hresult]
    exact reading_congr (hkeys.resembles hconnect) hrules (kind.declared type) value
  rcases hworld with hsame' | ⟨ring, kek, hring, hstored, hasked⟩
  · obtain rfl : w' = w := hsame'
    exact ⟨rfl, rfl, .inl rfl, hsame⟩
  · obtain rfl : w' = ((keyHandle ring.config kek.url).run w).2 := hasked
    refine ⟨rfl, rfl, .inr ⟨ring, kek, hring, hstored, ?_⟩, hsame⟩
    exact Kms.Directory.publishes_handle w.directory ring.config kek.url w.systems

/-- A value that was written under rotating keys is read with another number of
days, much later and with other random bytes. -/
theorem read_only_later :
    ∃ (e : Executor Unit) (context context' : Context) (w w' v : World Store Unit)
      (out : Option FieldValue), context.mode = .read ∧
      (run (e.transform .field context .bytes out).run).run w =
        (.ok (some (.bytes [104, 105])), w') ∧
      context'.params ≠ context.params ∧ e.ReadsAlike context e context' ∧
      w.SameKeys v ∧ v.clock ≠ w.clock ∧ v.random ≠ w.random ∧
      ((run (e.transform .field context' .bytes out).run).run v).1 =
        .ok (some (.bytes [104, 105])) := by
  obtain ⟨out, w, hwritten, hfiled, hclock, -⟩ := Sample.exists_written
  let v : World Store Unit :=
    { w with clock := 864000000000, random := ⟨w.random.byte, w.random.position + 1⟩ }
  have hread := Sample.read_written hwritten (.refl w) hfiled Sample.ring_reader (by decide)
  have hrun : (run (Sample.executor.transform .field (Sample.reader "1") .bytes out).run).run w =
      (.ok (some (.bytes [104, 105])), _) := Prod.ext hread rfl
  have hrules : Sample.executor.ReadsAlike (Sample.reader "1") Sample.executor
      (Sample.reader "30") := by
    refine ⟨rfl, rfl, rfl, ?_, .inr ⟨⟨1, ?_, by decide⟩, ⟨30, ?_, by decide⟩⟩⟩
    · intro name hname
      rw [Sample.parameter_reader hname, Sample.parameter_reader hname]
    · decide +kernel
    · decide +kernel
  have hkeys : w.SameKeys v := ⟨rfl, rfl, rfl⟩
  have hlater : v.clock ≠ w.clock := by
    rw [hclock]
    exact (by decide : (864000000000 : Int64) ≠ 0)
  have hdrawn : v.random ≠ w.random := by
    intro hsame
    have hposition : w.random.position + 1 = w.random.position := congrArg (·.position) hsame
    omega
  obtain ⟨-, -, -, hsame⟩ := read_only rfl hrun
  exact ⟨Sample.executor, Sample.reader "1", Sample.reader "30", w, _, v, out, rfl, hrun,
    by decide +kernel, hrules, hkeys, hlater, hdrawn,
    hsame Sample.executor (Sample.reader "30") v hrules hkeys fun _ _ => rfl⟩

end World
end Envelope
