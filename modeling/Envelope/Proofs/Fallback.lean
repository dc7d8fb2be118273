import Envelope.Proofs.Reading

/-!
# Failed registrations

A writer that registers a data key and is refused falls back on the record that
it found expired, if it found one (`KeyRing.Recourse`).  After a refusal that is
no lost race nothing else happens.  After a lost race the record of the other
writer is looked up once and used; but where this look-up fails, the expired
record is used after all.
-/

namespace Envelope

open Program Engine

namespace Engine

/-- The events that were logged in the course of a trace, the first one
first. -/
def reports : Trace → List Event
  | [] => []
  | ⟨.log event, _⟩ :: t => event :: reports t
  | _ :: t => reports t

/-- The warnings among these events. -/
def warnings (t : Trace) : List Event :=
  (reports t).filter fun event => event.level = "WARN"

variable {config : Properties} {url : String} {now : Int64}

@[simp] theorem reports_nil : reports [] = [] := rfl

@[simp] theorem reports_called (c : Registry.Call) (answer : c.Answer) (t : Trace) :
    reports (called c answer :: t) = reports t := rfl

@[simp] theorem reports_clocked (now : Int64) (t : Trace) :
    reports (clocked now :: t) = reports t := rfl

@[simp] theorem reports_handed (answer : Except Kms.Error Kms.Handle) (t : Trace) :
    reports (handed config url answer :: t) = reports t := rfl

@[simp] theorem reports_drawn (n : Nat) (bytes : { bytes : Bytes // bytes.length = n })
    (t : Trace) : reports (drawn n bytes :: t) = reports t := rfl

@[simp] theorem reports_logged (event : Event) (t : Trace) :
    reports (logged event :: t) = event :: reports t := rfl

@[simp] theorem reports_append (t u : Trace) : reports (t ++ u) = reports t ++ reports u := by
  induction t with
  | nil => rfl
  | cons x t ih =>
    obtain ⟨r, answer⟩ := x
    cases r with
    | log event => exact congrArg (event :: ·) ih
    | registry c => exact ih
    | clock => exact ih
    | random n => exact ih
    | keyHandle config url => exact ih

@[simp] theorem reports_drawnTrace (u : List (Program.Exchange Draw.signature)) :
    reports (drawnTrace u) = [] := by
  induction u with
  | nil => rfl
  | cons x u ih => exact ih

/-- Nothing is asked of the registry in the course of a trace, and nothing is
logged. -/
structure Silent (t : Trace) : Prop where
  calls : registryCalls t = []
  reports : reports t = []

theorem silent_drawnTrace (u : List (Program.Exchange Draw.signature)) : Silent (drawnTrace u) :=
  ⟨registryCalls_drawnTrace u, reports_drawnTrace u⟩

end Engine

namespace KeyRing

variable {ring : KeyRing} {kek : Kek} {id : DekId} {subject : String} {version : Option UInt32}
  {mode : Mode} {t u v w : Trace} {dek : Dek} {r : Except KeyError Dek}

/-- A data key is prepared without a report. -/
theorem Preparation.silent {r : Except KeyError (Option Kms.Handle × Option Bytes)}
    (h : ring.Preparation kek t r) : Silent t := by
  cases h with
  | shared h => exact ⟨rfl, rfl⟩
  | unhandled h e => exact ⟨rfl, rfl⟩
  | handled h handle wrapping =>
    cases wrapping with
    | unsupported e h => exact ⟨rfl, rfl⟩
    | wrapped a h key wrap =>
      obtain ⟨hcalls, hreports⟩ := silent_drawnTrace _
      exact ⟨hcalls, hreports⟩

theorem Unlocking.silent {handle : Option Kms.Handle} (h : ring.Unlocking kek dek handle t r) :
    Silent t := by
  constructor
  · exact h.registryCalls
  · cases h <;> rfl

/-- What is come to is a record with its raw key: the one that the record holds,
which is known without a handle of the master key or recovered with the handle
that was handed out. -/
structure Resolves (ring : KeyRing) (kek : Kek) (t : Trace) (dek : Dek)
    (r : Except KeyError Dek) : Prop where
  result : (∀ handle, r = unlocked handle dek) ∨
    ∃ handle, handed ring.config kek.url handle ∈ t ∧ r = unlocked handle dek
  holds : ∀ d, r = .ok d → ∃ raw, d = { dek with rawKey := some raw } ∧ ring.Holds kek t dek raw

theorem Unlocking.resolves {handle : Option Kms.Handle} (h : ring.Unlocking kek dek handle u r)
    (hsub : u ⊆ t) (hhandle : ∀ h, handle = some h → handed ring.config kek.url (.ok h) ∈ t) :
    ring.Resolves kek t dek r := by
  constructor
  · cases h with
    | misencoded e hresolved =>
      exact .inl fun handle => (unlocked_of_misencoded hresolved).symm
    | known d hresolved hkey => exact .inl fun handle => (unlocked_of_known hresolved hkey).symm
    | given handle d hresolved hkey =>
      exact .inr ⟨.ok handle, hhandle handle rfl, (unlocked_of_handed hresolved hkey).symm⟩
    | fetched d hresolved hkey handle =>
      exact .inr ⟨.ok handle, hsub List.mem_cons_self, (unlocked_of_handed hresolved hkey).symm⟩
    | unhandled d hresolved hkey e =>
      exact .inr ⟨.error e, hsub List.mem_cons_self, (unlocked_of_unhandled hresolved hkey).symm⟩
  · rintro d rfl
    exact h.holds hsub hhandle

/-! ## The course of a registration -/

/-- What a writer does in the end, once its registration has come to something:
it uses the record that it was given, or else the one that it found expired,
with a warning, or else it fails. -/
inductive Recourse (ring : KeyRing) (kek : Kek) (subject : String) (next : UInt32) (t : Trace) :
    Option Dek → Except KeyError Dek → Trace → Except KeyError Dek → Prop where
  | used {prior : Option Dek} (dek : Dek) {u : Trace} (silent : Silent u)
      {r : Except KeyError Dek} (resolved : ring.Resolves kek t dek r) :
      Recourse ring kek subject next t prior (.ok dek) u r
  | failed (e : KeyError) : Recourse ring kek subject next t none (.error e) [] (.error e)
  | kept (prior : Dek) (e : KeyError) {u : Trace} (silent : Silent u)
      {r : Except KeyError Dek} (resolved : ring.Resolves kek t prior r) :
      Recourse ring kek subject next t (some prior) (.error e)
        (logged (.dekKept ring.kekName subject next e) :: u) r

theorem Recourse.registryCalls {next : UInt32} {prior : Option Dek}
    {outcome : Except KeyError Dek} (h : ring.Recourse kek subject next t prior outcome u r) :
    registryCalls u = [] := by
  cases h with
  | used dek silent resolved => exact silent.calls
  | failed e => rfl
  | kept prior e silent resolved => exact silent.calls

/-- The course of obtaining a data key when one is registered: the look-up finds
none or an expired one, the next one is prepared and registered, and the writer
does what is left to do. -/
inductive Attempt (ring : KeyRing) (kek : Kek) (subject : String) (version : Option UInt32)
    (mode : Mode) (t : Trace) (r : Except KeyError Dek) : Prop where
  | mk (first : Except RegistryError Dek) (now : Int64) {prior : Option Dek}
      (due : ring.Outdated mode now first prior) {next : UInt32}
      (hnext : ring.nextVersion subject prior = .ok next) {u v w : Trace}
      (ht : t = called (.getDek (ring.dekId subject version) (mode = .read)) first ::
        clocked now :: (u ++ v ++ w))
      (prepared : Silent u) {wrapped : Option Bytes} {outcome : Except KeyError Dek}
      (registered : ring.DekRegistration (ring.dekId subject version) mode next wrapped v outcome)
      (recourse : ring.Recourse kek subject next t prior outcome w r)

theorem Rotation.attempt_of_error {first : Except RegistryError Dek} {now : Int64}
    {prior : Option Dek} {e : KeyError} (due : ring.Outdated mode now first prior)
    (h : ring.Rotation kek (ring.dekId subject version) mode prior u (.error e))
    (hcalls : registryCalls u ≠ [])
    (ht : t = called (.getDek (ring.dekId subject version) (mode = .read)) first ::
      clocked now :: u) :
    ring.Attempt kek subject version mode t (.error e) := by
  cases h with
  | exhausted e h => exact absurd rfl hcalls
  | unprepared next hnext prepared => exact absurd prepared.registryCalls hcalls
  | failed next hnext prepared registered =>
    rw [← List.append_nil (_ ++ _)] at ht
    exact .mk first now due hnext ht prepared.silent registered (.failed e)

theorem Rotation.attempt_of_ok {first : Except RegistryError Dek} {now : Int64}
    {prior : Option Dek} {handle : Option Kms.Handle} (due : ring.Outdated mode now first prior)
    (h : ring.Rotation kek (ring.dekId subject version) mode prior u (.ok (handle, dek)))
    (unlocked : ring.Unlocking kek dek handle v r)
    (ht : t = called (.getDek (ring.dekId subject version) (mode = .read)) first ::
      clocked now :: (u ++ v)) :
    ring.Attempt kek subject version mode t r := by
  have hleft : u ⊆ t := by
    intro x hx
    rw [ht]
    exact List.mem_cons_of_mem _ (List.mem_cons_of_mem _ (List.mem_append_left _ hx))
  have hright : v ⊆ t := by
    intro x hx
    rw [ht]
    exact List.mem_cons_of_mem _ (List.mem_cons_of_mem _ (List.mem_append_right _ hx))
  have hhandle : ∀ h, handle = some h → handed ring.config kek.url (.ok h) ∈ t := by
    rintro h' rfl
    exact hleft h.handed_mem
  have resolved : ring.Resolves kek t dek r := unlocked.resolves hright hhandle
  cases h with
  | replaced next hnext prepared registered =>
    exact .mk first now due hnext ht prepared.silent registered (.used dek unlocked.silent resolved)
  | kept prior next hnext prepared registered =>
    rw [List.append_assoc, List.singleton_append] at ht
    exact .mk first now due hnext ht prepared.silent registered
      (.kept dek _ unlocked.silent resolved)

/-- Whoever registers a data key makes an attempt. -/
theorem DekSearch.attempt (h : ring.DekSearch kek subject version mode t r) {kekName : String}
    {request : DekRequest} {answer : Except RegistryError Dek}
    (hmem : called (.registerDek kekName request) answer ∈ t) :
    ring.Attempt kek subject version mode t r := by
  have hcalls := mem_registryCalls.mpr hmem
  -- The calls of a search that does not rotate, and of a rotation that does not
  -- get to its registration, are look-ups.
  cases h with
  | failed e fatal => simp at hcalls
  | unread e absent reads now => simp at hcalls
  | overflowed dek now cause stops => simp at hcalls
  | current dek now fresh unlocked =>
    rw [registryCalls_called, registryCalls_clocked, unlocked.registryCalls] at hcalls
    simp at hcalls
  | unrotated first now due rotated =>
    refine rotated.attempt_of_error due (fun hnone => ?_) rfl
    rw [registryCalls_called, registryCalls_clocked, hnone] at hcalls
    simp at hcalls
  | rotated first now due rotated unlocked => exact rotated.attempt_of_ok due unlocked rfl

/-! ## Refused registrations -/

variable {next : UInt32} {kekName : String} {request : DekRequest} {e : RegistryError}

/-- The version after an expired record is the next one. -/
theorem nextVersion_eq_ok (h : ring.nextVersion subject (some dek) = .ok next) :
    next.toNat = dek.version.toNat + 1 := by
  by_cases hlast : dek.version = UInt32.ofNat (UInt32.size - 1)
  · rw [nextVersion, if_pos hlast] at h
    cases h
  · rw [nextVersion, if_neg hlast] at h
    obtain rfl := Except.ok.inj h
    have hne : dek.version.toNat ≠ 4294967295 := fun heq => hlast (UInt32.toNat_inj.mp heq)
    have hlt := dek.version.toNat_lt
    rw [UInt32.toNat_add]
    exact Nat.mod_eq_of_lt (Nat.succ_lt_succ (by omega))

/-- A failed look-up fails with what the registry reported, or with an error of
its own if there is no record. -/
theorem fetched_error {α : Type} (absent : KeyError) (e : RegistryError) :
    fetched absent (.error e : Except RegistryError α) =
      .error (if e.isNotFound then absent else .registry e) := by
  by_cases habsent : e.isNotFound = true
  · rw [fetched_of_absent habsent, if_pos habsent]
  · rw [fetched_of_fatal (eq_false_of_ne_true habsent), if_neg habsent]

/-- A registration that was refused has failed with the refusal, or another
writer was first and one look-up has settled it. -/
theorem DekRegistration.of_refused {wrapped : Option Bytes}
    (h : ring.DekRegistration id mode next wrapped t r)
    (hmem : called (.registerDek kekName request) (.error e) ∈ t) :
    kekName = ring.kekName ∧ request = dekRequest id next wrapped ∧
      (e.isConflict = false ∧ t = [called (.registerDek kekName request) (.error e)] ∧
          r = .error (.registry e) ∨
        e.isConflict = true ∧ ∃ answer,
          t = [called (.registerDek kekName request) (.error e),
            logged (.dekConflicted kekName id.subject next),
            called (.getDek id (mode = .read)) answer] ∧
          r = fetched (.dekNotFoundOnWrite kekName id.subject) answer) := by
  have hcalls := mem_registryCalls.mpr hmem
  cases h with
  | registered record => simp at hcalls
  | refused e' fatal =>
    rcases hcalls with _ | ⟨_, ⟨⟩⟩
    exact ⟨rfl, rfl, .inl ⟨fatal, rfl, rfl⟩⟩
  | settled e' lost answer =>
    rcases hcalls with _ | ⟨_, _ | ⟨_, ⟨⟩⟩⟩
    exact ⟨rfl, rfl, .inr ⟨lost, answer, rfl, rfl⟩⟩

/-- Only the registration asks the registry to register a data key. -/
theorem mem_registration {deleted : Bool} {first : Except RegistryError Dek} {now : Int64}
    (hu : registryCalls u = []) (hw : registryCalls w = []) {answer : Except RegistryError Dek}
    (hmem : called (.registerDek kekName request) answer ∈
      called (.getDek id deleted) first :: clocked now :: (u ++ v ++ w)) :
    called (.registerDek kekName request) answer ∈ v := by
  have hcalls := mem_registryCalls.mpr hmem
  rw [registryCalls_called, registryCalls_clocked, registryCalls_append, registryCalls_append, hu,
    hw, List.nil_append, List.append_nil] at hcalls
  apply mem_registryCalls.mp
  cases hcalls with
  | tail _ hcalls => exact hcalls

/-- An attempt in which the registration was refused: the look-up, the silent
preparation, the refusal, which one more look-up settles if a race was lost, and
what the writer does in the end. -/
theorem Attempt.of_refused (h : ring.Attempt kek subject version mode t r)
    (hmem : called (.registerDek kekName request) (.error e) ∈ t) :
    ∃ first now prior outcome u v w,
      t = called (.getDek (ring.dekId subject version) false) first :: clocked now ::
        (u ++ v ++ w) ∧
      ring.Outdated mode now first prior ∧ ring.nextVersion subject prior = .ok request.version ∧
      Silent u ∧ kekName = ring.kekName ∧
      (e.isConflict = false ∧ v = [called (.registerDek kekName request) (.error e)] ∧
          outcome = .error (.registry e) ∨
        e.isConflict = true ∧ ∃ answer,
          v = [called (.registerDek kekName request) (.error e),
            logged (.dekConflicted kekName subject request.version),
            called (.getDek (ring.dekId subject version) false) answer] ∧
          outcome = fetched (.dekNotFoundOnWrite kekName subject) answer) ∧
      ring.Recourse kek subject request.version t prior outcome w r := by
  obtain ⟨first, now, due, hnext, ht, prepared, registered, recourse⟩ := h
  rename_i prior next u v w wrapped outcome
  rw [ht] at hmem
  have hv := mem_registration prepared.calls recourse.registryCalls hmem
  obtain ⟨hname, rfl, hrefused⟩ := registered.of_refused hv
  -- Whoever finds a record outdated is no reader, and sees no deleted records.
  have hwrites : decide (mode = .read) = false := decide_eq_false due.writes
  rw [hwrites] at ht hrefused
  exact ⟨first, now, prior, outcome, u, v, w, ht, due, hnext, prepared, hname, hrefused, recourse⟩

/-! ## Refusals take place -/

theorem createDek_refused (ring : KeyRing) (id : DekId) (mode : Mode) (next : UInt32)
    (wrapped : Option Bytes) (fatal : e.isConflict = false) :
    ComesTo (ring.createDek id mode next wrapped)
      [called (.registerDek ring.kekName (dekRequest id next wrapped)) (.error e)]
      (.error (.registry e)) := by
  have hstore : ComesTo (ring.storeDek (dekRequest id next wrapped))
      [called (.registerDek ring.kekName (dekRequest id next wrapped)) (.error e)]
      (.error (.registry e)) := by
    refine comesTo_request_bind.mpr ⟨.error e, [], rfl, ?_⟩
    dsimp only
    rw [fatal, if_neg Bool.false_ne_true]
    exact comesTo_throw.mpr ⟨rfl, rfl⟩
  exact comesTo_bind.mpr (.inl ⟨_, hstore, rfl⟩)

theorem createDek_lost (ring : KeyRing) (id : DekId) (mode : Mode) (next : UInt32)
    (wrapped : Option Bytes) (lost : e.isConflict = true) (answer : Except RegistryError Dek) :
    ComesTo (ring.createDek id mode next wrapped)
      [called (.registerDek ring.kekName (dekRequest id next wrapped)) (.error e),
        logged (.dekConflicted ring.kekName id.subject next),
        called (.getDek id (mode = .read)) answer]
      (fetched (.dekNotFoundOnWrite ring.kekName id.subject) answer) := by
  have hstore : ComesTo (ring.storeDek (dekRequest id next wrapped))
      [called (.registerDek ring.kekName (dekRequest id next wrapped)) (.error e),
        logged (.dekConflicted ring.kekName id.subject next)] (.ok none) := by
    refine comesTo_request_bind.mpr ⟨.error e, _, rfl, ?_⟩
    dsimp only
    rw [if_pos lost]
    exact comesTo_request_bind.mpr ⟨(), [], rfl, comesTo_pure.mpr ⟨rfl, rfl⟩⟩
  have hfind : ComesTo (findDek id mode) [called (.getDek id (mode = .read)) answer]
      (present answer) :=
    comesTo_request_bind.mpr ⟨answer, [], rfl, comesTo_except.mpr ⟨rfl, rfl⟩⟩
  refine comesTo_bind.mpr (.inr ⟨_, _, none, hstore, ?_, rfl⟩)
  unfold fetched
  cases hpresent : present answer with
  | error cause =>
    rw [hpresent] at hfind
    exact comesTo_bind.mpr (.inl ⟨cause, hfind, rfl⟩)
  | ok found =>
    rw [hpresent] at hfind
    refine comesTo_bind.mpr (.inr ⟨_, [], found, hfind, ?_, rfl⟩)
    cases found with
    | none => exact comesTo_throw.mpr ⟨rfl, rfl⟩
    | some record => exact comesTo_pure.mpr ⟨rfl, rfl⟩

variable {now : Int64} {cause : KeyError}

/-- With an expired record at hand and under a shared key-encryption key, the key
is recovered of the record that is registered, or of the expired one if none can
be registered. -/
theorem dek_of_expired {d : Dek} (shared : kek.shared = true)
    (hexpired : ring.isExpired mode now (some dek) = .ok true)
    (hnext : ring.nextVersion subject (some dek) = .ok next)
    (hcreate : ComesTo
      (tryCatch (ring.createDek (ring.dekId subject version) mode next none) fun e => do
        log (.dekKept ring.kekName subject next e)
        return dek) t (.ok d))
    (hunlock : ComesTo (ring.unlock kek none d) u r) :
    ComesTo (ring.dek kek subject version mode)
      (called (.getDek (ring.dekId subject version) (mode = .read)) (.ok dek) ::
        clocked now :: (t ++ u)) r := by
  have hrotate : ComesTo (ring.rotate kek (ring.dekId subject version) mode (some dek)) t
      (.ok (none, d)) := by
    refine comesTo_except_bind.mpr (.inr ⟨next, hnext, ?_⟩)
    rw [shared]
    exact (comesTo_bind_except fun _ _ _ => comesTo_pure).mpr ⟨.ok d, hcreate, rfl⟩
  refine .ask _ (.ask _ (comesTo_except_bind.mpr (.inr ⟨true, ?_, ?_⟩)))
  · exact mapError_eq_ok_iff.mpr hexpired
  exact comesTo_bind.mpr (.inr ⟨t, u, _, hrotate, hunlock, rfl⟩)

theorem dek_replaced {d : Dek} (shared : kek.shared = true)
    (hexpired : ring.isExpired mode now (some dek) = .ok true)
    (hnext : ring.nextVersion subject (some dek) = .ok next)
    (hcreate : ComesTo (ring.createDek (ring.dekId subject version) mode next none) t (.ok d))
    (hunlock : ComesTo (ring.unlock kek none d) u r) :
    ComesTo (ring.dek kek subject version mode)
      (called (.getDek (ring.dekId subject version) (mode = .read)) (.ok dek) ::
        clocked now :: (t ++ u)) r :=
  dek_of_expired shared hexpired hnext (comesTo_tryCatch.mpr (.inl ⟨d, hcreate, rfl⟩)) hunlock

theorem dek_kept (shared : kek.shared = true)
    (hexpired : ring.isExpired mode now (some dek) = .ok true)
    (hnext : ring.nextVersion subject (some dek) = .ok next)
    (hcreate : ComesTo (ring.createDek (ring.dekId subject version) mode next none) t
      (.error cause))
    (hunlock : ComesTo (ring.unlock kek none dek) u r) :
    ComesTo (ring.dek kek subject version mode)
      (called (.getDek (ring.dekId subject version) (mode = .read)) (.ok dek) ::
        clocked now :: (t ++ [logged (.dekKept ring.kekName subject next cause)] ++ u)) r := by
  have hkeep : ComesTo (do
      log (.dekKept ring.kekName subject next cause)
      return dek : Action Dek) [logged (.dekKept ring.kekName subject next cause)] (.ok dek) :=
    comesTo_request_bind.mpr ⟨(), [], rfl, comesTo_pure.mpr ⟨rfl, rfl⟩⟩
  exact dek_of_expired shared hexpired hnext
    (comesTo_tryCatch.mpr (.inr ⟨t, _, cause, hcreate, hkeep, rfl⟩)) hunlock

theorem unlock_clear {text : String} {raw : Bytes} (hunknown : dek.rawKey = none)
    (hclear : dek.keyMaterial = some text) (hraw : Dek.decodeMaterial text = .ok raw) :
    ComesTo (ring.unlock kek none dek) [] (.ok { dek with rawKey := some ⟨raw⟩ }) := by
  have hresolved : dek.resolveRawKey = .ok { dek with rawKey := some ⟨raw⟩ } := by
    rw [Dek.resolveRawKey, hunknown, hclear]
    dsimp only
    rw [hraw]
    rfl
  refine comesTo_except_bind.mpr (.inr ⟨_, mapError_eq_ok_iff.mpr hresolved, ?_⟩)
  exact comesTo_pure.mpr ⟨rfl, rfl⟩

/-! ## What a refusal leads to -/

/-- A lost race.  Whatever the registry answers, when a data key cannot be
registered because another writer was first, the first look-up is made once more
and the registry is asked for nothing else.  A record that this refetch gives is
the one whose key is recovered and returned, without a warning.  When it fails
and there was no record before, the writer fails with it, or with an error of
its own if there is none now.  When it fails and an expired record was there
before, this record is used. -/
theorem lost_registration_settled (h : ComesTo (ring.dek kek subject version mode) t r)
    (hmem : called (.registerDek kekName request) (.error e) ∈ t) (lost : e.isConflict = true) :
    ∃ first now u answer w,
      t = called (.getDek (ring.dekId subject version) false) first :: clocked now ::
        (u ++ [called (.registerDek kekName request) (.error e),
          logged (.dekConflicted kekName subject request.version),
          called (.getDek (ring.dekId subject version) false) answer] ++ w) ∧
      registryCalls u = [] ∧ registryCalls w = [] ∧
      (∀ found, answer = .ok found → warnings t = [] ∧ ring.Resolves kek t found r) ∧
      ∀ e', answer = .error e' →
        (∀ e₀, first = .error e₀ → r =
          .error (if e'.isNotFound then .dekNotFoundOnWrite kekName subject else .registry e')) ∧
        ∀ prior, first = .ok prior →
          ring.isExpired mode now (some prior) = .ok true ∧ ring.Resolves kek t prior r := by
  obtain ⟨first, now, prior, outcome, u, v, w, ht, due, -, silent, rfl, hrefused, recourse⟩ :=
    ((dek_comesTo h).attempt hmem).of_refused hmem
  obtain ⟨fatal, -, -⟩ | ⟨-, answer, rfl, rfl⟩ := hrefused
  · rw [lost] at fatal
    cases fatal
  refine ⟨first, now, u, answer, w, ht, silent.calls, recourse.registryCalls, ?_, ?_⟩
  · rintro found rfl
    cases recourse with
    | used _ silent' resolved =>
      refine ⟨?_, resolved⟩
      rw [ht]
      simp [warnings, silent.reports, silent'.reports, Event.level]
  · rintro e' rfl
    rw [fetched_error] at recourse
    cases due with
    | absent e₀ absent writes =>
      cases recourse with
      | failed _ => exact ⟨fun _ _ => rfl, nofun⟩
    | expired dek hexpired =>
      cases recourse with
      | kept _ _ silent' resolved =>
        refine ⟨nofun, ?_⟩
        rintro _ ⟨⟩
        exact ⟨hexpired, resolved⟩

/-- The record of another writer is used in place of an expired one. -/
theorem lost_registration_settled_refetched :
    let ring : KeyRing := ⟨"k", ⟨"AES128_GCM"⟩, 1, ∅⟩
    let kek : Kek := ⟨"k", "local-kms", "m", ∅, none, true, 0, false⟩
    let id := ring.dekId "s" (some Dek.latestVersion)
    let prior : Dek :=
      { Dek.bare "k" "s" 1 "AES128_GCM" with keyMaterial := some "AAECAwQFBgcICQoLDA0ODw==" }
    let found : Dek :=
      { prior with version := 2, keyMaterial := some "EBESExQVFhcYGRobHB0eHw==" }
    let request : DekRequest := ⟨"s", 2, "AES128_GCM", none⟩
    let e := RegistryError.conflict ""
    let t : Trace := [called (.getDek id false) (.ok prior), clocked 86400000,
      called (.registerDek "k" request) (.error e), logged (.dekConflicted "k" "s" 2),
      called (.getDek id false) (.ok found)]
    let d : Dek := { found with rawKey := some ⟨(List.range' 16 16).map UInt8.ofNat⟩ }
    ComesTo (ring.dek kek "s" (some Dek.latestVersion) .write) t (.ok d) ∧
      called (.registerDek "k" request) (.error e) ∈ t ∧ e.isConflict = true ∧
      warnings t = [] ∧ ring.Resolves kek t found (.ok d) := by
  intro ring kek id prior found request e t d
  have hexpired : ring.isExpired .write 86400000 (some prior) = .ok true := by decide +kernel
  have lost : e.isConflict = true := by decide
  have hcomes : ComesTo (ring.dek kek "s" (some Dek.latestVersion) .write) t (.ok d) :=
    dek_replaced rfl hexpired rfl (createDek_lost ring id .write 2 none lost (.ok found))
      (unlock_clear rfl rfl (by decide +kernel))
  have hmem : called (.registerDek "k" request) (.error e) ∈ t := by simp [t]
  obtain ⟨first, now, u, answer, w, ht, hu, hw, hfound, -⟩ :=
    lost_registration_settled hcomes hmem lost
  have hcalls := congrArg registryCalls ht
  simp only [t, registryCalls_called, registryCalls_clocked, registryCalls_logged,
    registryCalls_append, registryCalls_nil, hu, hw, List.nil_append, List.append_nil,
    List.cons.injEq, Sigma.mk.injEq, heq_eq_eq, true_and, and_true] at hcalls
  exact ⟨hcomes, hmem, lost, hfound found hcalls.2.2.symm⟩

/-- A race was lost and the record of the other writer is absent; the expired
record is used. -/
theorem lost_registration_overruled :
    let ring : KeyRing := ⟨"k", ⟨"AES128_GCM"⟩, 1, ∅⟩
    let kek : Kek := ⟨"k", "local-kms", "m", ∅, none, true, 0, false⟩
    let id := ring.dekId "s" (some Dek.latestVersion)
    let prior : Dek :=
      { Dek.bare "k" "s" 1 "AES128_GCM" with keyMaterial := some "AAECAwQFBgcICQoLDA0ODw==" }
    let lost := RegistryError.conflict ""
    let absent := RegistryError.notFound ""
    lost.isConflict = true ∧ absent.isNotFound = true ∧
      ring.isExpired .write 86400000 (some prior) = .ok true ∧
      ComesTo (ring.dek kek "s" (some Dek.latestVersion) .write)
        [called (.getDek id false) (.ok prior), clocked 86400000,
          called (.registerDek "k" ⟨"s", 2, "AES128_GCM", none⟩) (.error lost),
          logged (.dekConflicted "k" "s" 2), called (.getDek id false) (.error absent),
          logged (.dekKept "k" "s" 2 (.dekNotFoundOnWrite "k" "s"))]
        (.ok { prior with rawKey := some ⟨(List.range 16).map UInt8.ofNat⟩ }) := by
  intro ring kek id prior lost absent
  have hexpired : ring.isExpired .write 86400000 (some prior) = .ok true := by decide +kernel
  have hlost : lost.isConflict = true := by decide
  have habsent : absent.isNotFound = true := by decide
  have hcreate := createDek_lost ring id .write 2 none hlost (.error absent)
  rw [fetched_of_absent habsent] at hcreate
  refine ⟨hlost, habsent, hexpired, ?_⟩
  exact dek_kept rfl hexpired rfl hcreate (unlock_clear rfl rfl (by decide +kernel))

/-- A failed registration.  Whatever the registry and the key management system
answer, when a data key cannot be registered and no race was lost, the registry
is asked for nothing more.  Without a record before, the writer fails with what
the registry reported.  With an expired record before, whose version is the one
before, one warning is logged and what the writer comes to is this record with
the raw key that it holds, unless this key cannot be recovered. -/
theorem failed_registration_kept (h : ComesTo (ring.dek kek subject version mode) t r)
    (hmem : called (.registerDek kekName request) (.error e) ∈ t) (fatal : e.isConflict = false) :
    ∃ first now u w,
      t = called (.getDek (ring.dekId subject version) false) first :: clocked now ::
        (u ++ [called (.registerDek kekName request) (.error e)] ++ w) ∧
      registryCalls u = [] ∧ registryCalls w = [] ∧
      (∀ e₀, first = .error e₀ → w = [] ∧ r = .error (.registry e)) ∧
      ∀ prior, first = .ok prior →
        ring.isExpired mode now (some prior) = .ok true ∧
        request.version.toNat = prior.version.toNat + 1 ∧
        warnings t = [.dekKept kekName subject request.version (.registry e)] ∧
        ring.Resolves kek t prior r := by
  obtain ⟨first, now, prior, outcome, u, v, w, ht, due, hnext, silent, rfl, hrefused, recourse⟩ :=
    ((dek_comesTo h).attempt hmem).of_refused hmem
  obtain ⟨-, rfl, rfl⟩ | ⟨lost, -⟩ := hrefused
  swap
  · rw [fatal] at lost
    cases lost
  refine ⟨first, now, u, w, ht, silent.calls, recourse.registryCalls, ?_⟩
  cases due with
  | absent e₀ absent writes =>
    cases recourse with
    | failed _ => exact ⟨fun _ _ => ⟨rfl, rfl⟩, nofun⟩
  | expired dek hexpired =>
    cases recourse with
    | kept _ _ silent' resolved =>
      refine ⟨nofun, ?_⟩
      rintro _ ⟨⟩
      refine ⟨hexpired, nextVersion_eq_ok hnext, ?_, resolved⟩
      rw [ht]
      simp [warnings, silent.reports, silent'.reports, Event.level]

/-- The next version cannot be registered, and the expired record is kept. -/
theorem failed_registration_kept_absent :
    let ring : KeyRing := ⟨"k", ⟨"AES128_GCM"⟩, 1, ∅⟩
    let kek : Kek := ⟨"k", "local-kms", "m", ∅, none, true, 0, false⟩
    let id := ring.dekId "s" (some Dek.latestVersion)
    let prior : Dek :=
      { Dek.bare "k" "s" 1 "AES128_GCM" with keyMaterial := some "AAECAwQFBgcICQoLDA0ODw==" }
    let request : DekRequest := ⟨"s", 2, "AES128_GCM", none⟩
    let e := RegistryError.notFound ""
    let t : Trace := [called (.getDek id false) (.ok prior), clocked 86400000,
      called (.registerDek "k" request) (.error e), logged (.dekKept "k" "s" 2 (.registry e))]
    let d : Dek := { prior with rawKey := some ⟨(List.range 16).map UInt8.ofNat⟩ }
    ComesTo (ring.dek kek "s" (some Dek.latestVersion) .write) t (.ok d) ∧
      called (.registerDek "k" request) (.error e) ∈ t ∧ e.isConflict = false ∧
      warnings t = [.dekKept "k" "s" 2 (.registry e)] ∧ ring.Resolves kek t prior (.ok d) := by
  intro ring kek id prior request e t d
  have hexpired : ring.isExpired .write 86400000 (some prior) = .ok true := by decide +kernel
  have fatal : e.isConflict = false := by decide
  have hcomes : ComesTo (ring.dek kek "s" (some Dek.latestVersion) .write) t (.ok d) :=
    dek_kept rfl hexpired rfl (createDek_refused ring id .write 2 none fatal)
      (unlock_clear rfl rfl (by decide +kernel))
  have hmem : called (.registerDek "k" request) (.error e) ∈ t := by simp [t]
  obtain ⟨first, now, u, w, ht, -, -, -, hkept⟩ := failed_registration_kept hcomes hmem fatal
  -- Both traces start with the look-up.
  have hfirst : first = .ok prior := (eq_of_heq (Sigma.mk.inj (List.head_eq_of_cons_eq ht)).2).symm
  obtain ⟨-, -, hwarnings, hresolves⟩ := hkept prior hfirst
  exact ⟨hcomes, hmem, fatal, hwarnings, hresolves⟩

end KeyRing
end Envelope
