import Envelope.Proofs.Faithful

/-!
# Conversations with the registry

The calls that an executor makes for one value follow a fixed protocol.  It is
given here as a grammar over calls together with their answers: a phase that
resolves the key-encryption key (`KekPhase`), and after it, if there is a value
to work on, a phase that resolves the data key (`DekPhase`).
-/

namespace Envelope

open Program Engine

namespace Engine

/-- A call of the registry together with its answer. -/
abbrev Answered : Type := (c : Registry.Call) × c.Answer

/-- What the registry was asked in the course of a trace, and what it said. -/
def registryCalls : Trace → List Answered
  | [] => []
  | ⟨.registry c, answer⟩ :: t => ⟨c, answer⟩ :: registryCalls t
  | _ :: t => registryCalls t

@[simp] theorem registryCalls_nil : registryCalls [] = [] := rfl

@[simp] theorem registryCalls_called (c : Registry.Call) (answer : c.Answer) (t : Trace) :
    registryCalls (called c answer :: t) = ⟨c, answer⟩ :: registryCalls t := rfl

@[simp] theorem registryCalls_clocked (now : Int64) (t : Trace) :
    registryCalls (clocked now :: t) = registryCalls t := rfl

@[simp] theorem registryCalls_logged (event : Event) (t : Trace) :
    registryCalls (logged event :: t) = registryCalls t := rfl

@[simp] theorem registryCalls_append (t u : Trace) :
    registryCalls (t ++ u) = registryCalls t ++ registryCalls u := by
  induction t with
  | nil => rfl
  | cons x t ih =>
    obtain ⟨r, answer⟩ := x
    cases r with
    | registry c => exact congrArg (⟨c, answer⟩ :: ·) ih
    | clock => exact ih
    | random n => exact ih
    | keyHandle config url => exact ih
    | log event => exact ih

theorem mem_registryCalls {c : Registry.Call} {answer : c.Answer} {t : Trace} :
    (⟨c, answer⟩ : Answered) ∈ registryCalls t ↔ called c answer ∈ t := by
  induction t with
  | nil => simp
  | cons x t ih =>
    have skip : called c answer ≠ x → (called c answer ∈ t ↔ called c answer ∈ x :: t) := by
      intro hne
      rw [List.mem_cons, or_iff_right hne]
    obtain ⟨r, answer'⟩ := x
    cases r with
    | registry c' =>
      show _ ∈ (⟨c', answer'⟩ : Answered) :: registryCalls t ↔ _
      rw [List.mem_cons, List.mem_cons, ih]
      refine or_congr ⟨fun h => ?_, fun h => ?_⟩ Iff.rfl
      · cases h
        rfl
      · cases h
        rfl
    | clock => exact ih.trans (skip fun h => nomatch h)
    | random n => exact ih.trans (skip fun h => nomatch h)
    | keyHandle config url => exact ih.trans (skip fun h => nomatch h)
    | log event => exact ih.trans (skip fun h => nomatch h)

/-- Drawing random bytes asks the registry for nothing. -/
@[simp] theorem registryCalls_drawnTrace (u : List (Program.Exchange Draw.signature)) :
    registryCalls (drawnTrace u) = [] := by
  induction u with
  | nil => rfl
  | cons x u ih => exact ih

end Engine

namespace KeyRing

/-! ## The protocol -/

/-- The calls that resolve a key-encryption key, for a rule that names a type
of key management system and a master key or not, and the record that they end
with.  Only a writer registers, once, and only what it did not find; only a
registration that lost a race is followed by another look-up. -/
inductive KekPhase (ring : KeyRing) (mode : Mode) (kmsType kmsKeyId : Option String) :
    List Answered → Option Kek → Prop where
  | found (kek : Kek) :
      KekPhase ring mode kmsType kmsKeyId
        [⟨.getKek ring.kekName (mode = .read), .ok kek⟩] (some kek)
  | ended (e : RegistryError)
      (h : e.isNotFound = false ∨ mode = .read ∨ kmsType = none ∨ kmsKeyId = none) :
      KekPhase ring mode kmsType kmsKeyId
        [⟨.getKek ring.kekName (mode = .read), .error e⟩] none
  | registered (e : RegistryError) (absent : e.isNotFound = true) (writes : mode ≠ .read)
      {type id : String} (htype : kmsType = some type) (hid : kmsKeyId = some id)
      (answer : Except RegistryError Kek)
      (settled : ∀ e', answer = .error e' → e'.isConflict = false) :
      KekPhase ring mode kmsType kmsKeyId
        [⟨.getKek ring.kekName false, .error e⟩,
          ⟨.registerKek ⟨ring.kekName, type, id, ∅, none, false⟩, answer⟩] answer.toOption
  | refetched (e : RegistryError) (absent : e.isNotFound = true) (writes : mode ≠ .read)
      {type id : String} (htype : kmsType = some type) (hid : kmsKeyId = some id)
      (e' : RegistryError) (lost : e'.isConflict = true) (answer : Except RegistryError Kek) :
      KekPhase ring mode kmsType kmsKeyId
        [⟨.getKek ring.kekName false, .error e⟩,
          ⟨.registerKek ⟨ring.kekName, type, id, ∅, none, false⟩, .error e'⟩,
          ⟨.getKek ring.kekName false, answer⟩] answer.toOption

/-- The key material of a registration.  Under a shared key-encryption key the
registry makes it; otherwise it is a fresh key of the right length, wrapped with
a handle of the master key that was handed out before. -/
inductive Material (ring : KeyRing) (kek : Kek) (t : Trace) : Option String → Prop where
  | shared (h : kek.shared = true) : Material ring kek t none
  | wrapped (h : kek.shared = false) {handle : Kms.Handle}
      (hhandle : handed ring.config kek.url (.ok handle) ∈ t) {a : Algorithm}
      (halgorithm : ring.cryptor.algorithm = .ok a)
      {key : { bytes : Bytes // bytes.length = a.keyLength }} (hkey : drawn a.keyLength key ∈ t)
      {draws : List (Program.Exchange Draw.signature)} {wrapped : Bytes}
      (hwrap : Runs (handle.wrap key.val []) draws (.ok wrapped)) :
      Material ring kek t (some (Base64.encode wrapped))

/-- The registration of a data key that is due: of the first version if there
is none, and of the next one after a record that has expired. -/
structure Due (ring : KeyRing) (kek : Kek) (id : DekId) (mode : Mode) (t : Trace) (now : Int64)
    (answer : Except RegistryError Dek) (request : DekRequest) : Prop where
  subject : request.subject = id.subject
  algorithm : request.algorithm = id.algorithm
  material : ring.Material kek t request.encryptedKeyMaterial
  version :
    (∃ e, answer = .error e ∧ e.isNotFound = true ∧ request.version = firstVersion) ∨
      ∃ dek, answer = .ok dek ∧ ring.isExpired mode now (some dek) = .ok true ∧
        dek.version ≠ UInt32.ofNat (UInt32.size - 1) ∧ request.version = dek.version + 1

/-- The calls that resolve a data key.  Only a writer registers, at most once,
and only what is absent or has expired; only a registration that lost a race is
followed by another look-up, which is the first one again. -/
inductive DekPhase (ring : KeyRing) (kek : Kek) (id : DekId) (mode : Mode) (t : Trace) :
    List Answered → Prop where
  | found (answer : Except RegistryError Dek) :
      DekPhase ring kek id mode t [⟨.getDek id (mode = .read), answer⟩]
  | registered (writes : mode ≠ .read) (answer : Except RegistryError Dek) {now : Int64}
      (hnow : clocked now ∈ t) {request : DekRequest}
      (due : ring.Due kek id mode t now answer request) (answer' : Except RegistryError Dek)
      (settled : ∀ e, answer' = .error e → e.isConflict = false) :
      DekPhase ring kek id mode t
        [⟨.getDek id false, answer⟩, ⟨.registerDek ring.kekName request, answer'⟩]
  | refetched (writes : mode ≠ .read) (answer : Except RegistryError Dek) {now : Int64}
      (hnow : clocked now ∈ t) {request : DekRequest}
      (due : ring.Due kek id mode t now answer request) (e : RegistryError)
      (lost : e.isConflict = true) (answer' : Except RegistryError Dek) :
      DekPhase ring kek id mode t
        [⟨.getDek id false, answer⟩, ⟨.registerDek ring.kekName request, .error e⟩,
          ⟨.getDek id false, answer'⟩]

/-! ## Key rings follow the protocol -/

variable {ring : KeyRing} {kek : Kek} {id : DekId} {mode : Mode} {t u : Trace}

theorem toOption_fetched {α : Type} (absent : KeyError) (answer : Except RegistryError α) :
    (fetched absent answer).toOption = answer.toOption := by
  unfold fetched
  cases answer with
  | ok record => rfl
  | error e => cases h : e.isNotFound <;> simp [present, h, Except.toOption]

theorem KekSearch.phase {kmsType kmsKeyId : Option String} {r : Except KeyError Kek}
    (h : ring.KekSearch mode kmsType kmsKeyId t r) :
    ring.KekPhase mode kmsType kmsKeyId (registryCalls t) r.toOption := by
  cases h with
  | failed e fatal => exact .ended e (.inl fatal)
  | found kek => exact .found kek
  | unread e absent reads => exact .ended e (.inr (.inl reads))
  | untyped e absent writes htype => exact .ended e (.inr (.inr (.inl htype)))
  | unnamed e absent writes type htype hid => exact .ended e (.inr (.inr (.inr hid)))
  | created e absent writes type id htype hid rest =>
    have hdeleted : decide (mode = .read) = false := decide_eq_false writes
    rw [hdeleted]
    cases rest with
    | registered kek =>
      exact .registered e absent writes htype hid (.ok kek) fun e' h => nomatch h
    | refused e' fatal =>
      refine .registered e absent writes htype hid (.error e') fun e'' h => ?_
      cases h
      exact fatal
    | settled e' lost answer =>
      rw [toOption_fetched, hdeleted]
      exact .refetched e absent writes htype hid e' lost answer

theorem KekPhase.registerKek_of_mem {kmsType kmsKeyId : Option String} {calls : List Answered}
    {found : Option Kek} (h : ring.KekPhase mode kmsType kmsKeyId calls found)
    {request : KekRequest} {answer : Except RegistryError Kek}
    (hmem : (⟨.registerKek request, answer⟩ : Answered) ∈ calls) :
    ∃ type id, kmsType = some type ∧ kmsKeyId = some id ∧ request = ring.kekRequest type id := by
  cases h with
  | found kek => simp at hmem
  | ended e h => simp at hmem
  | registered e absent writes htype hid answer' settled =>
    rcases hmem with _ | ⟨_, _ | ⟨_, ⟨⟩⟩⟩
    exact ⟨_, _, htype, hid, rfl⟩
  | refetched e absent writes htype hid e' lost answer' =>
    rcases hmem with _ | ⟨_, _ | ⟨_, _ | ⟨_, ⟨⟩⟩⟩⟩
    exact ⟨_, _, htype, hid, rfl⟩

theorem KekPhase.registerDek_not_mem {kmsType kmsKeyId : Option String} {calls : List Answered}
    {found : Option Kek} (h : ring.KekPhase mode kmsType kmsKeyId calls found) {kekName : String}
    {request : DekRequest} {answer : Except RegistryError Dek} :
    (⟨.registerDek kekName request, answer⟩ : Answered) ∉ calls := by
  cases h <;> simp

theorem DekPhase.registerKek_not_mem {calls : List Answered} (h : ring.DekPhase kek id mode t calls)
    {request : KekRequest} {answer : Except RegistryError Kek} :
    (⟨.registerKek request, answer⟩ : Answered) ∉ calls := by
  cases h <;> simp

theorem DekPhase.registerDek_of_mem {calls : List Answered} (h : ring.DekPhase kek id mode t calls)
    {kekName : String} {request : DekRequest} {answer : Except RegistryError Dek}
    (hmem : (⟨.registerDek kekName request, answer⟩ : Answered) ∈ calls) :
    ∃ now first, kekName = ring.kekName ∧ ring.Due kek id mode t now first request := by
  cases h with
  | found first => simp at hmem
  | registered writes first hnow due answer' settled =>
    rcases hmem with _ | ⟨_, _ | ⟨_, ⟨⟩⟩⟩
    exact ⟨_, first, rfl, due⟩
  | refetched writes first hnow due e lost answer' =>
    rcases hmem with _ | ⟨_, _ | ⟨_, _ | ⟨_, ⟨⟩⟩⟩⟩
    exact ⟨_, first, rfl, due⟩

theorem DekPhase.registerDek_unique {calls : List Answered} (h : ring.DekPhase kek id mode t calls)
    {kekName kekName' : String} {request request' : DekRequest}
    {answer answer' : Except RegistryError Dek}
    (hmem : (⟨.registerDek kekName request, answer⟩ : Answered) ∈ calls)
    (hmem' : (⟨.registerDek kekName' request', answer'⟩ : Answered) ∈ calls) :
    answer = answer' := by
  cases h with
  | found first => simp at hmem
  | registered writes first hnow due last settled =>
    rcases hmem with _ | ⟨_, _ | ⟨_, ⟨⟩⟩⟩
    rcases hmem' with _ | ⟨_, _ | ⟨_, ⟨⟩⟩⟩
    rfl
  | refetched writes first hnow due e lost last =>
    rcases hmem with _ | ⟨_, _ | ⟨_, _ | ⟨_, ⟨⟩⟩⟩⟩
    rcases hmem' with _ | ⟨_, _ | ⟨_, _ | ⟨_, ⟨⟩⟩⟩⟩
    rfl

/-- The record that the calls end with is given out by one of them. -/
theorem KekPhase.givenOut {kmsType kmsKeyId : Option String} {calls : List Answered}
    (h : ring.KekPhase mode kmsType kmsKeyId calls (some kek))
    (hsub : ∀ x ∈ calls, called x.1 x.2 ∈ t) : ring.KekGivenOut t kek := by
  have hok : ∀ {answer : Except RegistryError Kek}, some kek = answer.toOption →
      answer = .ok kek := by
    intro answer h
    cases answer with
    | error e => cases h
    | ok kek' =>
      cases h
      rfl
  generalize hfound : some kek = found at h
  cases h with
  | found kek' =>
    cases hfound
    exact .found (mode = .read) (hsub ⟨.getKek ring.kekName (mode = .read), .ok kek⟩ (by simp))
  | ended e h => cases hfound
  | @registered e absent writes type id htype hid answer settled =>
    obtain rfl := hok hfound
    exact .registered (ring.kekRequest type id) rfl
      (hsub ⟨.registerKek (ring.kekRequest type id), .ok kek⟩ (by simp [kekRequest]))
  | refetched e absent writes htype hid e' lost answer =>
    obtain rfl := hok hfound
    exact .found false (hsub ⟨.getKek ring.kekName false, .ok kek⟩ (by simp))

theorem Wrapping.registryCalls {handle : Kms.Handle} {r : Except KeyError Bytes}
    (h : ring.Wrapping handle t r) : registryCalls t = [] := by
  cases h with
  | unsupported e h => rfl
  | wrapped a h key wrap => exact registryCalls_drawnTrace _

/-- A data key is prepared without the registry. -/
theorem Preparation.registryCalls {r : Except KeyError (Option Kms.Handle × Option Bytes)}
    (h : ring.Preparation kek t r) : registryCalls t = [] := by
  cases h with
  | shared h => rfl
  | unhandled h e => rfl
  | handled h handle wrapping => exact wrapping.registryCalls

theorem Material.mono {material : Option String} (h : ring.Material kek t material)
    (hsub : t ⊆ u) : ring.Material kek u material := by
  cases h with
  | shared h => exact .shared h
  | wrapped h hhandle halgorithm hkey hwrap =>
    exact .wrapped h (hsub hhandle) halgorithm (hsub hkey) hwrap

theorem Preparation.material {handle : Option Kms.Handle} {wrapped : Option Bytes}
    (h : ring.Preparation kek t (.ok (handle, wrapped))) :
    ring.Material kek t (wrapped.map Base64.encode) := by
  generalize hr : Except.ok (handle, wrapped) = r at h
  cases h with
  | shared hshared =>
    cases hr
    exact .shared hshared
  | unhandled hshared e => cases hr
  | handled hshared handle' wrapping =>
    cases wrapping with
    | unsupported e h => cases hr
    | wrapped a halgorithm key wrap =>
      rename_i draws r
      cases r with
      | error e => cases hr
      | ok wrapped' =>
        cases hr
        exact .wrapped hshared List.mem_cons_self halgorithm
          (List.mem_cons_of_mem _ List.mem_cons_self) wrap

theorem Unlocking.registryCalls {dek : Dek} {handle : Option Kms.Handle} {r : Except KeyError Dek}
    (h : ring.Unlocking kek dek handle t r) : registryCalls t = [] := by
  cases h <;> rfl

/-- The calls of a rotation: none if no data key can be prepared, and otherwise
those of one registration. -/
theorem Rotation.registryCalls_cases {prior : Option Dek}
    {r : Except KeyError (Option Kms.Handle × Dek)} (h : ring.Rotation kek id mode prior t r) :
    registryCalls t = [] ∨
      ∃ next wrapped u r', ring.nextVersion id.subject prior = .ok next ∧
        ring.Material kek t (wrapped.map Base64.encode) ∧
        ring.DekRegistration id mode next wrapped u r' ∧
        registryCalls t = registryCalls u := by
  cases h with
  | exhausted e h => exact .inl rfl
  | unprepared next hnext prepared => exact .inl prepared.registryCalls
  | replaced next hnext prepared registered =>
    refine .inr ⟨next, _, _, _, hnext,
      prepared.material.mono (List.subset_append_left _ _), registered, ?_⟩
    rw [registryCalls_append, prepared.registryCalls, List.nil_append]
  | failed next hnext prepared registered =>
    refine .inr ⟨next, _, _, _, hnext,
      prepared.material.mono (List.subset_append_left _ _), registered, ?_⟩
    rw [registryCalls_append, prepared.registryCalls, List.nil_append]
  | kept prior next hnext prepared registered =>
    refine .inr ⟨next, _, _, _, hnext, prepared.material.mono ?_, registered, ?_⟩
    · rw [List.append_assoc]
      exact List.subset_append_left _ _
    · simp [prepared.registryCalls]

/-- What a writer registers is due. -/
theorem Outdated.due {now : Int64} {answer : Except RegistryError Dek} {prior : Option Dek}
    (h : ring.Outdated mode now answer prior) {next : UInt32} {wrapped : Option Bytes}
    (hnext : ring.nextVersion id.subject prior = .ok next)
    (hmaterial : ring.Material kek t (wrapped.map Base64.encode)) :
    ring.Due kek id mode t now answer (dekRequest id next wrapped) := by
  refine ⟨rfl, rfl, hmaterial, ?_⟩
  cases h with
  | expired dek hexpired =>
    by_cases hlast : dek.version = UInt32.ofNat (UInt32.size - 1)
    · simp [nextVersion, hlast] at hnext
    · simp only [nextVersion, if_neg hlast, Except.ok.injEq] at hnext
      exact .inr ⟨dek, rfl, hexpired, hlast, hnext.symm⟩
  | absent e absent writes => exact .inl ⟨e, rfl, absent, (Except.ok.inj hnext).symm⟩

theorem Outdated.writes {now : Int64} {answer : Except RegistryError Dek} {prior : Option Dek}
    (h : ring.Outdated mode now answer prior) : mode ≠ .read := by
  cases h with
  | expired dek hexpired =>
    obtain ⟨hmode, -⟩ := isExpired_iff.mp hexpired
    exact hmode
  | absent e absent writes => exact writes

/-- The look-up that calls for a new version and what follows it. -/
theorem Rotation.phase {now : Int64} {answer : Except RegistryError Dek} {prior : Option Dek}
    {r : Except KeyError (Option Kms.Handle × Dek)} (h : ring.Rotation kek id mode prior t r)
    (due : ring.Outdated mode now answer prior) (hnow : clocked now ∈ u) (hsub : t ⊆ u) :
    ring.DekPhase kek id mode u (⟨.getDek id (mode = .read), answer⟩ :: registryCalls t) := by
  have hdeleted : decide (mode = .read) = false := decide_eq_false due.writes
  rcases h.registryCalls_cases with hnone |
    ⟨next, wrapped, v, r', hnext, hmaterial, registered, hcalls⟩
  · rw [hnone]
    exact .found answer
  have hdue : ring.Due kek id mode u now answer (dekRequest id next wrapped) :=
    due.due hnext (hmaterial.mono hsub)
  rw [hcalls, hdeleted]
  cases registered with
  | registered record =>
    exact .registered due.writes answer hnow hdue (.ok record) fun e h => nomatch h
  | refused e fatal =>
    refine .registered due.writes answer hnow hdue (.error e) fun e' h => ?_
    cases h
    exact fatal
  | settled e lost answer' =>
    rw [hdeleted]
    exact .refetched due.writes answer hnow hdue e lost answer'

theorem DekSearch.phase {subject : String} {version : Option UInt32} {r : Except KeyError Dek}
    (h : ring.DekSearch kek subject version mode t r) (hsub : t ⊆ u) :
    ring.DekPhase kek (ring.dekId subject version) mode u (registryCalls t) := by
  have hclock : ∀ {x : Exchange} {now : Int64} {t : Trace}, x :: clocked now :: t ⊆ u →
      clocked now ∈ u := by
    intro x now t hsub
    exact hsub (List.mem_cons_of_mem _ List.mem_cons_self)
  cases h with
  | failed e fatal => exact .found (.error e)
  | unread e absent reads now => exact .found (.error e)
  | overflowed dek now cause stops => exact .found (.ok dek)
  | current dek now fresh unlocked =>
    rw [registryCalls_called, registryCalls_clocked, unlocked.registryCalls]
    exact .found (.ok dek)
  | unrotated answer now due rotated =>
    exact rotated.phase due (hclock hsub) fun x hx =>
      hsub (List.mem_cons_of_mem _ (List.mem_cons_of_mem _ hx))
  | rotated answer now due rotated unlocked =>
    rw [registryCalls_called, registryCalls_clocked, registryCalls_append,
      unlocked.registryCalls, List.append_nil]
    exact rotated.phase due (hclock hsub) fun x hx =>
      hsub (List.mem_cons_of_mem _ (List.mem_cons_of_mem _ (List.mem_append_left _ hx)))

end KeyRing

namespace Transform

/-- The version of the data key that a value calls for: for a writer the latest
one when keys rotate, for a reader the one that its frame names.  A value of
another type, or one that cannot be taken apart, calls for none. -/
def requestedVersion (ring : KeyRing) (mode : Mode) (type : FieldType)
    (value : Option FieldValue) : Option UInt32 := do
  let bytes ← value >>= bytesOf type
  if mode = .read then
    let carried ← (decoded type bytes).toOption
    if ring.rotates then
      let frame ← (Frame.decode carried).toOption
      return frame.version
    else
      return KeyRing.firstVersion
  else
    return if ring.rotates then Dek.latestVersion else KeyRing.firstVersion

variable {x : Transform} {context : Context} {type : FieldType} {bytes : Bytes} {t : Trace}

/-- A reader asks for the version that it has read from its input. -/
theorem requestedVersion_received {ring : KeyRing} {value : FieldValue}
    (hbytes : bytesOf type value = some bytes) :
    requestedVersion ring .read type (some value) =
      (received ring type bytes).toOption.map fun found => found.1.getD KeyRing.firstVersion := by
  have hvalue : (some value >>= bytesOf type) = some bytes := hbytes
  unfold requestedVersion received unframed
  rw [hvalue]
  cases hdecoded : decoded type bytes with
  | error e => simp [hdecoded, Except.toOption, bind, Except.bind]
  | ok carried =>
    by_cases hrotates : ring.rotates = true
    · cases hframe : Frame.decode carried with
      | error e =>
        simp [hdecoded, hrotates, hframe, Except.toOption, bind, Except.bind]
      | ok frame =>
        simp [hdecoded, hrotates, hframe, Except.toOption, bind, Except.bind]
    · simp [hdecoded, hrotates, Except.toOption, bind, Except.bind]

theorem requestedVersion_write {ring : KeyRing} {value : FieldValue}
    (hbytes : bytesOf type value = some bytes) :
    requestedVersion ring .write type (some value) =
      some ((writtenVersion ring).getD KeyRing.firstVersion) := by
  have hvalue : (some value >>= bytesOf type) = some bytes := hbytes
  unfold requestedVersion writtenVersion
  rw [hvalue]
  by_cases hrotates : ring.rotates = true
  · simp [hrotates]
  · simp [hrotates]

theorem requestedVersion_eq_none {ring : KeyRing} {mode : Mode} {value : FieldValue}
    (hbytes : bytesOf type value = none) :
    requestedVersion ring mode type (some value) = none := by
  have hvalue : (some value >>= bytesOf type) = none := hbytes
  unfold requestedVersion
  rw [hvalue]
  rfl

/-- The calls for a value are those for the data key that it calls for. -/
theorem Application.phase {value : Option FieldValue} {r : Except Error (Option FieldValue)}
    (h : x.Application context type value t r)
    (hmode : context.mode = .write ∨ context.mode = .read) {u : Trace} (hsub : t ⊆ u) :
    (requestedVersion x.ring context.mode type value = none ∧ registryCalls t = []) ∨
      ∃ version, requestedVersion x.ring context.mode type value = some version ∧
        x.ring.DekPhase x.kek (x.ring.dekId context.subject (some version)) context.mode u
          (registryCalls t) := by
  cases h with
  | absent => exact .inl ⟨rfl, rfl⟩
  | unsupported value writes hbytes => exact .inl ⟨requestedVersion_eq_none hbytes, rfl⟩
  | untouched value reads hbytes => exact .inl ⟨requestedVersion_eq_none hbytes, rfl⟩
  | refused value hwrite hread => exact absurd hmode (not_or.mpr ⟨hwrite, hread⟩)
  | encrypted value writes plain hplain encryption =>
    rw [writes, requestedVersion_write hplain]
    refine .inr ⟨_, rfl, ?_⟩
    cases encryption with
    | unkeyed search => exact search.phase hsub
    | unsealed search hkey sealing =>
      rw [registryCalls_append, registryCalls_drawnTrace, List.append_nil]
      exact search.phase fun y hy => hsub (List.mem_append_left _ hy)
    | sealed search hkey sealing =>
      simp only [registryCalls_append, registryCalls_drawnTrace, registryCalls_logged,
        registryCalls_nil, List.append_nil]
      exact search.phase fun y hy =>
        hsub (List.mem_append_left _ (List.mem_append_left _ hy))
  | decrypted value reads bytes hbytes decryption =>
    rw [reads, requestedVersion_received hbytes]
    cases decryption with
    | unread e hreceived =>
      rw [hreceived]
      exact .inl ⟨rfl, rfl⟩
    | unkeyed hreceived search =>
      rw [hreceived]
      exact .inr ⟨_, rfl, search.phase hsub⟩
    | keyed hreceived search hkey =>
      rw [hreceived]
      exact .inr ⟨_, rfl, search.phase hsub⟩

end Transform

namespace Executor

open KeyRing Transform

variable {κ : Type}

/-- The calls that an executor makes for a value in the course of a trace.
There are none for a rule that it does not take on.  Otherwise the
key-encryption key is resolved first; only if there is one, it belongs to the
master key that the rule names, and the value calls for a version of the data
key, then this data key is resolved as well. -/
inductive Conversation (e : Executor κ) (context : Context) (type : FieldType)
    (value : Option FieldValue) (t : Trace) : List Answered → Prop where
  | declined (h : e.Declines context) : Conversation e context type value t []
  | first (taken : ¬ e.Declines context) {ring : KeyRing} (hring : e.ring context = .ok ring)
      {calls : List Answered} {found : Option Kek}
      (phase : ring.KekPhase context.mode (e.namedType context) (e.namedKey context) calls found)
      (ended : (∀ kek, found = some kek →
          ¬ (Agrees (e.namedType context) kek.kmsType ∧
            Agrees (e.namedKey context) kek.kmsKeyId)) ∨
        requestedVersion ring context.mode type value = none) :
      Conversation e context type value t calls
  | both (taken : ¬ e.Declines context) {ring : KeyRing} (hring : e.ring context = .ok ring)
      {calls calls' : List Answered} {kek : Kek}
      (phase : ring.KekPhase context.mode (e.namedType context) (e.namedKey context) calls
        (some kek))
      (htype : Agrees (e.namedType context) kek.kmsType)
      (hkey : Agrees (e.namedKey context) kek.kmsKeyId) {version : UInt32}
      (hversion : requestedVersion ring context.mode type value = some version)
      (phase' : ring.DekPhase kek ⟨ring.kekName, context.subject, version, ring.cryptor.format⟩
        context.mode t calls') :
      Conversation e context type value t (calls ++ calls')

variable {e : Executor κ} {context : Context} {type : FieldType} {value : Option FieldValue}
  {t : Trace}

theorem Transformation.conversation {r : Except Error (Option FieldValue)}
    (h : e.Transformation context type value t r) :
    e.Conversation context type value t (registryCalls t) := by
  cases h with
  | rejected error h => exact .declined (declines_of_admitted_error h)
  | unresolved ring h search hkek =>
    rename_i found error
    obtain ⟨taken, hring⟩ := admitted_eq_ok_iff.mp h
    refine .first taken hring search.phase (.inl fun kek hfound hagrees => ?_)
    cases found with
    | error cause => cases hfound
    | ok kek' =>
      obtain rfl := Option.some.inj hfound
      have hbound : (Except.ok kek' >>= ring.bound (e.namedType context) (e.namedKey context)) =
          .ok kek' :=
        bound_eq_ok_iff.mpr ⟨rfl, hagrees⟩
      rw [hbound] at hkek
      cases hkek
  | resolved ring h search hbound application =>
    rename_i t₁ t₂ kek
    obtain ⟨taken, hring⟩ := admitted_eq_ok_iff.mp h
    obtain ⟨-, htype, hkey⟩ := bound_eq_ok_iff.mp hbound
    have hmode := mode_of_taken taken
    rw [registryCalls_append]
    rcases application.phase hmode (List.subset_append_right t₁ t₂) with
      ⟨hnone, hcalls⟩ | ⟨version, hversion, phase⟩
    · rw [hcalls, List.append_nil]
      exact .first taken hring search.phase (.inr hnone)
    · exact .both taken hring search.phase htype hkey hversion phase

/-- An executor registers no key-encryption key but the one that the rule
names. -/
theorem Transformation.registerKek {r : Except Error (Option FieldValue)}
    (h : e.Transformation context type value t r) {request : KekRequest}
    {answer : Except RegistryError Kek} (hmem : called (.registerKek request) answer ∈ t) :
    ∃ ring type id, e.ring context = .ok ring ∧ e.namedType context = some type ∧
      e.namedKey context = some id ∧ request = ring.kekRequest type id := by
  have hcalls := mem_registryCalls.mpr hmem
  have hconversation := h.conversation
  generalize registryCalls t = calls at hcalls hconversation
  cases hconversation with
  | declined h => cases hcalls
  | first taken hring phase ended =>
    obtain ⟨type, id, htype, hid, hrequest⟩ := phase.registerKek_of_mem hcalls
    exact ⟨_, type, id, hring, htype, hid, hrequest⟩
  | both taken hring phase htype hkey hversion phase' =>
    have hfirst := (List.mem_append.mp hcalls).resolve_right phase'.registerKek_not_mem
    obtain ⟨type, id, htype, hid, hrequest⟩ := phase.registerKek_of_mem hfirst
    exact ⟨_, type, id, hring, htype, hid, hrequest⟩

/-- An executor registers data keys only in the phase of the data key. -/
theorem Transformation.dekPhase {r : Except Error (Option FieldValue)}
    (h : e.Transformation context type value t r) {kekName : String} {request : DekRequest}
    {answer : Except RegistryError Dek} (hmem : called (.registerDek kekName request) answer ∈ t) :
    ∃ ring kek version calls, e.ring context = .ok ring ∧ ring.KekGivenOut t kek ∧
      ring.DekPhase kek ⟨ring.kekName, context.subject, version, ring.cryptor.format⟩ context.mode
        t calls ∧
      ∀ kekName request answer, called (.registerDek kekName request) answer ∈ t →
        (⟨.registerDek kekName request, answer⟩ : Answered) ∈ calls := by
  have hcalls : ∀ x : Answered, called x.1 x.2 ∈ t ↔ x ∈ registryCalls t :=
    fun x => mem_registryCalls.symm
  have hconversation := h.conversation
  have hfound := (hcalls ⟨.registerDek kekName request, answer⟩).mp hmem
  generalize registryCalls t = calls at hcalls hconversation hfound
  cases hconversation with
  | declined h => cases hfound
  | first taken hring phase ended => exact absurd hfound phase.registerDek_not_mem
  | @both taken ring hring calls calls' kek phase htype hkey version hversion phase' =>
    have hgiven : ring.KekGivenOut t kek :=
      phase.givenOut fun x hx => (hcalls x).mpr (List.mem_append_left _ hx)
    refine ⟨ring, kek, version, calls', hring, hgiven, phase', fun kekName request answer hx => ?_⟩
    have hmem := (hcalls ⟨.registerDek kekName request, answer⟩).mp hx
    exact (List.mem_append.mp hmem).resolve_left phase.registerDek_not_mem

/-- An executor registers a data key only when it is due, under the
key-encryption key that it was given. -/
theorem Transformation.registerDek {r : Except Error (Option FieldValue)}
    (h : e.Transformation context type value t r) {kekName : String} {request : DekRequest}
    {answer : Except RegistryError Dek} (hmem : called (.registerDek kekName request) answer ∈ t) :
    ∃ ring kek version now first, e.ring context = .ok ring ∧ kekName = ring.kekName ∧
      ring.KekGivenOut t kek ∧
      ring.Due kek ⟨ring.kekName, context.subject, version, ring.cryptor.format⟩ context.mode t
        now first request := by
  obtain ⟨ring, kek, version, calls, hring, hgiven, phase, hcalls⟩ := h.dekPhase hmem
  obtain ⟨now, first, hname, due⟩ := phase.registerDek_of_mem (hcalls _ _ _ hmem)
  exact ⟨ring, kek, version, now, first, hring, hname, hgiven, due⟩

/-- An executor registers at most one data key. -/
theorem Transformation.registerDek_once {r : Except Error (Option FieldValue)}
    (h : e.Transformation context type value t r) {kekName kekName' : String}
    {request request' : DekRequest} {answer answer' : Except RegistryError Dek}
    (hmem : called (.registerDek kekName request) answer ∈ t)
    (hmem' : called (.registerDek kekName' request') answer' ∈ t) : answer = answer' := by
  obtain ⟨ring, kek, version, calls, -, -, phase, hcalls⟩ := h.dekPhase hmem
  exact phase.registerDek_unique (hcalls _ _ _ hmem) (hcalls _ _ _ hmem')

/-- Whatever the registry answers, and whoever answers the other requests, the
calls that an executor makes for a value follow the protocol. -/
theorem transformField_conversation (e : Executor κ) (context : Context) (type : FieldType)
    (value : Option FieldValue) (t : Trace) (r : Except Error (Option FieldValue))
    (h : ComesTo (e.transformField context type value) t r) :
    e.Conversation context type value t (registryCalls t) :=
  (transformField_comesTo h).conversation

theorem transformField_conversation_created :
    ∃ (e : Executor Unit) (context : Context) (t : Trace),
      context.mode = .write ∧
        e.Conversation context .bytes (some (.bytes [104, 105])) t (registryCalls t) := by
  let kek : Kek := ⟨"k", "local-kms", "m", ∅, none, false, 0, false⟩
  -- Every key is its own wrapping.
  let handle : Kms.Handle := ⟨fun key _ => pure (.ok key), fun wrapped _ => .ok wrapped⟩
  let wrapped : String := Base64.encode (Bytes.zeros 64)
  let dek : Dek := { Dek.bare "k" "s" 1 "AES256_SIV" with encryptedKeyMaterial := some wrapped }
  let registry := replies (.error (.notFound "")) (.ok kek) (.error (.notFound "")) (.ok dek)
  let params : Properties :=
    Dict.ofList [(Parameter.kekName, "k"), (Parameter.dekAlgorithm, "AES256_SIV"),
      (Parameter.kmsType, "local-kms"), (Parameter.kmsKeyId, "m")]
  let e : Executor Unit := ⟨some (), ∅⟩
  let context : Context := ⟨"s", .write, params, ∅⟩
  let p := e.transformField context .bytes (some (.bytes [104, 105]))
  exact ⟨e, context, p.run.transcript (surroundings registry (.ok handle)), rfl,
    transformField_conversation e context .bytes (some (.bytes [104, 105])) _ _
      (comesTo_transcript rfl)⟩

end Executor

end Envelope
