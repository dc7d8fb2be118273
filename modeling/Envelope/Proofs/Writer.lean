import Envelope.Proofs.RoundTrip

/-!
# A writer among others

Writers that share a world follow one another in any order.  Whatever the
others do, a writer meets a world in good order (`Race.Healthy`), and this is
all that it relies on: its own requests keep the order (`Span.healthy_answer`),
and it comes to an encrypted value unless it has an excuse that was there from the
start (`Race.Excuse`) or it stops.
-/

namespace Envelope

open Program Engine KeyRing

/-- A value that an executor is to write. -/
structure Writer where
  executor : Executor Unit
  context : Context
  type : FieldType
  value : Option FieldValue

/-- What a writer does. -/
def Writer.program (x : Writer) : Engine (Except Error (Option FieldValue)) :=
  (x.executor.transformField x.context x.type x.value).run

/-- Writers and the world that they start in.  Every name of a key-encryption
key stands for one master key, and the keys that are wrapped at an address are
unwrapped by one function. -/
structure Race (ι σ : Type) where
  writers : ι → Writer
  start : World Store σ
  kmsType : String → String
  kmsKeyId : String → String
  unwrap : String → Bytes → Except Kms.Error Bytes

namespace Race

variable {ι σ : Type}

/-- The address of the master key that a name stands for. -/
def url (r : Race ι σ) (kekName : String) : String :=
  r.kmsType kekName ++ "://" ++ r.kmsKeyId kekName

/-- A writer looks for its keys on a key ring. -/
def HasRing (r : Race ι σ) (i : ι) (ring : KeyRing) : Prop :=
  (r.writers i).executor.ring (r.writers i).context = .ok ring

/-- The type of key management system that a writer names. -/
def namedType (r : Race ι σ) (i : ι) : Option String :=
  (r.writers i).executor.namedType (r.writers i).context

/-- The master key that a writer names. -/
def namedKey (r : Race ι σ) (i : ι) : Option String :=
  (r.writers i).executor.namedKey (r.writers i).context

/-- The file in which a writer looks for its data key. -/
def path (r : Race ι σ) (i : ι) (ring : KeyRing) : DekPath :=
  ⟨ring.kekName, (r.writers i).context.subject, ring.cryptor.format⟩

/-- A record of a file opens to a key of the algorithm of the file. -/
def Usable (r : Race ι σ) (path : DekPath) (dek : Dek) : Prop :=
  ∃ a raw, (Cryptor.mk path.algorithm).algorithm = .ok a ∧
    recovered (r.unwrap (r.url path.kekName)) dek = .ok raw ∧ raw.length = a.keyLength

/-- The writers write under supported algorithms, name the same master keys,
and share a key management system that works.  The files of the registry are in
order, as they are in every deployment (`Deployment.Reaches.kept`); in
particular no data key has version 0. -/
structure Fair (r : Race ι σ) : Prop where
  filed : r.start.registry.Filed
  stored : ∀ name kek, r.start.registry.keks.get? name = some kek →
    kek.kmsType = r.kmsType name ∧ kek.kmsKeyId = r.kmsKeyId name
  writes : ∀ i, (r.writers i).context.mode = .write
  named : ∀ i ring, r.HasRing i ring →
    Agrees (r.namedType i) (r.kmsType ring.kekName) ∧
      Agrees (r.namedKey i) (r.kmsKeyId ring.kekName)
  supported : ∀ i ring, r.HasRing i ring → ∃ a, ring.cryptor.algorithm = .ok a
  works : ∀ i ring, r.HasRing i ring →
    r.start.directory.Works ring.config (r.url ring.kekName) (r.unwrap (r.url ring.kekName))

/-- Why a writer may fail, and with which error: its rule or its value is at
fault, or what the registry had from the start.  Its key-encryption key was
absent, and the rule does not name a master key; or it was marked as deleted;
or there was a record whose key cannot be recovered or has another length. -/
inductive Excuse (r : Race ι σ) (i : ι) : Error → Prop where
  | declined {error : Error}
      (h : (r.writers i).executor.admitted (r.writers i).context = .error error) :
      Excuse r i error
  | unsupported {value : FieldValue} (hvalue : (r.writers i).value = some value)
      (h : Transform.bytesOf (r.writers i).type value = none) :
      Excuse r i (.unsupportedFieldType (r.writers i).type)
  | long {ring : KeyRing} (hring : r.HasRing i ring) {a : Algorithm}
      (hchosen : ring.cryptor.algorithm = .ok a) (hrandom : a.isDeterministic = false)
      {value : FieldValue} (hvalue : (r.writers i).value = some value) {plain : Bytes}
      (hplain : Transform.bytesOf (r.writers i).type value = some plain)
      (h : Cipher.maxLength < plain.length) : Excuse r i (.cipher .aeadFailure)
  | untyped {ring : KeyRing} (hring : r.HasRing i ring)
      (habsent : ∀ kek, r.start.registry.getKek ring.kekName false ≠ .ok kek)
      (h : r.namedType i = none) : Excuse r i (.key (.missingKmsType ring.kekName))
  | unnamed {ring : KeyRing} (hring : r.HasRing i ring)
      (habsent : ∀ kek, r.start.registry.getKek ring.kekName false ≠ .ok kek)
      (h : r.namedKey i = none) : Excuse r i (.key (.missingKmsKeyId ring.kekName))
  | deleted {ring : KeyRing} (hring : r.HasRing i ring) {kek : Kek}
      (hkek : r.start.registry.keks.get? ring.kekName = some kek) (h : kek.deleted = true) :
      Excuse r i (.key (.kekNotFoundOnWrite ring.kekName))
  | unrecovered {ring : KeyRing} (hring : r.HasRing i ring) {dek : Dek}
      (hdek : dek ∈ r.start.registry.file (r.path i ring)) {cause : KeyError}
      (h : recovered (r.unwrap (r.url ring.kekName)) dek = .error cause) : Excuse r i (.key cause)
  | misfit {ring : KeyRing} (hring : r.HasRing i ring) {a : Algorithm}
      (hchosen : ring.cryptor.algorithm = .ok a) {dek : Dek}
      (hdek : dek ∈ r.start.registry.file (r.path i ring)) {raw : Bytes}
      (h : recovered (r.unwrap (r.url ring.kekName)) dek = .ok raw)
      (hlength : raw.length ≠ a.keyLength) :
      Excuse r i (.cipher (.invalidKeyLength a.keyLength raw.length))

/-- A world in which the writers can go on: its key-encryption keys belong to
the master keys that their names stand for, its new records are usable, none
has been deleted, and its key management system works. -/
structure Healthy (r : Race ι σ) (w : World Store σ) : Prop where
  filed : w.registry.Filed
  keks : ∀ name kek, w.registry.keks.get? name = some kek →
    kek.kmsType = r.kmsType name ∧ kek.kmsKeyId = r.kmsKeyId name ∧
      (kek.deleted = true → r.start.registry.keks.get? name = some kek)
  records : ∀ path, ∀ dek ∈ w.registry.file path,
    dek ∈ r.start.registry.file path ∨ r.Usable path dek
  works : ∀ i ring, r.HasRing i ring →
    w.directory.Works ring.config (r.url ring.kekName) (r.unwrap (r.url ring.kekName))

/-- Healthy worlds answered a trace on the way from one to another. -/
abbrev Span (r : Race ι σ) (w : World Store σ) (t : Trace) (w' : World Store σ) : Prop :=
  Timeline (fun req : Effect => World.answer req) r.Healthy World.Extends w t w'

variable {r : Race ι σ} {i : ι} {ring : KeyRing} {kek : Kek} {dek : Dek} {t u : Trace}
  {w w' : World Store σ}

/-- The race starts in a healthy world. -/
theorem Fair.healthy (h : r.Fair) : r.Healthy r.start := by
  refine ⟨h.filed, fun name kek hkek => ?_, fun path dek hdek => .inl hdek, h.works⟩
  obtain ⟨htype, hid⟩ := h.stored name kek hkek
  exact ⟨htype, hid, fun _ => hkek⟩

/-- A world that differs in nothing but its time, its random source, its
systems and its log is as healthy. -/
theorem Healthy.congr (h : r.Healthy w) (hregistry : w'.registry = w.registry)
    (hdirectory : w'.directory = w.directory) : r.Healthy w' := by
  constructor
  · rw [hregistry]
    exact h.filed
  · rw [hregistry]
    exact h.keks
  · rw [hregistry]
    exact h.records
  · rw [hdirectory]
    exact h.works

theorem Healthy.url_eq (h : r.Healthy w) {name : String}
    (hkek : w.registry.keks.get? name = some kek) : kek.url = r.url name := by
  obtain ⟨htype, hid, -⟩ := h.keks name kek hkek
  rw [Kek.url, htype, hid]
  rfl

theorem Span.course (h : r.Span w t w') : World.Course w t w' :=
  h.mono fun _ hhealthy => hhealthy.filed

theorem Span.later (h : r.Span w t w') : World.Extends w w' :=
  Timeline.extends (E := World.Extends) World.Extends.trans h

theorem Span.answered (h : r.Span w t w') {x : Engine.Exchange} (hx : x ∈ t) :
    ∃ u, r.Healthy u ∧ World.Extends w u ∧ x.2 = ((World.answer x.1).run u).1 ∧
      World.Extends ((World.answer x.1).run u).2 w' := by
  obtain ⟨u, hhealthy, hearlier, hanswer, -, hlater⟩ :=
    Timeline.answered (E := World.Extends) World.Extends.trans h hx
  exact ⟨u, hhealthy, hearlier, hanswer, hlater⟩

theorem Span.split (h : r.Span w (t ++ u) w') : ∃ v, r.Span w t v ∧ r.Span v u w' :=
  Timeline.split (E := World.Extends) h World.Extends.refl

theorem Span.tail {x : Engine.Exchange} (h : r.Span w (x :: t) w') :
    ∃ u, r.Healthy u ∧ World.Extends w u ∧ x.2 = ((World.answer x.1).run u).1 ∧
      World.Extends w ((World.answer x.1).run u).2 ∧
      r.Span ((World.answer x.1).run u).2 t w' :=
  Timeline.tail (E := World.Extends) h World.Extends.trans

/-- Every handle of a writer is handed out, and serves. -/
theorem Span.serves (h : r.Span w t w') (hring : r.HasRing i ring)
    {answer : Except Kms.Error Kms.Handle}
    (hmem : handed ring.config (r.url ring.kekName) answer ∈ t) :
    ∃ handle, answer = .ok handle ∧ handle.Serves (r.unwrap (r.url ring.kekName)) := by
  obtain ⟨u, hhealthy, -, hanswer, -⟩ := h.answered hmem
  obtain ⟨handle, houtcome, hserves⟩ := (hhealthy.works i ring hring).handle_outcome u.systems
  exact ⟨handle, hanswer.trans houtcome, hserves⟩

/-! ## What a writer guarantees -/

/-- Key material that was wrapped on the way is usable. -/
theorem Span.usable (h : r.Span w t w') (hring : r.HasRing i ring)
    (hurl : kek.url = r.url ring.kekName) {text : String}
    (hfresh : ring.WrappedFresh kek t text) {path : DekPath}
    (hname : path.kekName = ring.kekName) (halgorithm : path.algorithm = ring.cryptor.format)
    (hclear : dek.keyMaterial = none) (htext : dek.encryptedKeyMaterial = some text) :
    r.Usable path dek := by
  obtain ⟨handle, a, key, draws, wrapped, hhandle, hchosen, hlength, hwrap, rfl⟩ := hfresh
  rw [hurl] at hhandle
  obtain ⟨handle', hsame, hserves⟩ := h.serves hring hhandle
  obtain rfl := Except.ok.inj hsame
  obtain ⟨wrapped', hwrapped, hopens⟩ := hserves.wraps a key hlength draws _ hwrap
  obtain rfl := Except.ok.inj hwrapped
  refine ⟨a, key, ?_, ?_, hlength⟩
  · rw [halgorithm]
    exact hchosen
  · rw [hname, recovered_of_wrapped hclear htext (Dek.decodeMaterial_encode wrapped), hopens]
    rfl

/-- The registration of a version by a writer keeps the world healthy. -/
theorem Span.healthy_registerDek (h : r.Span r.start t w) {kekName : String} {request : DekRequest}
    {next : Except RegistryError Dek → Engine (Except Error (Option FieldValue))}
    (hafter : After (r.writers i).program t
      (.ask (Effect.registry (.registerDek kekName request)) next)) :
    r.Healthy ((World.answer (.registry (.registerDek kekName request))).run w).2 := by
  have hw : r.Healthy w := Timeline.finish h
  obtain ⟨ring, kek, hring, rfl, hkek, halgorithm, hversion, hfresh⟩ :=
    Executor.asked_registerDek hafter
  have hurl : kek.url = r.url ring.kekName := hw.url_eq (h.course.backs.kek_stored hkek)
  have houtcome := World.answer_registerDek w ring.kekName request
  refine ⟨houtcome.filed hw.filed hversion, ?_, ?_, hw.works⟩
  · rw [houtcome.keks_eq]
    exact hw.keks
  · intro path dek hdek
    rcases houtcome.mem_file hdek with hold | ⟨-, rfl, shared, wrapped, clear, rfl, hmaterial⟩
    · exact hw.records path dek hold
    · refine .inr ?_
      cases hmaterial with
      | given text htext =>
        exact h.usable hring hurl (hfresh text htext) rfl halgorithm rfl rfl
      | made hnone hshared a hchosen key hlength =>
        refine ⟨a, key, hchosen, ?_, hlength⟩
        rw [recovered_of_clear rfl, Dek.decodeMaterial_encode]
        rfl

theorem Healthy.registerKek (h : r.Healthy w) (hfair : r.Fair) (hring : r.HasRing i ring)
    {type id : String} (htype : r.namedType i = some type) (hid : r.namedKey i = some id) :
    r.Healthy ((World.answer (.registry (.registerKek (ring.kekRequest type id)))).run w).2 := by
  obtain ⟨hagreesType, hagreesId⟩ := hfair.named i ring hring
  refine ⟨h.filed.registerKek, fun name kek hkek => ?_, fun path dek hdek => ?_, h.works⟩
  · rcases Store.get?_registerKek hkek with hold | ⟨rfl, rfl⟩
    · exact h.keks name kek hold
    · exact ⟨hagreesType type htype, hagreesId id hid, nofun⟩
  · have hold : dek ∈ w.registry.file path := by
      rw [← Store.file_registerKek]
      exact hdek
    exact h.records path dek hold

theorem Healthy.keyHandle (h : r.Healthy w) (hring : r.HasRing i ring) :
    r.Healthy ((World.answer (.keyHandle ring.config (r.url ring.kekName))).run w).2 := by
  refine ⟨h.filed, h.keks, h.records, fun j ring' hring' => ?_⟩
  refine (h.works j ring' hring').handle fun hurl => ?_
  rw [hurl]
  exact h.works i ring hring

/-- What a writer asks for next keeps the world healthy. -/
theorem Span.healthy_answer (h : r.Span r.start t w) (hfair : r.Fair) {req : Effect}
    {next : req.Answer → Engine (Except Error (Option FieldValue))}
    (hafter : After (r.writers i).program t (.ask req next)) :
    r.Healthy ((World.answer req).run w).2 := by
  have hw : r.Healthy w := Timeline.finish h
  cases req with
  | registry c =>
    cases c with
    | getKek name deleted => exact hw.congr rfl rfl
    | getDek id deleted => exact hw.congr rfl rfl
    | registerKek request =>
      obtain ⟨ring, type, id, hring, htype, hid, rfl⟩ := Executor.asked_registerKek hafter
      exact hw.registerKek hfair hring htype hid
    | registerDek kekName request => exact h.healthy_registerDek hafter
  | clock => exact hw
  | random n => exact hw.congr rfl rfl
  | keyHandle config url =>
    obtain ⟨ring, kek, hring, rfl, rfl, hkek⟩ := Executor.asked_keyHandle hafter
    rw [hw.url_eq (h.course.backs.kek_stored hkek)]
    exact hw.keyHandle hring
  | log event => exact hw.congr rfl rfl

end Race
end Envelope
