import Envelope.Proofs.RoundTrip
import Envelope.Proofs.Serial

/-!
# What a reader comes to

A reader registers nothing and draws nothing, so that a world stands still
around it: it asks for a handle of the master key at most.  What it comes to can
be computed from the records and handles of the world at its start
(`World.reading`), without running its program.
-/

namespace Envelope

open Program Engine

namespace KeyRing

variable {ring : KeyRing} {kek : Kek} {dek d : Dek}

theorem fetched_of_fatal {α : Type} {absent : KeyError} {e : RegistryError}
    (h : e.isNotFound = false) : fetched absent (.error e : Except RegistryError α) =
      .error (.registry e) := by
  simp [fetched, present, h]

theorem fetched_of_absent {α : Type} {absent : KeyError} {e : RegistryError}
    (h : e.isNotFound = true) : fetched absent (.error e : Except RegistryError α) =
      .error absent := by
  simp [fetched, present, h]

/-- A record with its raw key: known already, in the clear, or unwrapped with
the handle of the master key, which may be refused. -/
def unlocked (handle : Except Kms.Error Kms.Handle) (dek : Dek) : Except KeyError Dek :=
  dek.resolveRawKey.mapError KeyError.keyMaterialEncoding >>= fun d =>
    if d.rawKey.isSome then .ok d
    else handle.mapError KeyError.kms >>= fun handle => opened handle d

variable {handle : Except Kms.Error Kms.Handle}

theorem unlocked_of_misencoded {e : Base64.DecodeError} (h : dek.resolveRawKey = .error e) :
    unlocked handle dek = .error (.keyMaterialEncoding e) := by
  rw [unlocked, h]
  rfl

theorem unlocked_of_known (h : dek.resolveRawKey = .ok d) (hkey : d.rawKey.isSome = true) :
    unlocked handle dek = .ok d := by
  simp [unlocked, h, hkey, bind, Except.bind]

theorem unlocked_of_unknown (h : dek.resolveRawKey = .ok d) (hkey : d.rawKey = none) :
    unlocked handle dek = handle.mapError KeyError.kms >>= fun handle => opened handle d := by
  simp [unlocked, h, hkey, bind, Except.bind]

theorem unlocked_of_handed {handle : Kms.Handle} (h : dek.resolveRawKey = .ok d)
    (hkey : d.rawKey = none) : unlocked (.ok handle) dek = opened handle d :=
  unlocked_of_unknown h hkey

theorem unlocked_of_unhandled {e : Kms.Error} (h : dek.resolveRawKey = .ok d)
    (hkey : d.rawKey = none) : unlocked (.error e) dek = .error (.kms e) :=
  unlocked_of_unknown h hkey

/-- A record gets its raw key and is otherwise the same. -/
theorem unlocked_eq_ok (h : unlocked handle dek = .ok d) :
    ∃ key, d = { dek with rawKey := some key } := by
  cases hresolved : dek.resolveRawKey with
  | error e =>
    rw [unlocked_of_misencoded hresolved] at h
    cases h
  | ok d' =>
    have hsame : ∃ key, d' = { dek with rawKey := key } := by
      rcases resolveRawKey_cases hresolved with ⟨rfl, -⟩ | ⟨text, raw, -, -, -, rfl⟩
      · exact ⟨d'.rawKey, rfl⟩
      · exact ⟨some ⟨raw⟩, rfl⟩
    obtain ⟨key, rfl⟩ := hsame
    by_cases hkey : key.isSome = true
    · rw [unlocked_of_known hresolved hkey] at h
      obtain ⟨raw, rfl⟩ := Option.isSome_iff_exists.mp hkey
      exact ⟨raw, (Except.ok.inj h).symm⟩
    · rw [unlocked_of_unknown hresolved (Option.not_isSome_iff_eq_none.mp hkey)] at h
      cases handle with
      | error e => cases h
      | ok handle => exact opened_eq_ok h

end KeyRing

/-! ## What a world makes of a reader's requests -/

namespace World

variable {σ κ : Type}

/-- The handle of the master key at an address, as it would be handed out. -/
def handleAt (w : World Store σ) (config : Properties) (url : String) :
    Except Kms.Error Kms.Handle :=
  (w.directory.handle config url w.systems).outcome

/-- The address of the master key of the key-encryption key that a reader
finds. -/
def foundUrl (w : World Store σ) (ring : KeyRing) (kmsType kmsKeyId : Option String) :
    Except KeyError String :=
  (KeyRing.fetched (.kekNotFoundOnRead ring.kekName) (w.registry.getKek ring.kekName true) >>=
    ring.bound kmsType kmsKeyId).map Kek.url

/-- The data key that a reader finds, with its raw key. -/
def foundDek (w : World Store σ) (ring : KeyRing) (url subject : String)
    (version : Option UInt32) : Except KeyError Dek :=
  KeyRing.fetched (.dekNotFoundOnRead ring.kekName subject)
    (w.registry.getDek (ring.dekId subject version) true) >>=
      KeyRing.unlocked (w.handleAt ring.config url)

/-- What the bytes of a value are decrypted to. -/
def decrypted (w : World Store σ) (ring : KeyRing) (url subject : String) (type : FieldType)
    (bytes : Bytes) : Except Error FieldValue :=
  Transform.received ring type bytes >>= fun carried =>
    (w.foundDek ring url subject carried.1).mapError Error.key >>= fun dek =>
      dek.key.mapError Error.key >>= fun key =>
        (ring.cryptor.decrypt key.bytes carried.2 []).mapError Error.cipher >>=
          Transform.revealed type

/-- What a reader comes to once the address of its master key is known. -/
def readValue (w : World Store σ) (ring : KeyRing) (url subject : String) (type : FieldType) :
    Option FieldValue → Except Error (Option FieldValue)
  | none => .ok none
  | some value =>
    match Transform.bytesOf type value with
    | some bytes => (w.decrypted ring url subject type bytes).map some
    | none => .ok (some value)

/-- What a reader comes to. -/
def reading (w : World Store σ) (e : Executor κ) (context : Context) (type : FieldType)
    (value : Option FieldValue) : Except Error (Option FieldValue) :=
  e.admitted context >>= fun ring =>
    (w.foundUrl ring (e.namedType context) (e.namedKey context)).mapError Error.key >>= fun url =>
      w.readValue ring url context.subject type value

/-- A world is left as it was, but for a request for a handle of the master key
at an address. -/
def Consulted (w : World Store σ) (config : Properties) (url : String) (w' : World Store σ) :
    Prop :=
  w' = w ∨ w' = ((keyHandle config url).run w).2

variable {w w' : World Store σ} {t : Trace} {ring : KeyRing} {kek : Kek} {subject : String}

/-- A look-up of a key-encryption key leaves the world as it was. -/
theorem Serial.getKek {name : String} {deleted : Bool} {x : Except RegistryError Kek}
    (h : Serial w (called (.getKek name deleted) x :: t) w') :
    w.registry.getKek name deleted = x ∧ Serial w t w' := by
  obtain ⟨hanswer, hrest⟩ := h.first
  exact ⟨hanswer.symm, hrest⟩

/-- A look-up of a data key leaves the world as it was. -/
theorem Serial.getDek {id : DekId} {deleted : Bool} {x : Except RegistryError Dek}
    (h : Serial w (called (.getDek id deleted) x :: t) w') :
    w.registry.getDek id deleted = x ∧ Serial w t w' := by
  obtain ⟨hanswer, hrest⟩ := h.first
  exact ⟨hanswer.symm, hrest⟩

theorem Serial.handed {config : Properties} {url : String} {x : Except Kms.Error Kms.Handle}
    (h : Serial w [handed config url x] w') :
    w.handleAt config url = x ∧ w.Consulted config url w' := by
  obtain ⟨hanswer, hrest⟩ := h.first
  exact ⟨hanswer.symm, .inr hrest.nil_eq⟩

/-- Readers find the key-encryption key as it is stored, and leave the world as
it was. -/
theorem search_reading {kmsType kmsKeyId : Option String} {r : Except KeyError Kek}
    (h : ring.KekSearch .read kmsType kmsKeyId t r) (hserial : Serial w t w') :
    w' = w ∧ r = KeyRing.fetched (.kekNotFoundOnRead ring.kekName)
      (w.registry.getKek ring.kekName true) := by
  cases h with
  | failed e fatal =>
    obtain ⟨hget, hrest⟩ := Serial.getKek hserial
    rw [show w.registry.getKek ring.kekName true = .error e from hget,
      KeyRing.fetched_of_fatal fatal]
    exact ⟨hrest.nil_eq, rfl⟩
  | found kek =>
    obtain ⟨hget, hrest⟩ := Serial.getKek hserial
    rw [show w.registry.getKek ring.kekName true = .ok kek from hget]
    exact ⟨hrest.nil_eq, rfl⟩
  | unread e absent reads =>
    obtain ⟨hget, hrest⟩ := Serial.getKek hserial
    rw [show w.registry.getKek ring.kekName true = .error e from hget,
      KeyRing.fetched_of_absent absent]
    exact ⟨hrest.nil_eq, rfl⟩
  | untyped e absent writes htype => exact absurd rfl writes
  | unnamed e absent writes type htype hid => exact absurd rfl writes
  | created e absent writes type id htype hid rest => exact absurd rfl writes

/-- A raw key is recovered with the handle that the world hands out. -/
theorem unlocking_reading {dek : Dek} {r : Except KeyError Dek}
    (h : ring.Unlocking kek dek none t r) (hserial : Serial w t w') :
    w.Consulted ring.config kek.url w' ∧
      r = KeyRing.unlocked (w.handleAt ring.config kek.url) dek := by
  cases h with
  | misencoded e herror =>
    rw [KeyRing.unlocked_of_misencoded herror]
    exact ⟨.inl hserial.nil_eq, rfl⟩
  | known d hresolved hkey =>
    rw [KeyRing.unlocked_of_known hresolved hkey]
    exact ⟨.inl hserial.nil_eq, rfl⟩
  | fetched d hresolved hkey handle =>
    obtain ⟨hhandle, hworld⟩ := Serial.handed hserial
    rw [KeyRing.unlocked_of_unknown hresolved hkey, hhandle]
    exact ⟨hworld, rfl⟩
  | unhandled d hresolved hkey e =>
    obtain ⟨hhandle, hworld⟩ := Serial.handed hserial
    rw [KeyRing.unlocked_of_unknown hresolved hkey, hhandle]
    exact ⟨hworld, rfl⟩

/-- Readers find a data key as it is stored, whatever the time. -/
theorem dek_reading {version : Option UInt32} {r : Except KeyError Dek}
    (h : ring.DekSearch kek subject version .read t r) (hserial : Serial w t w') :
    w.Consulted ring.config kek.url w' ∧ r = w.foundDek ring kek.url subject version := by
  unfold foundDek
  cases h with
  | failed e fatal =>
    obtain ⟨hget, hrest⟩ := Serial.getDek hserial
    rw [show w.registry.getDek (ring.dekId subject version) true = .error e from hget,
      KeyRing.fetched_of_fatal fatal]
    exact ⟨.inl hrest.nil_eq, rfl⟩
  | unread e absent reads now =>
    obtain ⟨hget, hrest⟩ := Serial.getDek hserial
    rw [show w.registry.getDek (ring.dekId subject version) true = .error e from hget,
      KeyRing.fetched_of_absent absent]
    exact ⟨.inl hrest.first.2.nil_eq, rfl⟩
  | overflowed dek now cause stops =>
    rw [KeyRing.isExpired_read] at stops
    cases stops
  | current dek now fresh unlocked =>
    obtain ⟨hget, hrest⟩ := Serial.getDek hserial
    rw [show w.registry.getDek (ring.dekId subject version) true = .ok dek from hget]
    exact unlocking_reading unlocked hrest.first.2
  | unrotated answer now due rotated => exact absurd rfl due.writes
  | rotated answer now due rotated unlocked => exact absurd rfl due.writes

variable {type : FieldType} {bytes ciphertext : Bytes} {version : Option UInt32} {dek : Dek}
  {url : String}

theorem decrypted_of_unreceived {error : Error}
    (h : Transform.received ring type bytes = .error error) :
    w.decrypted ring url subject type bytes = .error error := by
  rw [decrypted, h]
  rfl

theorem decrypted_of_missing {error : KeyError}
    (h : Transform.received ring type bytes = .ok (version, ciphertext))
    (hdek : w.foundDek ring url subject version = .error error) :
    w.decrypted ring url subject type bytes = .error (.key error) := by
  rw [decrypted, h]
  dsimp only [bind, Except.bind]
  rw [hdek]
  rfl

theorem decrypted_of_found {key : KeyMaterial}
    (h : Transform.received ring type bytes = .ok (version, ciphertext))
    (hdek : w.foundDek ring url subject version = .ok dek) (hkey : dek.rawKey = some key) :
    w.decrypted ring url subject type bytes =
      (ring.cryptor.decrypt key.bytes ciphertext []).mapError Error.cipher >>=
        Transform.revealed type := by
  rw [decrypted, h]
  dsimp only [bind, Except.bind]
  rw [hdek]
  dsimp only [mapError_ok]
  rw [Dek.key, hkey]
  rfl

/-- The bytes of a value are decrypted as the world at the start says. -/
theorem decryption_reading {x : Transform} {r : Except Error FieldValue}
    (h : x.Decryption subject type bytes t r) (hserial : Serial w t w') :
    w.Consulted x.ring.config x.kek.url w' ∧
      r = w.decrypted x.ring x.kek.url subject type bytes := by
  cases h with
  | unread e hreceived =>
    rw [decrypted_of_unreceived hreceived]
    exact ⟨.inl hserial.nil_eq, rfl⟩
  | unkeyed hreceived search =>
    obtain ⟨hworld, hsearch⟩ := dek_reading search hserial
    rw [decrypted_of_missing hreceived hsearch.symm]
    exact ⟨hworld, rfl⟩
  | keyed hreceived search hkey =>
    obtain ⟨hworld, hsearch⟩ := dek_reading search hserial
    rw [decrypted_of_found hreceived hsearch.symm hkey]
    exact ⟨hworld, rfl⟩

theorem application_reading {x : Transform} {context : Context} {value : Option FieldValue}
    {r : Except Error (Option FieldValue)} (h : x.Application context type value t r)
    (reads : context.mode = .read) (hserial : Serial w t w') :
    w.Consulted x.ring.config x.kek.url w' ∧
      r = w.readValue x.ring x.kek.url context.subject type value := by
  cases h with
  | absent => exact ⟨.inl hserial.nil_eq, rfl⟩
  | unsupported value writes hbytes =>
    rw [reads] at writes
    cases writes
  | encrypted value writes plain hbytes encryption =>
    rw [reads] at writes
    cases writes
  | untouched value _ hbytes =>
    rw [readValue, hbytes]
    exact ⟨.inl hserial.nil_eq, rfl⟩
  | decrypted value _ bytes hbytes decryption =>
    obtain ⟨hworld, rfl⟩ := decryption_reading decryption hserial
    rw [readValue, hbytes]
    exact ⟨hworld, rfl⟩
  | refused value hwrite hread => exact absurd reads hread

variable {e : Executor κ} {context : Context} {value : Option FieldValue}
  {r : Except Error (Option FieldValue)}

theorem reading_of_rejected {error : Error} (h : e.admitted context = .error error) :
    w.reading e context type value = .error error := by
  rw [reading, h]
  rfl

theorem reading_of_unresolved {error : KeyError} (h : e.admitted context = .ok ring)
    (hurl : w.foundUrl ring (e.namedType context) (e.namedKey context) = .error error) :
    w.reading e context type value = .error (.key error) := by
  rw [reading, h]
  dsimp only [bind, Except.bind]
  rw [hurl]
  rfl

theorem reading_of_resolved (h : e.admitted context = .ok ring)
    (hurl : w.foundUrl ring (e.namedType context) (e.namedKey context) = .ok url) :
    w.reading e context type value = w.readValue ring url context.subject type value := by
  rw [reading, h]
  dsimp only [bind, Except.bind]
  rw [hurl]
  rfl

theorem reading_eq_ok {out : Option FieldValue} (h : w.reading e context type value = .ok out) :
    ∃ ring url, e.admitted context = .ok ring ∧
      w.foundUrl ring (e.namedType context) (e.namedKey context) = .ok url ∧
      w.readValue ring url context.subject type value = .ok out := by
  cases htaken : e.admitted context with
  | error error =>
    rw [reading_of_rejected htaken] at h
    cases h
  | ok ring =>
    cases hurl : w.foundUrl ring (e.namedType context) (e.namedKey context) with
    | error error =>
      rw [reading_of_unresolved htaken hurl] at h
      cases h
    | ok url =>
      rw [reading_of_resolved htaken hurl] at h
      exact ⟨ring, url, rfl, hurl, h⟩

/-- The address that is found is that of the stored key-encryption key, if it
agrees with the rule. -/
theorem foundUrl_eq_ok_iff {kmsType kmsKeyId : Option String} :
    w.foundUrl ring kmsType kmsKeyId = .ok url ↔
      ∃ kek, w.registry.keks.get? ring.kekName = some kek ∧ kek.url = url ∧
        KeyRing.Agrees kmsType kek.kmsType ∧ KeyRing.Agrees kmsKeyId kek.kmsKeyId := by
  unfold foundUrl
  constructor
  · intro h
    cases hfetched : KeyRing.fetched (.kekNotFoundOnRead ring.kekName)
        (w.registry.getKek ring.kekName true) with
    | error error =>
      rw [hfetched] at h
      cases h
    | ok kek =>
      have hget := KeyRing.fetched_eq_ok_iff.mp hfetched
      obtain ⟨hstored, -⟩ := Store.getKek_eq_ok_iff.mp hget
      rw [hfetched] at h
      change (ring.bound kmsType kmsKeyId kek).map Kek.url = .ok url at h
      cases hbound : ring.bound kmsType kmsKeyId kek with
      | error error =>
        rw [hbound] at h
        cases h
      | ok kek' =>
        obtain ⟨rfl, htype, hkey⟩ := KeyRing.bound_eq_ok_iff.mp hbound
        rw [hbound] at h
        exact ⟨kek', hstored, Except.ok.inj h, htype, hkey⟩
  · rintro ⟨kek, hstored, rfl, htype, hkey⟩
    have hget : w.registry.getKek ring.kekName true = .ok kek :=
      Store.getKek_eq_ok_iff.mpr ⟨hstored, .inl rfl⟩
    have hbound : ring.bound kmsType kmsKeyId kek = .ok kek :=
      KeyRing.bound_eq_ok_iff.mpr ⟨rfl, htype, hkey⟩
    rw [hget]
    change (ring.bound kmsType kmsKeyId kek).map Kek.url = .ok kek.url
    rw [hbound]
    rfl

/-- What a reader leaves of a world: everything, but for a request for a handle
of the master key of its key-encryption key. -/
def ReadBy (w : World Store σ) (e : Executor κ) (context : Context) (w' : World Store σ) :
    Prop :=
  w' = w ∨ ∃ ring kek, e.ring context = .ok ring ∧
    w.registry.keks.get? ring.kekName = some kek ∧ w' = ((keyHandle ring.config kek.url).run w).2

/-- In a world in which nothing else happens, a reader comes to what the world at
the start says. -/
theorem transformation_reading (h : e.Transformation context type value t r)
    (reads : context.mode = .read) (hserial : Serial w t w') :
    w.ReadBy e context w' ∧ r = w.reading e context type value := by
  cases h with
  | rejected error htaken =>
    rw [reading_of_rejected htaken]
    exact ⟨.inl hserial.nil_eq, rfl⟩
  | @unresolved ring htaken _ _ error search hrefused =>
    rw [reads] at search
    obtain ⟨hworld, rfl⟩ := search_reading search hserial
    have hurl : w.foundUrl ring (e.namedType context) (e.namedKey context) = .error error := by
      rw [foundUrl, hrefused]
      rfl
    rw [reading_of_unresolved htaken hurl]
    exact ⟨.inl hworld, rfl⟩
  | @resolved ring htaken t₁ t₂ kek search hbound _ application =>
    obtain ⟨u, hleft, hright⟩ := Program.Serial.split hserial
    rw [reads] at search
    obtain ⟨rfl, hfetched⟩ := search_reading search hleft
    have hurl : u.foundUrl ring (e.namedType context) (e.namedKey context) = .ok kek.url := by
      rw [foundUrl, ← hfetched]
      change (ring.bound (e.namedType context) (e.namedKey context) kek).map Kek.url = .ok kek.url
      rw [hbound]
      rfl
    rw [reading_of_resolved htaken hurl]
    obtain ⟨hworld, hr⟩ := application_reading application reads hright
    refine ⟨?_, hr⟩
    rcases hworld with hsame | hasked
    · exact .inl hsame
    · have hget := KeyRing.fetched_eq_ok_iff.mp hfetched.symm
      obtain ⟨hstored, -⟩ := Store.getKek_eq_ok_iff.mp hget
      exact .inr ⟨ring, kek, (Executor.admitted_eq_ok_iff.mp htaken).2, hstored, hasked⟩

/-- A reader that runs in a world comes to what the world says, and leaves it
to others as it was. -/
theorem run_reading (w : World Store σ) (e : Executor κ) (kind : ExecutorKind) {context : Context}
    (reads : context.mode = .read) (type : FieldType) (value : Option FieldValue) :
    ((run (e.transform kind context type value).run).run w).1 =
        w.reading e context (kind.declared type) value ∧
      w.ReadBy e context ((run (e.transform kind context type value).run).run w).2 := by
  rw [Executor.transform_eq]
  obtain ⟨t, hruns, hserial⟩ := exists_serial (fun r : Effect => World.answer r)
    (e.transformField context (kind.declared type) value).run w
  have hcourse : e.Transformation context (kind.declared type) value t _ :=
    Executor.transformField_comesTo hruns
  obtain ⟨hworld, hresult⟩ := transformation_reading hcourse reads hserial
  exact ⟨hresult, hworld⟩

end World

/-! ## A value under rotating keys -/

namespace Sample

/-- A world without records, whose driver does not wrap keys. -/
def start : World Store Unit :=
  ⟨∅, ⟨[Kms.Plain.driver "local-kms://"], ∅⟩, (), 0, none, ⟨fun _ => 0, 0⟩, []⟩

def executor : Executor Unit :=
  ⟨some (), ∅⟩

/-- The parameters of a rule but for the number of days after which keys are
replaced. -/
def base : Properties :=
  Dict.ofList [(Parameter.kekName, "k"), (Parameter.dekAlgorithm, "AES256_SIV")]

def params (days : String) : Properties :=
  base.insert Parameter.dekExpiryDays days

def writer : Context :=
  ⟨"s", .write,
    ((params "1").insert Parameter.kmsType "local-kms").insert Parameter.kmsKeyId "m", ∅⟩

def reader (days : String) : Context :=
  ⟨"s", .read, params days, ∅⟩

/-- The first value is written. -/
def written : Except Error (Option FieldValue) × World Store Unit :=
  (World.run (executor.transform .field writer .bytes (some (.bytes [104, 105]))).run).run start

/-- The key ring of the rule. -/
def ring (days : UInt32) : KeyRing :=
  ⟨"k", ⟨"AES256_SIV"⟩, days, ∅⟩

theorem parameter_reader {days name : String} (h : name ≠ Parameter.dekExpiryDays) :
    executor.parameter (reader days) name = base.get? name := by
  have hparams : (params days).get? name = base.get? name := by
    rw [params, Dict.get?_insert, if_neg h]
  have hnone : (∅ : Properties).get? name = none := rfl
  unfold Executor.parameter Context.parameter
  rw [show (reader days).params.get? name = base.get? name from hparams,
    show (reader days).metadata.get? name = none from hnone,
    show executor.config.get? name = none from hnone, Option.or_none, Option.or_none]

theorem ring_reader : executor.ring (reader "1") = .ok (ring 1) := by
  decide +kernel

/-- Readers of this rule name no master key. -/
theorem namedType_reader (days : String) : executor.namedType (reader days) = none := by
  unfold Executor.namedType
  rw [parameter_reader (by decide)]
  rfl

theorem namedKey_reader (days : String) : executor.namedKey (reader days) = none := by
  unfold Executor.namedKey
  rw [parameter_reader (by decide)]
  rfl

theorem exists_written : ∃ out w, written = (.ok out, w) ∧ w.registry.Filed ∧ w.clock = 0 ∧
    ∃ dek, w.registry.file ⟨"k", "s", "AES256_SIV"⟩ = [dek] ∧ dek.version = 1 := by
  have hisOk : written.1.isOk = true := by decide +kernel
  have hclock : written.2.clock = 0 := by decide +kernel
  have hfile : (written.2.registry.file ⟨"k", "s", "AES256_SIV"⟩).map Dek.version = [1] := by
    decide +kernel
  have hfiled : written.2.registry.Filed := by
    unfold written
    exact Executor.filed_run (w := start) Store.filed_empty executor .field writer .bytes _
  generalize written = x at *
  obtain ⟨result, w⟩ := x
  obtain ⟨dek, rest, hfile, hversion, hrest⟩ := List.map_eq_cons_iff.mp hfile
  obtain rfl := List.map_eq_nil_iff.mp hrest
  obtain ⟨out, rfl⟩ := exists_ok_of_isOk hisOk
  exact ⟨out, w, rfl, hfiled, hclock, dek, hfile, hversion⟩

/-- That value is read from then on, with any positive number of days. -/
theorem read_written {out : Option FieldValue} {w w' : World Store Unit}
    (h : written = (.ok out, w)) (hlater : w.Outlives w') (hw' : w'.registry.Filed)
    {days : String} {n : UInt32} (hring : executor.ring (reader days) = .ok (ring n))
    (hpositive : 0 < n) :
    ((World.run (executor.transform .field (reader days) .bytes out).run).run w').1 =
      .ok (some (.bytes [104, 105])) := by
  have hwriter : executor.ring writer = .ok (ring 1) := by decide +kernel
  have halike : (ring 1).Alike (ring n) := ⟨rfl, rfl, decide_eq_true hpositive⟩
  refine Executor.read_written (w := start) Store.filed_empty rfl h hlater hw' rfl nofun hwriter
    hring halike rfl rfl ?_
  intro kek _
  rw [namedType_reader, namedKey_reader]
  exact ⟨nofun, nofun⟩

/-- A reader of this rule that succeeds has found its key-encryption key. -/
theorem resolved_of_read {w : World Store Unit} {value out : Option FieldValue}
    (h : ((World.run (executor.transform .field (reader "1") .bytes value).run).run w).1 =
      .ok out) :
    ∃ url, executor.admitted (reader "1") = .ok (ring 1) ∧
      w.foundUrl (ring 1) (executor.namedType (reader "1")) (executor.namedKey (reader "1")) =
        .ok url ∧
      w.readValue (ring 1) url "s" .bytes value = .ok out := by
  have hmode : (reader "1").mode = .read := rfl
  obtain ⟨hresult, -⟩ := World.run_reading w executor .field hmode .bytes value
  obtain ⟨ring', url, htaken, hurl, hvalue⟩ := World.reading_eq_ok (hresult.symm.trans h)
  have hring' : executor.ring (reader "1") = .ok ring' := (Executor.admitted_eq_ok_iff.mp htaken).2
  obtain rfl : ring 1 = ring' := Except.ok.inj (ring_reader.symm.trans hring')
  exact ⟨url, htaken, hurl, hvalue⟩

end Sample
end Envelope
