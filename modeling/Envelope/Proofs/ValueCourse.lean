import Envelope.Executor
import Envelope.Proofs.KeyCourse
import Mathlib.Tactic.ByContra

/-!
# The course of transforming values

For every trace of an executor, whoever answered its requests, this module says
which way a value went: encrypted (`Encryption`), decrypted (`Decryption`),
passed on or refused (`Application`), after the key-encryption key of the rule
was resolved or could not be (`Transformation`).
-/

namespace Envelope

open Program Engine

namespace KeyRing

/-- A data key comes with its raw key. -/
theorem Unlocking.rawKey {ring : KeyRing} {kek : Kek} {dek d : Dek} {handle : Option Kms.Handle}
    {t : Trace} (h : ring.Unlocking kek dek handle t (.ok d)) : d.rawKey.isSome = true := by
  generalize hr : Except.ok d = r at h
  cases h with
  | misencoded e h => cases hr
  | known d' h hkey =>
    cases hr
    exact hkey
  | given handle d' h hkey =>
    obtain ⟨key, rfl⟩ := opened_eq_ok hr.symm
    rfl
  | fetched d' h hkey handle =>
    obtain ⟨key, rfl⟩ := opened_eq_ok hr.symm
    rfl
  | unhandled d' h hkey e => cases hr

theorem DekSearch.rawKey {ring : KeyRing} {kek : Kek} {subject : String}
    {version : Option UInt32} {mode : Mode} {t : Trace} {d : Dek}
    (h : ring.DekSearch kek subject version mode t (.ok d)) : d.rawKey.isSome = true := by
  cases h with
  | current dek now fresh unlocked => exact unlocked.rawKey
  | rotated answer now due rotated unlocked => exact unlocked.rawKey

end KeyRing

namespace Transform

/-- The form in which a ciphertext leaves: framed with the version of its key
when keys rotate. -/
def carried (ring : KeyRing) (version : UInt32) (ciphertext : Bytes) : Bytes :=
  if ring.rotates then Frame.encode ⟨version, ciphertext⟩ else ciphertext

/-- A value of a declared type that carries bytes: text carries them in base64. -/
def carrying (type : FieldType) (bytes : Bytes) : FieldValue :=
  if type = .string then .string (Base64.encode bytes) else .bytes bytes

/-- The version that a writer asks for. -/
def writtenVersion (ring : KeyRing) : Option UInt32 :=
  if ring.rotates then some Dek.latestVersion else none

/-- The course of encrypting the bytes of a value. -/
inductive Encryption (x : Transform) (subject : String) (type : FieldType) (plain : Bytes) :
    Trace → Except Error FieldValue → Prop where
  | unkeyed {t : Trace} {e : KeyError}
      (search : x.ring.DekSearch x.kek subject (writtenVersion x.ring) .write t (.error e)) :
      Encryption x subject type plain t (.error (.key e))
  | unsealed {t : Trace} {dek : Dek}
      (search : x.ring.DekSearch x.kek subject (writtenVersion x.ring) .write t (.ok dek))
      {key : KeyMaterial} (hkey : dek.rawKey = some key)
      {u : List (Program.Exchange Draw.signature)} {e : CipherError}
      (sealing : ComesTo (x.ring.cryptor.encrypt key.bytes plain []) u (.error e)) :
      Encryption x subject type plain (t ++ drawnTrace u) (.error (.cipher e))
  | sealed {t : Trace} {dek : Dek}
      (search : x.ring.DekSearch x.kek subject (writtenVersion x.ring) .write t (.ok dek))
      {key : KeyMaterial} (hkey : dek.rawKey = some key)
      {u : List (Program.Exchange Draw.signature)} {ciphertext : Bytes}
      (sealing : ComesTo (x.ring.cryptor.encrypt key.bytes plain []) u (.ok ciphertext)) :
      Encryption x subject type plain
        (t ++ drawnTrace u ++ [logged (.fieldEncrypted x.kek.name subject dek.version)])
        (.ok (carrying type (carried x.ring dek.version ciphertext)))

theorem encrypt_comesTo {x : Transform} {subject : String} {type : FieldType} {plain : Bytes}
    {t : Trace} {r : Except Error FieldValue} (h : ComesTo (x.encrypt subject type plain) t r) :
    x.Encryption subject type plain t r := by
  unfold encrypt at h
  rcases comesTo_adapt_bind.mp h with ⟨e, hfail, rfl⟩ | ⟨t₁, t₂, dek, hdone, hrest, rfl⟩
  · exact .unkeyed (KeyRing.dek_comesTo hfail)
  have search := KeyRing.dek_comesTo hdone
  obtain ⟨key, hkey⟩ := Option.isSome_iff_exists.mp search.rawKey
  rcases comesTo_except_bind.mp hrest with ⟨e, hnone, -⟩ | ⟨key', hsome, hseal⟩
  · rw [Dek.key, hkey] at hnone
    cases hnone
  rw [Dek.key, hkey] at hsome
  obtain rfl := Except.ok.inj hsome
  rcases comesTo_adapt_bind.mp hseal with ⟨e, hfail, rfl⟩ | ⟨t₃, t₄, ciphertext, hsealed, hlog, rfl⟩
  · obtain ⟨u, hu, rfl⟩ := runs_draw.mp hfail
    exact .unsealed search hkey hu
  · obtain ⟨u, hu, rfl⟩ := runs_draw.mp hsealed
    obtain ⟨_, v, rfl, hreturn⟩ := comesTo_request_bind.mp hlog
    obtain ⟨rfl, rfl⟩ := comesTo_pure.mp hreturn
    rw [← List.append_assoc]
    exact .sealed search hkey hu

/-- The bytes that a value carries. -/
def decoded (type : FieldType) (bytes : Bytes) : Except Error Bytes :=
  if type = .string then (Base64.decode bytes).mapError Error.base64 else .ok bytes

/-- The version that carried bytes name, when keys rotate, and the
ciphertext. -/
def unframed (ring : KeyRing) (carried : Bytes) : Except Error (Option UInt32 × Bytes) :=
  if ring.rotates then
    (Frame.decode carried).mapError Error.framing >>= fun frame =>
      .ok (some frame.version, frame.body)
  else
    .ok (none, carried)

/-- What a reader makes of the bytes it is given, before it asks for a key. -/
def received (ring : KeyRing) (type : FieldType) (bytes : Bytes) :
    Except Error (Option UInt32 × Bytes) :=
  decoded type bytes >>= unframed ring

/-- The value that decrypted bytes are given back as. -/
def revealed (type : FieldType) (plain : Bytes) : Except Error FieldValue :=
  if type = .string then
    (Utf8.decode plain).mapError Error.invalidUtf8 >>= fun text => .ok (.string text)
  else
    .ok (.bytes plain)

/-- The course of decrypting the bytes of a value. -/
inductive Decryption (x : Transform) (subject : String) (type : FieldType) (bytes : Bytes) :
    Trace → Except Error FieldValue → Prop where
  | unread (e : Error) (h : received x.ring type bytes = .error e) :
      Decryption x subject type bytes [] (.error e)
  | unkeyed {version : Option UInt32} {ciphertext : Bytes}
      (h : received x.ring type bytes = .ok (version, ciphertext)) {t : Trace} {e : KeyError}
      (search : x.ring.DekSearch x.kek subject version .read t (.error e)) :
      Decryption x subject type bytes t (.error (.key e))
  | keyed {version : Option UInt32} {ciphertext : Bytes}
      (h : received x.ring type bytes = .ok (version, ciphertext)) {t : Trace} {dek : Dek}
      (search : x.ring.DekSearch x.kek subject version .read t (.ok dek))
      {key : KeyMaterial} (hkey : dek.rawKey = some key) :
      Decryption x subject type bytes t
        ((x.ring.cryptor.decrypt key.bytes ciphertext []).mapError Error.cipher >>=
          revealed type)

theorem revealed_comesTo {type : FieldType} {plain : Bytes} {t : Trace}
    {r : Except Error FieldValue} :
    ComesTo (if type = .string then do
        let text ← (Utf8.decode plain).mapError Error.invalidUtf8
        return .string text
      else
        return .bytes plain : Action FieldValue) t r ↔
      t = [] ∧ r = revealed type plain := by
  unfold revealed
  by_cases htype : type = .string
  · rw [if_pos htype, if_pos htype]
    rw [comesTo_bind_except fun _ _ _ => comesTo_pure]
    simp only [comesTo_except]
    constructor
    · rintro ⟨r', ⟨rfl, rfl⟩, rfl⟩
      exact ⟨rfl, rfl⟩
    · rintro ⟨rfl, rfl⟩
      exact ⟨_, ⟨rfl, rfl⟩, rfl⟩
  · rw [if_neg htype, if_neg htype]
    exact comesTo_pure

/-- What a reader does once it knows the version of its key. -/
theorem keyed_comesTo {x : Transform} {subject : String} {type : FieldType}
    {bytes ciphertext : Bytes} {version : Option UInt32} {t : Trace} {r : Except Error FieldValue}
    (hreceived : received x.ring type bytes = .ok (version, ciphertext))
    (h : ComesTo (do
      let dek ← (x.ring.dek x.kek subject version .read).adapt Error.key
      let key ← (dek.key).mapError Error.key
      let plain ← (x.ring.cryptor.decrypt key.bytes ciphertext []).mapError Error.cipher
      if type = .string then
        let text ← (Utf8.decode plain).mapError Error.invalidUtf8
        return .string text
      else
        return .bytes plain : Action FieldValue) t r) :
    x.Decryption subject type bytes t r := by
  rcases comesTo_adapt_bind.mp h with ⟨e, hfail, rfl⟩ | ⟨t₁, t₂, dek, hdone, hopen, rfl⟩
  · exact .unkeyed hreceived (KeyRing.dek_comesTo hfail)
  have search := KeyRing.dek_comesTo hdone
  obtain ⟨key, hkey⟩ := Option.isSome_iff_exists.mp search.rawKey
  rcases comesTo_except_bind.mp hopen with ⟨e, hnone, -⟩ | ⟨key', hsome, hplain⟩
  · rw [Dek.key, hkey] at hnone
    cases hnone
  rw [Dek.key, hkey] at hsome
  obtain rfl := Except.ok.inj hsome
  obtain ⟨r', hcipher, rfl⟩ := (comesTo_bind_except fun _ _ _ => revealed_comesTo).mp hplain
  obtain ⟨rfl, rfl⟩ := comesTo_except.mp hcipher
  rw [List.append_nil]
  exact .keyed hreceived search hkey

/-- What follows the decoding is the same for text and for binary values. -/
theorem decoded_comesTo {x : Transform} {subject : String} {type : FieldType}
    {bytes carried : Bytes} {keyed : Option UInt32 × Bytes → Action FieldValue} {t : Trace}
    {r : Except Error FieldValue} (hdecoded : decoded type bytes = .ok carried)
    (hkeyed : ∀ {version ciphertext t r},
      received x.ring type bytes = .ok (version, ciphertext) →
      ComesTo (keyed (version, ciphertext)) t r → x.Decryption subject type bytes t r)
    (h : ComesTo (if x.ring.rotates then do
        let frame ← (Frame.decode carried).mapError Error.framing
        pure (some frame.version, frame.body) >>= keyed
      else
        pure (none, carried) >>= keyed : Action FieldValue) t r) :
    x.Decryption subject type bytes t r := by
  have hreceived : received x.ring type bytes = unframed x.ring carried := by
    rw [received, hdecoded]
    rfl
  unfold unframed at hreceived
  simp only [pure_bind] at h
  by_cases hrotates : x.ring.rotates = true
  · rw [if_pos hrotates] at h hreceived
    rcases comesTo_except_bind.mp h with ⟨e, herror, rfl, rfl⟩ | ⟨frame, hok, hrest⟩
    · rw [herror] at hreceived
      exact .unread e hreceived
    · rw [hok] at hreceived
      exact hkeyed hreceived hrest
  · rw [if_neg hrotates] at h hreceived
    exact hkeyed hreceived h

theorem decrypt_comesTo {x : Transform} {subject : String} {type : FieldType} {bytes : Bytes}
    {t : Trace} {r : Except Error FieldValue} (h : ComesTo (x.decrypt subject type bytes) t r) :
    x.Decryption subject type bytes t r := by
  unfold decrypt at h
  by_cases htype : type = .string
  · have hdecoded : decoded type bytes = (Base64.decode bytes).mapError Error.base64 :=
      if_pos htype
    rw [if_pos htype] at h
    rcases comesTo_except_bind.mp h with ⟨e, herror, rfl, rfl⟩ | ⟨carried, hok, hrest⟩
    · have hreceived : received x.ring type bytes = .error e := by
        rw [received, hdecoded, herror]
        rfl
      exact .unread e hreceived
    · exact decoded_comesTo (hdecoded.trans hok) keyed_comesTo hrest
  · rw [if_neg htype, pure_bind] at h
    exact decoded_comesTo (if_neg htype) keyed_comesTo h

/-- The course of transforming a value: an absent value stays absent, and the
mode decides between encrypting and decrypting. -/
inductive Application (x : Transform) (context : Context) (type : FieldType) :
    Option FieldValue → Trace → Except Error (Option FieldValue) → Prop where
  | absent : Application x context type none [] (.ok none)
  | unsupported (value : FieldValue) (writes : context.mode = .write)
      (h : bytesOf type value = none) :
      Application x context type (some value) [] (.error (.unsupportedFieldType type))
  | encrypted (value : FieldValue) (writes : context.mode = .write) (plain : Bytes)
      (h : bytesOf type value = some plain) {t : Trace} {r : Except Error FieldValue}
      (encryption : x.Encryption context.subject type plain t r) :
      Application x context type (some value) t (r.map some)
  | untouched (value : FieldValue) (reads : context.mode = .read)
      (h : bytesOf type value = none) :
      Application x context type (some value) [] (.ok (some value))
  | decrypted (value : FieldValue) (reads : context.mode = .read) (bytes : Bytes)
      (h : bytesOf type value = some bytes) {t : Trace} {r : Except Error FieldValue}
      (decryption : x.Decryption context.subject type bytes t r) :
      Application x context type (some value) t (r.map some)
  | refused (value : FieldValue) (hwrite : context.mode ≠ .write) (hread : context.mode ≠ .read) :
      Application x context type (some value) [] (.error (.unsupportedMode context.mode))

theorem apply_comesTo {x : Transform} {context : Context} {type : FieldType}
    {value : Option FieldValue} {t : Trace} {r : Except Error (Option FieldValue)}
    (h : ComesTo (x.apply context type value) t r) : x.Application context type value t r := by
  unfold apply at h
  cases value with
  | none =>
    obtain ⟨rfl, rfl⟩ := comesTo_pure.mp h
    exact .absent
  | some value =>
    dsimp only at h
    split at h
    · rename_i writes
      split at h
      · rename_i plain hplain
        obtain ⟨r', hencrypt, rfl⟩ := comesTo_map.mp h
        exact .encrypted value writes plain hplain (encrypt_comesTo hencrypt)
      · rename_i hplain
        obtain ⟨rfl, rfl⟩ := comesTo_throw.mp h
        exact .unsupported value writes hplain
    · rename_i reads
      split at h
      · rename_i bytes hbytes
        obtain ⟨r', hdecrypt, rfl⟩ := comesTo_map.mp h
        exact .decrypted value reads bytes hbytes (decrypt_comesTo hdecrypt)
      · rename_i hbytes
        obtain ⟨rfl, rfl⟩ := comesTo_pure.mp h
        exact .untouched value reads hbytes
    · rename_i hwrite hread
      obtain ⟨rfl, rfl⟩ := comesTo_throw.mp h
      exact .refused value hwrite hread

end Transform

namespace Executor

variable {κ : Type}

/-- The key ring of a rule that an executor takes on: its parameters are valid,
the executor is bound to a registry, and the rule reads or writes. -/
def admitted (e : Executor κ) (context : Context) : Except Error KeyRing := do
  let ring ← (e.ring context).mapError Error.config
  if e.client.isNone then
    throw .notConfigured
  if context.mode ≠ .write ∧ context.mode ≠ .read then
    throw (.unsupportedMode context.mode)
  return ring

/-- An executor does not take a rule on: a parameter is invalid, the executor
is bound to no registry, or the rule neither writes nor reads. -/
def Declines (e : Executor κ) (context : Context) : Prop :=
  (∃ error, e.ring context = .error error) ∨ e.client = none ∨
    (context.mode ≠ .write ∧ context.mode ≠ .read)

/-- A rule that an executor takes on writes or reads. -/
theorem mode_of_taken {e : Executor κ} {context : Context} (taken : ¬ e.Declines context) :
    context.mode = .write ∨ context.mode = .read := by
  by_contra hmode
  exact taken (.inr (.inr (not_or.mp hmode)))

theorem admitted_eq_ok_iff {e : Executor κ} {context : Context} {ring : KeyRing} :
    e.admitted context = .ok ring ↔ ¬ e.Declines context ∧ e.ring context = .ok ring := by
  unfold admitted Declines
  cases hring : e.ring context with
  | error error => simp [bind, Except.bind]
  | ok ring' =>
    cases hclient : e.client with
    | none =>
      simp [bind, Except.bind, throw, throwThe, MonadExceptOf.throw]
    | some client =>
      by_cases hmode : context.mode ≠ .write ∧ context.mode ≠ .read
      · simp [bind, Except.bind, throw, throwThe, MonadExceptOf.throw, hmode]
      · simp [bind, Except.bind, hmode, pure, Except.pure]

/-- An executor that is bound to a registry takes every valid rule on that
reads. -/
theorem admitted_of_reads {e : Executor κ} {context : Context} {ring : KeyRing}
    (hring : e.ring context = .ok ring) (hbound : e.client ≠ none) (reads : context.mode = .read) :
    e.admitted context = .ok ring := by
  refine admitted_eq_ok_iff.mpr ⟨?_, hring⟩
  rintro (⟨error, herror⟩ | hclient | ⟨-, hother⟩)
  · rw [hring] at herror
    cases herror
  · exact hbound hclient
  · exact hother reads

theorem declines_of_admitted_error {e : Executor κ} {context : Context} {error : Error}
    (h : e.admitted context = .error error) : e.Declines context := by
  by_contra taken
  have hring : ∃ ring, e.ring context = .ok ring := by
    cases hring : e.ring context with
    | error error => exact absurd (.inl ⟨error, hring⟩) taken
    | ok ring => exact ⟨ring, rfl⟩
  obtain ⟨ring, hring⟩ := hring
  rw [admitted_eq_ok_iff.mpr ⟨taken, hring⟩] at h
  cases h

/-- The type of key management system that a rule names. -/
def namedType (e : Executor κ) (context : Context) : Option String :=
  KeyRing.nonempty (e.parameter context Parameter.kmsType)

/-- The master key that a rule names. -/
def namedKey (e : Executor κ) (context : Context) : Option String :=
  KeyRing.nonempty (e.parameter context Parameter.kmsKeyId)

/-- The course of an executor: the rule is taken on, its key-encryption key is
resolved, and the value is transformed. -/
inductive Transformation (e : Executor κ) (context : Context) (type : FieldType)
    (value : Option FieldValue) : Trace → Except Error (Option FieldValue) → Prop where
  | rejected (error : Error) (h : e.admitted context = .error error) :
      Transformation e context type value [] (.error error)
  | unresolved (ring : KeyRing) (h : e.admitted context = .ok ring) {t : Trace}
      {r : Except KeyError Kek} {error : KeyError}
      (search : ring.KekSearch context.mode (e.namedType context) (e.namedKey context) t r)
      (hkek : r >>= ring.bound (e.namedType context) (e.namedKey context) = .error error) :
      Transformation e context type value t (.error (.key error))
  | resolved (ring : KeyRing) (h : e.admitted context = .ok ring) {t t' : Trace} {kek : Kek}
      (search : ring.KekSearch context.mode (e.namedType context) (e.namedKey context) t (.ok kek))
      (hbound : ring.bound (e.namedType context) (e.namedKey context) kek = .ok kek)
      {r : Except Error (Option FieldValue)}
      (application : Transform.Application ⟨ring, kek⟩ context type value t' r) :
      Transformation e context type value (t ++ t') r

theorem newTransform_comesTo {e : Executor κ} {context : Context} {t : Trace}
    {r : Except Error Transform} (h : ComesTo (e.newTransform context) t r) :
    (∃ error, e.admitted context = .error error ∧ t = [] ∧ r = .error error) ∨
      ∃ ring, e.admitted context = .ok ring ∧ ∃ r',
        ring.KekSearch context.mode (e.namedType context) (e.namedKey context) t r' ∧
        r = ((r' >>= ring.bound (e.namedType context) (e.namedKey context)).mapError
          Error.key).map (Transform.mk ring) := by
  unfold newTransform at h
  unfold admitted
  rcases comesTo_except_bind.mp h with ⟨error, hfail, rfl, rfl⟩ | ⟨ring, hring, hrest⟩
  · rw [hfail]
    exact .inl ⟨error, rfl, rfl, rfl⟩
  rw [hring]
  have hthrown : ∀ {error : Error} {next : Unit → ExceptT Error Engine Transform} {t r},
      ComesTo (throw error >>= next) t r → t = [] ∧ r = .error error := comesTo_throw.mp
  by_cases hclient : e.client.isNone = true
  · rw [if_pos hclient] at hrest
    obtain ⟨rfl, rfl⟩ := hthrown hrest
    refine .inl ⟨_, ?_, rfl, rfl⟩
    simp only [bind, Except.bind, if_pos hclient]
    rfl
  rw [if_neg hclient] at hrest
  dsimp only at hrest
  by_cases hmode : context.mode ≠ .write ∧ context.mode ≠ .read
  · rw [if_pos hmode] at hrest
    obtain ⟨rfl, rfl⟩ := hthrown hrest
    refine .inl ⟨_, ?_, rfl, rfl⟩
    simp only [bind, Except.bind, if_neg hclient, if_pos hmode]
    rfl
  rw [if_neg hmode] at hrest
  obtain ⟨r₁, hkek, rfl⟩ := (comesTo_bind_except fun _ _ _ => comesTo_pure).mp hrest
  obtain ⟨r₂, hbound, rfl⟩ := comesTo_adapt.mp hkek
  obtain ⟨r₃, hsearch, rfl⟩ := KeyRing.kek_comesTo hbound
  refine .inr ⟨ring, ?_, r₃, hsearch, ?_⟩
  · simp only [bind, Except.bind, if_neg hclient, if_neg hmode]
    rfl
  · rfl

theorem transformField_comesTo {e : Executor κ} {context : Context} {type : FieldType}
    {value : Option FieldValue} {t : Trace} {r : Except Error (Option FieldValue)}
    (h : ComesTo (e.transformField context type value) t r) :
    e.Transformation context type value t r := by
  unfold transformField at h
  rcases comesTo_bind.mp h with ⟨error, hfail, rfl⟩ | ⟨t₁, t₂, x, hdone, happly, rfl⟩
  · rcases newTransform_comesTo hfail with ⟨error', hrejected, rfl, hr⟩ |
      ⟨ring, hring, r', hsearch, hr⟩
    · cases hr
      exact .rejected error hrejected
    · cases hkek : r' >>= ring.bound (e.namedType context) (e.namedKey context) with
      | ok kek => rw [hkek] at hr; cases hr
      | error cause =>
        rw [hkek] at hr
        cases hr
        exact .unresolved ring hring hsearch hkek
  · rcases newTransform_comesTo hdone with ⟨error', -, -, hr⟩ | ⟨ring, hring, r', hsearch, hr⟩
    · cases hr
    · cases r' with
      | error cause => cases hr
      | ok kek =>
        change _ = ((ring.bound (e.namedType context) (e.namedKey context) kek).mapError
          Error.key).map (Transform.mk ring) at hr
        cases hkek : ring.bound (e.namedType context) (e.namedKey context) kek with
        | error cause => rw [hkek] at hr; cases hr
        | ok kek' =>
          obtain rfl := (KeyRing.bound_eq_ok_iff.mp hkek).1
          rw [hkek] at hr
          cases hr
          exact .resolved ring hring hsearch hkek (Transform.apply_comesTo happly)

end Executor
end Envelope
