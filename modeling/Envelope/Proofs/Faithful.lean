import Envelope.Proofs.Expiry
import Envelope.Proofs.ValueCourse

/-!
# Faithful keys

Whoever answers a key ring, a data key that it comes up with is one of the
records that the registry gave out while it worked, and its raw key is the one
that this record holds: known already, in the clear, or wrapped.  What a writer gives back
is therefore encrypted under a key that the registry keeps.
-/

namespace Envelope

open Program Engine

namespace KeyRing

/-- The registry gave out a record of the data key of a subject in the course
of a trace: it was found under its identity, or it was registered, as the first
version unless keys rotate. -/
inductive GivenOut (ring : KeyRing) (subject : String) (version : Option UInt32) (t : Trace)
    (dek : Dek) : Prop where
  | found (deleted : Bool)
      (h : called (.getDek (ring.dekId subject version) deleted) (.ok dek) ∈ t) :
      GivenOut ring subject version t dek
  | registered (request : DekRequest) (hsubject : request.subject = subject)
      (halgorithm : request.algorithm = ring.cryptor.format)
      (hversion : ring.rotates = false → request.version = firstVersion)
      (h : called (.registerDek ring.kekName request) (.ok dek) ∈ t) :
      GivenOut ring subject version t dek

/-- A record holds a raw key: it is known already, or it is given in the clear,
or else it is wrapped, and a handle of the master key that was handed out in the
course of a trace unwraps it. -/
inductive Holds (ring : KeyRing) (kek : Kek) (t : Trace) (dek : Dek) : KeyMaterial → Prop where
  | known {raw : KeyMaterial} (hraw : dek.rawKey = some raw) : Holds ring kek t dek raw
  | clear (hunknown : dek.rawKey = none) {text : String} (htext : dek.keyMaterial = some text)
      {raw : Bytes} (hraw : Dek.decodeMaterial text = .ok raw) : Holds ring kek t dek ⟨raw⟩
  | wrapped (hunknown : dek.rawKey = none) (hclear : dek.keyMaterial = none) {text : String}
      (htext : dek.encryptedKeyMaterial = some text) {wrapped : Bytes}
      (hwrapped : Dek.decodeMaterial text = .ok wrapped) {handle : Kms.Handle}
      (hhandle : handed ring.config kek.url (.ok handle) ∈ t) {raw : Bytes}
      (hraw : handle.unwrap wrapped [] = .ok raw) : Holds ring kek t dek ⟨raw⟩

variable {ring : KeyRing} {kek : Kek} {subject : String} {version : Option UInt32} {mode : Mode}
  {t u : Trace} {dek d : Dek}

theorem GivenOut.mono (h : ring.GivenOut subject version t dek) (hsub : t ⊆ u) :
    ring.GivenOut subject version u dek := by
  cases h with
  | found deleted h => exact .found deleted (hsub h)
  | registered request hsubject halgorithm hversion h =>
    exact .registered request hsubject halgorithm hversion (hsub h)

theorem Holds.mono {raw : KeyMaterial} (h : ring.Holds kek t dek raw) (hsub : t ⊆ u) :
    ring.Holds kek u dek raw := by
  cases h with
  | known hraw => exact .known hraw
  | clear hunknown htext hraw => exact .clear hunknown htext hraw
  | wrapped hunknown hclear htext hwrapped hhandle hraw =>
    exact .wrapped hunknown hclear htext hwrapped (hsub hhandle) hraw

theorem fetched_eq_ok_iff {α : Type} {absent : KeyError} {answer : Except RegistryError α}
    {record : α} : fetched absent answer = .ok record ↔ answer = .ok record := by
  unfold fetched
  constructor
  · intro h
    split at h
    · rename_i found hpresent
      obtain rfl := Except.ok.inj h
      exact present_eq_some_iff.mp hpresent
    · cases h
    · cases h
  · rintro rfl
    rfl

/-- A record that a registration comes to was given out by the registry. -/
theorem DekRegistration.givenOut {next : UInt32} {wrapped : Option Bytes}
    (h : ring.DekRegistration (ring.dekId subject version) mode next wrapped t (.ok dek))
    (hnext : ring.rotates = false → next = firstVersion) :
    ring.GivenOut subject version t dek := by
  generalize hr : Except.ok dek = r at h
  cases h with
  | registered record =>
    cases hr
    exact .registered (dekRequest (ring.dekId subject version) next wrapped) rfl rfl hnext
      List.mem_cons_self
  | refused e fatal => cases hr
  | settled e lost answer =>
    obtain rfl := fetched_eq_ok_iff.mp hr.symm
    exact .found (mode = .read) (by simp)

/-- A handle that was prepared was handed out. -/
theorem Preparation.handed_mem {wrapped : Option Bytes} {handle : Kms.Handle}
    (h : ring.Preparation kek t (.ok (some handle, wrapped))) :
    handed ring.config kek.url (.ok handle) ∈ t := by
  generalize hr : Except.ok (some handle, wrapped) = r at h
  cases h with
  | shared h => cases hr
  | unhandled h e => cases hr
  | handled h handle' wrapping =>
    rename_i u r
    cases r with
    | error e => cases hr
    | ok wrapped' =>
      cases hr
      exact List.mem_cons_self

theorem Rotation.handed_mem {id : DekId} {prior : Option Dek} {handle : Kms.Handle}
    (h : ring.Rotation kek id mode prior t (.ok (some handle, dek))) :
    handed ring.config kek.url (.ok handle) ∈ t := by
  cases h with
  | replaced next hnext prepared registered =>
    exact List.mem_append_left _ prepared.handed_mem
  | kept prior next hnext prepared registered =>
    exact List.mem_append_left _ (List.mem_append_left _ prepared.handed_mem)

/-- A writer goes on with a record given out meanwhile, or with the old one. -/
theorem Rotation.givenOut {prior : Option Dek} {handle : Option Kms.Handle}
    (h : ring.Rotation kek (ring.dekId subject version) mode prior t (.ok (handle, dek)))
    (hprior : ring.rotates = false → prior = none) :
    ring.GivenOut subject version t dek ∨ prior = some dek := by
  cases h with
  | replaced next hnext prepared registered =>
    have hfirst : ring.rotates = false → next = firstVersion := by
      intro hfixed
      rw [hprior hfixed] at hnext
      exact (Except.ok.inj hnext).symm
    exact .inl ((registered.givenOut hfirst).mono (List.subset_append_right _ _))
  | kept prior next hnext prepared registered => exact .inr rfl

/-- Where keys do not rotate, no record expires. -/
theorem Outdated.eq_none {now : Int64} {answer : Except RegistryError Dek} {prior : Option Dek}
    (h : ring.Outdated mode now answer prior) (hfixed : ring.rotates = false) : prior = none := by
  cases h with
  | expired record hexpired =>
    rw [isExpired_of_fixed hfixed] at hexpired
    cases hexpired
  | absent e absent writes => rfl

theorem resolveRawKey_eq_error {e : Base64.DecodeError} (h : dek.resolveRawKey = .error e) :
    ∃ text, dek.keyMaterial = some text ∧ Dek.decodeMaterial text = .error e := by
  unfold Dek.resolveRawKey at h
  split at h
  · rename_i text hunknown hclear
    cases hraw : Dek.decodeMaterial text with
    | error e' =>
      simp only [hraw, bind, Except.bind, Except.error.injEq] at h
      rw [h] at hraw
      exact ⟨text, hclear, hraw⟩
    | ok raw => simp [hraw, bind, Except.bind, pure, Except.pure] at h
  · cases h

/-- A raw key is filled in only from key material in the clear. -/
theorem resolveRawKey_cases (h : dek.resolveRawKey = .ok d) :
    (d = dek ∧ (dek.rawKey = none → dek.keyMaterial = none)) ∨
      ∃ text raw, dek.rawKey = none ∧ dek.keyMaterial = some text ∧
        Dek.decodeMaterial text = .ok raw ∧ d = { dek with rawKey := some ⟨raw⟩ } := by
  unfold Dek.resolveRawKey at h
  split at h
  · rename_i text hunknown hclear
    obtain ⟨raw, hraw, h⟩ := exists_of_bind_eq_ok h
    exact .inr ⟨text, raw, hunknown, hclear, hraw, (Except.ok.inj h).symm⟩
  · rename_i hother
    refine .inl ⟨(Except.ok.inj h).symm, fun hunknown => ?_⟩
    cases hclear : dek.keyMaterial with
    | none => rfl
    | some text => exact absurd hclear (hother text hunknown)

/-- The raw key of a record in which it is not known yet: the key material in
the clear, or what `unwrap` makes of the wrapped key. -/
def recovered (unwrap : Bytes → Except Kms.Error Bytes) (dek : Dek) : Except KeyError Bytes :=
  match dek.keyMaterial with
  | some text => (Dek.decodeMaterial text).mapError KeyError.keyMaterialEncoding
  | none =>
    match dek.encryptedKeyMaterial with
    | none => .error (.missingKeyMaterial dek.kekName dek.subject dek.version)
    | some text =>
      match Dek.decodeMaterial text with
      | .error e => .error (.keyMaterialEncoding e)
      | .ok wrapped => (unwrap wrapped).mapError KeyError.kms

/-- A handle unwraps keys as a function does. -/
def Unwraps (handle : Kms.Handle) (unwrap : Bytes → Except Kms.Error Bytes) : Prop :=
  ∀ wrapped, handle.unwrap wrapped [] = unwrap wrapped

variable {unwrap unwrap' : Bytes → Except Kms.Error Bytes} {text : String}

theorem recovered_of_clear (htext : dek.keyMaterial = some text) :
    recovered unwrap dek =
      (Dek.decodeMaterial text).mapError KeyError.keyMaterialEncoding := by
  rw [recovered, htext]

theorem recovered_of_wrapped {wrapped : Bytes} (hclear : dek.keyMaterial = none)
    (htext : dek.encryptedKeyMaterial = some text)
    (hwrapped : Dek.decodeMaterial text = .ok wrapped) :
    recovered unwrap dek = (unwrap wrapped).mapError KeyError.kms := by
  simp only [recovered, hclear, htext, hwrapped]

theorem recovered_eq_ok {raw : Bytes} (hclear : dek.keyMaterial = none)
    (h : recovered unwrap dek = .ok raw) :
    ∃ text wrapped, dek.encryptedKeyMaterial = some text ∧
      Dek.decodeMaterial text = .ok wrapped ∧ unwrap wrapped = .ok raw := by
  unfold recovered at h
  rw [hclear] at h
  dsimp only at h
  split at h
  · cases h
  · rename_i text htext
    split at h
    · cases h
    · rename_i wrapped hwrapped
      exact ⟨text, wrapped, htext, hwrapped, mapError_eq_ok_iff.mp h⟩

/-- How keys are unwrapped does not matter to a key in the clear. -/
theorem recovered_congr (hsame : dek.keyMaterial = none → unwrap = unwrap') :
    recovered unwrap dek = recovered unwrap' dek := by
  cases hclear : dek.keyMaterial with
  | some text => rw [recovered_of_clear hclear, recovered_of_clear hclear]
  | none => rw [hsame hclear]

theorem opened_eq_recovered {handle : Kms.Handle} (hclear : dek.keyMaterial = none)
    (hunwraps : Unwraps handle unwrap) :
    opened handle dek =
      (recovered unwrap dek).map fun raw => { dek with rawKey := some ⟨raw⟩ } := by
  unfold opened Dek.wrappedKey recovered
  rw [hclear]
  cases htext : dek.encryptedKeyMaterial with
  | none => rfl
  | some text =>
    cases hwrapped : Dek.decodeMaterial text with
    | error e => simp [hwrapped, bind, Except.bind, Functor.map, Except.map]
    | ok wrapped =>
      have hsame := hunwraps wrapped
      cases hraw : unwrap wrapped with
      | error e =>
        rw [hraw] at hsame
        simp [hwrapped, hsame, hraw, bind, Except.bind, Functor.map, Except.map]
      | ok raw =>
        rw [hraw] at hsame
        simp [hwrapped, hsame, hraw, bind, Except.bind, Functor.map, Except.map,
          pure, Except.pure]

/-- The raw key of an unlocked record is the one that the record holds. -/
theorem Unlocking.holds {handle : Option Kms.Handle}
    (h : ring.Unlocking kek dek handle u (.ok d)) (hsub : u ⊆ t)
    (hhandle : ∀ h, handle = some h → handed ring.config kek.url (.ok h) ∈ t) :
    ∃ raw, d = { dek with rawKey := some raw } ∧ ring.Holds kek t dek raw := by
  have unwrapped : ∀ {handle : Kms.Handle} {d' : Dek}, dek.resolveRawKey = .ok d' →
      d'.rawKey = none → handed ring.config kek.url (.ok handle) ∈ t → opened handle d' = .ok d →
      ∃ raw, d = { dek with rawKey := some raw } ∧ ring.Holds kek t dek raw := by
    intro handle d' hresolved hunknown hmem hopened
    rcases resolveRawKey_cases hresolved with ⟨rfl, hclear⟩ | ⟨_, _, -, -, -, rfl⟩
    · have hunwraps : Unwraps handle fun wrapped => handle.unwrap wrapped [] := fun _ => rfl
      rw [opened_eq_recovered (hclear hunknown) hunwraps] at hopened
      cases hrecovered : recovered (fun wrapped => handle.unwrap wrapped []) d' with
      | error e =>
        rw [hrecovered] at hopened
        cases hopened
      | ok raw =>
        rw [hrecovered] at hopened
        obtain rfl := Except.ok.inj hopened
        obtain ⟨text, wrapped, htext, hwrapped, hraw⟩ :=
          recovered_eq_ok (hclear hunknown) hrecovered
        exact ⟨⟨raw⟩, rfl, .wrapped hunknown (hclear hunknown) htext hwrapped hmem hraw⟩
    · cases hunknown
  generalize hr : Except.ok d = r at h
  cases h with
  | misencoded e h => cases hr
  | known d' hresolved hkey =>
    cases hr
    rcases resolveRawKey_cases hresolved with ⟨rfl, -⟩ | ⟨text, raw, hunknown, htext, hraw, rfl⟩
    · obtain ⟨raw, hraw⟩ := Option.isSome_iff_exists.mp hkey
      exact ⟨raw, by rw [← hraw], .known hraw⟩
    · exact ⟨⟨raw⟩, rfl, .clear hunknown htext hraw⟩
  | given handle d' hresolved hkey => exact unwrapped hresolved hkey (hhandle _ rfl) hr.symm
  | fetched d' hresolved hkey handle =>
    exact unwrapped hresolved hkey (hsub List.mem_cons_self) hr.symm
  | unhandled d' hresolved hkey e => cases hr

/-- A data key with its raw key is a record given out by the registry with the
raw key that it holds. -/
theorem DekSearch.holds (h : ring.DekSearch kek subject version mode t (.ok d)) :
    ∃ record raw, ring.GivenOut subject version t record ∧
      d = { record with rawKey := some raw } ∧ ring.Holds kek t record raw := by
  cases h with
  | current record now fresh unlocked =>
    rename_i u
    have hgiven : ring.GivenOut subject version
        (called (.getDek (ring.dekId subject version) (mode = .read)) (.ok record) ::
          clocked now :: u) record :=
      .found _ List.mem_cons_self
    have hsub : u ⊆ called (.getDek (ring.dekId subject version) (mode = .read)) (.ok record) ::
        clocked now :: u := by
      intro x hx
      exact List.mem_cons_of_mem _ (List.mem_cons_of_mem _ hx)
    obtain ⟨raw, hd, hholds⟩ := unlocked.holds hsub fun _ h => nomatch h
    exact ⟨record, raw, hgiven, hd, hholds⟩
  | rotated answer now due rotated unlocked =>
    rename_i prior u u' handle record
    have hleft : u ⊆ called (.getDek (ring.dekId subject version) (mode = .read)) answer ::
        clocked now :: (u ++ u') := by
      intro x hx
      exact List.mem_cons_of_mem _ (List.mem_cons_of_mem _ (List.mem_append_left _ hx))
    have hright : u' ⊆ called (.getDek (ring.dekId subject version) (mode = .read)) answer ::
        clocked now :: (u ++ u') := by
      intro x hx
      exact List.mem_cons_of_mem _ (List.mem_cons_of_mem _ (List.mem_append_right _ hx))
    have hgiven : ring.GivenOut subject version
        (called (.getDek (ring.dekId subject version) (mode = .read)) answer ::
          clocked now :: (u ++ u')) record := by
      rcases rotated.givenOut due.eq_none with hgiven | rfl
      · exact hgiven.mono hleft
      · cases due with
        | expired record hexpired => exact .found _ List.mem_cons_self
    have hhandle : ∀ h, handle = some h → handed ring.config kek.url (.ok h) ∈
        called (.getDek (ring.dekId subject version) (mode = .read)) answer ::
          clocked now :: (u ++ u') := by
      rintro h rfl
      exact hleft rotated.handed_mem
    obtain ⟨raw, hd, hholds⟩ := unlocked.holds hright hhandle
    exact ⟨record, raw, hgiven, hd, hholds⟩

/-- The registry gave out the key-encryption key of a ring in the course of a
trace. -/
inductive KekGivenOut (ring : KeyRing) (t : Trace) (kek : Kek) : Prop where
  | found (deleted : Bool) (h : called (.getKek ring.kekName deleted) (.ok kek) ∈ t) :
      KekGivenOut ring t kek
  | registered (request : KekRequest) (hname : request.name = ring.kekName)
      (h : called (.registerKek request) (.ok kek) ∈ t) : KekGivenOut ring t kek

theorem KekGivenOut.mono (h : ring.KekGivenOut t kek) (hsub : t ⊆ u) :
    ring.KekGivenOut u kek := by
  cases h with
  | found deleted h => exact .found deleted (hsub h)
  | registered request hname h => exact .registered request hname (hsub h)

theorem KekSearch.givenOut {kmsType kmsKeyId : Option String}
    (h : ring.KekSearch mode kmsType kmsKeyId t (.ok kek)) : ring.KekGivenOut t kek := by
  generalize hr : Except.ok kek = r at h
  cases h with
  | failed e fatal => cases hr
  | found kek' =>
    cases hr
    exact .found _ List.mem_cons_self
  | unread e absent reads => cases hr
  | untyped e absent writes htype => cases hr
  | unnamed e absent writes type htype hid => cases hr
  | created e absent writes type id htype hid rest =>
    cases rest with
    | registered kek' =>
      cases hr
      exact .registered (ring.kekRequest type id) rfl (by simp)
    | refused e' fatal => cases hr
    | settled e' lost answer =>
      obtain rfl := fetched_eq_ok_iff.mp hr.symm
      exact .found (mode = .read) (by simp)

/-- What becomes of a record depends only on how its key is unwrapped. -/
theorem Unlocking.eq_recovered {handle : Option Kms.Handle} {r : Except KeyError Dek}
    (h : ring.Unlocking kek dek handle t r) (hunknown : dek.rawKey = none)
    (hgiven : dek.keyMaterial = none → ∀ h, handle = some h → Unwraps h unwrap)
    (hhanded : dek.keyMaterial = none → ∀ answer, handed ring.config kek.url answer ∈ t →
      ∃ h, answer = .ok h ∧ Unwraps h unwrap) :
    r = (recovered unwrap dek).map fun raw => { dek with rawKey := some ⟨raw⟩ } := by
  -- A record that has no raw key after it was resolved has none in the clear.
  have hresolved : ∀ {d : Dek}, dek.resolveRawKey = .ok d → d.rawKey = none →
      d = dek ∧ dek.keyMaterial = none := by
    intro d hd hkey
    rcases resolveRawKey_cases hd with ⟨rfl, hclear⟩ | ⟨_, _, -, -, -, rfl⟩
    · exact ⟨rfl, hclear hunknown⟩
    · cases hkey
  cases h with
  | misencoded e herror =>
    obtain ⟨text, hclear, hraw⟩ := resolveRawKey_eq_error herror
    rw [recovered_of_clear hclear, hraw]
    rfl
  | known d hd hkey =>
    rcases resolveRawKey_cases hd with ⟨rfl, -⟩ | ⟨text, raw, -, htext, hraw, rfl⟩
    · rw [hunknown] at hkey
      cases hkey
    · rw [recovered_of_clear htext, hraw]
      rfl
  | given handle d hd hkey =>
    obtain ⟨rfl, hclear⟩ := hresolved hd hkey
    exact opened_eq_recovered hclear (hgiven hclear handle rfl)
  | fetched d hd hkey handle =>
    obtain ⟨rfl, hclear⟩ := hresolved hd hkey
    obtain ⟨handle', hsame, hunwraps⟩ := hhanded hclear (.ok handle) List.mem_cons_self
    obtain rfl := Except.ok.inj hsame
    exact opened_eq_recovered hclear hunwraps
  | unhandled d hd hkey e =>
    obtain ⟨rfl, hclear⟩ := hresolved hd hkey
    obtain ⟨handle, hsame, -⟩ := hhanded hclear (.error e) List.mem_cons_self
    cases hsame

end KeyRing

/-! ## What a writer gives back -/

namespace Transform

/-- One value is another one encrypted under a key.  It carries the ciphertext,
framed with the version of the key when keys rotate. -/
def EncryptedUnder (ring : KeyRing) (type : FieldType) (version : UInt32) (key : KeyMaterial)
    (value out : FieldValue) : Prop :=
  ∃ plain ciphertext bytes carried draws,
    bytesOf type value = some plain ∧
    ComesTo (ring.cryptor.encrypt key.bytes plain []) draws (.ok ciphertext) ∧
    bytesOf type out = some bytes ∧ decoded type bytes = .ok carried ∧
    (ring.rotates = true → Frame.decode carried = .ok ⟨version, ciphertext⟩) ∧
    (ring.rotates = false → carried = ciphertext) ∧
    ring.cryptor.decrypt key.bytes ciphertext [] = .ok plain

/-- A value of a type that carries bytes gives them back. -/
theorem decoded_carrying {type : FieldType} (htype : type = .string ∨ type = .bytes)
    (carried : Bytes) :
    ∃ bytes, bytesOf type (carrying type carried) = some bytes ∧
      decoded type bytes = .ok carried := by
  rcases htype with rfl | rfl
  · have hdecode := Base64.decode_encodeBytes carried
    refine ⟨Utf8.encode (Base64.encode carried), rfl, ?_⟩
    rw [decoded, if_pos rfl, Base64.encode_encode, hdecode]
    rfl
  · exact ⟨carried, rfl, rfl⟩

theorem type_of_bytesOf {type : FieldType} {value : FieldValue} {bytes : Bytes}
    (h : bytesOf type value = some bytes) : type = .string ∨ type = .bytes := by
  unfold bytesOf at h
  split at h
  · exact .inl rfl
  · exact .inr rfl
  · cases h

/-- What an encryption gives back is the value under the raw key of the data
key that it was made with. -/
theorem encryptedUnder_carrying {ring : KeyRing} {type : FieldType} {version : UInt32}
    {key : KeyMaterial} {value : FieldValue} {plain ciphertext : Bytes}
    {draws : List (Program.Exchange Draw.signature)} (hplain : bytesOf type value = some plain)
    (hseal : ComesTo (ring.cryptor.encrypt key.bytes plain []) draws (.ok ciphertext)) :
    EncryptedUnder ring type version key value
      (carrying type (carried ring version ciphertext)) := by
  obtain ⟨bytes, hbytes, hdecoded⟩ :=
    decoded_carrying (type_of_bytesOf hplain) (carried ring version ciphertext)
  refine ⟨plain, ciphertext, bytes, _, draws, hplain, hseal, hbytes, hdecoded, ?_, ?_,
    Cryptor.decrypt_of_encrypt hseal⟩
  · intro hrotates
    rw [carried, if_pos hrotates, Frame.decode_encode]
  · intro hfixed
    rw [carried, hfixed]
    rfl

/-- One value is another one sealed under a key: its ciphertext, framed with the
version of the key when keys rotate, in the form of its type. -/
def SealedUnder (ring : KeyRing) (type : FieldType) (version : UInt32) (key : KeyMaterial)
    (value out : FieldValue) : Prop :=
  ∃ plain ciphertext draws, bytesOf type value = some plain ∧
    ComesTo (ring.cryptor.encrypt key.bytes plain []) draws (.ok ciphertext) ∧
    out = carrying type (carried ring version ciphertext)

theorem SealedUnder.encryptedUnder {ring : KeyRing} {type : FieldType} {version : UInt32}
    {key : KeyMaterial} {value out : FieldValue}
    (h : SealedUnder ring type version key value out) :
    EncryptedUnder ring type version key value out := by
  obtain ⟨plain, ciphertext, draws, hplain, hseal, rfl⟩ := h
  exact encryptedUnder_carrying hplain hseal

/-- An encryption ends with a report of the version that it used. -/
theorem Encryption.sealedUnder {x : Transform} {subject : String} {type : FieldType}
    {value out : FieldValue} {plain : Bytes} {t : Trace}
    (h : x.Encryption subject type plain t (.ok out)) (hplain : bytesOf type value = some plain) :
    ∃ record raw t', t = t' ++ [logged (.fieldEncrypted x.kek.name subject record.version)] ∧
      x.ring.GivenOut subject (writtenVersion x.ring) t record ∧
      x.ring.Holds x.kek t record raw ∧
      SealedUnder x.ring type record.version raw value out := by
  cases h with
  | @sealed u dek search key hkey draws ciphertext sealing =>
    have hsub : u ⊆ u ++ drawnTrace draws ++
        [logged (.fieldEncrypted x.kek.name subject dek.version)] := by
      intro y hy
      exact List.mem_append_left _ (List.mem_append_left _ hy)
    obtain ⟨record, raw, hgiven, rfl, hholds⟩ := search.holds
    obtain rfl := Option.some.inj hkey
    exact ⟨record, raw, _, rfl, hgiven.mono hsub, hholds.mono hsub, plain, ciphertext, draws,
      hplain, sealing, rfl⟩

end Transform

namespace Executor

open KeyRing Transform

variable {κ : Type} {e : Executor κ} {context : Context} {type : FieldType} {t : Trace}

/-- A written value is sealed under the key of a record that the registry gave
out, and the version of this record is reported last. -/
theorem Transformation.sealedUnder {value : FieldValue} {result : Option FieldValue}
    (h : e.Transformation context type (some value) t (.ok result))
    (writes : context.mode = .write) :
    ∃ ring kek record raw out t',
      t = t' ++ [logged (.fieldEncrypted kek.name context.subject record.version)] ∧
      e.ring context = .ok ring ∧ ring.KekGivenOut t kek ∧
      ring.GivenOut context.subject (writtenVersion ring) t record ∧
      ring.Holds kek t record raw ∧ result = some out ∧
      SealedUnder ring type record.version raw value out := by
  generalize hr : Except.ok result = r at h
  cases h with
  | rejected error h => cases hr
  | unresolved ring h search hkek => cases hr
  | resolved ring hring search hbound application =>
    rename_i t₁ t₂ kek
    cases application with
    | unsupported value' _ h => cases hr
    | untouched value' reads h =>
      rw [writes] at reads
      cases reads
    | decrypted value' reads bytes h decryption =>
      rw [writes] at reads
      cases reads
    | refused value' hwrite hread => exact absurd writes hwrite
    | encrypted value' _ plain hplain encryption =>
      rename_i sealed
      cases sealed with
      | error cause => cases hr
      | ok out =>
        obtain rfl := Except.ok.inj hr
        obtain ⟨record, raw, t', rfl, hgiven, hholds, hsealed⟩ := encryption.sealedUnder hplain
        exact ⟨ring, kek, record, raw, out, t₁ ++ t', (List.append_assoc _ _ _).symm,
          (admitted_eq_ok_iff.mp hring).2, search.givenOut.mono (List.subset_append_left _ _),
          hgiven.mono (List.subset_append_right _ _), hholds.mono (List.subset_append_right _ _),
          rfl, hsealed⟩

/-- A written value is encrypted under the key of a record that the registry
gave out. -/
theorem Transformation.encryptedUnder {value : FieldValue} {result : Option FieldValue}
    (h : e.Transformation context type (some value) t (.ok result))
    (writes : context.mode = .write) :
    ∃ ring kek record raw out, e.ring context = .ok ring ∧ ring.KekGivenOut t kek ∧
      ring.GivenOut context.subject (writtenVersion ring) t record ∧
      ring.Holds kek t record raw ∧ result = some out ∧
      EncryptedUnder ring type record.version raw value out := by
  obtain ⟨ring, kek, record, raw, out, -, -, hring, hkek, hgiven, hholds, hout, hsealed⟩ :=
    h.sealedUnder writes
  exact ⟨ring, kek, record, raw, out, hring, hkek, hgiven, hholds, hout, hsealed.encryptedUnder⟩

end Executor

/-- Key faithfulness.  A data key that a key ring comes up with is, but for its
raw key, one of the records that the registry gave out meanwhile, and its raw
key is the one that this record holds.  A value that a writer gives back is
encrypted under the raw key of such a record, names its version when keys
rotate, and can be decrypted with it. -/
theorem keys_faithful :
    (∀ (ring : KeyRing) (kek : Kek) (subject : String) (version : Option UInt32) (mode : Mode)
        (t : Trace) (dek : Dek),
      ComesTo (ring.dek kek subject version mode) t (.ok dek) →
      ∃ record raw, ring.GivenOut subject version t record ∧
        dek = { record with rawKey := some raw } ∧ ring.Holds kek t record raw) ∧
    ∀ (κ : Type) (e : Executor κ) (context : Context) (type : FieldType) (value : FieldValue)
        (t : Trace) (result : Option FieldValue),
      context.mode = .write →
      ComesTo (e.transformField context type (some value)) t (.ok result) →
      ∃ ring kek record raw out, e.ring context = .ok ring ∧ ring.KekGivenOut t kek ∧
        ring.GivenOut context.subject (Transform.writtenVersion ring) t record ∧
        ring.Holds kek t record raw ∧ result = some out ∧
        Transform.EncryptedUnder ring type record.version raw value out := by
  constructor
  · intro ring kek subject version mode t dek h
    exact (KeyRing.dek_comesTo h).holds
  · intro κ e context type value t result writes h
    exact (Executor.transformField_comesTo h).encryptedUnder writes

theorem keys_faithful_wrapped :
    ∃ (ring : KeyRing) (kek : Kek) (t u : Trace) (dek : Dek) (e : Executor Unit)
      (context : Context) (result : Option FieldValue),
      (∃ record raw, ring.GivenOut "s" none t record ∧
        dek = { record with rawKey := some raw } ∧ ring.Holds kek t record raw) ∧
      ∃ ring kek record raw out, e.ring context = .ok ring ∧ ring.KekGivenOut u kek ∧
        ring.GivenOut context.subject (Transform.writtenVersion ring) u record ∧
        ring.Holds kek u record raw ∧ result = some out ∧
        Transform.EncryptedUnder ring .bytes record.version raw (.bytes [104, 105]) out := by
  let ring : KeyRing := ⟨"k", ⟨"AES256_SIV"⟩, 0, ∅⟩
  let kek : Kek := ⟨"k", "local-kms", "m", ∅, none, false, 0, false⟩
  -- Every key is its own wrapping.
  let key : Bytes := (List.range 64).map UInt8.ofNat
  let record : Dek :=
    { Dek.bare "k" "s" 1 "AES256_SIV" with encryptedKeyMaterial := some (Base64.encode key) }
  let handle : Kms.Handle := ⟨fun key _ => pure (.ok key), fun wrapped _ => .ok wrapped⟩
  let answer := surroundings (replies (.ok kek) (.ok kek) (.ok record) (.ok record)) (.ok handle)
  let params : Properties :=
    Dict.ofList [(Parameter.kekName, "k"), (Parameter.dekAlgorithm, "AES256_SIV")]
  let context : Context := ⟨"s", .write, params, ∅⟩
  let e : Executor Unit := ⟨some (), ∅⟩
  let p := ring.dek kek "s" none .read
  let q := e.transformField context .bytes (some (.bytes [104, 105]))
  have hfound : (p.run.interpret (m := Id) answer).isOk = true := by
    decide +kernel
  have hwritten : (q.run.interpret (m := Id) answer).isOk = true := by
    decide +kernel
  obtain ⟨dek, hdek⟩ := exists_ok_of_isOk hfound
  obtain ⟨result, hresult⟩ := exists_ok_of_isOk hwritten
  exact ⟨ring, kek, p.run.transcript answer, q.run.transcript answer, _, e, context, result,
    keys_faithful.1 ring kek "s" none .read _ _ (comesTo_transcript hdek),
    keys_faithful.2 Unit e context .bytes (.bytes [104, 105]) _ _ rfl
      (comesTo_transcript hresult)⟩

end Envelope
