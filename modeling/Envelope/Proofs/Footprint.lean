import Envelope.Proofs.RoundTrip
import Envelope.Proofs.Serial

/-!
# What a value leaves behind

An executor that runs alone leaves little behind in a registry in memory: the
key-encryption key of its rule, if there was none, and one version of the data
key of its subject (`Executor.Leaves`).  The version is the last thing that can
go wrong.  Once it has been registered, its raw key can be recovered, since it
was made for the chosen algorithm and wrapped with the handle at hand, and so
the value is encrypted.  A value that cannot be transformed therefore leaves
every file as it was.
-/

namespace Envelope

open Program Engine

namespace KeyRing

variable {ring : KeyRing} {kek : Kek} {id : DekId} {mode : Mode} {t : Trace} {now : Int64}
  {s s' : Store} {calls : List Answered} {kmsType kmsKeyId : Option String}

/-- What the search for a key-encryption key makes of a store: a writer may
have registered the one that its rule names, if there was none of that name. -/
inductive KekLeaves (ring : KeyRing) (mode : Mode) (kmsType kmsKeyId : Option String)
    (now : Int64) (s : Store) : Store → Prop where
  | same : KekLeaves ring mode kmsType kmsKeyId now s s
  | added (writes : mode ≠ .read) {type id : String} (htype : kmsType = some type)
      (hid : kmsKeyId = some id) (habsent : s.keks.get? ring.kekName = none) :
      KekLeaves ring mode kmsType kmsKeyId now s
        { s with
          keks := s.keks.insert ring.kekName (Store.kekOf (ring.kekRequest type id) now) }

/-- What the search for a data key makes of a store: a writer may have
registered the version that was due, under a key-encryption key in sight, and
else the files hold the same. -/
inductive DekLeaves (ring : KeyRing) (kek : Kek) (id : DekId) (mode : Mode) (t : Trace)
    (now : Int64) (s : Store) : Store → Prop where
  | same {s' : Store} (hkeks : s'.keks = s.keks) (hfile : ∀ path, s'.file path = s.file path) :
      DekLeaves ring kek id mode t now s s'
  | added (writes : mode ≠ .read) {reading : Int64} (hreading : clocked reading ∈ t)
      {request : DekRequest} (due : ring.Due kek id mode t reading (s.getDek id false) request)
      {stored : Kek} (hstored : s.getKek ring.kekName false = .ok stored)
      (hnew : ∀ d ∈ s.file ⟨ring.kekName, request.subject, request.algorithm⟩,
        d.version ≠ request.version)
      {wrapped clear : Option String}
      (hmaterial : Store.Material stored.shared request wrapped clear)
      (hmem : called (.registerDek ring.kekName request)
        (.ok (Store.dekOf ring.kekName request wrapped clear now)) ∈ t) :
      DekLeaves ring kek id mode t now s
        (s.addDek ⟨ring.kekName, request.subject, request.algorithm⟩
          (Store.dekOf ring.kekName request wrapped clear now))

theorem KekLeaves.file_eq (h : ring.KekLeaves mode kmsType kmsKeyId now s s') (path : DekPath) :
    s'.file path = s.file path := by
  cases h <;> rfl

theorem KekLeaves.extends (h : ring.KekLeaves mode kmsType kmsKeyId now s s') :
    s.Extends s' := by
  cases h with
  | same => exact .refl s
  | added writes htype hid habsent => exact Store.extends_insertKek habsent

theorem DekLeaves.keks_eq (h : ring.DekLeaves kek id mode t now s s') : s'.keks = s.keks := by
  cases h with
  | same hkeks hfile => exact hkeks
  | added writes hreading due hstored hnew hmaterial hmem => rfl

theorem DekLeaves.extends (h : ring.DekLeaves kek id mode t now s s') : s.Extends s' := by
  cases h with
  | same hkeks hfile => exact Store.extends_of_file hkeks hfile
  | added writes hreading due hstored hnew hmaterial hmem => exact Store.extends_addDek

/-- A look-up finds what is in the store, whatever it is told about deleted
records. -/
theorem kek_of_lookUp {deleted : Bool} {x : Except RegistryError Kek}
    (hx : x = s.getKek ring.kekName deleted) (kek : Kek) (hkek : x.toOption = some kek) :
    s.keks.get? ring.kekName = some kek := by
  cases x with
  | error e => cases hkek
  | ok found =>
    obtain rfl := Option.some.inj hkek
    exact (Store.getKek_eq_ok_iff.mp hx.symm).1

/-- The phase of the key-encryption key ends with the record that is then in
the store. -/
theorem KekPhase.leaves {found : Option Kek}
    (h : ring.KekPhase mode kmsType kmsKeyId calls found)
    (hanswers : Store.Answers now s calls s') :
    ring.KekLeaves mode kmsType kmsKeyId now s s' ∧
      ∀ kek, found = some kek → s'.keks.get? ring.kekName = some kek := by
  cases h with
  | found kek =>
    obtain ⟨hget, hrest⟩ := hanswers.getKek
    rw [hrest.nil_eq]
    exact ⟨.same, kek_of_lookUp hget⟩
  | ended e h =>
    obtain ⟨-, hrest⟩ := hanswers.getKek
    rw [hrest.nil_eq]
    exact ⟨.same, nofun⟩
  | @registered e absent writes type id htype hid answer settled =>
    obtain ⟨-, hregister⟩ := hanswers.getKek
    obtain ⟨rfl, hrest⟩ := hregister.registerKek
    rw [hrest.nil_eq]
    cases hknown : s.keks.get? ring.kekName with
    | some known =>
      have hrefused : s.registerKek (ring.kekRequest type id) now =
          (.error (Store.kekExists ring.kekName), s) := Store.registerKek_of_some hknown
      have herror := settled (Store.kekExists ring.kekName) (congrArg Prod.fst hrefused)
      rw [Store.isConflict_kekExists] at herror
      cases herror
    | none =>
      have hadded : s.registerKek ⟨ring.kekName, type, id, ∅, none, false⟩ now =
          (.ok (Store.kekOf (ring.kekRequest type id) now),
            { s with
              keks := s.keks.insert ring.kekName (Store.kekOf (ring.kekRequest type id) now) }) :=
        Store.registerKek_of_none hknown
      rw [hadded]
      refine ⟨.added writes htype hid hknown, fun kek hkek => ?_⟩
      obtain rfl := Option.some.inj hkek
      exact (Dict.get?_insert _ _ _ _).trans (if_pos rfl)
  | @refetched e absent writes type id htype hid e' lost answer =>
    obtain ⟨-, hrest⟩ := hanswers.getKek
    obtain ⟨hregister, hrest⟩ := hrest.registerKek
    obtain ⟨hget, hrest⟩ := hrest.getKek
    obtain ⟨⟨known, hknown⟩, -⟩ := Store.registerKek_eq_error hregister.symm
    rw [Store.registerKek_of_some hknown] at hget hrest
    rw [hrest.nil_eq]
    exact ⟨.same, kek_of_lookUp hget⟩

/-- The phase of the data key leaves at most the version that was due. -/
theorem DekPhase.leaves (h : ring.DekPhase kek id mode t calls)
    (hanswers : Store.Answers now s calls s') (hsub : ∀ x ∈ calls, called x.1 x.2 ∈ t) :
    ring.DekLeaves kek id mode t now s s' := by
  have hregistered : ∀ {reading : Int64} {request : DekRequest} {x : Except RegistryError Dek}
      {s₁ : Store}, mode ≠ .read → clocked reading ∈ t →
      ring.Due kek id mode t reading (s.getDek id false) request →
      s.DekOutcome ring.kekName request now x s₁ →
      called (.registerDek ring.kekName request) x ∈ t → ring.DekLeaves kek id mode t now s s₁ := by
    intro reading request x s₁ writes hreading due houtcome hmem
    cases houtcome with
    | unknown e h => exact .same rfl fun _ => rfl
    | taken h hdek hversion => exact .same rfl fun _ => rfl
    | unmade h hunmade reason => exact .same rfl (s.file_openFile _)
    | added h hnew hmaterial => exact .added writes hreading due h hnew hmaterial hmem
  cases h with
  | found answer =>
    obtain ⟨-, hrest⟩ := hanswers.getDek
    rw [hrest.nil_eq]
    exact .same rfl fun _ => rfl
  | @registered writes answer reading hreading request due answer' settled =>
    obtain ⟨rfl, hrest⟩ := hanswers.getDek
    obtain ⟨s₁, houtcome, hrest⟩ := hrest.registerDek
    rw [hrest.nil_eq]
    exact hregistered writes hreading due houtcome
      (hsub ⟨.registerDek ring.kekName request, answer'⟩ (by simp))
  | @refetched writes answer reading hreading request due e lost answer' =>
    obtain ⟨rfl, hrest⟩ := hanswers.getDek
    obtain ⟨s₁, houtcome, hrest⟩ := hrest.registerDek
    obtain ⟨-, hrest⟩ := hrest.getDek
    rw [hrest.nil_eq]
    exact hregistered writes hreading due houtcome
      (hsub ⟨.registerDek ring.kekName request, .error e⟩ (by simp))

end KeyRing

/-! ## What an executor leaves of a store -/

namespace Executor

open KeyRing Transform

variable {κ σ : Type} {e : Executor κ} {context : Context} {type : FieldType}
  {value : Option FieldValue} {t : Trace} {r : Except Error (Option FieldValue)}

/-- What an executor makes of a store in the course of a value: nothing if it
declines the rule, and otherwise what the search for the key-encryption key
makes of it, and after it the search for the data key. -/
inductive Leaves (e : Executor κ) (context : Context) (type : FieldType)
    (value : Option FieldValue) (t : Trace) (now : Int64) (s : Store) : Store → Prop where
  | declined (h : e.Declines context) : Leaves e context type value t now s s
  | first (taken : ¬ e.Declines context) {ring : KeyRing} (hring : e.ring context = .ok ring)
      {s' : Store} (hkek : ring.KekLeaves context.mode (e.namedType context) (e.namedKey context)
        now s s') :
      Leaves e context type value t now s s'
  | both (taken : ¬ e.Declines context) {ring : KeyRing} (hring : e.ring context = .ok ring)
      {s₁ s' : Store} (hkek : ring.KekLeaves context.mode (e.namedType context)
        (e.namedKey context) now s s₁)
      {kek : Kek} (hfound : s₁.keks.get? ring.kekName = some kek) {version : UInt32}
      (hversion : requestedVersion ring context.mode type value = some version)
      (hdek : ring.DekLeaves kek ⟨ring.kekName, context.subject, version, ring.cryptor.format⟩
        context.mode t now s₁ s') :
      Leaves e context type value t now s s'

/-- In a world in which nothing else happens, this is what becomes of the
registry. -/
theorem Transformation.leaves {w w' : World Store σ} (h : e.Transformation context type value t r)
    (hserial : World.Serial w t w') :
    e.Leaves context type value t w.clock w.registry w'.registry := by
  have hanswers := hserial.registry
  have hcalls : ∀ x ∈ registryCalls t, called x.1 x.2 ∈ t := fun x hx => mem_registryCalls.mp hx
  have hconversation := h.conversation
  generalize registryCalls t = calls at hanswers hcalls hconversation
  cases hconversation with
  | declined hdeclined =>
    rw [hanswers.nil_eq]
    exact .declined hdeclined
  | first taken hring phase ended => exact .first taken hring (phase.leaves hanswers).1
  | both taken hring phase htype hkey hversion phase' =>
    obtain ⟨s₁, hleft, hright⟩ := hanswers.split
    obtain ⟨hkek, hfound⟩ := phase.leaves hleft
    have hdek := phase'.leaves hright fun x hx => hcalls x (List.mem_append_right _ hx)
    exact .both taken hring hkek (hfound _ rfl) hversion hdek

/-- A rule that an executor takes on and that does not read, writes. -/
theorem writes_of_taken (taken : ¬ e.Declines context) (hmode : context.mode ≠ .read) :
    context.mode = .write :=
  (mode_of_taken taken).resolve_right hmode

end Executor

/-! ## A registered version can be used -/

namespace KeyRing

variable {ring : KeyRing} {kek : Kek} {id : DekId} {mode : Mode} {t : Trace} {subject : String}
  {version : Option UInt32} {kekName : String} {request : DekRequest} {record : Dek}

/-- The record of a version that was registered under a key-encryption key: its
key material is the one of the request, or was made by the registry. -/
def Recorded (kek : Kek) (kekName : String) (request : DekRequest) (record : Dek) : Prop :=
  ∃ wrapped clear now, Store.Material kek.shared request wrapped clear ∧
    record = Store.dekOf kekName request wrapped clear now

/-- What is prepared for a registration: nothing under a shared key-encryption
key, and else a fresh key for the chosen algorithm, wrapped with the handle. -/
theorem Preparation.wrapped {handle : Option Kms.Handle} {wrapped : Option Bytes}
    (h : ring.Preparation kek t (.ok (handle, wrapped))) :
    (kek.shared = true ∧ wrapped = none) ∨
      ∃ given a key sealed draws, handle = some given ∧ wrapped = some sealed ∧
        handed ring.config kek.url (.ok given) ∈ t ∧ ring.cryptor.algorithm = .ok a ∧
        key.length = a.keyLength ∧ Runs (given.wrap key []) draws (.ok sealed) := by
  generalize hr : Except.ok (handle, wrapped) = r at h
  cases h with
  | shared hshared =>
    cases hr
    exact .inl ⟨hshared, rfl⟩
  | unhandled hshared e => cases hr
  | handled hshared given wrapping =>
    cases wrapping with
    | unsupported e h => cases hr
    | wrapped a halgorithm key wrap =>
      rename_i draws result
      cases result with
      | error e => cases hr
      | ok sealed =>
        cases hr
        exact .inr ⟨given, a, key.val, sealed, draws, rfl, rfl, List.mem_cons_self, halgorithm,
          key.property, wrap⟩

/-- A registration that was answered with a record comes to this record. -/
theorem DekRegistration.eq_of_registerDek {next : UInt32} {wrapped : Option Bytes}
    {r : Except KeyError Dek} (h : ring.DekRegistration id mode next wrapped t r)
    (hmem : called (.registerDek kekName request) (.ok record) ∈ t) :
    request = dekRequest id next wrapped ∧ r = .ok record := by
  have hcalls := mem_registryCalls.mpr hmem
  cases h with
  | registered record' =>
    simp only [registryCalls_called, registryCalls_logged, registryCalls_nil,
      List.mem_singleton] at hcalls
    cases hcalls
    exact ⟨rfl, rfl⟩
  | refused e fatal => simp at hcalls
  | settled e lost answer => simp at hcalls

/-- A key that was prepared and registered is recovered by the handle that it
was prepared with. -/
theorem Preparation.recovered {handle : Option Kms.Handle} {wrapped : Option Bytes}
    {next : UInt32}
    (h : ring.Preparation kek t (.ok (handle, wrapped)))
    (hinverts : ∀ handle, handed ring.config kek.url (.ok handle) ∈ t → handle.Inverts)
    (hrecord : Recorded kek kekName (dekRequest (ring.dekId subject version) next wrapped)
      record) :
    ∃ unwrap raw a, ring.cryptor.algorithm = .ok a ∧ raw.length = a.keyLength ∧
      KeyRing.recovered unwrap record = .ok raw ∧
      (record.keyMaterial = none → ∃ given, handle = some given ∧ Unwraps given unwrap) := by
  obtain ⟨text, clear, now, hmaterial, rfl⟩ := hrecord
  rcases h.wrapped with ⟨hshared, rfl⟩ |
    ⟨given, a, key, sealed, draws, rfl, rfl, hhanded, halgorithm, hlength, hwrap⟩
  · cases hmaterial with
    | given text htext => cases htext
    | made hnone hshared a halgorithm key hlength =>
      refine ⟨fun _ => .ok [], key, a, halgorithm, hlength, ?_, nofun⟩
      rw [recovered_of_clear rfl, Dek.decodeMaterial_encode]
      rfl
  · cases hmaterial with
    | given text htext =>
      obtain rfl := Option.some.inj htext
      have hraw : given.unwrap sealed [] = .ok key :=
        hinverts given hhanded key [] sealed draws hwrap
      refine ⟨fun wrapped => given.unwrap wrapped [], key, a, halgorithm, hlength, ?_,
        fun _ => ⟨given, rfl, fun _ => rfl⟩⟩
      rw [recovered_of_wrapped rfl rfl (Dek.decodeMaterial_encode sealed), hraw]
      rfl
    | made hnone => cases hnone

theorem Rotation.recovered {prior : Option Dek} {r : Except KeyError (Option Kms.Handle × Dek)}
    (h : ring.Rotation kek (ring.dekId subject version) mode prior t r)
    (hmem : called (.registerDek kekName request) (.ok record) ∈ t)
    (hinverts : ∀ handle, handed ring.config kek.url (.ok handle) ∈ t → handle.Inverts)
    (hrecord : Recorded kek kekName request record) :
    ∃ handle unwrap raw a, r = .ok (handle, record) ∧ ring.cryptor.algorithm = .ok a ∧
      raw.length = a.keyLength ∧ KeyRing.recovered unwrap record = .ok raw ∧
      (record.keyMaterial = none → ∃ given, handle = some given ∧ Unwraps given unwrap) := by
  -- The registry is asked only after the key has been prepared.
  have hlater : ∀ {t₁ t₂ : Trace}, registryCalls t₁ = [] →
      called (.registerDek kekName request) (.ok record) ∈ t₁ ++ t₂ →
      called (.registerDek kekName request) (.ok record) ∈ t₂ := by
    intro t₁ t₂ hnone hmem
    refine (List.mem_append.mp hmem).resolve_left fun hfirst => ?_
    rw [← mem_registryCalls, hnone] at hfirst
    cases hfirst
  cases h with
  | exhausted e h => cases hmem
  | unprepared next hnext prepared =>
    rw [← mem_registryCalls, prepared.registryCalls] at hmem
    cases hmem
  | @replaced _ next hnext t₁ t₂ handle wrapped prepared dek registered =>
    obtain ⟨rfl, hsame⟩ := registered.eq_of_registerDek (hlater prepared.registryCalls hmem)
    obtain rfl := Except.ok.inj hsame
    obtain ⟨unwrap, raw, a, halgorithm, hlength, hraw, hgiven⟩ := prepared.recovered
      (fun given hgiven => hinverts given (List.mem_append_left _ hgiven)) hrecord
    exact ⟨handle, unwrap, raw, a, rfl, halgorithm, hlength, hraw, hgiven⟩
  | failed next hnext prepared registered =>
    obtain ⟨-, hsame⟩ := registered.eq_of_registerDek (hlater prepared.registryCalls hmem)
    cases hsame
  | kept prior next hnext prepared registered =>
    rw [List.append_assoc] at hmem
    have hmem' := hlater prepared.registryCalls hmem
    rw [List.mem_append, List.mem_singleton] at hmem'
    rcases hmem' with hmem' | hlogged
    · obtain ⟨-, hsame⟩ := registered.eq_of_registerDek hmem'
      cases hsame
    · cases hlogged

/-- A search that registered a version comes up with its raw key, of the length
that the chosen algorithm asks for. -/
theorem DekSearch.ok_of_registerDek {r : Except KeyError Dek}
    (h : ring.DekSearch kek subject version mode t r)
    (hmem : called (.registerDek kekName request) (.ok record) ∈ t)
    (hinverts : ∀ handle, handed ring.config kek.url (.ok handle) ∈ t → handle.Inverts)
    (hrecord : Recorded kek kekName request record) :
    ∃ a dek key, r = .ok dek ∧ dek.rawKey = some key ∧ ring.cryptor.algorithm = .ok a ∧
      key.bytes.length = a.keyLength := by
  have hunknown : record.rawKey = none := by
    obtain ⟨_, _, _, -, rfl⟩ := hrecord
    rfl
  have hcalls := mem_registryCalls.mpr hmem
  cases h with
  | failed e fatal => simp at hcalls
  | unread e absent reads now => simp at hcalls
  | overflowed dek now cause stops => simp at hcalls
  | current dek now fresh unlocked =>
    rw [registryCalls_called, registryCalls_clocked, unlocked.registryCalls] at hcalls
    simp at hcalls
  | @unrotated answer now prior due u e rotated =>
    have hrotated : called (.registerDek kekName request) (.ok record) ∈ u := by
      rw [registryCalls_called, registryCalls_clocked, List.mem_cons] at hcalls
      rcases hcalls with hfirst | hlater
      · cases hfirst
      · exact mem_registryCalls.mp hlater
    have hsub : ∀ given, handed ring.config kek.url (.ok given) ∈ u → given.Inverts := by
      intro given hgiven
      exact hinverts given (List.mem_cons_of_mem _ (List.mem_cons_of_mem _ hgiven))
    obtain ⟨_, _, _, _, hr, -⟩ := rotated.recovered hrotated hsub hrecord
    cases hr
  | @rotated answer now prior due u u' handle dek rotated r unlocked =>
    have hrotated : called (.registerDek kekName request) (.ok record) ∈ u := by
      rw [registryCalls_called, registryCalls_clocked, registryCalls_append,
        unlocked.registryCalls, List.append_nil, List.mem_cons] at hcalls
      rcases hcalls with hfirst | hlater
      · cases hfirst
      · exact mem_registryCalls.mp hlater
    have hsub : ∀ given, handed ring.config kek.url (.ok given) ∈ u → given.Inverts := by
      intro given hgiven
      exact hinverts given
        (List.mem_cons_of_mem _ (List.mem_cons_of_mem _ (List.mem_append_left _ hgiven)))
    obtain ⟨handle', unwrap, raw, a, hr, halgorithm, hlength, hraw, hgiven⟩ :=
      rotated.recovered hrotated hsub hrecord
    obtain ⟨rfl, rfl⟩ := Prod.mk.inj (Except.ok.inj hr)
    have hsame : dek.keyMaterial = none → ∀ h, handle = some h → Unwraps h unwrap := by
      intro hclear h hsome
      obtain ⟨given, hhandle, hunwraps⟩ := hgiven hclear
      obtain rfl := Option.some.inj (hhandle.symm.trans hsome)
      exact hunwraps
    -- No other handle is asked for where there is one at hand.
    have hnone : dek.keyMaterial = none → ∀ answer, handed ring.config kek.url answer ∈ u' →
        ∃ h, answer = .ok h ∧ Unwraps h unwrap := by
      intro hclear answer hanswer
      obtain ⟨given, rfl, -⟩ := hgiven hclear
      cases unlocked <;> cases hanswer
    have hunlocked := unlocked.eq_recovered hunknown hsame hnone
    rw [hraw] at hunlocked
    exact ⟨a, _, ⟨raw⟩, hunlocked, rfl, halgorithm, hlength⟩

end KeyRing

namespace Executor

open KeyRing Transform

variable {κ σ : Type} {e : Executor κ} {context : Context} {type : FieldType}
  {value : Option FieldValue} {t : Trace} {r : Except Error (Option FieldValue)}

/-- The algorithm of a rule accepts a value by its length. -/
def Accepts (e : Executor κ) (context : Context) (type : FieldType)
    (value : Option FieldValue) : Prop :=
  ∀ ring a plain, e.ring context = .ok ring → ring.cryptor.algorithm = .ok a →
    a.isDeterministic = false → (value >>= bytesOf type) = some plain →
    plain.length ≤ Cipher.maxLength

end Executor

namespace Transform

open KeyRing

variable {x : Transform} {subject kekName : String} {type : FieldType} {plain : Bytes} {t : Trace}
  {request : DekRequest} {record : Dek}

/-- Where a version was registered, the value is encrypted. -/
theorem Encryption.ok_of_registerDek {r : Except Error FieldValue}
    (h : x.Encryption subject type plain t r)
    (hmem : called (.registerDek kekName request) (.ok record) ∈ t)
    (hinverts : ∀ handle, handed x.ring.config x.kek.url (.ok handle) ∈ t → handle.Inverts)
    (hrecord : Recorded x.kek kekName request record)
    (hshort : ∀ a, x.ring.cryptor.algorithm = .ok a → a.isDeterministic = false →
      plain.length ≤ Cipher.maxLength) : ∃ out, r = .ok out := by
  have hcalls := mem_registryCalls.mpr hmem
  cases h with
  | unkeyed search =>
    obtain ⟨_, _, _, hr, -⟩ := search.ok_of_registerDek hmem hinverts hrecord
    cases hr
  | @unsealed u dek search key hkey draws e sealing =>
    have hsearch : called (.registerDek kekName request) (.ok record) ∈ u := by
      rw [registryCalls_append, registryCalls_drawnTrace, List.append_nil] at hcalls
      exact mem_registryCalls.mp hcalls
    obtain ⟨a, dek', key', hr, hkey', halgorithm, hlength⟩ := search.ok_of_registerDek hsearch
      (fun handle hhandle => hinverts handle (List.mem_append_left _ hhandle)) hrecord
    obtain rfl := Except.ok.inj hr
    obtain rfl := Option.some.inj (hkey.symm.trans hkey')
    rcases Cryptor.encrypt_error halgorithm sealing with ⟨-, hwrong⟩ | ⟨-, hrandom, hlong⟩
    · exact absurd hlength hwrong
    · have hplain := hshort a halgorithm hrandom
      rcases hlong with hlong | hlong
      · exact absurd hplain (Nat.not_le.mpr hlong)
      · exact absurd hlong (Nat.not_lt_zero _)
  | sealed search hkey sealing => exact ⟨_, rfl⟩

end Transform

namespace Executor

open KeyRing Transform

variable {κ σ : Type} {e : Executor κ} {context : Context} {type : FieldType}
  {value : Option FieldValue} {t : Trace} {r : Except Error (Option FieldValue)}

/-- Where an executor registered a version, it transforms the value. -/
theorem Transformation.ok_of_registerDek {kekName : String} {request : DekRequest} {record : Dek}
    (h : e.Transformation context type value t r)
    (hmem : called (.registerDek kekName request) (.ok record) ∈ t)
    (hmode : context.mode ≠ .read)
    (hinverts : ∀ config url handle, handed config url (.ok handle) ∈ t → handle.Inverts)
    (hrecord : ∀ ring kek, e.ring context = .ok ring → ring.KekGivenOut t kek →
      Recorded kek kekName request record)
    (hshort : e.Accepts context type value) : ∃ out, r = .ok out := by
  have hcalls := mem_registryCalls.mpr hmem
  cases h with
  | rejected error h => cases hmem
  | unresolved ring htaken search hkek => exact absurd hcalls search.phase.registerDek_not_mem
  | @resolved ring htaken t₁ t₂ kek search hbound r application =>
    obtain ⟨-, hring⟩ := admitted_eq_ok_iff.mp htaken
    have hrecorded := hrecord ring kek hring (search.givenOut.mono (List.subset_append_left _ _))
    have hmem₂ : called (.registerDek kekName request) (.ok record) ∈ t₂ := by
      rw [registryCalls_append, List.mem_append] at hcalls
      exact mem_registryCalls.mp (hcalls.resolve_left search.phase.registerDek_not_mem)
    cases application with
    | absent => cases hmem₂
    | unsupported value writes h => cases hmem₂
    | untouched value reads h => cases hmem₂
    | refused value hwrite hread => cases hmem₂
    | decrypted value reads bytes h decryption => exact absurd reads hmode
    | encrypted value writes plain hplain encryption =>
      obtain ⟨out, hout⟩ := encryption.ok_of_registerDek hmem₂
        (fun handle hhandle => hinverts _ _ handle (List.mem_append_right _ hhandle)) hrecorded
        fun a halgorithm hrandom => hshort ring a plain hring halgorithm hrandom hplain
      rw [hout]
      exact ⟨some out, rfl⟩

/-! ## The footprint of a value -/

/-- How a store may differ after a value was transformed with a result.  No
record has changed or gone.  There may be the key-encryption key of the rule, if
it writes and none of that name was there, and one new version of the data key
of the subject under it.  If the result is a failure, the files are as
before. -/
structure Footprint (e : Executor κ) (context : Context)
    (result : Except Error (Option FieldValue)) (s s' : Store) : Prop where
  kept : s.Extends s'
  kek : s'.keks = s.keks ∨
    ∃ ring kek, e.ring context = .ok ring ∧ context.mode = .write ∧
      s.keks.get? ring.kekName = none ∧ kek.name = ring.kekName ∧
      s'.keks = s.keks.insert ring.kekName kek
  dek : (∀ path, s'.file path = s.file path) ∨
    ∃ ring dek, e.ring context = .ok ring ∧ context.mode = .write ∧
      dek.path = ⟨ring.kekName, context.subject, ring.cryptor.format⟩ ∧
      (∀ d ∈ s.file dek.path, d.version ≠ dek.version) ∧
      ∀ path, s'.file path = (s.addDek dek.path dek).file path
  failed : ∀ error, result = .error error → ∀ path, s'.file path = s.file path

/-- What a value leaves of the key-encryption keys. -/
theorem footprint_kek (taken : ¬ e.Declines context) {ring : KeyRing}
    (hring : e.ring context = .ok ring) {now : Int64} {s s' : Store}
    (h : ring.KekLeaves context.mode (e.namedType context) (e.namedKey context) now s s') :
    s'.keks = s.keks ∨
      ∃ ring kek, e.ring context = .ok ring ∧ context.mode = .write ∧
        s.keks.get? ring.kekName = none ∧ kek.name = ring.kekName ∧
        s'.keks = s.keks.insert ring.kekName kek := by
  cases h with
  | same => exact .inl rfl
  | @added writes type id htype hid habsent =>
    exact .inr ⟨ring, Store.kekOf (ring.kekRequest type id) now, hring,
      writes_of_taken taken writes, habsent, rfl, rfl⟩

/-- A value that cannot be transformed leaves every file as it was: a version
that was registered could have been used. -/
theorem Transformation.file_of_error {w w' : World Store σ} {error : Error}
    (h : e.Transformation context type value t (.error error)) (hserial : World.Serial w t w')
    (hsound : w.directory.Sound) (hshort : e.Accepts context type value) (path : DekPath) :
    w'.registry.file path = w.registry.file path := by
  have hleaves := h.leaves hserial
  have hgiven : ∀ (ring : KeyRing) (kek : Kek), ring.KekGivenOut t kek →
      w'.registry.keks.get? ring.kekName = some kek := fun ring kek => hserial.backs.kek_stored
  generalize w'.registry = s' at hleaves hgiven
  cases hleaves with
  | declined hdeclined => rfl
  | first taken hring hkek => exact hkek.file_eq path
  | @both taken ring hring s₁ _ hkek kek hfound version hversion hdek =>
    cases hdek with
    | same hkeks hfile => exact (hfile path).trans (hkek.file_eq path)
    | @added writes reading hreading request due stored hstored hnew wrapped clear hmaterial hmem =>
      have hrecorded : ∀ ring' kek', e.ring context = .ok ring' → ring'.KekGivenOut t kek' →
          Recorded kek' ring.kekName request
            (Store.dekOf ring.kekName request wrapped clear w.clock) := by
        intro ring' kek' hring' hkek'
        obtain rfl := Except.ok.inj (hring.symm.trans hring')
        have hsame : some stored = some kek' :=
          (Store.getKek_eq_ok_iff.mp hstored).1.symm.trans (hgiven ring kek' hkek')
        obtain rfl := Option.some.inj hsame
        exact ⟨wrapped, clear, w.clock, hmaterial, rfl⟩
      obtain ⟨out, hout⟩ := h.ok_of_registerDek hmem writes
        (fun config url handle hhandle => hserial.inverts hsound hhandle) hrecorded hshort
      cases hout

/-- The course of a value in a world whose handles unwrap what they have wrapped
has this footprint. -/
theorem Transformation.footprint {w w' : World Store σ}
    (h : e.Transformation context type value t r) (hserial : World.Serial w t w')
    (hsound : w.directory.Sound) (hshort : e.Accepts context type value) :
    e.Footprint context r w.registry w'.registry := by
  have hfailed : ∀ error, r = .error error →
      ∀ path, w'.registry.file path = w.registry.file path := by
    rintro error rfl
    exact h.file_of_error hserial hsound hshort
  have hleaves := h.leaves hserial
  generalize w'.registry = s' at hleaves hfailed
  cases hleaves with
  | declined hdeclined => exact ⟨.refl _, .inl rfl, .inl fun _ => rfl, hfailed⟩
  | first taken hring hkek =>
    exact ⟨hkek.extends, footprint_kek taken hring hkek, .inl hkek.file_eq, hfailed⟩
  | @both taken ring hring s₁ _ hkek kek hfound version hversion hdek =>
    have hkeks := footprint_kek taken hring hkek
    rw [← hdek.keks_eq] at hkeks
    refine ⟨hkek.extends.trans hdek.extends, hkeks, ?_, hfailed⟩
    cases hdek with
    | same hkeks' hfile => exact .inl fun path => (hfile path).trans (hkek.file_eq path)
    | @added writes reading hreading request due stored hstored hnew wrapped clear hmaterial hmem =>
      refine .inr ⟨ring, Store.dekOf ring.kekName request wrapped clear w.clock, hring,
        writes_of_taken taken writes, ?_, ?_, Store.file_addDek_congr hkek.file_eq⟩
      · rw [Dek.path, Store.dekOf, due.subject, due.algorithm]
      · rw [← hkek.file_eq]
        exact hnew

/-- Whatever a registry in memory holds, a value that an executor transforms, or
fails to transform, leaves no more than its footprint there. -/
theorem transform_footprint (e : Executor κ) (kind : ExecutorKind) (context : Context)
    (type : FieldType) (value : Option FieldValue) (w : World Store σ)
    (hsound : w.directory.Sound) (hshort : e.Accepts context (kind.declared type) value)
    {result : Except Error (Option FieldValue)} {w' : World Store σ}
    (h : (World.run (e.transform kind context type value).run).run w = (result, w')) :
    e.Footprint context result w.registry w'.registry := by
  rw [transform_eq] at h
  obtain ⟨t, hruns, hserial⟩ := exists_serial (fun r : Effect => World.answer r)
    (e.transformField context (kind.declared type) value).run w
  have hresult : ((World.run (e.transformField context (kind.declared type) value).run).run w).1 =
      result := congrArg Prod.fst h
  have hworld : ((World.run (e.transformField context (kind.declared type) value).run).run w).2 =
      w' := congrArg Prod.snd h
  rw [← hresult, ← hworld]
  exact (transformField_comesTo hruns).footprint hserial hsound hshort

theorem transform_footprint_written :
    ∃ (e : Executor Unit) (context : Context) (w w' : World Store Unit)
      (result : Except Error (Option FieldValue)),
      w.directory.Sound ∧ e.Accepts context .bytes (some (.bytes [104, 105])) ∧
      (World.run (e.transform .payload context .string (some (.bytes [104, 105]))).run).run w =
        (result, w') ∧
      result.isOk = true ∧ (w'.registry.file ⟨"k", "s", "AES256_SIV"⟩).length = 1 ∧
      e.Footprint context result w.registry w'.registry := by
  let driver : Kms.Driver Unit := Kms.Plain.driver "local-kms://"
  let w : World Store Unit := ⟨∅, ⟨[driver], ∅⟩, (), 0, none, ⟨fun _ => 0, 0⟩, []⟩
  let params : Properties :=
    Dict.ofList [(Parameter.kekName, "k"), (Parameter.dekAlgorithm, "AES256_SIV"),
      (Parameter.kmsType, "local-kms"), (Parameter.kmsKeyId, "m")]
  let e : Executor Unit := ⟨some (), ∅⟩
  let context : Context := ⟨"s", .write, params, ∅⟩
  have hsound : w.directory.Sound := by
    refine ⟨fun other hother => ?_, nofun⟩
    obtain rfl := List.mem_singleton.mp hother
    exact Kms.Plain.sound_driver "local-kms://"
  have hshort : e.Accepts context .bytes (some (.bytes [104, 105])) := by
    intro ring a plain _ _ _ hplain
    obtain rfl : [104, 105] = plain := Option.some.inj hplain
    decide
  have hisOk : ((World.run (e.transform .payload context .string
      (some (.bytes [104, 105]))).run).run w).1.isOk = true := by
    decide +kernel
  have hlength : (((World.run (e.transform .payload context .string
      (some (.bytes [104, 105]))).run).run w).2.registry.file
        ⟨"k", "s", "AES256_SIV"⟩).length = 1 := by
    decide +kernel
  generalize hx : (World.run (e.transform .payload context .string
    (some (.bytes [104, 105]))).run).run w = x at hisOk hlength
  obtain ⟨result, w'⟩ := x
  exact ⟨e, context, w, w', result, hsound, hshort, hx, hisOk, hlength,
    transform_footprint e .payload context .string (some (.bytes [104, 105])) w hsound hshort hx⟩

end Executor
end Envelope
