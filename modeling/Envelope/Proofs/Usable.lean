import Envelope.Proofs.Evolution

/-!
# Stored versions can be used

A version of a data key is stored only once its raw key has been made for a
supported algorithm, and wrapped by the client of its key-encryption key unless
this is shared.  Since neither the record nor the client is ever taken away, the
client unwraps it from then on: no driver that is registered later, no
connection that fails and no deletion makes a stored version useless.
-/

namespace Envelope

open Program Engine KeyRing

/-! ## Usable versions -/

namespace World

variable {σ : Type} {w w' : World Store σ} {path : DekPath} {dek : Dek}

/-- The key material of a version gives away a key of the length that an
algorithm asks for: under a shared key-encryption key it is this key in base64,
and else it is in base64 what the client published for the key-encryption key
unwraps to this key. -/
inductive Opens (k : Kms.Directory σ) (kek : Kek) (a : Algorithm) (dek : Dek) : Prop where
  | clear (hshared : kek.shared = true) (hnone : dek.encryptedKeyMaterial = none) {raw : Bytes}
      (htext : dek.keyMaterial = some (Base64.encode raw)) (hlength : raw.length = a.keyLength) :
      Opens k kek a dek
  | wrapped (hshared : kek.shared = false) (hnone : dek.keyMaterial = none) {text : Bytes}
      (htext : dek.encryptedKeyMaterial = some (Base64.encode text)) {handle : Kms.Handle}
      (hhandle : k.Published kek.url handle) {raw : Bytes}
      (hraw : handle.unwrap text [] = .ok raw) (hlength : raw.length = a.keyLength) :
      Opens k kek a dek

/-- A version in a file can be used: it names the file, and is found there by
its number; its key-encryption key is registered, its algorithm is supported,
and its key material gives away a key of the right length. -/
structure Usable (w : World Store σ) (path : DekPath) (dek : Dek) : Prop where
  named : dek.path = path
  found : w.registry.getDek ⟨path.kekName, path.subject, dek.version, path.algorithm⟩ false =
    .ok dek
  opens : ∃ kek a, w.registry.keks.get? path.kekName = some kek ∧
    (Cryptor.mk path.algorithm).algorithm = .ok a ∧ Opens w.directory kek a dek

theorem Opens.mono {k k' : Kms.Directory σ} {kek : Kek} {a : Algorithm} (h : Opens k kek a dek)
    (hlater : k.Extends k') (mark : Bool) : Opens k' { kek with deleted := mark } a dek := by
  cases h with
  | clear hshared hnone htext hlength => exact .clear hshared hnone htext hlength
  | wrapped hshared hnone htext hhandle hraw hlength =>
    exact .wrapped hshared hnone htext (hhandle.mono hlater) hraw hlength

/-- A version that can be used can be used for good. -/
theorem Usable.mono (h : w.Usable path dek) (hdek : dek ∈ w.registry.file path)
    (hlater : World.Outlives w w') (hfiled : w'.registry.Filed) : w'.Usable path dek := by
  obtain ⟨kek, a, hkek, halgorithm, hopens⟩ := h.opens
  obtain ⟨mark, hkek'⟩ := hlater.registry.keks hkek
  have hdek' : dek ∈ w'.registry.file path := hlater.registry.files path hdek
  exact ⟨h.named, hfiled.getDek_of_mem hdek' rfl,
    ⟨_, a, hkek', halgorithm, hopens.mono hlater.directory mark⟩⟩

/-- Key material that was prepared for a version and stored with it gives away
the key that was drawn. -/
theorem opens_of_material {t : Trace} {ring : KeyRing} {kek : Kek} {request : DekRequest}
    {wrapped clear : Option String} {now : Int64} (hserial : World.Serial w t w')
    (hsound : w.directory.Sound) (halgorithm : request.algorithm = ring.cryptor.format)
    (hprepared : ring.Material kek t request.encryptedKeyMaterial)
    (hstored : Store.Material kek.shared request wrapped clear) :
    ∃ a, (Cryptor.mk request.algorithm).algorithm = .ok a ∧
      Opens w'.directory kek a (Store.dekOf ring.kekName request wrapped clear now) := by
  generalize hmaterial : request.encryptedKeyMaterial = material at hprepared
  cases hstored with
  | given text htext =>
    cases hprepared with
    | shared hshared =>
      rw [htext] at hmaterial
      cases hmaterial
    | @wrapped hshared handle hhandle a hsupported key hkey draws sealed hwrap =>
      obtain rfl := Option.some.inj (htext.symm.trans hmaterial)
      have hraw : handle.unwrap sealed [] = .ok key.val :=
        hserial.inverts hsound hhandle key.val [] sealed draws hwrap
      rw [halgorithm]
      exact ⟨a, hsupported, .wrapped hshared rfl rfl (hserial.backs.handle_published hhandle) hraw
        key.property⟩
  | made hnone hshared a hsupported key hlength =>
    exact ⟨a, hsupported, .clear hshared rfl rfl hlength⟩

end World

/-! ## New versions -/

/-- A version that an executor leaves in a file was there before, or it can be
used. -/
theorem Executor.Leaves.usable {κ σ : Type} {e : Executor κ} {context : Context}
    {type : FieldType} {value : Option FieldValue} {t : Trace} {w w' : World Store σ}
    {path : DekPath} {dek : Dek}
    (h : e.Leaves context type value t w.clock w.registry w'.registry)
    (hserial : World.Serial w t w') (hsound : w.directory.Sound) (hfiled : w'.registry.Filed)
    (hdek : dek ∈ w'.registry.file path) : dek ∈ w.registry.file path ∨ w'.Usable path dek := by
  have hmem : dek ∈ w'.registry.file path := hdek
  generalize hs : w'.registry = s' at h hdek
  cases h with
  | declined h => exact .inl hdek
  | first taken hring hkek => exact .inl (hkek.file_eq path ▸ hdek)
  | @both taken ring hring s₁ _ hkek kek hfound version hversion hleaves =>
    cases hleaves with
    | same hkeks hfile =>
      rw [hfile, hkek.file_eq] at hdek
      exact .inl hdek
    | @added writes reading hreading request due stored hstored hnew wrapped clear hmaterial
        hcall =>
      rcases Store.mem_file_addDek.mp hdek with ⟨rfl, rfl⟩ | hold
      · have hsame : some kek = some stored :=
          hfound.symm.trans (Store.getKek_eq_ok_iff.mp hstored).1
        obtain rfl := Option.some.inj hsame
        obtain ⟨a, halgorithm, hopens⟩ :=
          World.opens_of_material hserial hsound due.algorithm due.material hmaterial
        refine .inr ⟨rfl, hfiled.getDek_of_mem hmem rfl, kek, a, ?_, halgorithm, hopens⟩
        rw [hs]
        exact hfound
      · exact .inl (hkek.file_eq path ▸ hold)

namespace Deployment

variable {ι σ : Type}

/-- A step does not register a data key past the executors, and it registers
only drivers whose handles unwrap what they have wrapped. -/
def Step.Sound : Step ι σ → Prop
  | .call (.registerDek _ _) => False
  | .registerDriver driver => driver.Sound
  | _ => True

theorem Step.Sound.indirect {s : Step ι σ} (h : s.Sound) : s.Indirect := by
  refine Step.indirect_iff.mpr ?_
  rintro kekName request rfl
  exact h

/-- The files of a deployment are in order, the handles of its clients unwrap
what they have wrapped, and every version in its files can be used. -/
structure Serviceable (d : Deployment ι σ) : Prop where
  filed : d.world.registry.Filed
  sound : d.world.directory.Sound
  usable : ∀ path, ∀ dek ∈ d.world.registry.file path, d.world.Usable path dek

variable {d d' : Deployment ι σ} {s : Step ι σ}

theorem Serviceable.askHandle (h : d.Serviceable) (config : Properties) (url : String) :
    (d.askHandle config url).Serviceable := by
  refine ⟨h.filed, h.sound.handle, fun path dek hdek => ?_⟩
  have houtlives : World.Outlives d.world (d.askHandle config url).world :=
    ⟨.refl _, Kms.Directory.extends_handle⟩
  exact (h.usable path dek hdek).mono hdek houtlives h.filed

variable [DecidableEq ι]

theorem sound_advance (hsound : d.world.directory.Sound) (hs : s.Sound) :
    (d.advance s).world.directory.Sound := by
  cases s with
  | configure i config =>
    unfold advance
    dsimp only
    split
    · exact hsound
    · exact hsound
  | transform i kind context type value =>
    obtain ⟨t, hserial, -⟩ := d.transform_leaves i kind context type value
    exact Program.Serial.invariant (P := fun w : World Store σ => w.directory.Sound)
      (fun r w hw => World.sound_answer hw r) hserial hsound
  | registerDriver driver => exact hsound.register hs
  | call c => exact hsound
  | softDeleteKek name => exact hsound
  | setClock clock engineClock => exact hsound
  | setSystems systems => exact hsound

theorem Serviceable.advance (h : d.Serviceable) (hs : s.Sound) : (d.advance s).Serviceable := by
  obtain ⟨hfiled, houtlives⟩ := advance_kept h.filed hs.indirect.proper
  have hold : ∀ path, ∀ dek ∈ d.world.registry.file path, (d.advance s).world.Usable path dek :=
    fun path dek hdek => (h.usable path dek hdek).mono hdek houtlives hfiled
  refine ⟨hfiled, sound_advance h.sound hs, fun path dek hdek => ?_⟩
  rcases d.files_advance hs.indirect with ⟨i, kind, context, type, value, rfl⟩ | hfiles
  · obtain ⟨t, hserial, hleaves⟩ := d.transform_leaves i kind context type value
    rcases hleaves.usable hserial h.sound hfiled hdek with hdek | husable
    · exact hold path dek hdek
    · exact husable
  · exact hold path dek (Store.file_congr hfiles ▸ hdek)

/-- Whatever happens to a deployment whose registry was empty, as long as only
executors register data keys and handles unwrap what they have wrapped, every
version in its files can be used. -/
theorem stored_deks_usable (hempty : d.world.registry = ∅) (hsound : d.world.directory.Sound)
    (h : Evolves Step.Sound d d') :
    ∀ path, ∀ dek ∈ d'.world.registry.file path, d'.world.Usable path dek := by
  have hstart : d.Serviceable := by
    refine ⟨hempty ▸ Store.filed_empty, hsound, fun path dek hdek => ?_⟩
    rw [hempty] at hdek
    cases hdek
  exact (h.invariant (fun _ _ hs hd => hd.advance hs)
    (fun _ config url hd => hd.askHandle config url) hstart).usable

theorem stored_deks_usable_replaced :
    ∃ (d d' : Deployment Unit Unit) (path : DekPath) (dek : Dek),
      d.world.registry = ∅ ∧ d.world.directory.Sound ∧ Evolves Step.Sound d d' ∧
      d'.world.directory.driverCount = 1 ∧ d'.world.registry.file path = [dek] ∧
      d'.world.Usable path dek := by
  -- The driver that connected the client is replaced after the version was stored.
  let first : Kms.Driver Unit := Kms.Plain.driver "local-kms://"
  let second : Kms.Driver Unit := Kms.Local.driver
  let world : World Store Unit := ⟨∅, .empty, (), 0, none, ⟨fun _ => 0, 0⟩, []⟩
  let d : Deployment Unit Unit := ⟨fun _ => ⟨some (), ∅⟩, world⟩
  let params : Properties :=
    Dict.ofList [(Parameter.kekName, "k"), (Parameter.dekAlgorithm, "AES256_SIV"),
      (Parameter.kmsType, "local-kms"), (Parameter.kmsKeyId, "m")]
  let context : Context := ⟨"s", .write, params, ∅⟩
  let write : Step Unit Unit := .transform () .field context .bytes (some (.bytes [104, 105]))
  let path : DekPath := ⟨"k", "s", "AES256_SIV"⟩
  have hlength : ((((d.advance (.registerDriver first)).advance write).advance
      (.registerDriver second)).world.registry.file path).length = 1 := by
    decide +kernel
  have hdrivers : (((d.advance (.registerDriver first)).advance write).advance
      (.registerDriver second)).world.directory.driverCount = 1 := by
    decide +kernel
  have hevolves : Evolves Step.Sound d (((d.advance (.registerDriver first)).advance
      write).advance (.registerDriver second)) := by
    refine .step (.step (.step .start _ ?_) write trivial) _ ?_
    · exact Kms.Plain.sound_driver "local-kms://"
    · exact Kms.Local.sound_driver
  generalize ((d.advance (.registerDriver first)).advance write).advance
    (.registerDriver second) = d' at hlength hdrivers hevolves
  obtain ⟨dek, hfile⟩ := List.length_eq_one_iff.mp hlength
  have hdek : dek ∈ d'.world.registry.file path := by
    rw [hfile]
    exact List.mem_cons_self
  exact ⟨d, d', path, dek, rfl, Kms.Directory.sound_empty, hevolves, hdrivers, hfile,
    stored_deks_usable rfl Kms.Directory.sound_empty hevolves path dek hdek⟩

end Deployment
end Envelope
