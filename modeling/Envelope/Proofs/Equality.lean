import Envelope.Proofs.Evolution
import Envelope.Proofs.Lifetime
import Envelope.Proofs.Race

/-!
# Equal values under a deterministic algorithm

Two writes of a deployment, with anything in between, find the same raw key
whenever they use the same version of a data key: the record stays, and so does
the client that unwraps it (`Deployment.Evolves.lives`).  Since the deterministic
algorithm draws nothing, equal values are then written alike; and since what was
written can be opened again, unequal values are not.
-/

namespace Envelope

open Program Engine KeyRing

namespace Cryptor

/-- The deterministic algorithm draws nothing: what it comes to follows from the
key, the associated data and the value. -/
theorem encrypt_unique {c : Cryptor} {key plain aad : Bytes}
    {t t' : List (Exchange Draw.signature)} {r r' : Except CipherError Bytes}
    (hsiv : c.format = Algorithm.aes256Siv.name) (h : ComesTo (c.encrypt key plain aad) t r)
    (h' : ComesTo (c.encrypt key plain aad) t' r') : r = r' := by
  have hchosen : ∀ {a}, c.algorithmFor key = .ok a → a = .aes256Siv := by
    intro a ha
    have halgorithm : c.algorithm = .ok .aes256Siv := by
      rw [algorithm, algorithm?, hsiv]
      rfl
    have hknown := (algorithmFor_eq_ok_iff.mp ha).1
    exact Except.ok.inj (hknown.symm.trans halgorithm)
  rcases encrypt_comesTo h with ⟨e, hrefused, rfl⟩ | ⟨a, nonce, ha, -, rfl⟩
  · rcases encrypt_comesTo h' with ⟨e', hrefused', rfl⟩ | ⟨a', nonce', ha', -, rfl⟩
    · rw [hrefused] at hrefused'
      rw [Except.error.inj hrefused']
    · rw [hrefused] at ha'
      cases ha'
  · rcases encrypt_comesTo h' with ⟨e', hrefused', rfl⟩ | ⟨a', nonce', ha', -, rfl⟩
    · rw [ha] at hrefused'
      cases hrefused'
    · rw [hchosen ha, hchosen ha']
      rfl

end Cryptor

/-! ## Two sealed values -/

namespace Transform

variable {ring ring' : KeyRing} {type : FieldType} {version version' : UInt32}
  {key : KeyMaterial} {value value' out out' : FieldValue}

/-- Values of a type that carry the same bytes are the same. -/
theorem carrying_injective (htype : type = .string ∨ type = .bytes) {bytes bytes' : Bytes}
    (h : carrying type bytes = carrying type bytes') : bytes = bytes' := by
  obtain ⟨encoded, hencoded, hdecoded⟩ := decoded_carrying htype bytes
  obtain ⟨encoded', hencoded', hdecoded'⟩ := decoded_carrying htype bytes'
  rw [h, hencoded'] at hencoded
  rw [← Option.some.inj hencoded, hdecoded'] at hdecoded
  exact (Except.ok.inj hdecoded).symm

/-- Framed bytes give away the version and the ciphertext. -/
theorem carried_injective (hrotates : ring'.rotates = ring.rotates) {ciphertext ciphertext' : Bytes}
    (h : carried ring version ciphertext = carried ring' version' ciphertext') :
    ciphertext = ciphertext' ∧ (ring.rotates = true → version = version') := by
  unfold carried at h
  rw [hrotates] at h
  cases hring : ring.rotates with
  | true =>
    rw [hring, if_pos rfl, if_pos rfl] at h
    have hframe := Frame.decode_encode ⟨version, ciphertext⟩
    rw [h, Frame.decode_encode] at hframe
    have hsame := Except.ok.inj hframe
    exact ⟨(congrArg Frame.body hsame).symm, fun _ => (congrArg Frame.version hsame).symm⟩
  | false =>
    rw [hring] at h
    exact ⟨h, nofun⟩

/-- Equal values under one key and one version are sealed alike. -/
theorem SealedUnder.out_eq (hsiv : ring.cryptor.format = Algorithm.aes256Siv.name)
    (hcryptor : ring'.cryptor = ring.cryptor) (hrotates : ring'.rotates = ring.rotates)
    (h : SealedUnder ring type version key value out)
    (h' : SealedUnder ring' type version key value out') : out = out' := by
  obtain ⟨plain, ciphertext, draws, hplain, hseal, rfl⟩ := h
  obtain ⟨plain', ciphertext', draws', hplain', hseal', rfl⟩ := h'
  obtain rfl := Option.some.inj (hplain.symm.trans hplain')
  rw [hcryptor] at hseal'
  obtain rfl := Except.ok.inj (Cryptor.encrypt_unique hsiv hseal hseal')
  unfold carried
  rw [hrotates]

/-- Values that are sealed alike have the same version, if keys rotate. -/
theorem SealedUnder.version_eq {key' : KeyMaterial} (hrotates : ring'.rotates = ring.rotates)
    (h : SealedUnder ring type version key value out)
    (h' : SealedUnder ring' type version' key' value' out) :
    ring.rotates = true → version = version' := by
  obtain ⟨plain, ciphertext, draws, hplain, hseal, rfl⟩ := h
  obtain ⟨plain', ciphertext', draws', hplain', hseal', hsame⟩ := h'
  have hcarried := carrying_injective (type_of_bytesOf hplain) hsame
  exact (carried_injective hrotates hcarried).2

/-- Values that are sealed alike under one key are the same. -/
theorem SealedUnder.value_eq (hcryptor : ring'.cryptor = ring.cryptor)
    (hrotates : ring'.rotates = ring.rotates)
    (h : SealedUnder ring type version key value out)
    (h' : SealedUnder ring' type version' key value' out) : value = value' := by
  obtain ⟨plain, ciphertext, draws, hplain, hseal, rfl⟩ := h
  obtain ⟨plain', ciphertext', draws', hplain', hseal', hsame⟩ := h'
  have hcarried := carrying_injective (type_of_bytesOf hplain) hsame
  obtain ⟨rfl, -⟩ := carried_injective hrotates hcarried
  rw [hcryptor] at hseal'
  have hopened := Cryptor.decrypt_of_encrypt hseal
  rw [Cryptor.decrypt_of_encrypt hseal'] at hopened
  obtain rfl := Except.ok.inj hopened
  have hvalue := revealed_of_bytesOf hplain
  rw [revealed_of_bytesOf hplain'] at hvalue
  exact (Except.ok.inj hvalue).symm

/-- Where one version has one key, values are sealed alike if and only if they
are the same and sealed under the same version. -/
theorem SealedUnder.eq_iff {key' : KeyMaterial}
    (hsiv : ring.cryptor.format = Algorithm.aes256Siv.name)
    (hcryptor : ring'.cryptor = ring.cryptor) (hrotates : ring'.rotates = ring.rotates)
    (hkey : version = version' → key = key')
    (hversion : ring.rotates = false → version = version')
    (h : SealedUnder ring type version key value out)
    (h' : SealedUnder ring' type version' key' value' out') :
    out = out' ↔ value = value' ∧ version = version' := by
  constructor
  · rintro rfl
    have hsame : version = version' := by
      cases hring : ring.rotates with
      | true => exact h.version_eq hrotates h' hring
      | false => exact hversion hring
    subst hsame
    obtain rfl := hkey rfl
    exact ⟨h.value_eq hcryptor hrotates h', rfl⟩
  · rintro ⟨rfl, rfl⟩
    obtain rfl := hkey rfl
    exact h.out_eq hsiv hcryptor hrotates h'

end Transform

namespace World

variable {σ : Type} {w w' : World Store σ} {t : Trace}

/-- An event that was reported last is the last one of the log. -/
theorem Serial.getLast?_log {event : Event} (h : Serial w (t ++ [logged event]) w') :
    w'.log.getLast? = some event := by
  obtain ⟨u, -, hlast⟩ := Program.Serial.split h
  obtain ⟨-, hend⟩ := Program.Serial.first hlast
  rw [Program.Serial.nil_eq hend]
  exact List.getLast?_concat

end World

/-! ## Two writes of a deployment -/

namespace Deployment

variable {ι σ : Type} {d d' : Deployment ι σ} {i : ι} {kind : ExecutorKind} {context : Context}
  {type : FieldType} {value : FieldValue} {out : Option FieldValue} {ring : KeyRing}

/-- A value was written last, under a version of the data key of a subject that
the registry has, and this version was reported. -/
structure Wrote (d : Deployment ι σ) (ring : KeyRing) (subject : String) (version : UInt32) :
    Prop where
  reported : ∃ name, d.world.log.getLast? = some (.fieldEncrypted name subject version)
  stored : ∃ dek ∈ d.world.registry.file ⟨ring.kekName, subject, ring.cryptor.format⟩,
    dek.version = version

/-- What a write leaves behind. -/
theorem transform_sealed (hreached : Store.Reaches ∅ d.world.registry)
    (hwritten : d.transform i kind context type (some value) = (.ok out, d'))
    (writes : context.mode = .write) (hring : (d.executors i).ring context = .ok ring) :
    ∃ kek record raw sealed, out = some sealed ∧
      d'.Wrote ring context.subject record.version ∧
      d'.world.Keeps ring context.subject record raw kek ∧
      Transform.SealedUnder ring (kind.declared type) record.version ⟨raw⟩ value sealed := by
  obtain ⟨t, hcourse, hserial⟩ := d.transform_serial i kind context type (some value)
  rw [hwritten] at hcourse hserial
  obtain ⟨ring', kek, record, raw, sealed, t', rfl, hring', hkek, hgiven, hholds, rfl, hsealed⟩ :=
    hcourse.sealedUnder writes
  obtain rfl := Except.ok.inj (hring.symm.trans hring')
  have hversion : ring.rotates = false → Transform.writtenVersion ring = none := by
    intro hfixed
    simp [Transform.writtenVersion, hfixed]
  have hkeeps := hserial.backs.keeps (hreached.trans hserial.reaches).unknown hkek hgiven hversion
    hholds
  exact ⟨kek, record, raw.bytes, sealed, rfl,
    ⟨⟨kek.name, hserial.getLast?_log⟩, record, hkeeps.file, rfl⟩, hkeeps, hsealed⟩

variable [DecidableEq ι] {allowed : Step ι σ → Prop}

/-- Whatever happens to a deployment is part of the life of its registry, and
takes no client away. -/
theorem lives_advance (d : Deployment ι σ) (s : Step ι σ) :
    d.world.registry.Reaches (d.advance s).world.registry ∧
      d.world.directory.Extends (d.advance s).world.directory := by
  cases s with
  | configure i config =>
    unfold advance
    dsimp only
    split
    · exact ⟨.start, .refl _⟩
    · exact ⟨.start, .refl _⟩
  | transform i kind context type value =>
    obtain ⟨t, hserial, -⟩ := d.transform_leaves i kind context type value
    exact ⟨hserial.reaches, hserial.extends.directory⟩
  | call c =>
    obtain ⟨draws, hruns⟩ := exists_runs RandomSource.answer
      (Store.answer c d.world.clock d.world.registry) d.world.random
    exact ⟨.call .start hruns, .refl _⟩
  | softDeleteKek name => exact ⟨.deletion .start name, .refl _⟩
  | registerDriver driver => exact ⟨.start, Kms.Directory.extends_register driver⟩
  | setClock clock engineClock => exact ⟨.start, .refl _⟩
  | setSystems systems => exact ⟨.start, .refl _⟩

theorem Evolves.lives (h : Evolves allowed d d') :
    d.world.registry.Reaches d'.world.registry ∧
      d.world.directory.Extends d'.world.directory := by
  induction h with
  | start => exact ⟨.start, .refl _⟩
  | @step d' h s hs ih =>
    obtain ⟨hreaches, hextends⟩ := d'.lives_advance s
    exact ⟨ih.1.trans hreaches, ih.2.trans hextends⟩
  | handle h config url ih => exact ⟨ih.1, ih.2.trans Kms.Directory.extends_handle⟩

variable {d₁ d₁' d₂ d₂' : Deployment ι σ} {j : ι} {kind' : ExecutorKind} {context' : Context}
  {type' : FieldType} {value' : FieldValue} {out' : Option FieldValue} {ring' : KeyRing}

/-- The deterministic algorithm keeps equality, and only equality.  Of two writes
under the same key-encryption key, for the same subject and type, with anything
in between, the outputs are equal if and only if the values are equal and, where
keys rotate, were encrypted under the same version. -/
theorem deterministic_keeps_equality (hempty : d.world.registry = ∅)
    (hbefore : Evolves (fun _ => True) d d₁)
    (hwritten : d₁.transform i kind context type (some value) = (.ok out, d₁'))
    (hbetween : Evolves (fun _ => True) d₁' d₂)
    (hwritten' : d₂.transform j kind' context' type' (some value') = (.ok out', d₂'))
    (writes : context.mode = .write) (writes' : context'.mode = .write)
    (hring : (d₁.executors i).ring context = .ok ring)
    (hring' : (d₂.executors j).ring context' = .ok ring')
    (hname : ring'.kekName = ring.kekName) (hsubject : context'.subject = context.subject)
    (hsiv : ring.cryptor.format = "AES256_SIV") (hsiv' : ring'.cryptor.format = "AES256_SIV")
    (htype : kind'.declared type' = kind.declared type) :
    ∃ version version', d₁'.Wrote ring context.subject version ∧
      d₂'.Wrote ring' context'.subject version' ∧
      (ring.rotates = false → ring'.rotates = false → (out = out' ↔ value = value')) ∧
      (ring.rotates = true → ring'.rotates = true →
        (out = out' ↔ value = value' ∧ version = version')) := by
  have hreached₁ : Store.Reaches ∅ d₁.world.registry := hempty ▸ hbefore.lives.1
  obtain ⟨kek, record, raw, sealed, rfl, hwrote, hkeeps, hsealed⟩ :=
    transform_sealed hreached₁ hwritten writes hring
  have hwrite := d₁.lives_advance (.transform i kind context type (some value))
  have hwrite' := d₂.lives_advance (.transform j kind' context' type' (some value'))
  rw [advance, hwritten] at hwrite
  rw [advance, hwritten'] at hwrite'
  have hreached₂ : Store.Reaches ∅ d₂.world.registry :=
    (hreached₁.trans hwrite.1).trans hbetween.lives.1
  obtain ⟨kek', record', raw', sealed', rfl, hwrote', hkeeps', hsealed'⟩ :=
    transform_sealed hreached₂ hwritten' writes' hring'
  refine ⟨record.version, record'.version, hwrote, hwrote', ?_⟩
  have hcryptor : ring'.cryptor = ring.cryptor := congrArg Cryptor.mk (hsiv'.trans hsiv.symm)
  rw [htype] at hsealed'
  -- The record of the first write and its client are there after the second one.
  have hlater : d₁'.world.Outlives d₂'.world :=
    ⟨(hbetween.lives.1.trans hwrite'.1).outlives, hbetween.lives.2.trans hwrite'.2⟩
  obtain ⟨mark, hkept⟩ := hkeeps.mono hlater
  have hkey : record.version = record'.version →
      (⟨raw⟩ : KeyMaterial) = ⟨raw'⟩ := by
    intro hversion
    have hfile' := hkeeps'.file
    rw [hname, hsubject, hcryptor] at hfile'
    obtain rfl : record = record' :=
      (hreached₂.trans hwrite'.1).eq_of_version hfile' hkept.file hversion
    rw [hkept.raw_eq hkeeps' hname.symm]
  constructor
  · intro hfixed hfixed'
    have hversion : record.version = record'.version :=
      (hkeeps.first hfixed).trans (hkeeps'.first hfixed').symm
    rw [Option.some.injEq, hsealed.eq_iff hsiv hcryptor (hfixed'.trans hfixed.symm) hkey
      (fun _ => hversion) hsealed']
    exact and_iff_left hversion
  · intro hrotates hrotates'
    rw [Option.some.injEq]
    refine hsealed.eq_iff hsiv hcryptor (hrotates'.trans hrotates.symm) hkey (fun hfixed => ?_)
      hsealed'
    rw [hrotates] at hfixed
    cases hfixed

/-- A value is written once more, much later and after its driver was replaced by
one that connects to other clients; so is another value. -/
theorem deterministic_keeps_equality_later :
    ∃ (d d₁ d₁' d₂ d₂' d₂'' : Deployment Unit Unit) (context : Context)
      (out out' out'' : Option FieldValue),
      d.world.registry = ∅ ∧ Evolves (fun _ => True) d d₁ ∧
      d₁.transform () .field context .bytes (some (.bytes [104, 105])) = (.ok out, d₁') ∧
      Evolves (fun _ => True) d₁' d₂ ∧ d₂.world.clock = 864000000000 ∧
      d₂.transform () .payload context .string (some (.bytes [104, 105])) = (.ok out', d₂') ∧
      d₂.transform () .payload context .string (some (.bytes [104, 111])) = (.ok out'', d₂'') ∧
      out = out' ∧ out ≠ out'' := by
  let world : World Store Unit := ⟨∅, .empty, (), 0, none, ⟨fun _ => 0, 0⟩, []⟩
  let d : Deployment Unit Unit := ⟨fun _ => ⟨some (), ∅⟩, world⟩
  let driver : Kms.Driver Unit := Kms.Plain.driver "local-kms://"
  let d₁ := d.advance (.registerDriver driver)
  let params : Properties :=
    Dict.ofList [(Parameter.kekName, "k"), (Parameter.dekAlgorithm, "AES256_SIV"),
      (Parameter.kmsType, "local-kms"), (Parameter.kmsKeyId, "m")]
  let context : Context := ⟨"s", .write, params, ∅⟩
  let value : FieldValue := .bytes [104, 105]
  let other : FieldValue := .bytes [104, 111]
  let between (d₁' : Deployment Unit Unit) : Deployment Unit Unit :=
    (d₁'.advance (.registerDriver Kms.Local.driver)).advance (.setClock 864000000000 none)
  have hfirst : (d₁.transform () .field context .bytes (some value)).1.isOk = true := by
    decide +kernel
  have hagain : ((between (d₁.transform () .field context .bytes (some value)).2).transform
      () .payload context .string (some value)).1.isOk = true := by
    decide +kernel
  have hother : ((between (d₁.transform () .field context .bytes (some value)).2).transform
      () .payload context .string (some other)).1.isOk = true := by
    decide +kernel
  have hexecutors : (d₁.transform () .field context .bytes (some value)).2.executors =
      d.executors := rfl
  have hring : (d.executors ()).ring context = .ok ⟨"k", ⟨"AES256_SIV"⟩, 0, ∅⟩ := by
    decide +kernel
  have hsucceeds : ∀ x : Except Error (Option FieldValue) × Deployment Unit Unit,
      x.1.isOk = true → ∃ out d', x = (.ok out, d') := by
    intro x hisOk
    obtain ⟨out, hout⟩ := exists_ok_of_isOk hisOk
    exact ⟨out, x.2, Prod.ext hout rfl⟩
  obtain ⟨out, d₁', hwritten⟩ := hsucceeds _ hfirst
  rw [hwritten] at hagain hother hexecutors
  obtain ⟨out', d₂', hwritten'⟩ := hsucceeds _ hagain
  obtain ⟨out'', d₂'', hwritten''⟩ := hsucceeds _ hother
  have hbefore : Evolves (fun _ => True) d d₁ := .step .start (.registerDriver driver) trivial
  have hbetween : Evolves (fun _ => True) d₁' (between d₁') :=
    .step (.step .start (.registerDriver Kms.Local.driver) trivial) (.setClock 864000000000 none)
      trivial
  have hring' : ((between d₁').executors ()).ring context = .ok ⟨"k", ⟨"AES256_SIV"⟩, 0, ∅⟩ := by
    rw [show (between d₁').executors = d.executors from hexecutors]
    exact hring
  obtain ⟨-, -, -, -, hsame, -⟩ := deterministic_keeps_equality rfl hbefore hwritten
    hbetween hwritten' rfl rfl hring hring' rfl rfl rfl rfl rfl
  obtain ⟨-, -, -, -, hapart, -⟩ := deterministic_keeps_equality rfl hbefore hwritten
    hbetween hwritten'' rfl rfl hring hring' rfl rfl rfl rfl rfl
  have hdiffers : value ≠ other := by decide
  exact ⟨d, d₁, d₁', between d₁', d₂', d₂'', context, out, out', out'', rfl, hbefore, hwritten,
    hbetween, rfl, hwritten', hwritten'', (hsame rfl rfl).mpr rfl,
    fun heq => hdiffers ((hapart rfl rfl).mp heq)⟩

end Deployment
end Envelope
