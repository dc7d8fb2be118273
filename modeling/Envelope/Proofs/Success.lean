import Envelope.Proofs.Overflow
import Envelope.Proofs.Writer

/-!
# Writers are not held up

A writer that goes through healthy worlds finds its key-encryption key or
registers it, finds its data key or registers it, and when another writer was
first it finds what that one registered.  Unless it stops, what remains are the
excuses that it had from the start.
-/

namespace Envelope

open Program Engine KeyRing

namespace Race

variable {ι σ : Type} {r : Race ι σ} {i : ι} {ring : KeyRing} {kek : Kek} {dek : Dek} {t u : Trace}
  {w w' : World Store σ} {a : Algorithm}

/-! ## Key-encryption keys -/

/-- A writer that cannot find its key-encryption key never could. -/
theorem Span.absent {e : RegistryError}
    (h : r.Span r.start (called (.getKek ring.kekName false) (.error e) :: t) w) (kek : Kek) :
    r.start.registry.getKek ring.kekName false ≠ .ok kek := by
  intro hkek
  obtain ⟨v, -, hearlier, hanswer, -, -⟩ := h.tail
  have hfound : v.registry.getKek ring.kekName false = .ok kek := hearlier.registry.getKek hkek
  have hmissing : .error e = v.registry.getKek ring.kekName false := hanswer
  rw [hfound] at hmissing
  cases hmissing

/-- Whoever registers a key-encryption key, it can be found unless it was
deleted before the start. -/
theorem Span.kekRegistration {type id : String} {answer : Except KeyError Kek}
    (h : r.Span w t w') (hring : r.HasRing i ring)
    (hregistration : ring.KekRegistration .write type id t answer) :
    (∃ kek, answer = .ok kek ∧ w'.registry.getKek ring.kekName false = .ok kek) ∨
      ∃ cause, answer = .error cause ∧ r.Excuse i (.key cause) := by
  cases hregistration with
  | registered kek => exact .inl ⟨kek, rfl, h.course.backs.registerKek_stored List.mem_cons_self⟩
  | refused e fatal =>
    obtain ⟨v, -, -, hanswer, -, -⟩ := h.tail
    have hregister : (v.registry.registerKek (ring.kekRequest type id) v.clock).1 = .error e :=
      hanswer.symm
    obtain ⟨-, rfl⟩ := Store.registerKek_eq_error hregister
    rw [Store.isConflict_kekExists] at fatal
    cases fatal
  | settled e lost found =>
    obtain ⟨v, -, -, hanswer, -, hrest⟩ := h.tail
    have hregister : (v.registry.registerKek (ring.kekRequest type id) v.clock).1 = .error e :=
      hanswer.symm
    obtain ⟨⟨kek, hkek⟩, -⟩ := Store.registerKek_eq_error hregister
    have hlost :=
      (World.extends_answer v (.registry (.registerKek (ring.kekRequest type id)))).registry
    have hmem : called (.getKek ring.kekName false) found ∈
        [logged (.kekConflicted ring.kekName), called (.getKek ring.kekName false) found] := by
      simp
    obtain ⟨v', hhealthy, hearlier, hanswer', hlater⟩ := Span.answered hrest hmem
    have hstored : v'.registry.keks.get? ring.kekName = some kek :=
      hearlier.registry.keks (hlost.keks hkek)
    have hfound : found = v'.registry.getKek ring.kekName false := hanswer'
    have hstep : v'.registry.Extends w'.registry :=
      (World.extends_answer v' (.registry (.getKek ring.kekName false))).registry.trans
        hlater.registry
    cases hmark : kek.deleted with
    | true =>
      have hmissing : found = .error (Store.kekNotFound ring.kekName) :=
        hfound.trans (Store.getKek_of_deleted hstored hmark)
      refine .inr ⟨_, ?_, .deleted hring ((hhealthy.keks _ _ hstored).2.2 hmark) hmark⟩
      rw [hmissing, fetched, present, Store.isNotFound_kekNotFound]
      rfl
    | false =>
      have hget : v'.registry.getKek ring.kekName false = .ok kek :=
        Store.getKek_eq_ok_iff.mpr ⟨hstored, .inr hmark⟩
      refine .inl ⟨kek, ?_, hstep.getKek hget⟩
      rw [fetched_eq_ok_iff, hfound, hget]

/-- A writer comes up with a key-encryption key that can be found. -/
theorem Span.kekSearch (h : r.Span r.start t w) (hring : r.HasRing i ring)
    {answer : Except KeyError Kek}
    (hsearch : ring.KekSearch .write (r.namedType i) (r.namedKey i) t answer) :
    (∃ kek, answer = .ok kek ∧ w.registry.getKek ring.kekName false = .ok kek) ∨
      ∃ cause, answer = .error cause ∧ r.Excuse i (.key cause) := by
  cases hsearch with
  | failed e fatal =>
    obtain ⟨v, -, -, hanswer, -, -⟩ := h.tail
    have hmissing : v.registry.getKek ring.kekName false = .error e := hanswer.symm
    rw [Store.getKek_eq_error hmissing, Store.isNotFound_kekNotFound] at fatal
    cases fatal
  | found kek => exact .inl ⟨kek, rfl, h.course.backs.getKek_stored List.mem_cons_self⟩
  | unread e absent reads => cases reads
  | untyped e absent writes htype => exact .inr ⟨_, rfl, .untyped hring h.absent htype⟩
  | unnamed e absent writes type htype hid => exact .inr ⟨_, rfl, .unnamed hring h.absent hid⟩
  | created e absent writes type id htype hid rest =>
    obtain ⟨v, -, -, -, -, hrest⟩ := h.tail
    exact Span.kekRegistration hrest hring rest

/-! ## New data keys -/

/-- A new data key can be prepared. -/
theorem Span.preparation (h : r.Span w t w') (hring : r.HasRing i ring)
    (hurl : kek.url = r.url ring.kekName) (hchosen : ring.cryptor.algorithm = .ok a)
    {answer : Except KeyError (Option Kms.Handle × Option Bytes)}
    (hprepared : ring.Preparation kek t answer) :
    ∃ handle wrapped, answer = .ok (handle, wrapped) ∧
      (∀ h, handle = some h → h.Serves (r.unwrap (r.url ring.kekName))) ∧
      (kek.shared = false → wrapped ≠ none) := by
  cases hprepared with
  | shared hshared =>
    refine ⟨none, none, rfl, nofun, fun hunshared => ?_⟩
    rw [hshared] at hunshared
    cases hunshared
  | unhandled hshared e =>
    rw [hurl] at h
    obtain ⟨handle, hanswer, -⟩ := h.serves hring List.mem_cons_self
    cases hanswer
  | handled hshared handle wrapping =>
    rw [hurl] at h
    obtain ⟨handle', hanswer, hserves⟩ := h.serves hring List.mem_cons_self
    obtain rfl := Except.ok.inj hanswer
    cases wrapping with
    | unsupported e herror =>
      rw [hchosen] at herror
      cases herror
    | wrapped a' hchosen' key hwrap =>
      obtain ⟨wrapped, rfl, -⟩ := hserves.wraps a' key.val key.property _ _ hwrap
      refine ⟨some handle, some wrapped, rfl, fun h' hsame => ?_, fun _ => nofun⟩
      obtain rfl := Option.some.inj hsame
      exact hserves

/-- The registration of a prepared version is refused only because the version
is taken. -/
theorem refused_registerDek {request : DekRequest} {e : RegistryError}
    (hkek : w.registry.getKek ring.kekName false = .ok kek)
    (hchosen : ring.cryptor.algorithm = .ok a)
    (halgorithm : request.algorithm = ring.cryptor.format)
    (hmaterial : kek.shared = false → request.encryptedKeyMaterial ≠ none)
    (hanswer : ((World.answer (.registry (.registerDek ring.kekName request))).run w).1 =
      .error e) :
    e.isConflict = true ∧ ∃ dek,
      dek ∈ w.registry.file ⟨ring.kekName, request.subject, request.algorithm⟩ ∧
      dek.version = request.version := by
  have houtcome := World.answer_registerDek w ring.kekName request
  rw [hanswer] at houtcome
  generalize ((World.answer (.registry (.registerDek ring.kekName request))).run w).2.registry = s
    at houtcome
  cases houtcome with
  | unknown e' hmissing =>
    rw [hkek] at hmissing
    cases hmissing
  | taken hfound hdek hversion =>
    exact ⟨Store.isConflict_dekExists _ _ _, _, hdek, hversion⟩
  | unmade hfound hunmade reason =>
    obtain rfl := Except.ok.inj (hkek.symm.trans hfound)
    cases hshared : kek.shared with
    | true =>
      obtain ⟨e', herror⟩ := hunmade.unsupported hshared
      rw [halgorithm] at herror
      cases hchosen.symm.trans herror
    | false => exact absurd hunmade.material (hmaterial hshared)

/-- Whoever registers a version, a writer ends with a record of its file. -/
theorem Span.dekRegistration (h : r.Span w t w')
    (hkek : w.registry.getKek ring.kekName false = .ok kek)
    (hchosen : ring.cryptor.algorithm = .ok a) {subject : String} {version : Option UInt32}
    {next : UInt32} {wrapped : Option Bytes}
    (hversion : (ring.dekId subject version).version = Dek.latestVersion ∨
      next = (ring.dekId subject version).version)
    (hwrapped : kek.shared = false → wrapped ≠ none) {answer : Except KeyError Dek}
    (hregistration :
      ring.DekRegistration (ring.dekId subject version) .write next wrapped t answer) :
    ∃ dek, answer = .ok dek ∧
      dek ∈ w'.registry.file ⟨ring.kekName, subject, ring.cryptor.format⟩ := by
  have hmaterial : kek.shared = false →
      (dekRequest (ring.dekId subject version) next wrapped).encryptedKeyMaterial ≠ none := by
    intro hshared hnone
    exact hwrapped hshared (Option.map_eq_none_iff.mp hnone)
  cases hregistration with
  | registered dek =>
    exact ⟨dek, rfl, (h.course.backs.registerDek_stored List.mem_cons_self).1⟩
  | refused e fatal =>
    obtain ⟨v, -, hearlier, hanswer, -, -⟩ := h.tail
    obtain ⟨hconflict, -⟩ := refused_registerDek (hearlier.registry.getKek hkek) hchosen rfl
      hmaterial hanswer.symm
    rw [hconflict] at fatal
    cases fatal
  | settled e lost found =>
    obtain ⟨v, -, hearlier, hanswer, -, hrest⟩ := h.tail
    obtain ⟨-, dek, hdek, htaken⟩ := refused_registerDek (hearlier.registry.getKek hkek) hchosen
      rfl hmaterial hanswer.symm
    have hlost := (World.extends_answer v (.registry (.registerDek ring.kekName
      (dekRequest (ring.dekId subject version) next wrapped)))).registry
    have hmem : called (.getDek (ring.dekId subject version) false) found ∈
        [logged (.dekConflicted ring.kekName subject next),
          called (.getDek (ring.dekId subject version) false) found] := by
      simp
    obtain ⟨v', hhealthy, hearlier', hanswer', hlater⟩ := Span.answered hrest hmem
    have hfile : dek ∈ v'.registry.file (Store.pathOf (ring.dekId subject version)) :=
      hearlier'.registry.files _ (hlost.files _ hdek)
    have hfound : ∃ d, v'.registry.getDek (ring.dekId subject version) false = .ok d := by
      rcases hversion with hlatest | hsame
      · exact hhealthy.filed.getDek_latest hfile hlatest
      · exact ⟨dek, hhealthy.filed.getDek_of_mem hfile (htaken.trans hsame)⟩
    obtain ⟨d, hget⟩ := hfound
    have hfetched : found = .ok d := Eq.trans hanswer' hget
    subst hfetched
    exact ⟨d, rfl, ((Span.course hrest).backs.getDek_stored hmem).1⟩

/-- What was prepared is registered, by this writer or another one. -/
theorem Span.replacement {v : World Store σ} (hleft : r.Span w t v) (hright : r.Span v u w')
    (hring : r.HasRing i ring) (hkek : w.registry.getKek ring.kekName false = .ok kek)
    (hchosen : ring.cryptor.algorithm = .ok a) {subject : String} {version : Option UInt32}
    {next : UInt32} {handle : Option Kms.Handle} {wrapped : Option Bytes}
    (hversion : (ring.dekId subject version).version = Dek.latestVersion ∨
      next = (ring.dekId subject version).version)
    (hprepared : ring.Preparation kek t (.ok (handle, wrapped))) {answer : Except KeyError Dek}
    (hregistration :
      ring.DekRegistration (ring.dekId subject version) .write next wrapped u answer) :
    (∃ dek, answer = .ok dek ∧
      dek ∈ w'.registry.file ⟨ring.kekName, subject, ring.cryptor.format⟩) ∧
      ∀ h, handle = some h → h.Serves (r.unwrap (r.url ring.kekName)) := by
  have hhealthy : r.Healthy w := Timeline.start hleft
  have hurl := hhealthy.url_eq (Store.getKek_eq_ok_iff.mp hkek).1
  obtain ⟨handle', wrapped', hsame, hserves, hwrapped⟩ :=
    hleft.preparation hring hurl hchosen hprepared
  obtain ⟨rfl, rfl⟩ := Prod.mk.inj (Except.ok.inj hsame)
  have hkept := hleft.later.registry.getKek hkek
  exact ⟨hright.dekRegistration hkept hchosen hversion hwrapped hregistration, hserves⟩

/-- An expired or absent data key is replaced, by whomever. -/
theorem Span.rotation (h : r.Span w t w') (hring : r.HasRing i ring)
    (hkek : w.registry.getKek ring.kekName false = .ok kek)
    (hchosen : ring.cryptor.algorithm = .ok a) {version : Option UInt32} {prior : Option Dek}
    (hprior : ∀ dek, prior = some dek → dek ∈ w.registry.file (r.path i ring))
    (hversion : (ring.dekId (r.writers i).context.subject version).version = Dek.latestVersion ∨
      prior = none ∧ version = none)
    (hroom : ∀ dek ∈ w'.registry.file (r.path i ring),
      dek.version ≠ UInt32.ofNat (UInt32.size - 1))
    {answer : Except KeyError (Option Kms.Handle × Dek)}
    (hrotation : ring.Rotation kek (ring.dekId (r.writers i).context.subject version) .write prior
      t answer) :
    ∃ handle dek, answer = .ok (handle, dek) ∧ dek ∈ w'.registry.file (r.path i ring) ∧
      ∀ h, handle = some h → h.Serves (r.unwrap (r.url ring.kekName)) := by
  have hhealthy : r.Healthy w := Timeline.start h
  have hurl : kek.url = r.url ring.kekName :=
    hhealthy.url_eq (Store.getKek_eq_ok_iff.mp hkek).1
  have hlater := (Span.later h).registry
  have hnext : ∀ {next : UInt32},
      ring.nextVersion (r.writers i).context.subject prior = .ok next →
      (ring.dekId (r.writers i).context.subject version).version = Dek.latestVersion ∨
        next = (ring.dekId (r.writers i).context.subject version).version := by
    intro next hok
    rcases hversion with hlatest | ⟨rfl, rfl⟩
    · exact .inl hlatest
    · exact .inr (Except.ok.inj hok).symm
  cases hrotation with
  | exhausted e herror =>
    cases prior with
    | none => cases herror
    | some dek =>
      have hlast := hroom dek (hlater.files _ (hprior dek rfl))
      rw [nextVersion, if_neg hlast] at herror
      cases herror
  | unprepared next hok prepared =>
    obtain ⟨handle, wrapped, hsame, -, -⟩ := h.preparation hring hurl hchosen prepared
    cases hsame
  | replaced next hok prepared registered =>
    obtain ⟨v, hleft, hright⟩ := h.split
    obtain ⟨⟨dek, hsame, hfile⟩, hserves⟩ :=
      hleft.replacement hright hring hkek hchosen (hnext hok) prepared registered
    obtain rfl := Except.ok.inj hsame
    exact ⟨_, _, rfl, hfile, hserves⟩
  | failed next hok prepared registered =>
    obtain ⟨v, hleft, hright⟩ := h.split
    obtain ⟨⟨dek, hsame, -⟩, -⟩ :=
      hleft.replacement hright hring hkek hchosen (hnext hok) prepared registered
    cases hsame
  | kept prior next hok prepared registered =>
    obtain ⟨v', hfirst, -⟩ := h.split
    obtain ⟨v, hleft, -⟩ := hfirst.split
    obtain ⟨_, _, hsame, hserves, -⟩ := hleft.preparation hring hurl hchosen prepared
    cases hsame
    exact ⟨_, prior, rfl, hlater.files _ (hprior prior rfl), hserves⟩

/-! ## Data keys -/

/-- A data key is recovered from its record.  Only a record that was there from
the start may hold no key, or one of another length. -/
theorem Span.unlocking (h : r.Span w t w') (hring : r.HasRing i ring)
    (hurl : kek.url = r.url ring.kekName) (hchosen : ring.cryptor.algorithm = .ok a)
    (hdek : dek ∈ w.registry.file (r.path i ring)) {handle : Option Kms.Handle}
    (hserves : ∀ h, handle = some h → h.Serves (r.unwrap (r.url ring.kekName)))
    {answer : Except KeyError Dek} (hunlocking : ring.Unlocking kek dek handle t answer) :
    (∃ (dek : Dek) (raw : Bytes), answer = .ok { dek with rawKey := some ⟨raw⟩ } ∧
      (raw.length ≠ a.keyLength →
        r.Excuse i (.cipher (.invalidKeyLength a.keyLength raw.length)))) ∨
      ∃ cause, answer = .error cause ∧ r.Excuse i (.key cause) := by
  have hhealthy : r.Healthy w := Timeline.start h
  have hunknown : dek.rawKey = none := hhealthy.filed.unknown _ dek hdek
  have hhanded : dek.keyMaterial = none → ∀ answer, handed ring.config kek.url answer ∈ t →
      ∃ h, answer = .ok h ∧ Unwraps h (r.unwrap (r.url ring.kekName)) := by
    intro _ answer hmem
    rw [hurl] at hmem
    obtain ⟨handle', hsame, hserves'⟩ := h.serves hring hmem
    exact ⟨handle', hsame, hserves'.unwraps⟩
  have hanswer := hunlocking.eq_recovered hunknown
    (fun _ handle' hsome => (hserves handle' hsome).unwraps) hhanded
  rcases hhealthy.records _ dek hdek with hstart | ⟨a', raw, hchosen', hopens, hlength⟩
  · cases hopens : recovered (r.unwrap (r.url ring.kekName)) dek with
    | error cause =>
      rw [hopens] at hanswer
      exact .inr ⟨cause, hanswer, .unrecovered hring hstart hopens⟩
    | ok raw =>
      rw [hopens] at hanswer
      exact .inl ⟨dek, raw, hanswer, .misfit hring hchosen hstart hopens⟩
  · obtain rfl := Except.ok.inj (hchosen.symm.trans hchosen')
    rw [show recovered (r.unwrap (r.url ring.kekName)) dek = .ok raw from hopens] at hanswer
    exact .inl ⟨dek, raw, hanswer, fun hother => absurd hlength hother⟩

/-- A writer that registers a version asks for the latest one, unless it
registers the first. -/
theorem version_of_outdated {subject : String} {now : Int64} {first : Except RegistryError Dek}
    {prior : Option Dek} (due : ring.Outdated .write now first prior) :
    (ring.dekId subject (Transform.writtenVersion ring)).version = Dek.latestVersion ∨
      prior = none ∧ Transform.writtenVersion ring = none := by
  unfold Transform.writtenVersion
  cases hrotates : ring.rotates with
  | true => exact .inl rfl
  | false => exact .inr ⟨due.eq_none hrotates, rfl⟩

/-- An expired record is in its file. -/
theorem Span.expired_mem {id : DekId} {now : Int64} {first : Except RegistryError Dek}
    {prior : Option Dek} (h : r.Span w [called (.getDek id false) first, clocked now] w')
    (due : ring.Outdated .write now first prior) :
    ∀ dek, prior = some dek → dek ∈ w'.registry.file (Store.pathOf id) := by
  intro dek hsome
  cases due with
  | expired dek' hexpired =>
    obtain rfl := Option.some.inj hsome
    exact (h.course.backs.getDek_stored List.mem_cons_self).1
  | absent e absent writes => cases hsome

/-- Versions that are not exhausted were not exhausted before. -/
theorem Span.room (h : r.Span w t w') {path : DekPath}
    (hroom : ∀ dek ∈ w'.registry.file path, dek.version ≠ UInt32.ofNat (UInt32.size - 1)) :
    ∀ dek ∈ w.registry.file path, dek.version ≠ UInt32.ofNat (UInt32.size - 1) := by
  intro dek hdek
  exact hroom dek (h.later.registry.files _ hdek)

/-- A writer that does not stop comes up with a data key. -/
theorem Span.dekSearch (h : r.Span w t w') (hring : r.HasRing i ring)
    (hkek : w.registry.getKek ring.kekName false = .ok kek)
    (hchosen : ring.cryptor.algorithm = .ok a)
    (hroom : ∀ dek ∈ w'.registry.file (r.path i ring),
      dek.version ≠ UInt32.ofNat (UInt32.size - 1))
    {answer : Except KeyError Dek} (hgoes : Spares KeyError.overflow answer)
    (hsearch : ring.DekSearch kek (r.writers i).context.subject (Transform.writtenVersion ring)
      .write t answer) :
    (∃ (dek : Dek) (raw : Bytes), answer = .ok { dek with rawKey := some ⟨raw⟩ } ∧
      (raw.length ≠ a.keyLength →
        r.Excuse i (.cipher (.invalidKeyLength a.keyLength raw.length)))) ∨
      ∃ cause, answer = .error cause ∧ r.Excuse i (.key cause) := by
  have hhealthy : r.Healthy w := Timeline.start h
  have hurl : kek.url = r.url ring.kekName :=
    hhealthy.url_eq (Store.getKek_eq_ok_iff.mp hkek).1
  cases hsearch with
  | failed e fatal =>
    obtain ⟨v, -, -, hanswer, -, -⟩ := h.tail
    have hmissing := Store.getDek_eq_error (Eq.symm hanswer)
    rw [hmissing, Store.isNotFound_dekNotFound] at fatal
    cases fatal
  | unread e absent reads now => cases reads
  | overflowed dek now cause stops => exact absurd rfl (hgoes cause)
  | current dek now fresh unlocked =>
    obtain ⟨v, hfirst, hrest⟩ := Span.split
      (t := [called (.getDek (ring.dekId (r.writers i).context.subject
        (Transform.writtenVersion ring)) false) (.ok dek), clocked now]) h
    have hdek := (hfirst.course.backs.getDek_stored List.mem_cons_self).1
    have hnone : ∀ h, (none : Option Kms.Handle) = some h →
        h.Serves (r.unwrap (r.url ring.kekName)) := nofun
    exact hrest.unlocking hring hurl hchosen hdek hnone unlocked
  | unrotated first now due rotated =>
    obtain ⟨v, hfirst, hrest⟩ := Span.split
      (t := [called (.getDek (ring.dekId (r.writers i).context.subject
        (Transform.writtenVersion ring)) false) first, clocked now]) h
    have hkept := hfirst.later.registry.getKek hkek
    obtain ⟨_, _, hsame, -, -⟩ := hrest.rotation hring hkept hchosen (hfirst.expired_mem due)
      (version_of_outdated due) hroom rotated
    cases hsame
  | rotated first now due rotated unlocked =>
    obtain ⟨v, hfirst, hrest⟩ := Span.split
      (t := [called (.getDek (ring.dekId (r.writers i).context.subject
        (Transform.writtenVersion ring)) false) first, clocked now]) h
    obtain ⟨v', hrotation, hlast⟩ := hrest.split
    have hkept := hfirst.later.registry.getKek hkek
    obtain ⟨handle, dek, hsame, hfile, hserves⟩ := hrotation.rotation hring hkept hchosen
      (hfirst.expired_mem due) (version_of_outdated due) (hlast.room hroom) rotated
    cases hsame
    exact hlast.unlocking hring hurl hchosen hfile hserves unlocked

/-! ## Values -/

/-- An encryption that does not stop fails only with an excuse. -/
theorem Span.encryption (h : r.Span w t w') (hring : r.HasRing i ring)
    (hkek : w.registry.getKek ring.kekName false = .ok kek)
    (hchosen : ring.cryptor.algorithm = .ok a)
    (hroom : ∀ dek ∈ w'.registry.file (r.path i ring),
      dek.version ≠ UInt32.ofNat (UInt32.size - 1))
    {value : FieldValue} (hvalue : (r.writers i).value = some value) {plain : Bytes}
    (hplain : Transform.bytesOf (r.writers i).type value = some plain) {error : Error}
    (hgoes : ∀ cause, error ≠ Transform.overflow cause)
    (hencryption : Transform.Encryption ⟨ring, kek⟩ (r.writers i).context.subject
      (r.writers i).type plain t (.error error)) : r.Excuse i error := by
  cases hencryption with
  | unkeyed search =>
    rename_i failure
    have hspares : Spares KeyError.overflow (.error failure : Except KeyError Dek) := by
      rintro cause ⟨⟩
      exact hgoes cause rfl
    rcases h.dekSearch hring hkek hchosen hroom hspares search with
      ⟨dek, raw, hsame, -⟩ | ⟨cause, hsame, hexcuse⟩
    · cases hsame
    · obtain rfl := Except.error.inj hsame
      exact hexcuse
  | unsealed search hkey sealing =>
    obtain ⟨v, hsearch, hsealing⟩ := h.split
    rcases hsearch.dekSearch hring hkek hchosen (hsealing.room hroom) (spares_ok _) search with
      ⟨dek, raw, hsame, hfits⟩ | ⟨cause, hsame, -⟩
    · obtain rfl := Except.ok.inj hsame
      obtain rfl := Option.some.inj hkey
      rcases Cryptor.encrypt_error hchosen sealing with ⟨rfl, hlength⟩ | ⟨rfl, hrandom, hlong⟩
      · exact hfits hlength
      · exact .long hring hchosen hrandom hvalue hplain (hlong.resolve_right (by simp))
    · cases hsame

/-- A writer that goes through healthy worlds and does not stop fails only with an
excuse. -/
theorem Span.excused (h : r.Span r.start t w) (hfair : r.Fair)
    (hroom : ∀ path, ∀ dek ∈ w.registry.file path, dek.version ≠ UInt32.ofNat (UInt32.size - 1))
    {error : Error} (hgoes : ∀ cause, error ≠ Transform.overflow cause)
    (hcourse : (r.writers i).executor.Transformation (r.writers i).context (r.writers i).type
      (r.writers i).value t (.error error)) :
    r.Excuse i error := by
  have hwrites := hfair.writes i
  cases hcourse with
  | rejected _ hrejected => exact .declined hrejected
  | @unresolved ring htaken _ found cause search hrefused =>
    have hring : r.HasRing i ring := (Executor.admitted_eq_ok_iff.mp htaken).2
    rw [hwrites] at search
    rcases h.kekSearch hring search with ⟨kek, rfl, hkek⟩ | ⟨cause', rfl, hexcuse⟩
    · have hhealthy : r.Healthy w := Timeline.finish h
      obtain ⟨htype, hid, -⟩ := hhealthy.keks _ _ (Store.getKek_eq_ok_iff.mp hkek).1
      obtain ⟨hagreesType, hagreesId⟩ := hfair.named i ring hring
      rw [← htype] at hagreesType
      rw [← hid] at hagreesId
      have hbound : ring.bound (r.namedType i) (r.namedKey i) kek = .ok kek :=
        bound_eq_ok_iff.mpr ⟨rfl, hagreesType, hagreesId⟩
      have hsame : .ok kek = Except.error cause := hbound.symm.trans hrefused
      cases hsame
    · obtain rfl := Except.error.inj hrefused
      exact hexcuse
  | @resolved ring htaken t₁ t₂ kek search hbound _ application =>
    have hring : r.HasRing i ring := (Executor.admitted_eq_ok_iff.mp htaken).2
    obtain ⟨a, hchosen⟩ := hfair.supported i ring hring
    obtain ⟨v, hfirst, hrest⟩ := h.split
    rw [hwrites] at search
    have hkek : v.registry.getKek ring.kekName false = .ok kek := by
      rcases hfirst.kekSearch hring search with ⟨kek', hsame, hkek⟩ | ⟨cause, hsame, -⟩
      · obtain rfl := Except.ok.inj hsame
        exact hkek
      · cases hsame
    generalize hvalue : (r.writers i).value = value at application
    generalize hresult : Except.error error = result at application
    cases application with
    | absent => cases hresult
    | unsupported value writes hnone =>
      obtain rfl := Except.error.inj hresult
      exact .unsupported hvalue hnone
    | encrypted value writes plain hplain encryption =>
      rename_i sealed
      cases sealed with
      | ok out => cases hresult
      | error cause =>
        obtain rfl := Except.error.inj hresult
        exact hrest.encryption hring hkek hchosen (hroom _) hvalue hplain hgoes encryption
    | untouched value reads hnone => cases hresult
    | decrypted value reads bytes hbytes decryption =>
      rw [hwrites] at reads
      cases reads
    | refused value hwrite hread => exact absurd hwrites hwrite

end Race
end Envelope
