import Envelope.Proofs.Sealing
import Envelope.Proofs.Twins

/-!
# Writers show nothing of what they write

Two writers that transform two values in twin worlds do the same step by step,
whatever the values are and whatever is drawn.  Up to the registration of a new
data key their worlds stay twins; the keys that are then generated differ, but
are of the length of their algorithm, and can be used on both sides or on
neither.  So an observer sees the same calls, the same log and the same failure,
and of a value that was encrypted no more than the length
(`Executor.writes_discreet`).
-/

namespace Envelope

open Program Engine

namespace World

variable {σ ε α : Type} {x x' : ExceptT ε Engine α}

/-- Two programs, started in related worlds, fail alike or come to related
values, and in either case leave worlds that look alike. -/
abbrev EndAlike (P : World (Scripted Store) σ → World (Scripted Store) σ → Prop)
    (x x' : ExceptT ε Engine α)
    (Q : α → α → World (Scripted Store) σ → World (Scripted Store) σ → Prop) : Prop :=
  Matched (fun r : Effect => World.answer r) P x x' Alike Q

theorem endAlike_of_quiet (hquiet : ∀ t r, ComesTo x t r → ∀ y ∈ t, Quiet y.1) :
    EndAlike (@Twins σ) x x (Same Twins) :=
  matched_of_quiet (fun _ hr _ _ hw => hw.answer hr) (fun _ _ hw => hw.toAlike) hquiet

theorem endAlike_of_public (hpublic : ∀ t r, ComesTo x t r → ∀ y ∈ t, Public y.1) :
    EndAlike (@World.Alike σ) x x (Same Alike) :=
  matched_of_quiet (fun _ hr _ _ hw => hw.answer hr) (fun _ _ hw => hw) hpublic

theorem endAlike_now :
    EndAlike (@Twins σ) (liftM Engine.now : ExceptT ε Engine Int64) (liftM Engine.now)
      (Same Twins) :=
  matched_lift fun _ _ hw => ⟨hw.now_eq, hw⟩

/-- What follows an event that is logged. -/
theorem endAlike_log {P : World (Scripted Store) σ → World (Scripted Store) σ → Prop}
    {event : Event} {next next' : Unit → ExceptT ε Engine α}
    {Q : α → α → World (Scripted Store) σ → World (Scripted Store) σ → Prop}
    (hP : ∀ {w w'}, P w w' → P ((record event).run w).2 ((record event).run w').2)
    (h : EndAlike P (next ()) (next' ()) Q) :
    EndAlike P (liftM (Engine.log event) >>= next) (liftM (Engine.log event) >>= next') Q :=
  Matched.bind_same (matched_lift fun _ _ hw => ⟨rfl, hP hw⟩) fun _ => h

/-- Programs that only draw come to what their traces say. -/
theorem endAlike_of_draws {P : World (Scripted Store) σ → World (Scripted Store) σ → Prop}
    (hP : ∀ {w w'} source source', P w w' →
      P { w with random := source } { w' with random := source' })
    (halike : ∀ {w w'}, P w w' → Alike w w') {R : α → α → Prop}
    (hx : ∀ {t r}, ComesTo x t r → ∀ y ∈ t, ∃ n, y.1 = .random n)
    (hx' : ∀ {t r}, ComesTo x' t r → ∀ y ∈ t, ∃ n, y.1 = .random n)
    (hR : ∀ {t t' r r'}, ComesTo x t r → ComesTo x' t' r' →
      (∃ e, r = .error e ∧ r' = .error e) ∨ ∃ a a', r = .ok a ∧ r' = .ok a' ∧ R a a') :
    EndAlike P x x' fun a a' w w' => R a a' ∧ P w w' := by
  intro w w' hw
  obtain ⟨t, hruns, hserial⟩ := exists_serial (fun r : Effect => World.answer r) x.run w
  obtain ⟨t', hruns', hserial'⟩ := exists_serial (fun r : Effect => World.answer r) x'.run w'
  obtain ⟨source, hworld⟩ := eq_of_draws hserial (hx hruns)
  obtain ⟨source', hworld'⟩ := eq_of_draws hserial' (hx' hruns')
  have hleft := hP source source' hw
  rw [hworld, hworld']
  rcases hR hruns hruns' with ⟨e, hfailed, hfailed'⟩ | ⟨a, a', hok, hok', ha⟩
  · rw [hfailed, hfailed']
    exact .failed e (halike hleft)
  · rw [hok, hok']
    exact .done ⟨ha, hleft⟩

end World

namespace KeyRing

open World

variable {σ : Type} {ring : KeyRing} {kek : Kek} {id : DekId} {mode : Mode}

/-! ## Records in common -/

theorem KekSearch.quiet {kmsType kmsKeyId : Option String} {t : Trace} {r : Except KeyError Kek}
    (h : ring.KekSearch mode kmsType kmsKeyId t r) : ∀ y ∈ t, Quiet y.1 := by
  cases h with
  | created e absent writes type id htype hid rest => cases rest <;> simp [Quiet]
  | _ => simp [Quiet]

theorem endAlike_findDek :
    EndAlike (@Twins σ) (findDek id mode) (findDek id mode) (Same Twins) := by
  apply endAlike_of_quiet
  intro t r h
  obtain ⟨answer, rfl, -⟩ := findDek_comesTo h
  simp [Quiet]

/-- What the registration of a version gave: nothing, in worlds that are still
twins, or a record. -/
inductive Stored (kekName : String) (request request' : DekRequest) :
    Option Dek → Option Dek → World (Scripted Store) σ → World (Scripted Store) σ → Prop where
  | lost {w w' : World (Scripted Store) σ} (h : Twins w w') :
      Stored kekName request request' none none w w'
  | given {d d' : Dek} {w w' : World (Scripted Store) σ}
      (hd : Counterparts kekName request request' d d') (h : World.Alike w w') :
      Stored kekName request request' (some d) (some d') w w'

theorem Counterparts.shown {kekName : String} {request request' : DekRequest} {d d' : Dek}
    (h : Counterparts kekName request request' d d')
    (hmasked : request'.masked = request.masked) :
    d'.subject = d.subject ∧ d'.version = d.version ∧ d'.algorithm = d.algorithm := by
  rcases h with rfl | ⟨⟨_, _, _, _, -, rfl⟩, ⟨_, _, _, _, -, rfl⟩⟩
  · exact ⟨rfl, rfl, rfl⟩
  · exact DekRequest.shown_of_masked hmasked

theorem endAlike_storeDek {request request' : DekRequest}
    (hmasked : request'.masked = request.masked) :
    EndAlike (@Twins σ) (ring.storeDek request) (ring.storeDek request')
      (Stored ring.kekName request request') := by
  obtain ⟨hsubject, hversion, -⟩ := DekRequest.shown_of_masked hmasked
  unfold storeDek
  rw [hsubject, hversion]
  refine Matched.bind (matched_lift fun w w' hw => hw.registerDek hmasked) fun a a' w w' ha => ?_
  cases ha with
  | failed e htwins =>
    by_cases lost : e.isConflict = true
    · dsimp only
      rw [if_pos lost]
      refine endAlike_log (fun hu => hu.record _) ?_ w w' htwins
      exact matched_pure fun u u' hu => Stored.lost hu
    · dsimp only
      rw [if_neg lost]
      exact .failed _ htwins.toAlike
  | @done d d' _ _ hd =>
    obtain ⟨hcounterparts, halike⟩ := hd
    obtain ⟨hsubject', hversion', halgorithm'⟩ := hcounterparts.shown hmasked
    dsimp only
    rw [hsubject', hversion', halgorithm']
    refine endAlike_log (fun hu => hu.record _) ?_ w w' halike
    exact matched_pure fun u u' hu => Stored.given hcounterparts hu

theorem masked_dekRequest {version : UInt32} {wrapped wrapped' : Option Bytes}
    (hlength : wrapped'.map List.length = wrapped.map List.length) :
    (dekRequest id version wrapped').masked = (dekRequest id version wrapped).masked := by
  unfold DekRequest.masked dekRequest
  cases wrapped with
  | none =>
    rw [Option.map_none, Option.map_eq_none_iff] at hlength
    rw [hlength]
  | some text =>
    obtain ⟨text', rfl, hlength'⟩ := Option.map_eq_some_iff.mp hlength
    simp only [Option.map_some, Registry.mask_encode hlength']

theorem endAlike_createDek {version : UInt32} {wrapped wrapped' : Option Bytes}
    (hlength : wrapped'.map List.length = wrapped.map List.length) :
    EndAlike (@Twins σ) (ring.createDek id mode version wrapped)
      (ring.createDek id mode version wrapped')
      fun d d' w w' => Counterparts ring.kekName (dekRequest id version wrapped)
        (dekRequest id version wrapped') d d' ∧ World.Alike w w' := by
  unfold createDek
  refine Matched.bind (endAlike_storeDek (masked_dekRequest hlength))
    fun found found' w w' hfound => ?_
  cases hfound with
  | given hd halike => exact .done ⟨hd, halike⟩
  | lost htwins =>
    refine (endAlike_findDek.bind_same fun found => ?_) w w' htwins
    cases found with
    | some dek => exact matched_pure fun u u' hu => ⟨.inl rfl, hu.toAlike⟩
    | none => exact matched_throw fun u u' hu => hu.toAlike

/-! ## New keys -/

/-- What two writers have prepared for a registration: nothing, or two keys of
the length of the algorithm, wrapped in as many bytes with the same handle, which
unwraps both. -/
inductive Prepared (ring : KeyRing) :
    Option Kms.Handle × Option Bytes → Option Kms.Handle × Option Bytes → Prop where
  | shared : Prepared ring (none, none) (none, none)
  | wrapped (handle : Kms.Handle) {a : Algorithm} (halgorithm : ring.cryptor.algorithm = .ok a)
      {key key' text text' : Bytes} (hkey : key.length = a.keyLength)
      (hkey' : key'.length = a.keyLength) (hraw : handle.unwrap text [] = .ok key)
      (hraw' : handle.unwrap text' [] = .ok key') (hlength : text'.length = text.length) :
      Prepared ring (some handle, some text) (some handle, some text')

theorem Prepared.symm {x x' : Option Kms.Handle × Option Bytes} (h : ring.Prepared x x') :
    ring.Prepared x' x := by
  cases h with
  | shared => exact .shared
  | wrapped handle halgorithm hkey hkey' hraw hraw' hlength =>
    exact .wrapped handle halgorithm hkey' hkey hraw' hraw hlength.symm

theorem Prepared.handle_eq {x x' : Option Kms.Handle × Option Bytes} (h : ring.Prepared x x') :
    x'.1 = x.1 := by
  cases h <;> rfl

theorem Prepared.length_eq {x x' : Option Kms.Handle × Option Bytes} (h : ring.Prepared x x') :
    x'.2.map List.length = x.2.map List.length := by
  cases h with
  | shared => rfl
  | wrapped handle halgorithm hkey hkey' hraw hraw' hlength => exact congrArg some hlength

theorem random_of_mem_drawnTrace {u : List (Program.Exchange Draw.signature)} {y : Engine.Exchange}
    (h : y ∈ drawnTrace u) : ∃ n, y.1 = .random n := by
  obtain ⟨z, -, rfl⟩ := List.mem_map.mp h
  exact ⟨z.1, rfl⟩

theorem Wrapping.draws {handle : Kms.Handle} {t : Trace} {r : Except KeyError Bytes}
    (h : ring.Wrapping handle t r) : ∀ y ∈ t, ∃ n, y.1 = .random n := by
  cases h with
  | unsupported e h => nofun
  | wrapped a h key wrap =>
    intro y hy
    rcases List.mem_cons.mp hy with rfl | hy
    · exact ⟨_, rfl⟩
    · exact random_of_mem_drawnTrace hy

/-- Two keys are generated and wrapped with a discreet handle, or for the same
reason neither is. -/
theorem Wrapping.twins {handle : Kms.Handle} (hdiscreet : handle.Discreet) {t t' : Trace}
    {r r' : Except KeyError Bytes} (h : ring.Wrapping handle t r)
    (h' : ring.Wrapping handle t' r') :
    (∃ e, r = .error e ∧ r' = .error e) ∨ ∃ text text', r = .ok text ∧ r' = .ok text' ∧
      ring.Prepared (some handle, some text) (some handle, some text') := by
  cases h with
  | unsupported e hnone =>
    cases h' with
    | unsupported e' hnone' =>
      obtain rfl := Except.error.inj (hnone.symm.trans hnone')
      exact .inl ⟨_, rfl, rfl⟩
    | wrapped a' halgorithm' key' wrap' =>
      rw [hnone] at halgorithm'
      cases halgorithm'
  | @wrapped a halgorithm key u r wrap =>
    cases h' with
    | unsupported e' hnone' =>
      rw [halgorithm] at hnone'
      cases hnone'
    | @wrapped a' halgorithm' key' u' r' wrap' =>
      obtain rfl := Except.ok.inj (halgorithm.symm.trans halgorithm')
      have heven := hdiscreet.even (key'.property.trans key.property.symm) wrap wrap'
      cases r with
      | error e =>
        cases r' with
        | error e' =>
          obtain rfl := Except.error.inj heven
          exact .inl ⟨_, rfl, rfl⟩
        | ok text' => cases heven
      | ok text =>
        cases r' with
        | error e' => cases heven
        | ok text' =>
          have hraw := hdiscreet.inverts _ _ _ _ wrap
          have hraw' := hdiscreet.inverts _ _ _ _ wrap'
          exact .inr ⟨text, text', rfl, rfl, .wrapped handle halgorithm key.property key'.property
            hraw hraw' (Except.ok.inj heven)⟩

theorem endAlike_wrapFreshKey {handle : Kms.Handle} (hdiscreet : handle.Discreet) :
    EndAlike (@Twins σ) (ring.wrapFreshKey handle) (ring.wrapFreshKey handle)
      fun text text' w w' =>
        ring.Prepared (some handle, some text) (some handle, some text') ∧ Twins w w' :=
  endAlike_of_draws (fun source source' hw => hw.draws source source') (fun hw => hw.toAlike)
    (fun h => (wrapFreshKey_comesTo h).draws) (fun h => (wrapFreshKey_comesTo h).draws)
    fun h h' => (wrapFreshKey_comesTo h).twins hdiscreet (wrapFreshKey_comesTo h')

theorem endAlike_keyHandle :
    EndAlike (@Twins σ) (ring.keyHandle kek) (ring.keyHandle kek)
      fun handle handle' w w' => handle.Discreet ∧ Same Twins handle handle' w w' := by
  refine Matched.adapt (fun w w' hw => ?_) KeyError.kms
  obtain ⟨hsame, htwins⟩ := hw.answer (r := .keyHandle ring.config kek.url) trivial
  show Outcomes _ _ ((World.answer (.keyHandle ring.config kek.url)).run w).1
    ((World.answer (.keyHandle ring.config kek.url)).run w').1
    ((World.answer (.keyHandle ring.config kek.url)).run w).2
    ((World.answer (.keyHandle ring.config kek.url)).run w').2
  rw [hsame]
  cases houtcome : ((World.answer (.keyHandle ring.config kek.url)).run w).1 with
  | error e => exact .failed e htwins.toAlike
  | ok handle => exact .done ⟨hw.discreet.of_handle houtcome, rfl, htwins⟩

/-- What is done with prepared keys follows their preparation. -/
theorem endAlike_preparation {α : Type} {next next' : Option Kms.Handle × Option Bytes → Action α}
    {Q : α → α → World (Scripted Store) σ → World (Scripted Store) σ → Prop}
    (hnext : ∀ x x', ring.Prepared x x' → EndAlike Twins (next x) (next' x') Q) :
    EndAlike Twins
      (if kek.shared then pure (none, none) >>= next
      else do
        let handle ← ring.keyHandle kek
        let wrapped ← ring.wrapFreshKey handle
        pure (some handle, some wrapped) >>= next)
      (if kek.shared then pure (none, none) >>= next'
      else do
        let handle ← ring.keyHandle kek
        let wrapped ← ring.wrapFreshKey handle
        pure (some handle, some wrapped) >>= next') Q := by
  by_cases shared : kek.shared = true
  · rw [if_pos shared, if_pos shared, pure_bind, pure_bind]
    exact hnext _ _ .shared
  · rw [if_neg shared, if_neg shared]
    refine endAlike_keyHandle.bind fun handle handle' w w' hw => ?_
    obtain ⟨hdiscreet, rfl, htwins⟩ := hw
    refine Matched.bind (endAlike_wrapFreshKey hdiscreet) (fun text text' u u' hu => ?_) w w' htwins
    obtain ⟨hprepared, htwins'⟩ := hu
    rw [pure_bind, pure_bind]
    exact hnext _ _ hprepared u u' htwins'

/-! ## Recovering a key -/

theorem unlock_of_clear {handle : Option Kms.Handle} {dek : Dek} {key : Bytes}
    (hunknown : dek.rawKey = none) (hclear : dek.keyMaterial = some (Base64.encode key)) :
    ring.unlock kek handle dek = pure { dek with rawKey := some ⟨key⟩ } := by
  have hresolve : dek.resolveRawKey = .ok { dek with rawKey := some ⟨key⟩ } := by
    rw [Dek.resolveRawKey, hunknown, hclear]
    dsimp only
    rw [Dek.decodeMaterial_encode]
    rfl
  unfold unlock
  rw [hresolve]
  rfl

theorem unlock_of_wrapped {handle : Kms.Handle} {dek : Dek} {text key : Bytes}
    (hunknown : dek.rawKey = none) (hclear : dek.keyMaterial = none)
    (hwrapped : dek.encryptedKeyMaterial = some (Base64.encode text))
    (hraw : handle.unwrap text [] = .ok key) :
    ring.unlock kek (some handle) dek = pure { dek with rawKey := some ⟨key⟩ } := by
  have hresolve : dek.resolveRawKey = .ok dek := by
    rw [Dek.resolveRawKey, hunknown, hclear]
  have htext : dek.wrappedKey = .ok (some text) := by
    rw [Dek.wrappedKey, hwrapped]
    dsimp only
    rw [Dek.decodeMaterial_encode]
    rfl
  unfold unlock
  rw [hresolve]
  show (if dek.rawKey.isSome then _ else _) = _
  rw [hunknown, htext, Option.isSome_none, if_neg Bool.false_ne_true]
  show ((liftM ((handle.unwrap text []).mapError KeyError.kms) : Action Bytes) >>= _) = _
  rw [hraw]
  rfl

/-- The raw key of a record is recovered without asking for anything, and has the
length of the algorithm. -/
def Recoverable (ring : KeyRing) (kek : Kek) (handle : Option Kms.Handle) (dek : Dek) : Prop :=
  ∃ a key, ring.cryptor.algorithm = .ok a ∧ key.length = a.keyLength ∧
    ring.unlock kek handle dek = pure { dek with rawKey := some ⟨key⟩ }

/-- A record that was made for a prepared key gives it back. -/
theorem Prepared.recoverable {subject kekName : String} {version : Option UInt32}
    {next : UInt32} {handle : Option Kms.Handle} {wrapped : Option Bytes}
    {x : Option Kms.Handle × Option Bytes} {known : Kek} {dek : Dek}
    (h : ring.Prepared (handle, wrapped) x)
    (hrecord : Recorded known kekName (dekRequest (ring.dekId subject version) next wrapped) dek) :
    ring.Recoverable kek handle dek := by
  obtain ⟨text, clear, now, hmaterial, rfl⟩ := hrecord
  cases h with
  | shared =>
    cases hmaterial with
    | given text htext => cases htext
    | made hnone hshared a halgorithm key hlength =>
      exact ⟨a, key, halgorithm, hlength, unlock_of_clear rfl rfl⟩
  | wrapped handle halgorithm hkey hkey' hraw hraw' hlength =>
    cases hmaterial with
    | given text htext =>
      obtain rfl := Option.some.inj htext
      exact ⟨_, _, halgorithm, hkey, unlock_of_wrapped rfl rfl rfl hraw⟩
    | made hnone => cases hnone

/-- Two records that writers go on with: the same, or two of one version whose
raw keys are recovered. -/
def Successors (ring : KeyRing) (kek : Kek) (handle : Option Kms.Handle) (d d' : Dek) : Prop :=
  d' = d ∨ (d'.version = d.version ∧ ring.Recoverable kek handle d ∧ ring.Recoverable kek handle d')

/-- Two records with raw keys: the same, or two of one version with keys of one
length. -/
def Keyed (d d' : Dek) : Prop :=
  d' = d ∨ (d'.version = d.version ∧ ∃ key key', d.rawKey = some key ∧ d'.rawKey = some key' ∧
    key'.bytes.length = key.bytes.length)

theorem Prepared.successors {subject : String} {version : Option UInt32} {next : UInt32}
    {handle handle' : Option Kms.Handle} {wrapped wrapped' : Option Bytes} {d d' : Dek}
    (h : ring.Prepared (handle, wrapped) (handle', wrapped'))
    (hd : Counterparts ring.kekName (dekRequest (ring.dekId subject version) next wrapped)
      (dekRequest (ring.dekId subject version) next wrapped') d d') :
    ring.Successors kek handle d d' := by
  have hversion := (hd.shown (masked_dekRequest h.length_eq)).2.1
  rcases hd with hsame | ⟨⟨known, hrecord⟩, ⟨known', hrecord'⟩⟩
  · exact .inl hsame
  · have hrecoverable' : ring.Recoverable kek handle' d' := h.symm.recoverable hrecord'
    rw [show handle' = handle from h.handle_eq] at hrecoverable'
    exact .inr ⟨hversion, h.recoverable hrecord, hrecoverable'⟩

theorem Unlocking.public {handle : Option Kms.Handle} {dek : Dek} {t : Trace}
    {r : Except KeyError Dek} (h : ring.Unlocking kek dek handle t r) :
    ∀ y ∈ t, World.Public y.1 := by
  cases h <;> simp [World.Public]

theorem Successors.endAlike_unlock {handle : Option Kms.Handle} {d d' : Dek}
    (h : ring.Successors kek handle d d') :
    EndAlike (@World.Alike σ) (ring.unlock kek handle d) (ring.unlock kek handle d')
      fun k k' w w' => Keyed k k' ∧ World.Alike w w' := by
  rcases h with rfl |
    ⟨hversion, ⟨a, key, ha, hlength, hunlock⟩, ⟨a', key', ha', hlength', hunlock'⟩⟩
  · exact (endAlike_of_public fun t r h => (unlock_comesTo h).public).mono (fun _ _ => id)
      fun k k' w w' hk => ⟨.inl hk.1, hk.2⟩
  · rw [hunlock, hunlock']
    obtain rfl := Except.ok.inj (ha.symm.trans ha')
    exact matched_pure fun w w' hw =>
      ⟨.inr ⟨hversion, ⟨key⟩, ⟨key'⟩, rfl, rfl, hlength'.trans hlength.symm⟩, hw⟩

/-! ## Data keys -/

theorem endAlike_rotate {subject : String} {version : Option UInt32} {prior : Option Dek} :
    EndAlike (@Twins σ) (ring.rotate kek (ring.dekId subject version) mode prior)
      (ring.rotate kek (ring.dekId subject version) mode prior)
      fun x x' w w' => x'.1 = x.1 ∧ ring.Successors kek x.1 x.2 x'.2 ∧ World.Alike w w' := by
  unfold rotate
  refine (matched_except fun w w' hw => hw.toAlike).bind_same fun next => ?_
  refine endAlike_preparation fun x x' hprepared => ?_
  have hcreate : EndAlike (@Twins σ)
      (ring.createDek (ring.dekId subject version) mode next x.2)
      (ring.createDek (ring.dekId subject version) mode next x'.2)
      fun d d' w w' => ring.Successors kek x.1 d d' ∧ World.Alike w w' :=
    (endAlike_createDek hprepared.length_eq).mono (fun _ _ => id)
      fun d d' w w' hd => ⟨hprepared.successors hd.1, hd.2⟩
  cases prior with
  | none =>
    exact hcreate.bind fun d d' => matched_pure fun w w' hw => ⟨hprepared.handle_eq, hw⟩
  | some prior =>
    -- A writer that could not register a successor goes on with the old record.
    refine Matched.bind (Matched.tryCatch hcreate fun e => ?_) fun d d' =>
      matched_pure fun w w' hw => ⟨hprepared.handle_eq, hw⟩
    apply endAlike_log fun hu => hu.record _
    exact matched_pure fun u u' hu => ⟨.inl rfl, hu⟩

/-- A new version is registered, or the old one kept, and its raw key
recovered. -/
theorem endAlike_rotate_unlock {subject : String} {version : Option UInt32}
    (prior : Option Dek) :
    EndAlike (@Twins σ)
      (ring.rotate kek (ring.dekId subject version) mode prior >>= fun x =>
        ring.unlock kek x.1 x.2)
      (ring.rotate kek (ring.dekId subject version) mode prior >>= fun x =>
        ring.unlock kek x.1 x.2)
      fun d d' w w' => Keyed d d' ∧ World.Alike w w' := by
  apply endAlike_rotate.bind
  intro x x' w w' hx
  obtain ⟨hhandle, hsuccessors, halike⟩ := hx
  rw [hhandle]
  exact hsuccessors.endAlike_unlock w w' halike

theorem endAlike_dek {subject : String} {version : Option UInt32} :
    EndAlike (@Twins σ) (ring.dek kek subject version mode) (ring.dek kek subject version mode)
      fun d d' w w' => Keyed d d' ∧ World.Alike w w' := by
  unfold dek
  refine endAlike_findDek.bind_same fun found => ?_
  refine endAlike_now.bind_same fun now => ?_
  cases found with
  | none =>
    by_cases reads : mode = .read
    · dsimp only
      rw [if_pos reads]
      exact matched_throw fun w w' hw => hw.toAlike
    · dsimp only
      rw [if_neg reads]
      exact endAlike_rotate_unlock none
  | some dek =>
    dsimp only
    cases ring.isExpired mode now (some dek) with
    | error cause => exact matched_throw fun w w' hw => hw.toAlike
    | ok old =>
      cases old with
      | true => exact endAlike_rotate_unlock (some dek)
      | false =>
        have hsame : ring.Successors kek none dek dek := .inl rfl
        exact hsame.endAlike_unlock.mono (fun _ _ hw => hw.toAlike) fun _ _ _ _ => id

end KeyRing

/-! ## Lengths of ciphertexts -/

namespace Cryptor

variable {c : Cryptor} {a : Algorithm} {key key' nonce aad plain plain' sealed : Bytes}

/-- The algorithm chosen takes a plaintext by its length. -/
def Takes (c : Cryptor) (plain : Bytes) : Prop :=
  ∀ a, c.algorithm = .ok a → a.isDeterministic = false → plain.length ≤ Cipher.maxLength

/-- A value that is short enough is sealed. -/
theorem sealWith_of_short (key : Bytes)
    (hnonce : a.isDeterministic = false → nonce.length = nonceLength)
    (hshort : a.isDeterministic = false → plain.length ≤ Cipher.maxLength) :
    ∃ text, sealWith a key nonce [] plain = .ok text ∧
      text.length = a.sealedLength plain.length := by
  have hadmits : a.Admits plain [] := fun hrandom => ⟨hshort hrandom, Nat.zero_le _⟩
  obtain ⟨text, htext⟩ := exists_sealWith hadmits key nonce
  exact ⟨text, htext, length_of_sealWith hnonce htext⟩

theorem algorithmFor_congr (h : key'.length = key.length) :
    c.algorithmFor key' = c.algorithmFor key := by
  unfold algorithmFor
  rw [h]

/-- Keys of one length are both refused or seal whatever is short enough. -/
theorem encrypt_twins (hkey : key'.length = key.length)
    (hshort : c.Takes plain) (hshort' : c.Takes plain')
    {t t' : List (Program.Exchange Draw.signature)} {r r' : Except CipherError Bytes}
    (h : ComesTo (c.encrypt key plain []) t r) (h' : ComesTo (c.encrypt key' plain' []) t' r') :
    (∃ e, r = .error e ∧ r' = .error e) ∨
      ∃ text text', r = .ok text ∧ r' = .ok text' ∧ ∃ a, c.algorithm = .ok a ∧
        text.length = a.sealedLength plain.length ∧
        text'.length = a.sealedLength plain'.length := by
  rcases encrypt_comesTo h with ⟨e, hrefused, rfl⟩ | ⟨a, nonce, hchosen, hnonce, rfl⟩
  · rcases encrypt_comesTo h' with ⟨e', hrefused', rfl⟩ | ⟨a', nonce', hchosen', -, -⟩
    · rw [algorithmFor_congr hkey, hrefused] at hrefused'
      obtain rfl := Except.error.inj hrefused'
      exact .inl ⟨_, rfl, rfl⟩
    · rw [algorithmFor_congr hkey, hrefused] at hchosen'
      cases hchosen'
  · rcases encrypt_comesTo h' with ⟨e', hrefused', -⟩ | ⟨a', nonce', hchosen', hnonce', rfl⟩
    · rw [algorithmFor_congr hkey, hchosen] at hrefused'
      cases hrefused'
    · rw [algorithmFor_congr hkey, hchosen] at hchosen'
      obtain rfl := Except.ok.inj hchosen'
      have halgorithm := (algorithmFor_eq_ok_iff.mp hchosen).1
      obtain ⟨text, htext, hlength⟩ :=
        sealWith_of_short key hnonce (hshort a halgorithm)
      obtain ⟨text', htext', hlength'⟩ :=
        sealWith_of_short key' hnonce' (hshort' a halgorithm)
      exact .inr ⟨text, text', htext, htext', a, halgorithm, hlength, hlength'⟩

end Cryptor

/-! ## Values -/

namespace Transform

open World KeyRing

variable {σ : Type} {x : Transform} {ring : KeyRing} {subject : String} {type : FieldType}
  {plain plain' : Bytes}

/-- The length of the bytes in which a value leaves, from the length of the bytes
that it carries. -/
def writtenLength (ring : KeyRing) (a : Algorithm) (type : FieldType) (n : Nat) : Nat :=
  let length := if ring.rotates then Frame.headerLength + a.sealedLength n else a.sealedLength n
  if type = .string then 4 * ((length + 2) / 3) else length

theorem length_carrying {a : Algorithm} {n : Nat} {version : UInt32} {text : Bytes}
    (htype : type = .string ∨ type = .bytes) (hlength : text.length = a.sealedLength n) :
    (bytesOf type (carrying type (carried ring version text))).map List.length =
      some (writtenLength ring a type n) := by
  have hcarried : (carried ring version text).length =
      if ring.rotates then Frame.headerLength + a.sealedLength n else a.sealedLength n := by
    unfold carried
    split
    · rw [Frame.encode, List.length_append, List.length_cons, Bytes.length_ofNat, hlength]
      rfl
    · exact hlength
  rcases htype with rfl | rfl
  · show some (Utf8.encode (Base64.encode (carried ring version text))).length = _
    rw [Base64.encode_encode, Base64.length_encodeBytes, hcarried]
    rfl
  · show some (carried ring version text).length = _
    rw [hcarried]
    rfl

/-- Two values as they leave, of lengths that follow from those of the bytes that
they carry. -/
def Written (ring : KeyRing) (type : FieldType) (n n' : Nat) (out out' : FieldValue) : Prop :=
  ∃ a, ring.cryptor.algorithm = .ok a ∧
    (bytesOf type out).map List.length = some (writtenLength ring a type n) ∧
    (bytesOf type out').map List.length = some (writtenLength ring a type n')

theorem endAlike_seal {key key' : KeyMaterial} {version : UInt32}
    (hkey : key'.bytes.length = key.bytes.length) (htype : type = .string ∨ type = .bytes)
    (hshort : x.ring.cryptor.Takes plain) (hshort' : x.ring.cryptor.Takes plain') :
    EndAlike (@World.Alike σ)
      (do
        let text ← (ExceptT.mk (Engine.draw
          (x.ring.cryptor.encrypt key.bytes plain []).run)).adapt Error.cipher
        Engine.log (.fieldEncrypted x.kek.name subject version)
        return carrying type (carried x.ring version text))
      (do
        let text ← (ExceptT.mk (Engine.draw
          (x.ring.cryptor.encrypt key'.bytes plain' []).run)).adapt Error.cipher
        Engine.log (.fieldEncrypted x.kek.name subject version)
        return carrying type (carried x.ring version text))
      fun out out' w w' =>
        Written x.ring type plain.length plain'.length out out' ∧ World.Alike w w' := by
  have hdraws : ∀ {c : Draw (Except CipherError Bytes)} {t : Trace} {r : Except CipherError Bytes},
      ComesTo (ExceptT.mk (Engine.draw c)) t r → ∀ y ∈ t, ∃ n, y.1 = .random n := by
    intro c t r h y hy
    obtain ⟨u, -, rfl⟩ := runs_draw.mp h
    exact random_of_mem_drawnTrace hy
  have hsealed : EndAlike (@World.Alike σ)
      (ExceptT.mk (Engine.draw (x.ring.cryptor.encrypt key.bytes plain []).run))
      (ExceptT.mk (Engine.draw (x.ring.cryptor.encrypt key'.bytes plain' []).run))
      fun text text' w w' => (∃ a, x.ring.cryptor.algorithm = .ok a ∧
        text.length = a.sealedLength plain.length ∧
        text'.length = a.sealedLength plain'.length) ∧ World.Alike w w' := by
    apply endAlike_of_draws (fun source source' hw => hw.draws source source') id hdraws hdraws
    intro t t' r r' h h'
    obtain ⟨u, hu, -⟩ := runs_draw.mp h
    obtain ⟨u', hu', -⟩ := runs_draw.mp h'
    exact Cryptor.encrypt_twins hkey hshort hshort' hu hu'
  refine (hsealed.adapt Error.cipher).bind fun text text' w w' hw => ?_
  obtain ⟨⟨a, halgorithm, hlength, hlength'⟩, halike⟩ := hw
  refine endAlike_log (fun hu => hu.record _) ?_ w w' halike
  exact matched_pure fun u u' hu =>
    ⟨⟨a, halgorithm, length_carrying htype hlength, length_carrying htype hlength'⟩, hu⟩

theorem endAlike_encrypt (htype : type = .string ∨ type = .bytes)
    (hshort : x.ring.cryptor.Takes plain) (hshort' : x.ring.cryptor.Takes plain') :
    EndAlike (@Twins σ) (x.encrypt subject type plain) (x.encrypt subject type plain')
      fun out out' w w' =>
        Written x.ring type plain.length plain'.length out out' ∧ World.Alike w w' := by
  unfold encrypt
  refine (endAlike_dek.adapt Error.key).bind fun d d' w w' hd => ?_
  obtain ⟨rfl | ⟨hversion, key, key', hkey, hkey', hlength⟩, halike⟩ := hd
  · refine (matched_except fun _ _ => id).bind_same (fun key => ?_) w w' halike
    exact endAlike_seal rfl htype hshort hshort'
  · have hraw : d.key = .ok key := by rw [Dek.key, hkey]
    have hraw' : d'.key = .ok key' := by rw [Dek.key, hkey']
    rw [hraw, hraw', hversion]
    exact endAlike_seal hlength htype hshort hshort' w w' halike

end Transform

namespace Executor

open World KeyRing Transform

variable {κ σ : Type} {e : Executor κ} {context : Context} {type : FieldType}

theorem endAlike_newTransform :
    EndAlike (@Twins σ) (e.newTransform context) (e.newTransform context)
      fun x x' w w' => e.ring context = .ok x.ring ∧ Same Twins x x' w w' := by
  have hquiet : ∀ t r, ComesTo (e.newTransform context) t r → ∀ y ∈ t, Quiet y.1 := by
    intro t r h
    rcases newTransform_comesTo h with ⟨error, -, rfl, -⟩ | ⟨ring, -, r', hsearch, -⟩
    · nofun
    · exact hsearch.quiet
  refine (endAlike_of_quiet hquiet).comesTo.mono (fun _ _ => id) fun x x' w w' hx => ?_
  obtain ⟨⟨t, hcomes⟩, hsame⟩ := hx
  refine ⟨?_, hsame⟩
  rcases newTransform_comesTo hcomes with ⟨error, -, -, hr⟩ | ⟨ring, hring, r', -, hr⟩
  · cases hr
  · cases hbound : r' >>= ring.bound (e.namedType context) (e.namedKey context) with
    | error error =>
      rw [hbound] at hr
      cases hr
    | ok kek =>
      rw [hbound] at hr
      obtain rfl := Except.ok.inj hr
      exact (admitted_eq_ok_iff.mp hring).2

theorem Accepts.takes {value : FieldValue} {plain : Bytes} {ring : KeyRing}
    (h : e.Accepts context type (some value)) (hring : e.ring context = .ok ring)
    (hplain : bytesOf type value = some plain) : ring.cryptor.Takes plain := by
  intro a halgorithm hrandom
  exact h ring a plain hring halgorithm hrandom hplain

/-- Two writers of values of a type that carries bytes, in twin worlds, end
alike. -/
theorem endAlike_transformField (writes : context.mode = .write) {value value' : FieldValue}
    {plain plain' : Bytes} (hplain : bytesOf type value = some plain)
    (hplain' : bytesOf type value' = some plain') (hshort : e.Accepts context type (some value))
    (hshort' : e.Accepts context type (some value')) :
    EndAlike (@Twins σ) (e.transformField context type (some value))
      (e.transformField context type (some value'))
      fun result result' w w' => (∃ ring out out', e.ring context = .ok ring ∧
        result = some out ∧ result' = some out' ∧
        Written ring type plain.length plain'.length out out') ∧ World.Alike w w' := by
  unfold transformField
  refine endAlike_newTransform.bind fun x x' w w' hx => ?_
  obtain ⟨hring, rfl, htwins⟩ := hx
  unfold Transform.apply
  dsimp only
  rw [writes]
  dsimp only
  rw [hplain, hplain']
  dsimp only
  rw [map_eq_pure_bind, map_eq_pure_bind]
  have htakes : x'.ring.cryptor.Takes plain := hshort.takes hring hplain
  have htakes' : x'.ring.cryptor.Takes plain' := hshort'.takes hring hplain'
  refine Matched.bind (endAlike_encrypt (type_of_bytesOf hplain) htakes htakes')
    (fun out out' => ?_) w w' htwins
  exact matched_pure fun u u' hu => ⟨⟨x'.ring, out, out', hring, rfl, rfl, hu.1⟩, hu.2⟩

/-- An observer learns nothing of a written value but its length, and nothing of
the keys that are generated.  Two writers of two values, in worlds that differ in
their random bytes alone, make the same calls but for the characters of wrapped
keys, log the same events, leave the key management systems alike, and fail for
the same reason or not at all; and the length of what they write follows from
the rule and the length of the value. -/
theorem writes_discreet (e : Executor κ) (kind : ExecutorKind) (context : Context)
    (type : FieldType) (w : World (Scripted Store) σ) (writes : context.mode = .write)
    (hdiscreet : w.directory.Offers Kms.Handle.Discreet) {value value' : FieldValue}
    {plain plain' : Bytes} (hplain : bytesOf (kind.declared type) value = some plain)
    (hplain' : bytesOf (kind.declared type) value' = some plain')
    (hshort : e.Accepts context (kind.declared type) (some value))
    (hshort' : e.Accepts context (kind.declared type) (some value'))
    (source source' : RandomSource) {result result' : Except Error (Option FieldValue)}
    {u u' : World (Scripted Store) σ}
    (h : (World.run (e.transform kind context type (some value)).run).run
      { w with random := source } = (result, u))
    (h' : (World.run (e.transform kind context type (some value')).run).run
      { w with random := source' } = (result', u')) :
    World.Alike u u' ∧
      ((∃ error, result = .error error ∧ result' = .error error) ∨
        ∃ ring out out', e.ring context = .ok ring ∧ result = .ok (some out) ∧
          result' = .ok (some out') ∧
          Written ring (kind.declared type) plain.length plain'.length out out') := by
  rw [transform_eq] at h h'
  have halike : World.Alike { w with random := source } { w with random := source' } :=
    ⟨rfl, rfl, rfl, rfl, rfl, rfl, rfl⟩
  have hends := endAlike_transformField writes hplain hplain' hshort hshort' _ _
    ⟨halike, rfl, hdiscreet⟩
  have hresult := congrArg Prod.fst h
  have hresult' := congrArg Prod.fst h'
  have hworld := congrArg Prod.snd h
  have hworld' := congrArg Prod.snd h'
  unfold World.run at hresult hresult' hworld hworld'
  rw [hresult, hresult', hworld, hworld'] at hends
  cases hends with
  | failed error hu => exact ⟨hu, .inl ⟨error, rfl, rfl⟩⟩
  | done hdone =>
    obtain ⟨⟨ring, out, out', hring, rfl, rfl, hwritten⟩, hu⟩ := hdone
    exact ⟨hu, .inr ⟨ring, out, out', hring, rfl, rfl, hwritten⟩⟩

/-- Two writers of values of different lengths make a new key each, and their calls
differ in the wrapped keys. -/
theorem writes_discreet_new_key :
    ∃ (e : Executor Unit) (context : Context) (w u u' : World (Scripted Store) Unit)
      (source source' : RandomSource) (result result' : Except Error (Option FieldValue)),
      context.mode = .write ∧ w.directory.Offers Kms.Handle.Discreet ∧
      e.Accepts context .bytes (some (.bytes [1])) ∧
      e.Accepts context .bytes (some (.bytes [2, 3])) ∧
      (World.run (e.transform .field context .bytes (some (.bytes [1]))).run).run
        { w with random := source } = (result, u) ∧
      (World.run (e.transform .field context .bytes (some (.bytes [2, 3]))).run).run
        { w with random := source' } = (result', u') ∧
      result.isOk = true ∧ u.registry.calls ≠ u'.registry.calls ∧ World.Alike u u' ∧
      ((∃ error, result = .error error ∧ result' = .error error) ∨
        ∃ ring out out', e.ring context = .ok ring ∧ result = .ok (some out) ∧
          result' = .ok (some out') ∧ Written ring .bytes 1 2 out out') := by
  let driver : Kms.Driver Unit := Kms.Plain.driver "local-kms://"
  let w : World (Scripted Store) Unit :=
    ⟨.ofRegistry ∅, ⟨[driver], ∅⟩, (), 0, none, ⟨fun _ => 0, 0⟩, []⟩
  let params : Properties :=
    Dict.ofList [(Parameter.kekName, "k"), (Parameter.dekAlgorithm, "AES256_SIV"),
      (Parameter.kmsType, "local-kms"), (Parameter.kmsKeyId, "m")]
  let e : Executor Unit := ⟨some (), ∅⟩
  let context : Context := ⟨"s", .write, params, ∅⟩
  let source : RandomSource := ⟨fun _ => 0, 0⟩
  let source' : RandomSource := ⟨fun _ => 1, 0⟩
  have hdiscreet : w.directory.Offers Kms.Handle.Discreet := by
    refine ⟨fun other hother => ?_, nofun⟩
    obtain rfl := List.mem_singleton.mp hother
    exact Kms.Plain.offers_driver "local-kms://" Kms.Plain.discreet_handle
  have hshort : ∀ bytes : Bytes, bytes.length ≤ Cipher.maxLength →
      e.Accepts context .bytes (some (.bytes bytes)) := by
    intro bytes hlength ring a plain _ _ _ hplain
    obtain rfl : bytes = plain := Option.some.inj hplain
    exact hlength
  have hisOk : ((World.run (e.transform .field context .bytes
      (some (.bytes [1]))).run).run { w with random := source }).1.isOk = true := by
    decide +kernel
  have hcalls : ((World.run (e.transform .field context .bytes
      (some (.bytes [1]))).run).run { w with random := source }).2.registry.calls ≠
      ((World.run (e.transform .field context .bytes
        (some (.bytes [2, 3]))).run).run { w with random := source' }).2.registry.calls := by
    decide +kernel
  generalize hx : (World.run (e.transform .field context .bytes
    (some (.bytes [1]))).run).run { w with random := source } = x at hisOk hcalls
  generalize hx' : (World.run (e.transform .field context .bytes
    (some (.bytes [2, 3]))).run).run { w with random := source' } = x' at hcalls
  obtain ⟨result, u⟩ := x
  obtain ⟨result', u'⟩ := x'
  obtain ⟨halike, hends⟩ := writes_discreet e .field context .bytes w rfl hdiscreet rfl rfl
    (hshort [1] (by decide)) (hshort [2, 3] (by decide)) source source' hx hx'
  exact ⟨e, context, w, u, u', source, source', result, result', rfl, hdiscreet,
    hshort [1] (by decide), hshort [2, 3] (by decide), hx, hx', hisOk, hcalls, halike, hends⟩

end Executor
end Envelope
