import Envelope.Proofs.Rotation

/-!
# Where the engine stops

The overflow of an age is the one failure that nothing recovers from.  It comes
from the test for expiry and from nowhere else (`DekSearch.of_overflow`): a
rotating writer stops with its reading of the clock, after the first look-up of
its data key and before it has registered one
(`Executor.Transformation.of_overflow`).  In a deployment whose clock shows times
from 0 on, no record is ever so far from the clock, and nobody stops
(`Deployment.never_stops`).
-/

namespace Envelope

open Program Engine KeyRing

/-! ## Results without an overflow -/

/-- A result is no failure of one kind. -/
def Spares {ι ε α : Type} (kind : ι → ε) (r : Except ε α) : Prop :=
  ∀ cause, r ≠ .error (kind cause)

section Spares

variable {ι ε ε' α β : Type} {kind : ι → ε} {x : Except ε α} {f : α → Except ε β}

theorem spares_ok (a : α) : Spares kind (.ok a : Except ε α) := nofun

theorem Spares.bind (hx : Spares kind x) (hf : ∀ a, Spares kind (f a)) : Spares kind (x >>= f) := by
  intro cause h
  cases x with
  | ok a => exact hf a cause h
  | error e =>
    obtain rfl := Except.error.inj h
    exact hx cause rfl

theorem Spares.map (hx : Spares kind x) (g : α → β) : Spares kind (x.map g) := by
  intro cause h
  cases x with
  | ok a => cases h
  | error e =>
    obtain rfl := Except.error.inj h
    exact hx cause rfl

theorem spares_mapError {g : ε' → ε} (hg : ∀ e cause, g e ≠ kind cause) (y : Except ε' α) :
    Spares kind (y.mapError g) := by
  intro cause h
  obtain ⟨e, -, he⟩ := mapError_eq_error_iff.mp h
  exact hg e cause he.symm

variable {p : Prop} [Decidable p] {e : ε}

/-- A check fails with its own cause or goes on. -/
theorem Spares.check {next : Unit → Except ε α} (he : ∀ cause, e ≠ kind cause)
    (hnext : Spares kind (next ())) :
    Spares kind (if p then throw e >>= next else next ()) := by
  split
  · intro cause h
    exact he cause (Except.error.inj h)
  · exact hnext

theorem Spares.lastCheck (he : ∀ cause, e ≠ kind cause) :
    Spares kind (if p then throw e else pure () : Except ε Unit) := by
  split
  · intro cause h
    exact he cause (Except.error.inj h)
  · exact spares_ok ()

end Spares

namespace KeyRing

variable {ring : KeyRing} {kek : Kek} {mode : Mode} {subject : String} {version : Option UInt32}
  {t : Trace} {cause : Overflow}

theorem fetched_spares {α : Type} {absent : KeyError} (habsent : ∀ cause, absent ≠ .overflow cause)
    (answer : Except RegistryError α) : Spares KeyError.overflow (fetched absent answer) := by
  intro cause h
  unfold fetched at h
  split at h
  · cases h
  · exact habsent cause (Except.error.inj h)
  · rename_i e hpresent
    obtain ⟨e', -, -, rfl⟩ := present_eq_error_iff.mp hpresent
    cases h

theorem Registration.spares {α : Type} {register lookUp : Except RegistryError α → Exchange}
    {registered : α → Event} {conflicted : Event} {absent : KeyError} {r : Except KeyError α}
    (h : Registration register lookUp registered conflicted absent t r)
    (habsent : ∀ cause, absent ≠ .overflow cause) : Spares KeyError.overflow r := by
  cases h with
  | registered record => exact spares_ok record
  | refused e fatal => exact nofun
  | settled e lost answer => exact fetched_spares habsent answer

theorem KekSearch.spares {kmsType kmsKeyId : Option String} {r : Except KeyError Kek}
    (h : ring.KekSearch mode kmsType kmsKeyId t r) : Spares KeyError.overflow r := by
  cases h with
  | created e absent writes type id htype hid rest => exact rest.spares nofun
  | _ => exact nofun

theorem bound_spares (kmsType kmsKeyId : Option String) :
    Spares KeyError.overflow (ring.bound kmsType kmsKeyId kek) := by
  refine Spares.bind ?_ fun _ => spares_ok kek
  unfold checkBinding
  cases kmsType with
  | none =>
    cases kmsKeyId with
    | none => exact spares_ok ()
    | some id => exact .lastCheck nofun
  | some type =>
    refine .check nofun ?_
    cases kmsKeyId with
    | none => exact spares_ok ()
    | some id => exact .lastCheck nofun

theorem Wrapping.spares {handle : Kms.Handle} {r : Except KeyError Bytes}
    (h : ring.Wrapping handle t r) : Spares KeyError.overflow r := by
  cases h with
  | unsupported e h => exact nofun
  | wrapped a h key wrap => exact spares_mapError nofun _

theorem Preparation.spares {r : Except KeyError (Option Kms.Handle × Option Bytes)}
    (h : ring.Preparation kek t r) : Spares KeyError.overflow r := by
  cases h with
  | shared h => exact nofun
  | unhandled h e => exact nofun
  | handled h handle wrapping => exact wrapping.spares.map _

theorem Rotation.spares {id : DekId} {prior : Option Dek}
    {r : Except KeyError (Option Kms.Handle × Dek)} (h : ring.Rotation kek id mode prior t r) :
    Spares KeyError.overflow r := by
  cases h with
  | exhausted e h =>
    rintro cause ⟨⟩
    unfold nextVersion at h
    grind
  | unprepared next hnext prepared =>
    rintro cause ⟨⟩
    exact prepared.spares cause rfl
  | failed next hnext prepared registered =>
    rintro cause ⟨⟩
    exact Registration.spares registered nofun cause rfl
  | replaced next hnext prepared registered => exact nofun
  | kept prior next hnext prepared registered => exact nofun

theorem opened_spares (handle : Kms.Handle) (dek : Dek) :
    Spares KeyError.overflow (opened handle dek) := by
  refine (spares_mapError nofun _).bind fun wrapped => ?_
  cases wrapped with
  | none => exact nofun
  | some wrapped => exact (spares_mapError nofun _).bind fun raw => spares_ok _

theorem Unlocking.spares {dek : Dek} {handle : Option Kms.Handle} {r : Except KeyError Dek}
    (h : ring.Unlocking kek dek handle t r) : Spares KeyError.overflow r := by
  cases h with
  | misencoded e h => exact nofun
  | known d h hkey => exact nofun
  | given handle d h hkey => exact opened_spares handle d
  | fetched d h hkey handle => exact opened_spares handle d
  | unhandled d h hkey e => exact nofun

/-- The search for a data key overflows in the test for expiry alone. -/
theorem DekSearch.of_overflow
    (h : ring.DekSearch kek subject version mode t (.error (.overflow cause))) :
    ∃ dek now, t = [called (.getDek (ring.dekId subject version) (mode = .read)) (.ok dek),
        clocked now] ∧ ring.isExpired mode now (some dek) = .error cause := by
  cases h with
  | overflowed dek now cause stops => exact ⟨dek, now, rfl, stops⟩
  | current dek now fresh unlocked => exact absurd rfl (unlocked.spares cause)
  | unrotated answer now due rotated => exact absurd rfl (rotated.spares cause)
  | rotated answer now due rotated unlocked => exact absurd rfl (unlocked.spares cause)

end KeyRing

namespace Transform

variable {x : Transform} {context : Context} {subject : String} {type : FieldType} {bytes : Bytes}
  {t : Trace}

/-- The overflow of an age, as a failure to transform a value. -/
abbrev overflow (cause : Overflow) : Error := .key (.overflow cause)

theorem received_spares (ring : KeyRing) (type : FieldType) (bytes : Bytes) :
    Spares overflow (received ring type bytes) := by
  unfold received decoded
  refine Spares.bind ?_ fun carried => ?_
  · split
    · exact spares_mapError nofun _
    · exact nofun
  · unfold unframed
    split
    · exact (spares_mapError nofun _).bind fun frame => spares_ok _
    · exact nofun

theorem revealed_spares (type : FieldType) (plain : Bytes) :
    Spares overflow (revealed type plain) := by
  unfold revealed
  split
  · exact (spares_mapError nofun _).bind fun text => spares_ok _
  · exact nofun

/-- A reader does not stop. -/
theorem Decryption.spares {r : Except Error FieldValue}
    (h : x.Decryption subject type bytes t r) : Spares overflow r := by
  cases h with
  | unread e h =>
    rintro cause ⟨⟩
    exact received_spares x.ring type bytes cause h
  | unkeyed h search =>
    rintro cause ⟨⟩
    obtain ⟨dek, now, -, stops⟩ := search.of_overflow
    rw [isExpired_read] at stops
    cases stops
  | keyed h search hkey => exact (spares_mapError nofun _).bind fun plain => revealed_spares _ _

end Transform

namespace Executor

variable {κ : Type} {e : Executor κ} {context : Context} {type : FieldType}
  {value : Option FieldValue} {t : Trace} {cause : Overflow}

theorem admitted_spares (e : Executor κ) (context : Context) :
    Spares Transform.overflow (e.admitted context) := by
  refine (spares_mapError nofun _).bind fun ring => ?_
  exact .check nofun (.check nofun (spares_ok ring))

/-- Only a writer whose keys rotate stops, and only with the last thing that it
does: it has found the latest version of its data key, whose age does not fit
when it reads the clock.  It has registered no data key. -/
theorem Transformation.of_overflow
    (h : e.Transformation context type value t (.error (Transform.overflow cause))) :
    ∃ ring u dek now, e.admitted context = .ok ring ∧ ring.rotates = true ∧
      context.mode = .write ∧
      t = u ++ [called (.getDek (ring.dekId context.subject (some Dek.latestVersion)) false)
        (.ok dek), clocked now] ∧
      (∀ kekName request answer, called (.registerDek kekName request) answer ∉ t) ∧
      ¬ Fits (age now dek) ∧ cause = ⟨now, dek.timestamp⟩ := by
  generalize hr : Except.error (Transform.overflow cause) = r at h
  cases h with
  | rejected error hrejected =>
    obtain rfl := Except.error.inj hr
    exact absurd hrejected (admitted_spares e context cause)
  | unresolved ring hring search hkek =>
    cases hr
    exact absurd hkek ((search.spares.bind fun kek => bound_spares _ _) cause)
  | resolved ring hring kekSearch hbound application =>
    rename_i t₁ t₂ kek
    cases application with
    | encrypted value writes plain hplain encryption =>
      rename_i r
      cases r with
      | ok out => cases hr
      | error error =>
        obtain rfl := Except.error.inj hr
        cases encryption with
        | unkeyed search =>
          obtain ⟨dek, now, rfl, stops⟩ := search.of_overflow
          obtain ⟨-, hrotates, hlarge, rfl⟩ := isExpired_eq_error stops
          refine ⟨ring, t₁, dek, now, hring, hrotates, writes, ?_, ?_, hlarge, rfl⟩
          · rw [Transform.writtenVersion, if_pos hrotates]
            rfl
          · intro kekName request answer hmem
            have hcalls := mem_registryCalls.mpr hmem
            rw [registryCalls_append] at hcalls
            have hfirst := (List.mem_append.mp hcalls).resolve_right (by simp)
            exact kekSearch.phase.registerDek_not_mem hfirst
    | decrypted value reads bytes hbytes decryption =>
      exact absurd hr.symm (decryption.spares.map _ cause)
    | _ => cases hr

end Executor

namespace Deployment

variable {ι σ : Type} [DecidableEq ι] {d d' : Deployment ι σ}

/-- While the clock shows a time from 0 on, no executor stops. -/
theorem Regular.transform_ne_overflow (h : d.Regular) (i : ι) (kind : ExecutorKind)
    (context : Context) (type : FieldType) (value : Option FieldValue) (cause : Overflow) :
    (d.transform i kind context type value).1 ≠ .error (Transform.overflow cause) := by
  intro hstops
  obtain ⟨t, hcourse, hserial⟩ := d.transform_serial i kind context type value
  rw [hstops] at hcourse
  obtain ⟨ring, u, dek, now, -, -, -, rfl, -, hlarge, -⟩ := hcourse.of_overflow
  have hnow : now = d.world.clock := h.reading hserial now (by simp)
  obtain ⟨hfile, -⟩ :=
    hserial.backs.getDek_stored (List.mem_append_right u List.mem_cons_self)
  have hafter : (d.advance (.transform i kind context type value)).Regular := h.advance trivial
  refine hlarge (fits_age ?_ (hafter.chained.stamped _ dek hfile))
  rw [hnow]
  exact h.clock

/-- Nobody stops.  Whatever happens to a deployment whose registry was empty, as
long as only executors register data keys and the clock shows times from 0 on, no
transformation of a value ends with an overflow. -/
theorem never_stops (hempty : d.world.registry = ∅) (hclock : 0 ≤ d.world.clock)
    (hshared : d.world.engineClock = none) (h : Evolves Step.Ordinary d d') (i : ι)
    (kind : ExecutorKind) (context : Context) (type : FieldType) (value : Option FieldValue)
    (cause : Overflow) :
    (d'.transform i kind context type value).1 ≠ .error (Transform.overflow cause) := by
  have hregular : d.Regular := ⟨hempty ▸ Store.chained_empty, hclock, hshared⟩
  exact (h.regular hregular).transform_ne_overflow i kind context type value cause

end Deployment
end Envelope
