import Envelope.Proofs.Conversation

/-!
# Executors under way

An executor that has not finished yet can be brought to an end by surroundings
that refuse everything (`refusal`).  What it asks for next is therefore part of
a whole course, in which everything that was given out was given out before.
-/

namespace Envelope

open Program Engine

/-! ## The addresses asked for -/

namespace KeyRing

variable {ring : KeyRing} {kek : Kek} {subject : String} {version : Option UInt32} {mode : Mode}
  {id : DekId} {t : Trace} {dek : Dek} {config : Properties} {url : String}
  {answer : Except Kms.Error Kms.Handle}

@[simp] theorem handed_ne_called {call : Registry.Call} {answer' : call.Answer} :
    handed config url answer ≠ called call answer' := nofun

@[simp] theorem handed_ne_logged {event : Event} : handed config url answer ≠ logged event := nofun

@[simp] theorem handed_ne_clocked {now : Int64} : handed config url answer ≠ clocked now := nofun

theorem keyHandle_not_mem_drawnTrace {u : List (Program.Exchange Draw.signature)} :
    handed config url answer ∉ drawnTrace u := by
  intro hmem
  obtain ⟨x, -, hx⟩ := List.mem_map.mp hmem
  cases hx

theorem KekSearch.keyHandle_not_mem {kmsType kmsKeyId : Option String} {r : Except KeyError Kek}
    (h : ring.KekSearch mode kmsType kmsKeyId t r) : handed config url answer ∉ t := by
  cases h with
  | created e absent writes type id htype hid rest => cases rest <;> simp
  | _ => simp

theorem DekRegistration.keyHandle_not_mem {next : UInt32} {wrapped : Option Bytes}
    {r : Except KeyError Dek} (h : ring.DekRegistration id mode next wrapped t r) :
    handed config url answer ∉ t := by
  cases h <;> simp

theorem Unlocking.keyHandle_eq {handle : Option Kms.Handle} {r : Except KeyError Dek}
    (h : ring.Unlocking kek dek handle t r) (hmem : handed config url answer ∈ t) :
    config = ring.config ∧ url = kek.url := by
  cases h with
  | fetched d h hkey handle =>
    cases List.mem_singleton.mp hmem
    exact ⟨rfl, rfl⟩
  | unhandled d h hkey e =>
    cases List.mem_singleton.mp hmem
    exact ⟨rfl, rfl⟩
  | _ => cases hmem

theorem Wrapping.keyHandle_not_mem {handle : Kms.Handle} {r : Except KeyError Bytes}
    (h : ring.Wrapping handle t r) : handed config url answer ∉ t := by
  cases h with
  | unsupported e h => simp
  | wrapped a h key wrap =>
    intro hmem
    rcases List.mem_cons.mp hmem with hmem | hmem
    · cases hmem
    · exact keyHandle_not_mem_drawnTrace hmem

theorem Preparation.keyHandle_eq {r : Except KeyError (Option Kms.Handle × Option Bytes)}
    (h : ring.Preparation kek t r) (hmem : handed config url answer ∈ t) :
    config = ring.config ∧ url = kek.url := by
  cases h with
  | shared h => cases hmem
  | unhandled h e =>
    cases List.mem_singleton.mp hmem
    exact ⟨rfl, rfl⟩
  | handled h handle wrapping =>
    rcases List.mem_cons.mp hmem with hmem | hmem
    · cases hmem
      exact ⟨rfl, rfl⟩
    · exact absurd hmem wrapping.keyHandle_not_mem

theorem Rotation.keyHandle_eq {prior : Option Dek}
    {r : Except KeyError (Option Kms.Handle × Dek)} (h : ring.Rotation kek id mode prior t r)
    (hmem : handed config url answer ∈ t) : config = ring.config ∧ url = kek.url := by
  cases h with
  | exhausted e h => cases hmem
  | unprepared next hnext prepared => exact prepared.keyHandle_eq hmem
  | replaced next hnext prepared registered =>
    exact prepared.keyHandle_eq
      ((List.mem_append.mp hmem).resolve_right registered.keyHandle_not_mem)
  | failed next hnext prepared registered =>
    exact prepared.keyHandle_eq
      ((List.mem_append.mp hmem).resolve_right registered.keyHandle_not_mem)
  | kept prior next hnext prepared registered =>
    rcases List.mem_append.mp hmem with hmem | hmem
    · exact prepared.keyHandle_eq
        ((List.mem_append.mp hmem).resolve_right registered.keyHandle_not_mem)
    · cases List.mem_singleton.mp hmem

/-- Handles are asked for only at the address of the key-encryption key. -/
theorem DekSearch.keyHandle_eq {r : Except KeyError Dek}
    (h : ring.DekSearch kek subject version mode t r) (hmem : handed config url answer ∈ t) :
    config = ring.config ∧ url = kek.url := by
  have hrest : ∀ {call : Registry.Call} {answer' : call.Answer} {now : Int64} {u : Trace},
      handed config url answer ∈ called call answer' :: clocked now :: u →
      handed config url answer ∈ u := by
    intro call answer' now u hmem
    simpa using hmem
  cases h with
  | failed e fatal => simp at hmem
  | unread e absent reads now => simp at hmem
  | overflowed dek now cause stops => simp at hmem
  | current dek now fresh unlocked => exact unlocked.keyHandle_eq (hrest hmem)
  | unrotated first now due rotated => exact rotated.keyHandle_eq (hrest hmem)
  | rotated first now due rotated unlocked =>
    rcases List.mem_append.mp (hrest hmem) with hmem | hmem
    · exact rotated.keyHandle_eq hmem
    · exact unlocked.keyHandle_eq hmem

/-- Wrapped key material is a key of the right length under a handle of the
master key that was handed out before. -/
def WrappedFresh (ring : KeyRing) (kek : Kek) (t : Trace)
    (text : String) : Prop :=
  ∃ handle a key draws wrapped, handed ring.config kek.url (.ok handle) ∈ t ∧
    ring.cryptor.algorithm = .ok a ∧ key.length = a.keyLength ∧
    Runs (handle.wrap key []) draws (.ok wrapped) ∧ text = Base64.encode wrapped

end KeyRing

theorem Transform.Application.keyHandle_eq {x : Transform} {context : Context} {type : FieldType}
    {value : Option FieldValue} {t : Trace} {r : Except Error (Option FieldValue)}
    {config : Properties} {url : String} {answer : Except Kms.Error Kms.Handle}
    (h : x.Application context type value t r) (hmem : handed config url answer ∈ t) :
    config = x.ring.config ∧ url = x.kek.url := by
  cases h with
  | encrypted value writes plain hplain encryption =>
    cases encryption with
    | unkeyed search => exact search.keyHandle_eq hmem
    | unsealed search hkey sealing =>
      exact search.keyHandle_eq
        ((List.mem_append.mp hmem).resolve_right KeyRing.keyHandle_not_mem_drawnTrace)
    | sealed search hkey sealing =>
      rcases List.mem_append.mp hmem with hmem | hmem
      · exact search.keyHandle_eq
          ((List.mem_append.mp hmem).resolve_right KeyRing.keyHandle_not_mem_drawnTrace)
      · cases List.mem_singleton.mp hmem
  | decrypted value reads bytes hbytes decryption =>
    cases decryption with
    | unread e h => cases hmem
    | unkeyed h search => exact search.keyHandle_eq hmem
    | keyed h search hkey => exact search.keyHandle_eq hmem
  | _ => cases hmem

namespace Executor

variable {κ : Type} {e : Executor κ} {context : Context} {type : FieldType}
  {value : Option FieldValue} {t : Trace}

/-- An executor asks for handles only with its configuration, and at the
address of the key-encryption key that it was given. -/
theorem Transformation.keyHandle {r : Except Error (Option FieldValue)}
    (h : e.Transformation context type value t r) {config : Properties} {url : String}
    {answer : Except Kms.Error Kms.Handle} (hmem : handed config url answer ∈ t) :
    ∃ ring kek, e.ring context = .ok ring ∧ config = ring.config ∧ url = kek.url ∧
      ring.KekGivenOut t kek := by
  cases h with
  | rejected error h => cases hmem
  | unresolved ring h search hkek => exact absurd hmem search.keyHandle_not_mem
  | resolved ring h search hbound application =>
    have hlater := (List.mem_append.mp hmem).resolve_left search.keyHandle_not_mem
    obtain ⟨hconfig, hurl⟩ := application.keyHandle_eq hlater
    exact ⟨ring, _, (admitted_eq_ok_iff.mp h).2, hconfig, hurl,
      search.givenOut.mono (List.subset_append_left _ _)⟩

/-! ## The next request -/

/-- Surroundings that refuse everything that can be refused. -/
def refusal : (r : Effect) → r.Answer :=
  surroundings (fun _ => .error (.notFound "")) (.error (.noDriver ""))

variable {r : Effect} {next : r.Answer → Engine (Except Error (Option FieldValue))}

/-- From any point on, an executor can be refused everything. -/
theorem exists_refused (h : After (e.transformField context type value).run t (.ask r next)) :
    ∃ u result, e.Transformation context type value (t ++ u) result ∧ ⟨r, refusal r⟩ ∈ u ∧
      ∀ x ∈ u, x.2 = refusal x.1 := by
  have hruns := h.complete refusal
  exact ⟨_, _, transformField_comesTo hruns, List.mem_cons_self,
    fun x hx => answer_of_mem_transcript hx⟩

/-- What was given out was given out before the refusals. -/
theorem mem_of_refused {u : Trace} (hrefused : ∀ x ∈ u, x.2 = refusal x.1) {x : Engine.Exchange}
    (hmem : x ∈ t ++ u) (hx : x.2 ≠ refusal x.1) : x ∈ t := by
  refine (List.mem_append.mp hmem).resolve_right fun hu => ?_
  exact hx (hrefused x hu)

theorem kekGivenOut_of_refused {u : Trace} (hrefused : ∀ x ∈ u, x.2 = refusal x.1)
    {ring : KeyRing} {kek : Kek} (h : ring.KekGivenOut (t ++ u) kek) : ring.KekGivenOut t kek := by
  cases h with
  | found deleted hmem => exact .found deleted (mem_of_refused hrefused hmem nofun)
  | registered request hname hmem =>
    exact .registered request hname (mem_of_refused hrefused hmem nofun)

theorem asked_keyHandle {config : Properties} {url : String}
    {next : Except Kms.Error Kms.Handle → Engine (Except Error (Option FieldValue))}
    (h : After (e.transformField context type value).run t
      (.ask (Effect.keyHandle config url) next)) :
    ∃ ring kek, e.ring context = .ok ring ∧ config = ring.config ∧ url = kek.url ∧
      ring.KekGivenOut t kek := by
  obtain ⟨u, result, hcourse, hmem, hrefused⟩ := exists_refused h
  obtain ⟨ring, kek, hring, hconfig, hurl, hkek⟩ :=
    hcourse.keyHandle (List.mem_append_right t hmem)
  exact ⟨ring, kek, hring, hconfig, hurl, kekGivenOut_of_refused hrefused hkek⟩

theorem asked_registerKek {request : KekRequest}
    {next : Except RegistryError Kek → Engine (Except Error (Option FieldValue))}
    (h : After (e.transformField context type value).run t
      (.ask (Effect.registry (.registerKek request)) next)) :
    ∃ ring type id, e.ring context = .ok ring ∧ e.namedType context = some type ∧
      e.namedKey context = some id ∧ request = ring.kekRequest type id := by
  obtain ⟨u, result, hcourse, hmem, -⟩ := exists_refused h
  exact hcourse.registerKek (List.mem_append_right t hmem)

/-- The registration of a data key that is asked for is that of a version from
1 on, and its key material is fresh. -/
theorem asked_registerDek {kekName : String} {request : DekRequest}
    {next : Except RegistryError Dek → Engine (Except Error (Option FieldValue))}
    (h : After (e.transformField context type value).run t
      (.ask (Effect.registry (.registerDek kekName request)) next)) :
    ∃ ring kek, e.ring context = .ok ring ∧ kekName = ring.kekName ∧ ring.KekGivenOut t kek ∧
      request.algorithm = ring.cryptor.format ∧ request.version ≠ Dek.latestVersion ∧
      ∀ text, request.encryptedKeyMaterial = some text → ring.WrappedFresh kek t text := by
  obtain ⟨u, result, hcourse, hmem, hrefused⟩ := exists_refused h
  obtain ⟨ring, kek, version, now, first, hring, hname, hkek, due⟩ :=
    hcourse.registerDek (List.mem_append_right t hmem)
  refine ⟨ring, kek, hring, hname, kekGivenOut_of_refused hrefused hkek, due.algorithm, ?_, ?_⟩
  · rcases due.version with ⟨-, -, -, hfirst⟩ | ⟨dek, -, -, hlast, hnext⟩
    · rw [hfirst]
      decide
    · rw [hnext]
      intro hzero
      refine hlast (UInt32.toNat_inj.mp ?_)
      have hnat := congrArg UInt32.toNat hzero
      have hbound := dek.version.toNat_lt
      simp [UInt32.toNat_add, Dek.latestVersion] at hnat ⊢
      omega
  · intro text htext
    have hmaterial := due.material
    rw [htext] at hmaterial
    cases hmaterial with
    | @wrapped _ handle hhandle a halgorithm key hkey draws wrapped hwrap =>
      exact ⟨handle, a, key.val, draws, wrapped, mem_of_refused hrefused hhandle nofun,
        halgorithm, key.property, hwrap, rfl⟩

end Executor
end Envelope
