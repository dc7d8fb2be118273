import Envelope.Proofs.Clients
import Envelope.Proofs.Sealing
import Envelope.Proofs.Service

/-!
# What a local master key unwraps

A local master key unwraps exactly what it wraps: a text is unwrapped to a key
if and only if the key is wrapped to this very text, under the nonce that the
text begins with (`Kms.Local.unwrap_eq_ok_iff`).  The master key is a function of
the secret.  So it does not matter how a client came by the secret: directly,
from the configuration of a driver, or out of a directory
(`Kms.Local.BuiltFrom`).
-/

namespace Envelope
namespace Kms

/-- What a handle wraps a key to with the bytes of a source. -/
def Handle.wrapFrom (h : Handle) (source : RandomSource) (plain aad : Bytes) :
    Except Error Bytes :=
  ((RandomSource.run (h.wrap plain aad)).run source).1

namespace Local

variable {master nonce plain aad wrapped : Bytes} {source : RandomSource}

/-! ## Wrapping -/

/-- A local handle wraps under the next bytes of the source. -/
theorem wrapFrom_handle (master : Bytes) (source : RandomSource) (plain aad : Bytes) :
    (handle master).wrapFrom source plain aad =
      wrapWith master (source.next nonceLength).1.val plain aad :=
  rfl

theorem wrapWith_eq_ok_iff :
    wrapWith master nonce plain aad = .ok wrapped ↔
      ∃ text, Cipher.GcmSiv.encrypt master nonce aad plain = some text ∧
        nonce ++ text = wrapped := by
  unfold wrapWith
  cases Cipher.GcmSiv.encrypt master nonce aad plain with
  | none => simp
  | some text => simp

theorem length_of_wrapWith (hnonce : nonce.length = nonceLength)
    (h : wrapWith master nonce plain aad = .ok wrapped) : wrapped.length = plain.length + 28 := by
  have hlength := length_wrapWith master nonce plain aad
  rw [h] at hlength
  split at hlength
  · cases hlength
  · have htext : wrapped.length = nonce.length + (plain.length + 16) := Except.ok.inj hlength
    rw [htext, hnonce]
    exact Nat.add_comm 12 (plain.length + 16)

/-- A key that is not too long is wrapped under every nonce. -/
theorem exists_wrapWith (hplain : plain.length ≤ Cipher.maxLength)
    (haad : aad.length ≤ Cipher.maxLength) (master nonce : Bytes) :
    ∃ wrapped, wrapWith master nonce plain aad = .ok wrapped := by
  have hshort : ¬ (Cipher.maxLength < plain.length ∨ Cipher.maxLength < aad.length) := by
    omega
  unfold wrapWith Cipher.GcmSiv.encrypt
  rw [if_neg hshort]
  exact ⟨_, rfl⟩

theorem wrapWith_of_long (hlong : ¬ (plain.length ≤ Cipher.maxLength ∧
    aad.length ≤ Cipher.maxLength)) (master nonce : Bytes) :
    wrapWith master nonce plain aad = .error (.operation "local KMS wrap failed") := by
  have hlong' : Cipher.maxLength < plain.length ∨ Cipher.maxLength < aad.length := by
    omega
  unfold wrapWith Cipher.GcmSiv.encrypt
  rw [if_pos hlong']

/-! ## Unwrapping -/

/-- Why a text is not unwrapped. -/
def refusal (wrapped : Bytes) : Error :=
  .operation (if wrapped.length < nonceLength then "wrapped key too short"
    else "local KMS unwrap failed")

/-- A text is unwrapped to a key if and only if the key is wrapped to it under
the nonce that it begins with. -/
theorem unwrap_eq_ok_iff :
    unwrap master wrapped aad = .ok plain ↔
      nonceLength ≤ wrapped.length ∧
        wrapWith master (wrapped.take nonceLength) plain aad = .ok wrapped := by
  rw [wrapWith_eq_ok_iff, Bytes.exists_take_append_iff, ← Cipher.GcmSiv.decrypt_eq_some_iff]
  unfold unwrap
  by_cases hshort : wrapped.length < nonceLength
  · simp [hshort, Nat.not_le.mpr hshort]
  · rw [if_neg hshort]
    cases Cipher.GcmSiv.decrypt master (wrapped.take nonceLength) aad
        (wrapped.drop nonceLength) with
    | none => simp
    | some plain' => simp [Nat.not_lt.mp hshort]

/-- A text that is not unwrapped is refused for one reason only. -/
theorem unwrap_refused (hclosed : ∀ plain, unwrap master wrapped aad ≠ .ok plain) :
    unwrap master wrapped aad = .error (refusal wrapped) := by
  unfold refusal
  unfold unwrap at hclosed ⊢
  by_cases hshort : wrapped.length < nonceLength
  · rw [if_pos hshort, if_pos hshort]
  · rw [if_neg hshort] at hclosed ⊢
    rw [if_neg hshort]
    cases hopen : Cipher.GcmSiv.decrypt master (wrapped.take nonceLength) aad
        (wrapped.drop nonceLength) with
    | none => rfl
    | some plain =>
      rw [hopen] at hclosed
      exact absurd rfl (hclosed plain)

/-- A text that is unwrapped to a key is what the key is wrapped to if the nonce
that is drawn is the one that the text begins with. -/
theorem wrapFrom_of_unwrap (hopen : unwrap master wrapped aad = .ok plain)
    (hnonce : (source.next nonceLength).1.val = wrapped.take nonceLength) :
    (handle master).wrapFrom source plain aad = .ok wrapped := by
  obtain ⟨-, hwrapped⟩ := unwrap_eq_ok_iff.mp hopen
  rw [wrapFrom_handle, hnonce]
  exact hwrapped

/-- Some source gives the nonce that an unwrapped text begins with. -/
theorem exists_wrapFrom (hopen : unwrap master wrapped aad = .ok plain) :
    ∃ source, (handle master).wrapFrom source plain aad = .ok wrapped := by
  obtain ⟨hlong, -⟩ := unwrap_eq_ok_iff.mp hopen
  refine ⟨.ofBytes (wrapped.take nonceLength), wrapFrom_of_unwrap hopen ?_⟩
  apply RandomSource.next_ofBytes
  exact List.length_take_of_le hlong

theorem length_of_unwrap (hopen : unwrap master wrapped aad = .ok plain) :
    wrapped.length = plain.length + 28 := by
  obtain ⟨source, hwrapped⟩ := exists_wrapFrom hopen
  exact length_of_wrapWith (source.next nonceLength).1.property hwrapped

/-! ## Clients of one secret -/

/-- A client was built from a secret: directly, by the driver from a
configuration that holds the secret, or by such a construction in a directory,
which has kept the client since. -/
inductive BuiltFrom (secret : String) : Client → Prop where
  | direct (urlPrefix : String) : BuiltFrom secret (client urlPrefix secret)
  | configured {σ : Type} {config : Properties} {url : String} {systems systems' : σ} {x : Client}
      (hsecret : config.get? secretKey = some secret)
      (hconnect : driver.connect config url systems = (.ok x, systems')) : BuiltFrom secret x
  | kept {σ : Type} {ops : List (Operation σ)} {url : String} {x : Client}
      (hslot : ((Directory.empty : Directory σ).afterAll ops).slots.get? url = some (some x))
      (hrequests : ∀ r ∈ (Directory.empty : Directory σ).requests ops, r.url = url →
        ∀ y, r.connected? = some y → BuiltFrom secret y) : BuiltFrom secret x

/-- The driver connects to the client of the secret in its configuration. -/
theorem eq_client_of_connect {σ : Type} {config : Properties} {url secret : String}
    {systems systems' : σ} {x : Client} (hsecret : config.get? secretKey = some secret)
    (hconnect : driver.connect config url systems = (.ok x, systems')) :
    x = client urlPrefix secret := by
  unfold driver at hconnect
  dsimp only at hconnect
  rw [hsecret] at hconnect
  by_cases hempty : secret = ""
  · simp only [Option.filter, hempty, ne_eq, not_true_eq_false, decide_false] at hconnect
    cases (Prod.mk.inj hconnect).1
  · simp only [Option.filter, hempty, ne_eq, not_false_eq_true, decide_true, if_true] at hconnect
    exact (Except.ok.inj (Prod.mk.inj hconnect).1).symm

/-- The client in a slot was connected by a request for its address. -/
theorem exists_request_of_slot {σ : Type} {ops : List (Operation σ)} {url : String} {x : Client}
    (hslot : ((Directory.empty : Directory σ).afterAll ops).slots.get? url = some (some x)) :
    ∃ r ∈ (Directory.empty : Directory σ).requests ops, r.url = url ∧ r.connected? = some x := by
  rw [Directory.get?_afterAll_empty, Option.map_eq_some_iff] at hslot
  obtain ⟨x', hfirst, hx⟩ := hslot
  obtain rfl := Option.some.inj hx
  obtain ⟨r, hr, hconnected⟩ := List.exists_of_findSome?_eq_some hfirst
  rw [List.mem_filter, decide_eq_true_eq] at hr
  exact ⟨r, hr.1, hr.2, hconnected⟩

/-- However it was built, a client is the client of its secret for some beginning
of addresses. -/
theorem BuiltFrom.eq_client {secret : String} {x : Client} (h : BuiltFrom secret x) :
    ∃ urlPrefix, x = client urlPrefix secret := by
  induction h with
  | direct urlPrefix => exact ⟨urlPrefix, rfl⟩
  | configured hsecret hconnect => exact ⟨urlPrefix, eq_client_of_connect hsecret hconnect⟩
  | kept hslot hrequests ih =>
    obtain ⟨r, hr, hurl, hconnected⟩ := exists_request_of_slot hslot
    exact ih r hr hurl _ hconnected

/-- A client gives the handle of its secret for every address that it serves. -/
theorem BuiltFrom.handle_eq {secret url : String} {x : Client} (h : BuiltFrom secret x)
    (hurl : x.supports url = true) : x.handle url = .ok (handle (masterKey secret)) := by
  obtain ⟨urlPrefix, rfl⟩ := h.eq_client
  exact if_pos hurl

/-- Local wrapping inverts exactly, and across clients.  Of two clients of one
secret, the one unwraps every key that the other one has wrapped, and the wrapped
key is longer by the nonce and the tag.  A text that is unwrapped to a key is
what this key is wrapped to with the nonce that the text begins with.  So every
other text, whatever its length, is refused. -/
theorem unwraps_exactly_wrapped {secret url url' : String} {x y : Client}
    (hx : BuiltFrom secret x) (hy : BuiltFrom secret y) (hurl : x.supports url = true)
    (hurl' : y.supports url' = true) :
    ∃ h h', x.handle url = .ok h ∧ y.handle url' = .ok h' ∧ ∀ aad : Bytes,
      (∀ plain : Bytes, plain.length ≤ Cipher.maxLength ∧ aad.length ≤ Cipher.maxLength →
        ∀ source, ∃ wrapped, h.wrapFrom source plain aad = .ok wrapped ∧
          wrapped.length = plain.length + 28 ∧ h'.unwrap wrapped aad = .ok plain) ∧
      (∀ plain : Bytes, ¬ (plain.length ≤ Cipher.maxLength ∧ aad.length ≤ Cipher.maxLength) →
        ∀ source, h.wrapFrom source plain aad = .error (.operation "local KMS wrap failed")) ∧
      (∀ wrapped plain, h'.unwrap wrapped aad = .ok plain → ∀ source : RandomSource,
        (source.next nonceLength).1.val = wrapped.take nonceLength →
        h.wrapFrom source plain aad = .ok wrapped) ∧
      (∀ wrapped, (∀ plain source, h.wrapFrom source plain aad ≠ .ok wrapped) →
        h'.unwrap wrapped aad = .error (refusal wrapped)) ∧
      ∀ wrapped : Bytes, wrapped.length < 28 →
        h'.unwrap wrapped aad = .error (refusal wrapped) := by
  refine ⟨handle (masterKey secret), handle (masterKey secret), hx.handle_eq hurl,
    hy.handle_eq hurl', ?_⟩
  intro aad
  refine ⟨?_, ?_, ?_, ?_, ?_⟩
  · rintro plain ⟨hplain, haad⟩ source
    have hnonce := (source.next nonceLength).1.property
    obtain ⟨wrapped, hwrapped⟩ :=
      exists_wrapWith hplain haad (masterKey secret) (source.next nonceLength).1.val
    exact ⟨wrapped, hwrapped, length_of_wrapWith hnonce hwrapped,
      unwrap_of_wrapWith hnonce hwrapped⟩
  · intro plain hlong source
    exact wrapWith_of_long hlong (masterKey secret) _
  · intro wrapped plain hopen source hnonce
    exact wrapFrom_of_unwrap hopen hnonce
  · intro wrapped hother
    apply unwrap_refused
    intro plain hopen
    obtain ⟨source, hwrapped⟩ := exists_wrapFrom hopen
    exact hother plain source hwrapped
  · intro wrapped hshort
    apply unwrap_refused
    intro plain hopen
    have hlength := length_of_unwrap hopen
    omega

/-- A client with a beginning of its own beside the one that a directory has
connected from its configuration, and a text as short as its nonce. -/
theorem unwraps_exactly_wrapped_kept :
    ∃ (x y : Client) (h h' : Handle), BuiltFrom "shared" x ∧ BuiltFrom "shared" y ∧
      x.supports "fake://k" = true ∧ y.supports "local-kms://k" = true ∧
      x.handle "fake://k" = .ok h ∧ y.handle "local-kms://k" = .ok h' ∧
      (∀ source, ∃ wrapped, h.wrapFrom source [1, 2, 3] [] = .ok wrapped ∧
        wrapped.length = 31 ∧ h'.unwrap wrapped [] = .ok [1, 2, 3]) ∧
      h'.unwrap (Bytes.zeros 12) [] = .error (.operation "local KMS unwrap failed") := by
  let config : Properties := Dict.ofList [("secret", "shared")]
  let r : Request Unit := ⟨driver, config, "local-kms://k", ()⟩
  have hsecret : config.get? secretKey = some "shared" := by decide
  have hslot : ((Directory.empty : Directory Unit).afterAll [.client r]).slots.get?
      "local-kms://k" = some (some (client urlPrefix "shared")) := by
    rw [Directory.get?_afterAll_empty]
    rfl
  have hx : BuiltFrom "shared" (client "fake://" "shared") := .direct "fake://"
  have hy : BuiltFrom "shared" (client urlPrefix "shared") := by
    apply BuiltFrom.kept hslot
    rintro r' hr - y hconnected
    obtain rfl : r' = r := List.mem_singleton.mp hr
    obtain rfl : y = client urlPrefix "shared" := (Option.some.inj hconnected).symm
    have hconnect : (driver : Driver Unit).connect config "local-kms://k" () =
        (.ok (client urlPrefix "shared"), ()) := rfl
    exact .configured hsecret hconnect
  have hurl : (client "fake://" "shared").supports "fake://k" = true := by decide
  have hurl' : (client urlPrefix "shared").supports "local-kms://k" = true := by decide
  obtain ⟨h, h', hh, hh', hwraps⟩ := unwraps_exactly_wrapped hx hy hurl hurl'
  obtain ⟨hshort, -, -, -, htruncated⟩ := hwraps []
  exact ⟨_, _, h, h', hx, hy, hurl, hurl', hh, hh', hshort [1, 2, 3] (by decide),
    htruncated (Bytes.zeros 12) (by decide)⟩

end Local
end Kms
end Envelope
