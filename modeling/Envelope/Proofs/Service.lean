import Envelope.Kms.Local
import Envelope.Proofs.Faithful
import Envelope.Proofs.Growth

/-!
# Working key management systems

An address works for a configuration (`Kms.Directory.Works`) if a client can be
connected to it in every state of the systems behind the drivers, and if every
client of the address, old or new, wraps data keys so that one and the same
function unwraps them.  An address that works goes on working, whatever handles
are asked for meanwhile.

Much less is asked of a directory that is sound (`Kms.Directory.Sound`): its
drivers may fail to connect and its handles may fail to wrap, but what a handle
has wrapped it unwraps again.  A handle that is discreet (`Kms.Handle.Discreet`)
shows nothing of a key that it wraps but the length.
-/

namespace Envelope

open Program KeyRing

namespace Kms

/-- A handle wraps every key of an algorithm, and unwraps as a function does
that gives the key back. -/
structure Handle.Serves (handle : Handle) (unwrap : Bytes → Except Error Bytes) : Prop where
  unwraps : Unwraps handle unwrap
  wraps : ∀ (a : Algorithm) (key : Bytes), key.length = a.keyLength →
    ∀ t r, Runs (handle.wrap key []) t r → ∃ wrapped, r = .ok wrapped ∧ unwrap wrapped = .ok key

/-- A client has such a handle for an address. -/
def Client.Serves (client : Client) (url : String) (unwrap : Bytes → Except Error Bytes) : Prop :=
  ∃ handle, client.handle url = .ok handle ∧ handle.Serves unwrap

namespace Directory

variable {σ : Type} {k : Directory σ} {config config' : Properties} {url url' : String}
  {unwrap : Bytes → Except Error Bytes} {systems : σ}

/-- A client for an address can always be connected, and every client of the
address wraps keys for the same function. -/
structure Works (k : Directory σ) (config : Properties) (url : String)
    (unwrap : Bytes → Except Error Bytes) : Prop where
  connects : ∃ driver, k.resolve url = .ok driver ∧ ∀ systems, ∃ client systems',
    driver.connect config url systems = (.ok client, systems') ∧ client.Serves url unwrap
  known : ∀ client, k.slots.get? url = some (some client) → client.Serves url unwrap

theorem Connection.serves {driver : Driver σ} {attempt : Attempt σ Client}
    (h : k.Connection driver config url systems attempt) (hworks : k.Works config url unwrap)
    (hdriver : k.resolve url = .ok driver) :
    ∃ client, attempt.outcome = .ok client ∧ client.Serves url unwrap := by
  obtain ⟨driver', hdriver', hconnects⟩ := hworks.connects
  obtain rfl := Except.ok.inj (hdriver.symm.trans hdriver')
  obtain ⟨client', systems', hconnect', hserves⟩ := hconnects systems
  cases h with
  | known client hclient => exact ⟨client, rfl, hworks.known client hclient⟩
  | connected hnew client systems'' events slots hconnect hslots =>
    rw [hconnect'] at hconnect
    cases hconnect
    exact ⟨client', rfl, hserves⟩
  | refused hnew e systems'' events slots hconnect hslots =>
    rw [hconnect'] at hconnect
    cases hconnect

/-- An address that works hands a handle out. -/
theorem Works.handle_outcome (h : k.Works config url unwrap) (systems : σ) :
    ∃ handle, (k.handle config url systems).outcome = .ok handle ∧ handle.Serves unwrap := by
  obtain ⟨driver, hdriver, -⟩ := h.connects
  have hconnection := client_connection k driver config url systems
  obtain ⟨client, hclient, handle, hhandle, hserves⟩ := hconnection.serves h hdriver
  have houtcome := (handle_of_resolve hdriver config systems).2
  rw [hclient] at houtcome
  exact ⟨handle, houtcome.trans hhandle, hserves⟩

/-- An address goes on working after a handle was asked for, here or elsewhere. -/
theorem Works.handle (h : k.Works config url unwrap)
    (hother : url = url' → k.Works config' url' unwrap) :
    (k.handle config' url' systems).directory.Works config url unwrap := by
  cases hresolve : k.resolve url' with
  | error e =>
    rw [(handle_of_unresolved hresolve config' systems).1]
    exact h
  | ok driver =>
    have hconnection := client_connection k driver config' url' systems
    rw [(handle_of_resolve hresolve config' systems).1]
    constructor
    · rw [resolve_of_drivers hconnection.drivers]
      exact h.connects
    · intro client hclient
      rcases hconnection.get?_cases hclient with hclient | ⟨rfl, houtcome⟩
      · exact h.known client hclient
      · obtain ⟨client', houtcome', hserves⟩ := hconnection.serves (hother rfl) hresolve
        rw [houtcome] at houtcome'
        obtain rfl := Except.ok.inj houtcome'
        exact hserves

end Directory

/-! ## Handles on offer -/

/-- A client hands out only handles that have a property. -/
def Client.Offers (P : Handle → Prop) (client : Client) : Prop :=
  ∀ url handle, client.handle url = .ok handle → P handle

/-- A driver connects only to such clients. -/
def Driver.Offers {σ : Type} (P : Handle → Prop) (driver : Driver σ) : Prop :=
  ∀ config url systems client systems',
    driver.connect config url systems = (.ok client, systems') → client.Offers P

namespace Directory

variable {σ : Type} {k : Directory σ} {driver : Driver σ} {config : Properties} {url : String}
  {systems : σ} {P : Handle → Prop}

/-- Every handle that a directory hands out, now or later, has a property. -/
structure Offers (P : Handle → Prop) (k : Directory σ) : Prop where
  drivers : ∀ driver ∈ k.drivers, driver.Offers P
  clients : ∀ url client, k.slots.get? url = some (some client) → client.Offers P

theorem Connection.offers {attempt : Attempt σ Client}
    (h : k.Connection driver config url systems attempt) (hoffers : k.Offers P)
    (hdriver : driver.Offers P) :
    attempt.directory.Offers P ∧ ∀ client, attempt.outcome = .ok client → client.Offers P := by
  have hok : ∀ client, attempt.outcome = .ok client → client.Offers P := by
    intro client hclient
    cases h with
    | known client' hknown =>
      obtain rfl := Except.ok.inj hclient
      exact hoffers.clients url client' hknown
    | connected hnew client' systems' events slots hconnect hslots =>
      obtain rfl := Except.ok.inj hclient
      exact hdriver config url systems client' systems' hconnect
    | refused hnew e systems' events slots hconnect hslots => cases hclient
  refine ⟨⟨h.drivers.symm ▸ hoffers.drivers, fun other client hclient => ?_⟩, hok⟩
  rcases h.get?_cases hclient with hold | ⟨-, houtcome⟩
  · exact hoffers.clients other client hold
  · exact hok client houtcome

theorem Offers.of_handle (h : k.Offers P) {handle : Handle}
    (hhandle : (k.handle config url systems).outcome = .ok handle) : P handle := by
  cases hresolve : k.resolve url with
  | error e =>
    rw [(handle_of_unresolved hresolve config systems).2] at hhandle
    cases hhandle
  | ok driver =>
    have hdriver : driver.Offers P := h.drivers driver (mem_of_resolve hresolve)
    obtain ⟨-, hclients⟩ := (client_connection k driver config url systems).offers h hdriver
    rw [(handle_of_resolve hresolve config systems).2] at hhandle
    cases hclient : (k.client driver config url systems).outcome with
    | error e =>
      rw [hclient] at hhandle
      cases hhandle
    | ok client =>
      rw [hclient] at hhandle
      exact hclients client hclient url handle hhandle

/-- Asking for a handle changes nothing about the handles on offer. -/
theorem Offers.handle (h : k.Offers P) : (k.handle config url systems).directory.Offers P := by
  cases hresolve : k.resolve url with
  | error e =>
    rw [(handle_of_unresolved hresolve config systems).1]
    exact h
  | ok driver =>
    have hdriver : driver.Offers P := h.drivers driver (mem_of_resolve hresolve)
    rw [(handle_of_resolve hresolve config systems).1]
    exact ((client_connection k driver config url systems).offers h hdriver).1

theorem Offers.register (h : k.Offers P) (hdriver : driver.Offers P) :
    (k.register driver).Offers P := by
  refine ⟨fun other hother => ?_, h.clients⟩
  rcases List.mem_append.mp hother with hold | hnew
  · exact h.drivers other (List.mem_of_mem_filter hold)
  · obtain rfl := List.mem_singleton.mp hnew
    exact hdriver

end Directory

/-! ## Sound key management systems -/

/-- What a handle has wrapped, it unwraps again. -/
def Handle.Inverts (handle : Handle) : Prop :=
  ∀ (plain aad wrapped : Bytes) (t : List (Exchange Draw.signature)),
    Runs (handle.wrap plain aad) t (.ok wrapped) → handle.unwrap wrapped aad = .ok plain

/-- A client hands out only handles that unwrap what they have wrapped. -/
def Client.Sound (client : Client) : Prop :=
  ∀ url handle, client.handle url = .ok handle → handle.Inverts

/-- A driver connects only to such clients. -/
def Driver.Sound {σ : Type} (driver : Driver σ) : Prop :=
  ∀ config url systems client systems',
    driver.connect config url systems = (.ok client, systems') → client.Sound

namespace Directory

variable {σ : Type} {k : Directory σ} {driver : Driver σ} {config : Properties} {url : String}
  {systems : σ}

/-- The drivers of a directory connect only to sound clients, and its clients
are sound. -/
structure Sound (k : Directory σ) : Prop where
  drivers : ∀ driver ∈ k.drivers, driver.Sound
  clients : ∀ url client, k.slots.get? url = some (some client) → client.Sound

theorem sound_iff_offers : k.Sound ↔ k.Offers Handle.Inverts :=
  ⟨fun h => ⟨h.drivers, h.clients⟩, fun h => ⟨h.drivers, h.clients⟩⟩

/-- A sound directory hands out handles that unwrap what they have wrapped. -/
theorem Sound.inverts (h : k.Sound) {handle : Handle}
    (hhandle : (k.handle config url systems).outcome = .ok handle) : handle.Inverts :=
  (sound_iff_offers.mp h).of_handle hhandle

/-- A directory stays sound when a handle is asked for. -/
theorem Sound.handle (h : k.Sound) : (k.handle config url systems).directory.Sound :=
  sound_iff_offers.mpr (sound_iff_offers.mp h).handle

/-- A directory stays sound when a sound driver is registered. -/
theorem Sound.register (h : k.Sound) (hdriver : driver.Sound) : (k.register driver).Sound :=
  sound_iff_offers.mpr ((sound_iff_offers.mp h).register hdriver)

theorem sound_empty : (empty : Directory σ).Sound :=
  ⟨nofun, nofun⟩

end Directory

/-! ## Discreet key management systems -/

/-- A handle unwraps what it has wrapped, and whether it wraps a key, how it
fails, and how long the wrapped key is depend neither on the bytes of the key nor
on those that are drawn, but only on the length of the key. -/
structure Handle.Discreet (handle : Handle) : Prop where
  inverts : handle.Inverts
  even : ∀ {plain plain' aad : Bytes} {t t' : List (Exchange Draw.signature)}
    {r r' : Except Error Bytes}, plain'.length = plain.length →
    Runs (handle.wrap plain aad) t r → Runs (handle.wrap plain' aad) t' r' →
    r'.map List.length = r.map List.length

/-! ## Plain keys -/

namespace Plain

/-- A handle for which every key is its own wrapping. -/
def handle : Handle where
  wrap plain _ := pure (.ok plain)
  unwrap wrapped _ := .ok wrapped

/-- A client that has this handle for every address. -/
def client : Client where
  supports _ := true
  handle _ := .ok handle

/-- A driver that always connects to this client. -/
def driver {σ : Type} (urlPrefix : String) : Driver σ where
  urlPrefix := urlPrefix
  connect _ _ := pure (.ok client)

theorem serves_client (url : String) : client.Serves url .ok := by
  refine ⟨handle, rfl, fun _ => rfl, fun a key hlength t r hwrap => ?_⟩
  obtain ⟨-, rfl⟩ := runs_done_iff.mp hwrap
  exact ⟨key, rfl, rfl⟩

theorem works {σ : Type} {k : Directory σ} {config : Properties} {url urlPrefix : String}
    (hdriver : k.resolve url = .ok (driver urlPrefix))
    (hnew : ∀ client, k.slots.get? url ≠ some (some client)) : k.Works config url .ok := by
  refine ⟨⟨driver urlPrefix, hdriver, fun systems => ?_⟩, fun client hclient => ?_⟩
  · exact ⟨client, systems, rfl, serves_client url⟩
  · exact absurd hclient (hnew client)

theorem inverts_handle : handle.Inverts := by
  intro plain aad wrapped t hwrap
  obtain ⟨-, hwrapped⟩ := runs_done_iff.mp hwrap
  exact hwrapped

theorem discreet_handle : handle.Discreet := by
  refine ⟨inverts_handle, fun hlength hwrap hwrap' => ?_⟩
  obtain ⟨-, rfl⟩ := runs_done_iff.mp hwrap
  obtain ⟨-, rfl⟩ := runs_done_iff.mp hwrap'
  exact congrArg Except.ok hlength

theorem offers_driver {σ : Type} (urlPrefix : String) {P : Handle → Prop} (h : P handle) :
    (driver urlPrefix : Driver σ).Offers P := by
  intro config url systems client' systems' hconnect url' handle' hhandle
  obtain rfl := Except.ok.inj (Prod.mk.inj hconnect).1
  obtain rfl := Except.ok.inj hhandle
  exact h

theorem sound_driver {σ : Type} (urlPrefix : String) : (driver urlPrefix : Driver σ).Sound :=
  offers_driver urlPrefix inverts_handle

end Plain

/-! ## The local key management system -/

namespace Local

theorem wrapWith_of_length {master nonce plain : Bytes} {a : Algorithm}
    (hlength : plain.length = a.keyLength) :
    ∃ wrapped, wrapWith master nonce plain [] = .ok wrapped := by
  have hshort : ¬ (Cipher.maxLength < plain.length ∨ Cipher.maxLength < ([] : Bytes).length) := by
    rw [hlength]
    cases a <;> decide
  unfold wrapWith Cipher.GcmSiv.encrypt
  rw [if_neg hshort]
  exact ⟨_, rfl⟩

theorem unwrap_of_wrapWith {master nonce plain aad wrapped : Bytes}
    (hnonce : nonce.length = nonceLength) (h : wrapWith master nonce plain aad = .ok wrapped) :
    unwrap master wrapped aad = .ok plain := by
  unfold wrapWith at h
  split at h
  · rename_i text hseal
    obtain rfl := Except.ok.inj h
    have htake : (nonce ++ text).take nonceLength = nonce := List.take_left' hnonce
    have hdrop : (nonce ++ text).drop nonceLength = text := List.drop_left' hnonce
    have hlong : ¬ (nonce ++ text).length < nonceLength := by
      rw [List.length_append, hnonce]
      omega
    have hopen := Cipher.GcmSiv.decrypt_eq_some_iff.mpr hseal
    rw [unwrap, if_neg hlong, htake, hdrop, hopen]
  · cases h

/-- A local master key serves. -/
theorem serves_handle (master : Bytes) :
    (Local.handle master).Serves fun wrapped => unwrap master wrapped [] := by
  refine ⟨fun _ => rfl, fun a key hlength t r hwrap => ?_⟩
  obtain ⟨t₁, t₂, nonce, -, hdone, rfl⟩ := runs_bind_iff.mp hwrap
  obtain ⟨-, rfl⟩ := runs_done_iff.mp hdone
  obtain ⟨wrapped, hwrapped⟩ := wrapWith_of_length hlength
  exact ⟨wrapped, hwrapped, unwrap_of_wrapWith nonce.property hwrapped⟩

theorem inverts_handle (master : Bytes) : (Local.handle master).Inverts := by
  intro plain aad wrapped t hwrap
  obtain ⟨t₁, t₂, nonce, -, hdone, -⟩ := runs_bind_iff.mp hwrap
  obtain ⟨-, hwrapped⟩ := runs_done_iff.mp hdone
  exact unwrap_of_wrapWith nonce.property hwrapped.symm

/-- How long a wrapped key is, and whether there is one, is a matter of lengths. -/
theorem length_wrapWith (master nonce plain aad : Bytes) :
    (wrapWith master nonce plain aad).map List.length =
      if Cipher.maxLength < plain.length ∨ Cipher.maxLength < aad.length then
        .error (.operation "local KMS wrap failed")
      else
        .ok (nonce.length + (plain.length + 16)) := by
  unfold wrapWith Cipher.GcmSiv.encrypt
  by_cases hlong : Cipher.maxLength < plain.length ∨ Cipher.maxLength < aad.length
  · rw [if_pos hlong, if_pos hlong]
    rfl
  · rw [if_neg hlong, if_neg hlong]
    simp only [Except.map, List.length_append, Cipher.GcmSiv.length_crypt,
      Cipher.GcmSiv.length_tag]

theorem discreet_handle (master : Bytes) : (Local.handle master).Discreet := by
  refine ⟨inverts_handle master, fun {plain plain' aad t t' r r'} hlength hwrap hwrap' => ?_⟩
  obtain ⟨_, _, nonce, -, hdone, -⟩ := runs_bind_iff.mp hwrap
  obtain ⟨_, _, nonce', -, hdone', -⟩ := runs_bind_iff.mp hwrap'
  obtain ⟨-, rfl⟩ := runs_done_iff.mp hdone
  obtain ⟨-, rfl⟩ := runs_done_iff.mp hdone'
  rw [length_wrapWith, length_wrapWith, hlength, nonce.property, nonce'.property]

theorem offers_driver {σ : Type} {P : Handle → Prop} (h : ∀ master, P (Local.handle master)) :
    (driver : Driver σ).Offers P := by
  intro config url systems client' systems' hconnect url' handle' hhandle
  unfold driver at hconnect
  dsimp only at hconnect
  cases hsecret : (config.get? secretKey).filter fun secret => secret ≠ "" with
  | none =>
    rw [hsecret] at hconnect
    cases (Prod.mk.inj hconnect).1
  | some secret =>
    rw [hsecret] at hconnect
    obtain rfl := Except.ok.inj (Prod.mk.inj hconnect).1
    by_cases hclaims : claims urlPrefix url' = true
    · simp only [client, hclaims, if_true] at hhandle
      obtain rfl := Except.ok.inj hhandle
      exact h (masterKey secret)
    · simp [client, hclaims] at hhandle

/-- Local clients unwrap what they have wrapped. -/
theorem sound_driver {σ : Type} : (driver : Driver σ).Sound :=
  offers_driver inverts_handle

/-- Where the local driver is responsible and no client is connected yet, every
local address works for a configuration with a secret. -/
theorem works {σ : Type} {k : Directory σ} {config : Properties} {url secret : String}
    (hdriver : k.resolve url = .ok driver) (hnew : ∀ client, k.slots.get? url ≠ some (some client))
    (hsecret : config.get? secretKey = some secret) (hnonempty : secret ≠ "")
    (hurl : claims urlPrefix url = true) :
    k.Works config url fun wrapped => unwrap (masterKey secret) wrapped [] := by
  refine ⟨⟨driver, hdriver, fun systems => ?_⟩, fun client hclient => absurd hclient (hnew client)⟩
  refine ⟨client urlPrefix secret, systems, ?_, handle (masterKey secret), ?_, serves_handle _⟩
  · have hkept : (config.get? secretKey).filter (fun secret => secret ≠ "") = some secret := by
      simp [hsecret, Option.filter, hnonempty]
    unfold driver
    dsimp only
    rw [hkept]
    rfl
  · simp [client, hurl]

end Local
end Kms
end Envelope
