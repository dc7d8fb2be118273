import Envelope.Kms.Rehearsal
import Envelope.Proofs.Growth
import Mathlib.Data.List.Dedup

/-!
# Clients

The clients of a directory over any sequence of operations.  A request meets
the systems behind the drivers in a state of its own, so that a driver may
connect or fail as it likes from request to request.

Between two operations a slot always holds a client (`Directory.Settled`): one
that was claimed for a connection is given back if the connection fails
(`attempt_of_unknown`).  So the slots are known from the requests alone, each
with the first client that was connected for its address (`firstClient`).
-/

namespace Envelope
namespace Kms

variable {σ : Type}

/-- A request for the client of an address, and the state in which it finds
the systems. -/
structure Request (σ : Type) where
  driver : Driver σ
  config : Properties
  url : String
  systems : σ

/-- What the constructor of clients comes to when it is run for a request. -/
def Request.connection (r : Request σ) : Except Error Client × σ :=
  r.driver.connect r.config r.url r.systems

/-- The client that is connected if the constructor is run for a request. -/
def Request.connected? (r : Request σ) : Option Client :=
  r.connection.1.toOption

/-- What the caller and the systems see of a request. -/
def Attempt.seen {α : Type} (a : Attempt σ α) : Except Error α × σ × List Event :=
  (a.outcome, a.systems, a.events)

/-- What can be done to a directory. -/
inductive Operation (σ : Type) where
  | register (driver : Driver σ)
  | resolve (url : String)
  | client (r : Request σ)
  /-- Asks for a handle, and so for a client by the driver that claims the
  address. -/
  | handle (config : Properties) (url : String) (systems : σ)

/-- The address that an operation is about. -/
def Operation.url? : Operation σ → Option String
  | register _ => none
  | resolve url => some url
  | client r => some r.url
  | handle _ url _ => some url

/-- The client connected by the first request for an address for which the
constructor succeeds. -/
def firstClient (requests : List (Request σ)) (url : String) : Option Client :=
  (requests.filter fun r => r.url = url).findSome? Request.connected?

/-- The requests up to and including the first one for which the constructor
succeeds. -/
def upToFirstClient : List (Request σ) → List (Request σ)
  | [] => []
  | r :: requests => if r.connected?.isSome then [r] else r :: upToFirstClient requests

namespace Directory

/-- What a request for a client comes to. -/
def attempt (k : Directory σ) (r : Request σ) : Attempt σ Client :=
  k.client r.driver r.config r.url r.systems

/-- The directory after an operation. -/
def after (k : Directory σ) : Operation σ → Directory σ
  | .register driver => k.register driver
  | .resolve _ => k
  | .client r => (k.attempt r).directory
  | .handle config url systems => (k.handle config url systems).directory

/-- The request for a client that an operation makes. -/
def request? (k : Directory σ) : Operation σ → Option (Request σ)
  | .register _ => none
  | .resolve _ => none
  | .client r => some r
  | .handle config url systems =>
    match k.resolve url with
    | .ok driver => some ⟨driver, config, url, systems⟩
    | .error _ => none

/-- The directory after operations. -/
def afterAll (k : Directory σ) (ops : List (Operation σ)) : Directory σ :=
  ops.foldl after k

/-- The requests for clients that operations make. -/
def requests (k : Directory σ) : List (Operation σ) → List (Request σ)
  | [] => []
  | op :: ops => (k.request? op).toList ++ (k.after op).requests ops

/-- The requests for which the constructor is run: those that report that a
client is being connected. -/
def constructions (k : Directory σ) : List (Operation σ) → List (Request σ)
  | [] => []
  | op :: ops =>
    ((k.request? op).toList.filter fun r => (k.attempt r).events ≠ []) ++
      (k.after op).constructions ops

/-- No slot is claimed without a client. -/
def Settled (k : Directory σ) : Prop :=
  ∀ url, k.slots.get? url ≠ some none

theorem settled_empty : (empty : Directory σ).Settled :=
  fun _ h => nomatch h

variable {k : Directory σ} {r : Request σ} {op : Operation σ} {client : Client} {url : String}

/-- An address gets the same from two directories: the same driver, and the
same answer to every request for a client or a handle. -/
def AlikeAt (k k' : Directory σ) (url : String) : Prop :=
  k'.resolve url = k.resolve url ∧
  (∀ r : Request σ, r.url = url → (k'.attempt r).seen = (k.attempt r).seen) ∧
  ∀ config systems, (k'.handle config url systems).seen = (k.handle config url systems).seen

/-! ## One request -/

/-- An address that has a client keeps it; nothing is connected. -/
theorem attempt_of_known (h : k.slots.get? r.url = some (some client)) :
    k.attempt r = ⟨.ok client, k, r.systems, []⟩ := by
  unfold attempt Directory.client
  rw [h]

/-- For an address without slot the constructor is run, and a client is kept
if there is one. -/
theorem attempt_of_unknown (h : k.slots.get? r.url = none) :
    k.attempt r =
      { outcome := r.connection.1
        directory :=
          match r.connected? with
          | some client => { k with slots := k.slots.insert r.url (some client) }
          | none => k
        systems := r.connection.2
        events := [.clientConnecting r.driver.urlPrefix] } := by
  unfold attempt Directory.client Request.connected? Request.connection
  rw [h]
  dsimp only
  cases hconnect : r.driver.connect r.config r.url r.systems with
  | mk outcome systems =>
    cases outcome with
    | ok client =>
      have hslots : (k.slots.insert r.url none).insert r.url (some client) =
          k.slots.insert r.url (some client) := by
        refine Dict.ext_get? fun other => ?_
        simp only [Dict.get?_insert]
        split <;> rfl
      simp only [hslots, Except.toOption]
    | error e =>
      -- the slot that was claimed is given back
      have hslots : (k.slots.insert r.url none).erase r.url = k.slots := by
        refine Dict.ext_get? fun other => ?_
        rw [Dict.get?_erase, Dict.get?_insert]
        by_cases hother : other = r.url
        · rw [if_pos hother, hother, h]
        · rw [if_neg hother, if_neg hother]
      simp only [hslots, Except.toOption]

theorem Settled.get?_cases (hk : k.Settled) (url : String) :
    k.slots.get? url = none ∨ ∃ client, k.slots.get? url = some (some client) := by
  cases h : k.slots.get? url with
  | none => exact .inl rfl
  | some slot =>
    cases slot with
    | none => exact absurd h (hk url)
    | some client => exact .inr ⟨client, rfl⟩

/-- A request fills the slot of its own address, if it was not filled before
and the constructor succeeds. -/
theorem Settled.get?_attempt (hk : k.Settled) (r : Request σ) (url : String) :
    (k.attempt r).directory.slots.get? url =
      (k.slots.get? url).or (if r.url = url then r.connected?.map some else none) := by
  by_cases hurl : r.url = url
  · rw [if_pos hurl]
    obtain h | ⟨client, h⟩ := hk.get?_cases r.url
    · rw [attempt_of_unknown h, ← hurl, h]
      cases hclient : r.connected? with
      | none => exact h
      | some client => exact (Dict.get?_insert _ _ _ _).trans (if_pos rfl)
    · rw [attempt_of_known h, ← hurl, h]
      rfl
  · rw [if_neg hurl, Option.or_none]
    exact (client_connection k _ _ _ _).get?_of_ne (Ne.symm hurl)

/-- Asking for a handle is asking for the client and then the client for the
handle. -/
theorem handle_eq_attempt {driver : Driver σ} (h : k.resolve url = .ok driver)
    (config : Properties) (systems : σ) :
    k.handle config url systems =
      { k.attempt ⟨driver, config, url, systems⟩ with
        outcome := (k.attempt ⟨driver, config, url, systems⟩).outcome >>= fun client =>
          client.handle url } := by
  unfold Directory.handle
  rw [h]
  rfl

theorem handle_eq_error {e : Error} (h : k.resolve url = .error e) (config : Properties)
    (systems : σ) : k.handle config url systems = ⟨.error e, k, systems, []⟩ := by
  unfold Directory.handle
  rw [h]

/-- The handle of an address that has a client comes from this client. -/
theorem handle_of_known (h : k.slots.get? r.url = some (some client))
    (hdriver : k.resolve r.url = .ok r.driver) :
    k.handle r.config r.url r.systems = ⟨client.handle r.url, k, r.systems, []⟩ := by
  rw [handle_eq_attempt hdriver, attempt_of_known h]
  rfl

/-- The handle of an address without slot comes from the client that is connected
for it. -/
theorem handle_of_unknown (h : k.slots.get? r.url = none)
    (hdriver : k.resolve r.url = .ok r.driver) :
    (k.handle r.config r.url r.systems).seen =
      (r.connection.1 >>= fun client => client.handle r.url, r.connection.2,
        [.clientConnecting r.driver.urlPrefix]) := by
  rw [handle_eq_attempt hdriver, attempt_of_unknown h]
  rfl

/-- A connection that fails changes nothing. -/
theorem directory_of_failed {e : Error} (h : k.slots.get? r.url = none)
    (herror : r.connection.1 = .error e) : (k.attempt r).directory = k := by
  rw [attempt_of_unknown h, Request.connected?, herror]
  rfl

/-! ## One operation -/

/-- An operation changes the slots by the request that it makes. -/
theorem slots_after (k : Directory σ) (op : Operation σ) :
    (k.after op).slots =
      (k.request? op).elim k.slots fun r => (k.attempt r).directory.slots := by
  cases op with
  | register driver => rfl
  | resolve url => rfl
  | client r => rfl
  | handle config url systems =>
    cases h : k.resolve url with
    | error e => simp only [after, request?, h, handle_eq_error h, Option.elim_none]
    | ok driver => simp only [after, request?, h, handle_eq_attempt h, Option.elim_some]

theorem Settled.get?_after (hk : k.Settled) (op : Operation σ) (url : String) :
    (k.after op).slots.get? url =
      (k.slots.get? url).or ((firstClient (k.request? op).toList url).map some) := by
  rw [slots_after]
  cases k.request? op with
  | none => exact Option.or_none.symm
  | some r =>
    rw [Option.elim_some, hk.get?_attempt, Option.toList_some, firstClient, List.filter_singleton]
    by_cases hurl : r.url = url
    · simp [hurl]
    · simp [hurl]

theorem Settled.after (hk : k.Settled) (op : Operation σ) : (k.after op).Settled := by
  intro url h
  rw [hk.get?_after] at h
  obtain hnone | ⟨client, hclient⟩ := hk.get?_cases url
  · simp [hnone] at h
  · simp [hclient] at h

/-! ## Operations one after the other -/

theorem firstClient_append (rs rs' : List (Request σ)) (url : String) :
    firstClient (rs ++ rs') url = (firstClient rs url).or (firstClient rs' url) := by
  unfold firstClient
  rw [List.filter_append, List.findSome?_append]

theorem Settled.afterAll (hk : k.Settled) (ops : List (Operation σ)) :
    (k.afterAll ops).Settled := by
  induction ops generalizing k with
  | nil => exact hk
  | cons op ops ih => exact ih (hk.after op)

/-- The slot of an address holds the client that was there, or else the first
one that was connected. -/
theorem Settled.get?_afterAll (hk : k.Settled) (ops : List (Operation σ)) (url : String) :
    (k.afterAll ops).slots.get? url =
      (k.slots.get? url).or ((firstClient (k.requests ops) url).map some) := by
  induction ops generalizing k with
  | nil => exact Option.or_none.symm
  | cons op ops ih =>
    show ((k.after op).afterAll ops).slots.get? url = _
    rw [ih (hk.after op), hk.get?_after, requests, firstClient_append, Option.or_assoc,
      Option.map_or]

/-! ## Constructions -/

/-- The constructor is run for an address without client, and for no other. -/
theorem Settled.events_ne_nil_iff (hk : k.Settled) (r : Request σ) :
    (k.attempt r).events ≠ [] ↔ k.slots.get? r.url = none := by
  obtain h | ⟨client, h⟩ := hk.get?_cases r.url
  · rw [attempt_of_unknown h]
    exact iff_of_true (List.cons_ne_nil _ _) h
  · rw [attempt_of_known h, h]
    exact iff_of_false (fun h => h rfl) (fun h => nomatch h)

/-- The constructor is run for the requests for an address up to the first one
that succeeds, and not at all if there is a client already. -/
theorem Settled.filter_constructions (hk : k.Settled) (ops : List (Operation σ)) (url : String) :
    (k.constructions ops).filter (fun r => r.url = url) =
      if k.slots.get? url = none then
        upToFirstClient ((k.requests ops).filter fun r => r.url = url)
      else [] := by
  induction ops generalizing k with
  | nil =>
    unfold constructions requests
    split <;> rfl
  | cons op ops ih =>
    have hslot := hk.get?_after op url
    rw [constructions, requests, List.filter_append, List.filter_append, ih (hk.after op), hslot]
    cases hop : k.request? op with
    | none => simp [firstClient]
    | some r =>
      by_cases hurl : r.url = url
      · subst hurl
        by_cases h : k.slots.get? r.url = none
        · have hevents := (hk.events_ne_nil_iff r).mpr h
          cases hclient : r.connected? with
          | none => simp [firstClient, hevents, h, hclient, upToFirstClient]
          | some client => simp [firstClient, hevents, h, hclient, upToFirstClient]
        · have hevents := mt (hk.events_ne_nil_iff r).mp h
          simp at hevents
          simp [hevents, h]
      · simp [firstClient, hurl]

theorem filter_constructions_empty (ops : List (Operation σ)) (url : String) :
    ((empty : Directory σ).constructions ops).filter (fun r => r.url = url) =
      upToFirstClient (((empty : Directory σ).requests ops).filter fun r => r.url = url) :=
  (settled_empty.filter_constructions ops url).trans (if_pos rfl)

theorem get?_afterAll_empty (ops : List (Operation σ)) (url : String) :
    ((empty : Directory σ).afterAll ops).slots.get? url =
      (firstClient ((empty : Directory σ).requests ops) url).map some :=
  settled_empty.get?_afterAll ops url

/-! ## Counts -/

theorem mem_upToFirstClient_iff {requests : List (Request σ)} :
    (∃ r ∈ upToFirstClient requests, r.connected?.isSome) ↔
      (requests.findSome? Request.connected?).isSome := by
  induction requests with
  | nil => simp [upToFirstClient]
  | cons r requests ih =>
    unfold upToFirstClient
    cases h : r.connected? with
    | none => simp [h, ih]
    | some client => simp [h]

/-- The addresses for which a constructor succeeded are those with a first
client. -/
theorem mem_connected_iff (ops : List (Operation σ)) (url : String) :
    url ∈ (((empty : Directory σ).constructions ops).filter fun r => r.connected?.isSome).map
        Request.url ↔
      (firstClient ((empty : Directory σ).requests ops) url).isSome := by
  rw [firstClient, ← mem_upToFirstClient_iff, ← filter_constructions_empty]
  simp only [List.mem_map, List.mem_filter, decide_eq_true_eq]
  constructor
  · rintro ⟨r, ⟨hr, hclient⟩, hurl⟩
    exact ⟨r, ⟨hr, hurl⟩, hclient⟩
  · rintro ⟨r, ⟨hr, hurl⟩, hclient⟩
    exact ⟨r, ⟨hr, hclient⟩, hurl⟩

theorem Settled.slotCount_eq (hk : k.Settled) : k.slotCount = k.clientCount := by
  unfold slotCount clientCount Dict.size
  rw [List.filter_eq_self.mpr]
  intro slot hslot
  obtain h | ⟨client, h⟩ := hk.get?_cases slot.1
  · simp [(Dict.mem_entries_iff _).mp hslot] at h
  · rw [(Dict.mem_entries_iff _).mp hslot] at h
    simp [Option.some.inj h]

/-- The slots are counted by any list of the addresses that have one. -/
theorem slotCount_eq_length {urls : List String} (hurls : urls.Nodup)
    (h : ∀ url, url ∈ urls ↔ (k.slots.get? url).isSome) : k.slotCount = urls.length := by
  have hkeys : (k.slots.entries.map Prod.fst).Nodup := by
    refine List.pairwise_map.mpr (k.slots.increasing.imp fun hlt heq => ?_)
    exact String.lt_irrefl _ (heq ▸ hlt)
  have hperm : (k.slots.entries.map Prod.fst).Perm urls := by
    refine (List.perm_ext_iff_of_nodup hkeys hurls).mpr fun url => ?_
    rw [h, Option.isSome_iff_exists]
    simp only [List.mem_map, Dict.mem_entries_iff]
    constructor
    · rintro ⟨entry, hentry, rfl⟩
      exact ⟨entry.2, hentry⟩
    · rintro ⟨slot, hslot⟩
      exact ⟨(url, slot), hslot, rfl⟩
  exact (List.length_map Prod.fst).symm.trans hperm.length_eq

/-! ## Addresses -/

theorem alikeAt_of_slots {k' : Directory σ} (hk : k.Settled)
    (hresolve : k'.resolve url = k.resolve url)
    (hslots : k'.slots.get? url = k.slots.get? url) : k.AlikeAt k' url := by
  have hattempt (r : Request σ) (hr : r.url = url) : (k'.attempt r).seen = (k.attempt r).seen := by
    subst hr
    obtain h | ⟨client, h⟩ := hk.get?_cases r.url
    · rw [attempt_of_unknown h, attempt_of_unknown (hslots.trans h)]
      rfl
    · rw [attempt_of_known h, attempt_of_known (hslots.trans h)]
      rfl
  refine ⟨hresolve, hattempt, fun config systems => ?_⟩
  cases h : k.resolve url with
  | error e =>
    rw [handle_eq_error h, handle_eq_error (hresolve.trans h)]
    rfl
  | ok driver =>
    have hseen := hattempt ⟨driver, config, url, systems⟩ rfl
    rw [handle_eq_attempt h, handle_eq_attempt (hresolve.trans h)]
    simp only [Attempt.seen, Prod.mk.injEq] at hseen ⊢
    rw [hseen.1, hseen.2.1, hseen.2.2]
    exact ⟨rfl, rfl, rfl⟩

theorem url?_of_request? (h : k.request? op = some r) : op.url? = some r.url := by
  cases op with
  | register driver => nomatch h
  | resolve url => nomatch h
  | client r' =>
    obtain rfl := Option.some.inj h
    rfl
  | handle config url systems =>
    unfold request? at h
    cases hdriver : k.resolve url with
    | error e => simp [hdriver] at h
    | ok driver =>
      simp only [hdriver, Option.some.injEq] at h
      subst h
      rfl

theorem drivers_after (h : op.url? = some url) : (k.after op).drivers = k.drivers := by
  cases op with
  | register driver => nomatch h
  | resolve url' => rfl
  | client r => exact (client_connection k _ _ _ _).drivers
  | handle config url' systems =>
    cases hdriver : k.resolve url' with
    | error e => simp only [after, handle_eq_error hdriver]
    | ok driver =>
      simp only [after, handle_eq_attempt hdriver]
      exact (client_connection k _ _ _ _).drivers

/-- What is done about one address does not change what another one gets. -/
theorem Settled.alikeAt_after (hk : k.Settled) (h : op.url? = some url) {other : String}
    (hother : other ≠ url) : k.AlikeAt (k.after op) other := by
  refine alikeAt_of_slots hk (resolve_of_drivers (drivers_after h) other) ?_
  have hnone : firstClient (k.request? op).toList other = none := by
    cases hr : k.request? op with
    | none => rfl
    | some r =>
      obtain rfl := Option.some.inj (h.symm.trans (url?_of_request? hr))
      simp [firstClient, hother.symm]
  rw [hk.get?_after, hnone, Option.map_none, Option.or_none]

/-- Clients are sticky.  For each address the constructor is run for the
requests up to and including the first one that succeeds.  The client it gives
then is the client of the address for good: whatever is done later, a request
gets it by any driver and with any configuration, and nothing is connected.
Until then a request comes to what the constructor comes to, and a failed
construction changes nothing.  What is done about one address is not seen at
another one.  There are as many slots as clients, and as many clients as
addresses for which a constructor succeeded. -/
theorem clients_sticky (ops : List (Operation σ)) :
    let k := (empty : Directory σ).afterAll ops
    let requests := (empty : Directory σ).requests ops
    let constructions := (empty : Directory σ).constructions ops
    (∀ url, constructions.filter (fun r => r.url = url) =
      upToFirstClient (requests.filter fun r => r.url = url)) ∧
    (∀ r client, firstClient requests r.url = some client → ∀ more,
      let k' := k.afterAll more
      k'.attempt r = ⟨.ok client, k', r.systems, []⟩ ∧
      (k'.resolve r.url = .ok r.driver →
        k'.handle r.config r.url r.systems = ⟨client.handle r.url, k', r.systems, []⟩)) ∧
    (∀ r, firstClient requests r.url = none →
      (k.attempt r).seen =
        (r.connection.1, r.connection.2, [.clientConnecting r.driver.urlPrefix]) ∧
      (k.resolve r.url = .ok r.driver →
        (k.handle r.config r.url r.systems).seen =
          (r.connection.1 >>= fun client => client.handle r.url, r.connection.2,
            [.clientConnecting r.driver.urlPrefix])) ∧
      ∀ e, r.connection.1 = .error e →
        (k.attempt r).directory = k ∧
        (k.resolve r.url = .ok r.driver → (k.handle r.config r.url r.systems).directory = k)) ∧
    (∀ op url, op.url? = some url → ∀ other, other ≠ url → k.AlikeAt (k.after op) other) ∧
    k.slotCount = k.clientCount ∧
    k.clientCount =
      ((constructions.filter fun r => r.connected?.isSome).map Request.url).dedup.length := by
  intro k requests constructions
  have hk : k.Settled := settled_empty.afterAll ops
  have hslots (url : String) : k.slots.get? url = (firstClient requests url).map some :=
    get?_afterAll_empty ops url
  refine ⟨filter_constructions_empty ops, ?_, ?_, fun op url h other => hk.alikeAt_after h,
    hk.slotCount_eq, ?_⟩
  · intro r client hclient more k'
    have hknown : k'.slots.get? r.url = some (some client) := by
      rw [hk.get?_afterAll, hslots, hclient]
      rfl
    exact ⟨attempt_of_known hknown, handle_of_known hknown⟩
  · intro r hclient
    have hunknown : k.slots.get? r.url = none := by
      rw [hslots, hclient]
      rfl
    refine ⟨?_, handle_of_unknown hunknown, fun e herror => ?_⟩
    · rw [attempt_of_unknown hunknown]
      rfl
    · have hdirectory := directory_of_failed hunknown herror
      refine ⟨hdirectory, fun hdriver => ?_⟩
      rw [handle_eq_attempt hdriver]
      exact hdirectory
  · rw [← hk.slotCount_eq]
    refine slotCount_eq_length (List.nodup_dedup _) fun url => ?_
    rw [List.mem_dedup, mem_connected_iff, hslots, Option.isSome_map]

/-- A driver that refuses once: its second connection gives the client, which
a driver with a longer claim and another configuration does not replace. -/
example :
    let first := Rehearsal.driver ⟨"fake://", "fake://", "secret", 1⟩ 0
    let second := Rehearsal.driver ⟨"fake://k", "fake://", "other", 0⟩ 1
    let k := (empty : Directory Tries).afterAll
      [.register first, .handle ∅ "fake://k1" [0, 0], .handle ∅ "fake://k1" [1, 0],
        .register second, .handle (Dict.ofList [("a", "1")]) "fake://k1" [2, 0],
        .handle ∅ "fake://k2" [2, 0]]
    (k.driverCount, k.slotCount, k.clientCount) = (2, 2, 2) := by
  decide +kernel

end Directory
end Kms
end Envelope
