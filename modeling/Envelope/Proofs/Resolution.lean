import Envelope.Proofs.Clients

/-!
# Resolving drivers

Which driver an address gets follows from the registrations alone.  Each
beginning of addresses keeps the driver that was registered last under it
(`Directory.Follows`), and two different beginnings of one address are never
equally long.  So the longest claim decides, and the order in which the
beginnings came into the directory does not matter.
-/

namespace Envelope
namespace Kms

variable {σ : Type}

/-! ## Beginnings of addresses -/

theorem claims_iff {urlPrefix url : String} :
    claims urlPrefix url = true ↔ urlPrefix.toList <+: url.toList :=
  List.isPrefixOf_iff_prefix

/-- Of two beginnings of one address, the one that is not longer begins the
other one. -/
theorem claims_of_length_le {p q url : String} (hp : claims p url = true)
    (hq : claims q url = true) (hlength : p.length ≤ q.length) : claims p q = true := by
  rw [claims_iff] at hp hq ⊢
  apply List.prefix_of_prefix_length_le hp hq
  rwa [String.length_toList, String.length_toList]

theorem eq_of_length_eq {p q url : String} (hp : claims p url = true) (hq : claims q url = true)
    (hlength : p.length = q.length) : p = q := by
  have hclaims : p.toList <+: q.toList :=
    claims_iff.mp (claims_of_length_le hp hq (Nat.le_of_eq hlength))
  apply String.toList_injective
  apply hclaims.eq_of_length
  rwa [String.length_toList, String.length_toList]

/-- A beginning has no more bytes than the whole. -/
theorem utf8ByteSize_le_of_claims {p q : String} (h : claims p q = true) :
    p.utf8ByteSize ≤ q.utf8ByteSize := by
  obtain ⟨rest, hrest⟩ := claims_iff.mp h
  have hq : q = p ++ String.ofList rest := by
    apply String.toList_injective
    simp [hrest]
  rw [hq, String.utf8ByteSize_append]
  exact Nat.le_add_right _ _

/-- Among the beginnings of one address, characters and bytes give the same
order of lengths. -/
theorem utf8ByteSize_le_iff {p q url : String} (hp : claims p url = true)
    (hq : claims q url = true) : p.utf8ByteSize ≤ q.utf8ByteSize ↔ p.length ≤ q.length := by
  constructor
  · intro hbytes
    by_contra hlonger
    have hclaims := claims_of_length_le hq hp (Nat.le_of_not_le hlonger)
    obtain ⟨rest, hrest⟩ := claims_iff.mp hclaims
    have hp' : p = q ++ String.ofList rest := by
      apply String.toList_injective
      simp [hrest]
    rw [hp', String.utf8ByteSize_append] at hbytes
    have hempty : String.ofList rest = "" := by
      apply String.utf8ByteSize_eq_zero_iff.mp
      omega
    rw [hp', hempty, String.append_empty] at hlonger
    exact hlonger (Nat.le_refl _)
  · intro hlength
    exact utf8ByteSize_le_of_claims (claims_of_length_le hp hq hlength)

/-- Of the beginnings `prefixes`, `p` is the longest one, in bytes, of an
address. -/
structure LongestPrefix (prefixes : List String) (url p : String) : Prop where
  mem : p ∈ prefixes
  claims : Kms.claims p url = true
  longest : ∀ q ∈ prefixes, Kms.claims q url = true → q.utf8ByteSize ≤ p.utf8ByteSize

/-- Beginnings of one address that are equally long are the same. -/
theorem LongestPrefix.unique {prefixes : List String} {url p q : String}
    (hp : LongestPrefix prefixes url p) (hq : LongestPrefix prefixes url q) : p = q := by
  have hpq := hq.longest p hp.mem hp.claims
  have hqp := hp.longest q hq.mem hq.claims
  rw [utf8ByteSize_le_iff hp.claims hq.claims] at hpq
  rw [utf8ByteSize_le_iff hq.claims hp.claims] at hqp
  exact eq_of_length_eq hp.claims hq.claims (Nat.le_antisymm hpq hqp)

/-! ## Registrations -/

/-- The driver that an operation registers. -/
def Operation.registered? : Operation σ → Option (Driver σ)
  | register driver => some driver
  | _ => none

/-- The drivers that operations register, the first one first. -/
def registrations (ops : List (Operation σ)) : List (Driver σ) :=
  ops.filterMap Operation.registered?

/-- The driver registered last under a beginning of addresses. -/
def lastUnder (drivers : List (Driver σ)) (urlPrefix : String) : Option (Driver σ) :=
  (drivers.filter fun d => d.urlPrefix = urlPrefix).getLast?

variable {drivers : List (Driver σ)} {driver : Driver σ} {url urlPrefix : String}

theorem mem_of_lastUnder (h : lastUnder drivers urlPrefix = some driver) :
    driver ∈ drivers ∧ driver.urlPrefix = urlPrefix := by
  have hmem := List.mem_of_getLast? h
  rw [List.mem_filter, decide_eq_true_eq] at hmem
  exact hmem

/-- A beginning has a last driver if and only if a driver was registered under
it. -/
theorem exists_lastUnder_iff :
    (∃ driver, lastUnder drivers urlPrefix = some driver) ↔
      urlPrefix ∈ drivers.map Driver.urlPrefix := by
  rw [List.mem_map]
  constructor
  · rintro ⟨driver, h⟩
    exact ⟨driver, mem_of_lastUnder h⟩
  · rintro ⟨d, hd, hunder⟩
    have hmem : d ∈ drivers.filter fun d => d.urlPrefix = urlPrefix := by
      rw [List.mem_filter, decide_eq_true_eq]
      exact ⟨hd, hunder⟩
    exact Option.ne_none_iff_exists'.mp (mt List.getLast?_eq_none_iff.mp (List.ne_nil_of_mem hmem))

/-- A registration counts for its own beginning and for no other. -/
theorem lastUnder_append_singleton (drivers : List (Driver σ)) (driver : Driver σ)
    (urlPrefix : String) :
    lastUnder (drivers ++ [driver]) urlPrefix =
      if driver.urlPrefix = urlPrefix then some driver else lastUnder drivers urlPrefix := by
  unfold lastUnder
  rw [List.filter_append, List.filter_singleton]
  by_cases hunder : driver.urlPrefix = urlPrefix
  · simp [hunder]
  · simp [hunder]

namespace Directory

variable {k k' : Directory σ}

/-- A directory follows registrations: it has one driver for each beginning of
addresses, the one registered last. -/
structure Follows (k : Directory σ) (drivers : List (Driver σ)) : Prop where
  nodup : (k.drivers.map Driver.urlPrefix).Nodup
  mem_iff : ∀ driver, driver ∈ k.drivers ↔ lastUnder drivers driver.urlPrefix = some driver

theorem follows_empty : (empty : Directory σ).Follows [] := by
  constructor
  · exact List.nodup_nil
  · intro driver
    simp [empty, lastUnder]

theorem Follows.register (h : k.Follows drivers) (driver : Driver σ) :
    (k.register driver).Follows (drivers ++ [driver]) := by
  constructor
  · have hold : ((k.drivers.filter fun d => d.urlPrefix ≠ driver.urlPrefix).map
        Driver.urlPrefix).Nodup :=
      h.nodup.sublist (List.filter_sublist.map _)
    have hnew : driver.urlPrefix ∉
        (k.drivers.filter fun d => d.urlPrefix ≠ driver.urlPrefix).map Driver.urlPrefix := by
      intro hmem
      obtain ⟨d, hd, hunder⟩ := List.mem_map.mp hmem
      rw [List.mem_filter, decide_eq_true_eq] at hd
      exact hd.2 hunder
    show (((k.drivers.filter _) ++ [driver]).map Driver.urlPrefix).Nodup
    rw [List.map_append, List.nodup_append]
    refine ⟨hold, List.nodup_singleton _, ?_⟩
    intro p hp q hq hpq
    obtain rfl : q = driver.urlPrefix := List.mem_singleton.mp hq
    exact hnew (hpq ▸ hp)
  · intro d
    have hmem : d ∈ (k.register driver).drivers ↔
        (d ∈ k.drivers ∧ d.urlPrefix ≠ driver.urlPrefix) ∨ d = driver := by
      simp [Directory.register]
    rw [hmem, h.mem_iff, lastUnder_append_singleton]
    by_cases hunder : driver.urlPrefix = d.urlPrefix
    · rw [if_pos hunder, Option.some.injEq]
      constructor
      · rintro (⟨-, hother⟩ | rfl)
        · exact absurd hunder.symm hother
        · rfl
      · intro hd
        exact .inr hd.symm
    · rw [if_neg hunder]
      constructor
      · rintro (⟨hlast, -⟩ | rfl)
        · exact hlast
        · exact absurd rfl hunder
      · intro hlast
        exact .inl ⟨hlast, Ne.symm hunder⟩

/-- Only a registration changes the drivers. -/
theorem drivers_after_of_unregistered {op : Operation σ} (h : op.registered? = none) :
    (k.after op).drivers = k.drivers := by
  cases op with
  | register driver => cases h
  | resolve url => rfl
  | client r =>
    have hurl : (Operation.client r).url? = some r.url := rfl
    exact drivers_after hurl
  | handle config url systems =>
    have hurl : (Operation.handle config url systems).url? = some url := rfl
    exact drivers_after hurl

/-- What follows some registrations goes on to follow those of operations. -/
theorem Follows.afterAll (h : k.Follows drivers) (ops : List (Operation σ)) :
    (k.afterAll ops).Follows (drivers ++ registrations ops) := by
  induction ops generalizing k drivers with
  | nil =>
    show k.Follows (drivers ++ [])
    rwa [List.append_nil]
  | cons op ops ih =>
    show ((k.after op).afterAll ops).Follows _
    cases hop : op.registered? with
    | none =>
      have hk : (k.after op).Follows drivers := by
        have hdrivers : (k.after op).drivers = k.drivers := drivers_after_of_unregistered hop
        exact ⟨hdrivers ▸ h.nodup, hdrivers ▸ h.mem_iff⟩
      simpa [registrations, hop] using ih hk
    | some driver =>
      have hk : (k.after op).Follows (drivers ++ [driver]) := by
        cases op with
        | register d =>
          obtain rfl := Option.some.inj hop
          exact h.register d
        | resolve url => cases hop
        | client r => cases hop
        | handle config url systems => cases hop
      simpa [registrations, hop] using ih hk

/-! ## Resolving an address -/

variable (hk : k.Follows drivers)

include hk

theorem Follows.mem_prefixes_iff :
    urlPrefix ∈ k.drivers.map Driver.urlPrefix ↔ urlPrefix ∈ drivers.map Driver.urlPrefix := by
  apply Iff.trans _ exists_lastUnder_iff
  rw [List.mem_map]
  constructor
  · rintro ⟨d, hd, rfl⟩
    exact ⟨d, (hk.mem_iff d).mp hd⟩
  · rintro ⟨d, hlast⟩
    obtain ⟨-, rfl⟩ := mem_of_lastUnder hlast
    exact ⟨d, (hk.mem_iff d).mpr hlast, rfl⟩

/-- There are as many drivers as beginnings under which one was registered. -/
theorem Follows.driverCount_eq :
    k.driverCount = (drivers.map Driver.urlPrefix).dedup.length := by
  have hperm : (k.drivers.map Driver.urlPrefix).Perm (drivers.map Driver.urlPrefix).dedup := by
    apply (List.perm_ext_iff_of_nodup hk.nodup (List.nodup_dedup _)).mpr
    intro p
    rw [List.mem_dedup]
    exact hk.mem_prefixes_iff
  have hlength := hperm.length_eq
  rwa [List.length_map] at hlength

/-- An address is resolved if and only if a driver was registered under one of
its beginnings. -/
theorem Follows.exists_resolve_iff :
    (∃ driver, k.resolve url = .ok driver) ↔
      ∃ p ∈ drivers.map Driver.urlPrefix, claims p url = true := by
  rw [Directory.exists_resolve_iff]
  constructor
  · rintro ⟨d, hd, hclaims⟩
    exact ⟨d.urlPrefix, hk.mem_prefixes_iff.mp (List.mem_map_of_mem hd), hclaims⟩
  · rintro ⟨p, hp, hclaims⟩
    obtain ⟨d, hd, rfl⟩ := List.mem_map.mp (hk.mem_prefixes_iff.mpr hp)
    exact ⟨d, hd, hclaims⟩

/-- The driver that an address is resolved to has the longest claim, and is the
last one that was registered with it. -/
theorem Follows.of_resolve (h : k.resolve url = .ok driver) :
    LongestPrefix (drivers.map Driver.urlPrefix) url driver.urlPrefix ∧
      lastUnder drivers driver.urlPrefix = some driver := by
  obtain ⟨hmem, hclaims, hlongest⟩ := resolve_longest h
  refine ⟨⟨hk.mem_prefixes_iff.mp (List.mem_map_of_mem hmem), hclaims, ?_⟩,
    (hk.mem_iff driver).mp hmem⟩
  intro q hq hclaimed
  obtain ⟨d, hd, rfl⟩ := List.mem_map.mp (hk.mem_prefixes_iff.mpr hq)
  rw [utf8ByteSize_le_iff hclaimed hclaims]
  exact hlongest d hd hclaimed

theorem Follows.resolve_eq_ok_iff :
    k.resolve url = .ok driver ↔
      LongestPrefix (drivers.map Driver.urlPrefix) url driver.urlPrefix ∧
        lastUnder drivers driver.urlPrefix = some driver := by
  constructor
  · exact hk.of_resolve
  · rintro ⟨hlongest, hlast⟩
    obtain ⟨d, hd⟩ := hk.exists_resolve_iff.mpr ⟨_, hlongest.mem, hlongest.claims⟩
    obtain ⟨hlongest', hlast'⟩ := hk.of_resolve hd
    rw [hlongest.unique hlongest'] at hlast
    obtain rfl := Option.some.inj (hlast.symm.trans hlast')
    exact hd

/-- Directories that follow registrations with the same last drivers resolve
every address alike. -/
theorem Follows.resolve_congr {drivers' : List (Driver σ)} (hk' : k'.Follows drivers')
    (hlast : ∀ p, lastUnder drivers' p = lastUnder drivers p) (url : String) :
    k'.resolve url = k.resolve url := by
  have hbeginning (p : String) :
      p ∈ drivers'.map Driver.urlPrefix ↔ p ∈ drivers.map Driver.urlPrefix := by
    rw [← exists_lastUnder_iff, ← exists_lastUnder_iff, hlast]
  have hlongest (p : String) : LongestPrefix (drivers'.map Driver.urlPrefix) url p ↔
      LongestPrefix (drivers.map Driver.urlPrefix) url p := by
    constructor
    · intro h
      exact ⟨(hbeginning p).mp h.mem, h.claims, fun q hq => h.longest q ((hbeginning q).mpr hq)⟩
    · intro h
      exact ⟨(hbeginning p).mpr h.mem, h.claims, fun q hq => h.longest q ((hbeginning q).mp hq)⟩
  have hok (driver : Driver σ) : k'.resolve url = .ok driver ↔ k.resolve url = .ok driver := by
    rw [hk.resolve_eq_ok_iff, hk'.resolve_eq_ok_iff, hlongest, hlast]
  cases h : k.resolve url with
  | ok driver => exact (hok driver).mpr h
  | error e =>
    cases h' : k'.resolve url with
    | ok driver =>
      rw [hok, h] at h'
      cases h'
    | error e' => rw [resolve_error h, resolve_error h']

omit hk

/-- Resolution is by the longest prefix, and the last registration wins.  After
any operations on an empty directory, an address has a driver if and only if a
driver was registered under one of its beginnings, and it is the one registered
last under the longest of them.  There are as many drivers as beginnings, and
registrations that end with the same driver for each beginning, in whatever
order, resolve every address alike. -/
theorem resolve_longest_last (ops : List (Operation σ)) :
    let k := (empty : Directory σ).afterAll ops
    let drivers := registrations ops
    (∀ url, (∃ driver, k.resolve url = .ok driver) ↔
      ∃ p ∈ drivers.map Driver.urlPrefix, claims p url = true) ∧
    (∀ url e, k.resolve url = .error e → e = .noDriver url) ∧
    (∀ url driver, k.resolve url = .ok driver ↔
      LongestPrefix (drivers.map Driver.urlPrefix) url driver.urlPrefix ∧
        lastUnder drivers driver.urlPrefix = some driver) ∧
    k.driverCount = (drivers.map Driver.urlPrefix).dedup.length ∧
    ∀ ops' : List (Operation σ),
      (∀ p, lastUnder (registrations ops') p = lastUnder drivers p) →
      ∀ url, ((empty : Directory σ).afterAll ops').resolve url = k.resolve url := by
  intro k drivers
  have hk (ops : List (Operation σ)) :
      ((empty : Directory σ).afterAll ops).Follows (registrations ops) :=
    follows_empty.afterAll ops
  refine ⟨?_, ?_, ?_, (hk ops).driverCount_eq, ?_⟩
  · intro url
    exact (hk ops).exists_resolve_iff
  · intro url e h
    exact resolve_error h
  · intro url driver
    exact (hk ops).resolve_eq_ok_iff
  · intro ops' hlast url
    exact (hk ops).resolve_congr (hk ops') hlast url

/-- A beginning whose driver is replaced after a longer one was registered, and
the drivers that are left in the other order. -/
theorem resolve_longest_last_reordered :
    ∃ (ops ops' : List (Operation Tries)) (driver : Driver Tries),
      (registrations ops).length = 3 ∧ (registrations ops').length = 2 ∧
      (∀ p, lastUnder (registrations ops') p = lastUnder (registrations ops) p) ∧
      driver.urlPrefix = "fake://k" ∧
      ((empty : Directory Tries).afterAll ops).resolve "fake://k1" = .ok driver ∧
      ((empty : Directory Tries).afterAll ops').resolve "fake://k1" = .ok driver := by
  let first := Rehearsal.driver ⟨"fake://", "fake://", "one", 0⟩ 0
  let long := Rehearsal.driver ⟨"fake://k", "fake://", "two", 0⟩ 1
  let second := Rehearsal.driver ⟨"fake://", "fake://", "three", 0⟩ 2
  let ops : List (Operation Tries) := [.register first, .register long, .register second]
  let ops' : List (Operation Tries) := [.register second, .register long]
  have hlast : ∀ p, lastUnder (registrations ops') p = lastUnder (registrations ops) p := by
    intro p
    show lastUnder [second, long] p = lastUnder [first, long, second] p
    by_cases hshort : "fake://" = p
    · subst hshort
      simp [lastUnder, first, second, long, Rehearsal.driver]
    · simp [lastUnder, first, second, Rehearsal.driver, hshort]
  obtain ⟨-, -, hresolve, -, hreordered⟩ := resolve_longest_last ops
  have hlong : ((empty : Directory Tries).afterAll ops).resolve "fake://k1" = .ok long := by
    rw [hresolve]
    refine ⟨⟨by decide, by decide, ?_⟩, rfl⟩
    decide
  refine ⟨ops, ops', long, rfl, rfl, hlast, rfl, hlong, ?_⟩
  rw [hreordered ops' hlast]
  exact hlong

end Directory
end Kms
end Envelope
