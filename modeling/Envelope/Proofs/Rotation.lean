import Envelope.Proofs.Evolution
import Envelope.Proofs.Expiry

/-!
# The chain of versions

Where data keys are registered by executors alone, the versions in a file are
1, 2, 3 and so on, without gaps (`Store.Chained`).  A writer appends the first
version to an empty file, and to another one the next version once the newest
one has expired for the writer (`Executor.Appends`).  Everything said here about
the versions of a deployment comes from these two facts.
-/

namespace Envelope

open Program Engine KeyRing

/-! ## Expiry in whole numbers -/

namespace KeyRing

variable {ring : KeyRing} {mode : Mode} {now : Int64} {dek : Dek}

/-- An expired record is at least as old as the expiry says. -/
theorem age_of_isExpired (h : ring.isExpired mode now (some dek) = .ok true) :
    ring.rotates = true ∧
      dek.timestamp.toInt + 86400000 * (ring.expiryDays.toNat : Int) ≤ now.toInt := by
  obtain ⟨-, hpositive, -, hage⟩ := isExpired_iff.mp h
  unfold age at hage
  exact ⟨rotates_iff.mpr hpositive, by omega⟩

end KeyRing

/-! ## Chained files -/

namespace Store

variable {s s' : Store} {path : DekPath}

/-- The files of a store are in order, the versions in each are 1, 2, … without
gaps, and no record is older than the clock can tell. -/
structure Chained (s : Store) : Prop where
  filed : s.Filed
  numbered : ∀ path, (s.file path).map (fun dek => dek.version.toNat) =
    List.range' 1 (s.file path).length
  stamped : ∀ path, ∀ dek ∈ s.file path, 0 ≤ dek.timestamp

theorem chained_empty : Chained ∅ :=
  ⟨filed_empty, fun _ => rfl, fun _ _ hdek => nomatch hdek⟩

theorem Chained.congr (h : s.Chained) (hfile : ∀ path, s'.file path = s.file path) :
    s'.Chained := by
  have hfile' : s'.file = s.file := funext hfile
  obtain ⟨hfiled, hversions, hstamped⟩ := h
  rw [← hfile'] at hversions hstamped
  exact ⟨hfiled.congr hfile, hversions, hstamped⟩

/-- A chained file has a version if and only if it is long enough. -/
theorem Chained.exists_version (h : s.Chained) (path : DekPath) (k : Nat) :
    (∃ dek ∈ s.file path, dek.version.toNat = k) ↔ 1 ≤ k ∧ k ≤ (s.file path).length := by
  have hmap : (∃ dek ∈ s.file path, dek.version.toNat = k) ↔
      k ∈ (s.file path).map fun dek => dek.version.toNat := by
    rw [List.mem_map]
  rw [hmap, h.numbered, List.mem_range'_1]
  omega

theorem Chained.version_le (h : s.Chained) {dek : Dek} (hdek : dek ∈ s.file path) :
    dek.version.toNat ≤ (s.file path).length :=
  ((h.exists_version path dek.version.toNat).mp ⟨dek, hdek, rfl⟩).2

/-- The last version of a chained file is the newest. -/
theorem Chained.last (h : s.Chained) {rest : List Dek} {dek : Dek}
    (hfile : s.file path = rest ++ [dek]) : dek.version.toNat = (s.file path).length := by
  have hnumbered := h.numbered path
  rw [hfile, List.length_append, List.length_singleton, List.range'_1_concat, List.map_append,
    List.map_singleton] at hnumbered
  have hversion := List.head_eq_of_cons_eq (List.append_inj' hnumbered rfl).2
  rw [hfile, List.length_append, List.length_singleton, hversion, Nat.add_comm]

/-- A chained file without a first version is empty. -/
theorem Chained.length_eq_zero (h : s.Chained)
    (hnew : ∀ dek ∈ s.file path, dek.version ≠ firstVersion) : (s.file path).length = 0 := by
  by_contra hlength
  obtain ⟨dek, hdek, hversion⟩ := (h.exists_version path 1).mpr ⟨Nat.le_refl 1, by omega⟩
  exact hnew dek hdek (UInt32.toNat_inj.mp hversion)

/-- A version whose successor is missing in a chained file is the newest. -/
theorem Chained.newest (h : s.Chained) {dek : Dek} (hdek : dek ∈ s.file path)
    (hlast : dek.version ≠ UInt32.ofNat (UInt32.size - 1))
    (hnew : ∀ d ∈ s.file path, d.version ≠ dek.version + 1) :
    dek.version.toNat = (s.file path).length ∧
      (dek.version + 1).toNat = (s.file path).length + 1 := by
  have hbound : dek.version.toNat < 4294967295 := by
    have hlt := dek.version.toNat_lt
    have hne : dek.version.toNat ≠ 4294967295 := fun heq => hlast (UInt32.toNat_inj.mp heq)
    omega
  have hnext : (dek.version + 1).toNat = dek.version.toNat + 1 := by
    rw [UInt32.toNat_add]
    exact Nat.mod_eq_of_lt (Nat.succ_lt_succ hbound)
  have hle := h.version_le hdek
  have hlength : dek.version.toNat = (s.file path).length := by
    by_contra hne
    obtain ⟨d, hd, hversion⟩ :=
      (h.exists_version path (dek.version.toNat + 1)).mpr ⟨by omega, by omega⟩
    exact hnew d hd (UInt32.toNat_inj.mp (hversion.trans hnext.symm))
  exact ⟨hlength, hnext.trans (by rw [hlength])⟩

end Store

/-! ## What a writer appends -/

/-- The version that is due in a chained file is the next one, and the newest
one, if there is one, has expired. -/
theorem KeyRing.Due.next {ring : KeyRing} {kek : Kek} {id : DekId} {mode : Mode} {t : Trace}
    {now : Int64} {s : Store} {request : DekRequest}
    (due : ring.Due kek id mode t now (s.getDek id false) request) (hs : s.Chained)
    (hnew : ∀ d ∈ s.file (Store.pathOf id), d.version ≠ request.version) :
    request.version.toNat = (s.file (Store.pathOf id)).length + 1 ∧
      ∀ older ∈ s.file (Store.pathOf id),
        older.version.toNat = (s.file (Store.pathOf id)).length → ring.rotates = true ∧
          older.timestamp.toInt + 86400000 * (ring.expiryDays.toNat : Int) ≤ now.toInt := by
  obtain ⟨e, -, -, hfirst⟩ | ⟨prior, hprior, hexpired, hlast, hnext⟩ := due.version
  · rw [hfirst] at hnew ⊢
    have hempty := hs.length_eq_zero hnew
    refine ⟨by rw [hempty]; rfl, fun older holder _ => ?_⟩
    rw [List.eq_nil_of_length_eq_zero hempty] at holder
    cases holder
  · obtain ⟨hmem, -⟩ := Store.mem_of_getDek hprior
    rw [hnext] at hnew ⊢
    obtain ⟨hnewest, hlength⟩ := hs.newest hmem hlast hnew
    refine ⟨hlength, fun older holder hversion => ?_⟩
    have hsame : older = prior := hs.filed.eq_of_version holder hmem
      (UInt32.toNat_inj.mp (hversion.trans hnewest.symm))
    rw [hsame]
    exact age_of_isExpired hexpired

namespace Executor

variable {κ : Type} {e : Executor κ} {context : Context} {type : FieldType}
  {value : Option FieldValue} {t : Trace} {now : Int64} {s s' : Store} {path : DekPath}
  {deks : List Dek} {ring : KeyRing} {dek : Dek}

/-- A writer appends a version to a file of its rule: the first one if the file
is empty, and else the next one, when the newest one has expired for the
writer. -/
structure Appends (e : Executor κ) (context : Context) (now : Int64) (path : DekPath)
    (deks : List Dek) (ring : KeyRing) (dek : Dek) : Prop where
  rule : e.ring context = .ok ring
  writes : context.mode = .write
  path : path = ⟨ring.kekName, context.subject, ring.cryptor.format⟩
  version : dek.version.toNat = deks.length + 1
  timestamp : dek.timestamp = now
  spaced : ∀ older ∈ deks, older.version.toNat = deks.length → ring.rotates = true ∧
    older.timestamp.toInt + 86400000 * (ring.expiryDays.toNat : Int) ≤ now.toInt

/-- What an executor leaves of a chained file is the file itself, or the file
with one version appended. -/
theorem Leaves.appends (h : e.Leaves context type value t now s s') (hs : s.Chained)
    (hclock : ∀ reading, clocked reading ∈ t → reading = now) (path : DekPath) :
    s'.file path = s.file path ∨
      ∃ ring dek, e.Appends context now path (s.file path) ring dek ∧
        s'.file path = s.file path ++ [dek] := by
  cases h with
  | declined h => exact .inl rfl
  | first taken hring hkek => exact .inl (hkek.file_eq path)
  | @both taken ring hring s₁ _ hkek kek hfound version hversion hdek =>
    -- The key-encryption key does not matter to the files.
    have hs₁ := hs.congr hkek.file_eq
    have hfile : s₁.file path = s.file path := hkek.file_eq path
    cases hdek with
    | same hkeks hsame => exact .inl ((hsame path).trans hfile)
    | @added writes reading hreading request due stored hstored hnew wrapped clear hmaterial hmem =>
      obtain rfl := hclock reading hreading
      have hpathOf : (⟨ring.kekName, request.subject, request.algorithm⟩ : DekPath) =
          ⟨ring.kekName, context.subject, ring.cryptor.format⟩ := by
        rw [due.subject, due.algorithm]
      rw [hpathOf] at hnew ⊢
      rw [Store.file_addDek, ← hfile]
      by_cases hpath : path = ⟨ring.kekName, context.subject, ring.cryptor.format⟩
      · obtain ⟨hnext, hspaced⟩ := due.next hs₁ hnew
        rw [if_pos hpath]
        subst hpath
        refine .inr ⟨ring, Store.dekOf ring.kekName request wrapped clear reading,
          ⟨hring, writes_of_taken taken writes, rfl, hnext, rfl, hspaced⟩,
          Store.insertVersion_of_lt fun d hd => UInt32.lt_iff_toNat_lt.mpr ?_⟩
        have hle := hs₁.version_le hd
        have hnext' : (Store.dekOf ring.kekName request wrapped clear reading).version.toNat =
            (s₁.file ⟨ring.kekName, context.subject, ring.cryptor.format⟩).length + 1 := hnext
        omega
      · rw [if_neg hpath]
        exact .inl rfl

/-- Chained files stay chained. -/
theorem Leaves.chained (h : e.Leaves context type value t now s s') (hs : s.Chained)
    (hclock : ∀ reading, clocked reading ∈ t → reading = now) (hnow : 0 ≤ now)
    (hfiled : s'.Filed) : s'.Chained := by
  constructor
  · exact hfiled
  · intro path
    rcases h.appends hs hclock path with hsame | ⟨ring, dek, happends, happended⟩
    · rw [hsame]
      exact hs.numbered path
    · rw [happended, List.map_append, hs.numbered, List.length_append, List.length_singleton,
        List.range'_1_concat, List.map_singleton, happends.version, Nat.add_comm 1]
  · intro path dek hdek
    rcases h.appends hs hclock path with hsame | ⟨ring, new, happends, happended⟩
    · rw [hsame] at hdek
      exact hs.stamped path dek hdek
    · rw [happended, List.mem_append, List.mem_singleton] at hdek
      rcases hdek with hold | rfl
      · exact hs.stamped path dek hold
      · rw [happends.timestamp]
        exact hnow

/-- A writer whose keys do not rotate only appends first versions. -/
theorem Appends.version_eq (h : e.Appends context now path deks ring dek)
    (hnumbered : deks.map (fun d => d.version.toNat) = List.range' 1 deks.length)
    (hfixed : ring.rotates = false) : dek.version = firstVersion := by
  have hlength : deks.length = 0 := by
    by_contra hne
    have hlast : deks.length ∈ deks.map fun d => d.version.toNat := by
      rw [hnumbered, List.mem_range'_1]
      omega
    obtain ⟨older, holder, hversion⟩ := List.mem_map.mp hlast
    obtain ⟨hrotates, -⟩ := h.spaced older holder hversion
    rw [hfixed] at hrotates
    cases hrotates
  have hversion := h.version
  rw [hlength] at hversion
  exact UInt32.toNat_inj.mp hversion

end Executor

/-! ## The versions of a deployment -/

namespace Deployment

variable {ι σ : Type}

/-- A step does not register a data key past the executors, and it sets the
clock, if it does, to a time from 0 on that the engine and the registry share. -/
def Step.Ordinary : Step ι σ → Prop
  | .call (.registerDek _ _) => False
  | .setClock clock engineClock => 0 ≤ clock ∧ engineClock = none
  | _ => True

/-- An ordinary step that leaves the clock alone. -/
def Step.Steady : Step ι σ → Prop
  | .call (.registerDek _ _) => False
  | .setClock _ _ => False
  | _ => True

theorem Step.Ordinary.indirect {s : Step ι σ} (h : s.Ordinary) : s.Indirect := by
  refine Step.indirect_iff.mpr ?_
  rintro kekName request rfl
  exact h

theorem Step.Steady.ordinary {s : Step ι σ} (h : s.Steady) : s.Ordinary := by
  cases s with
  | call c =>
    cases c with
    | registerDek kekName request => exact h
    | _ => trivial
  | setClock clock engineClock => exact h.elim
  | _ => trivial

/-- The versions in a file. -/
def file (d : Deployment ι σ) (path : DekPath) : List Dek :=
  d.world.registry.file path

/-- The files of a deployment are chained, and the engine and the registry share
a clock that shows a time from 0 on. -/
structure Regular (d : Deployment ι σ) : Prop where
  chained : d.world.registry.Chained
  clock : 0 ≤ d.world.clock
  shared : d.world.engineClock = none

variable {d d' d₁ d₂ : Deployment ι σ} {s : Step ι σ} {path : DekPath}

theorem Regular.reading (h : d.Regular) {t : Trace} {w : World Store σ}
    (hserial : World.Serial d.world t w) (reading : Int64) (hreading : clocked reading ∈ t) :
    reading = d.world.clock := by
  rw [hserial.now_eq hreading, World.now, h.shared]
  rfl

variable [DecidableEq ι]

/-- A step leaves a file as it is, or it is a writer's and appends a version. -/
theorem Regular.file_advance (h : d.Regular) (hs : s.Indirect) (path : DekPath) :
    (d.advance s).file path = d.file path ∨
      ∃ i kind context type value ring dek, s = .transform i kind context type value ∧
        (d.executors i).Appends context d.world.clock path (d.file path) ring dek ∧
        (d.advance s).file path = d.file path ++ [dek] := by
  rcases d.files_advance hs with ⟨i, kind, context, type, value, rfl⟩ | hfiles
  · obtain ⟨t, hserial, hleaves⟩ := d.transform_leaves i kind context type value
    rcases hleaves.appends h.chained (h.reading hserial) path with
      hsame | ⟨ring, dek, happends, happended⟩
    · exact .inl hsame
    · exact .inr ⟨i, kind, context, type, value, ring, dek, rfl, happends, happended⟩
  · exact .inl (Store.file_congr hfiles)

theorem Regular.advance (h : d.Regular) (hs : s.Ordinary) : (d.advance s).Regular := by
  have hchained : (d.advance s).world.registry.Chained := by
    rcases d.files_advance hs.indirect with ⟨i, kind, context, type, value, rfl⟩ | hfiles
    · obtain ⟨t, hserial, hleaves⟩ := d.transform_leaves i kind context type value
      have hfiled := (advance_kept h.chained.filed hs.indirect.proper).1
      exact hleaves.chained h.chained (h.reading hserial) h.clock hfiled
    · exact h.chained.congr fun _ => Store.file_congr hfiles
  by_cases hclock : ∃ clock engineClock, s = .setClock clock engineClock
  · obtain ⟨clock, engineClock, rfl⟩ := hclock
    exact ⟨hchained, hs.1, hs.2⟩
  · obtain ⟨hsame, hengine⟩ := d.clock_advance fun clock engineClock hset =>
      hclock ⟨clock, engineClock, hset⟩
    exact ⟨hchained, hsame ▸ h.clock, hengine.trans h.shared⟩

theorem Evolves.regular (h : Evolves Step.Ordinary d d') (hd : d.Regular) : d'.Regular :=
  h.invariant (fun _ _ hs hregular => hregular.advance hs)
    (fun _ _ _ hregular => ⟨hregular.chained, hregular.clock, hregular.shared⟩) hd

/-- In the course of a history a writer registered a version after another one,
when this had expired for the writer: the one is younger than the other by at
least as many days as the rule of the writer says, and by one day at least. -/
def Succeeds (d d' : Deployment ι σ) (path : DekPath) (older newer : Dek) : Prop :=
  ∃ d₁ i kind context type value ring,
    Evolves Step.Ordinary d d₁ ∧
    Evolves Step.Ordinary (d₁.transform i kind context type value).2 d' ∧
    (d₁.executors i).ring context = .ok ring ∧ context.mode = .write ∧
    path = ⟨ring.kekName, context.subject, ring.cryptor.format⟩ ∧
    newer ∉ d₁.file path ∧ newer ∈ (d₁.transform i kind context type value).2.file path ∧
    1 ≤ ring.expiryDays.toNat ∧
    older.timestamp.toInt + 86400000 * (ring.expiryDays.toNat : Int) ≤ newer.timestamp.toInt

theorem Succeeds.later {older newer : Dek} (h : d.Succeeds d₁ path older newer)
    (hlater : Evolves Step.Ordinary d₁ d₂) : d.Succeeds d₂ path older newer := by
  obtain ⟨d₀, i, kind, context, type, value, ring, hbefore, hafter, hfacts⟩ := h
  exact ⟨d₀, i, kind, context, type, value, ring, hbefore, hafter.trans hlater, hfacts⟩

/-- A version that a writer appends succeeds the newest one. -/
theorem Regular.succeeds (hd₁ : d₁.Regular) (h : Evolves Step.Ordinary d d₁) {i : ι}
    {kind : ExecutorKind} {context : Context} {type : FieldType} {value : Option FieldValue}
    {ring : KeyRing} {older newer : Dek}
    (happends : (d₁.executors i).Appends context d₁.world.clock path (d₁.file path) ring newer)
    (happended : (d₁.advance (.transform i kind context type value)).file path =
      d₁.file path ++ [newer])
    (holder : older ∈ d₁.file path) (hnext : newer.version.toNat = older.version.toNat + 1) :
    d.Succeeds (d₁.advance (.transform i kind context type value)) path older newer := by
  have hversion := happends.version
  obtain ⟨hrotates, hspaced⟩ := happends.spaced older holder (by omega)
  have hnew : newer ∉ d₁.file path := by
    intro hmem
    have hbound : newer.version.toNat ≤ (d₁.file path).length := hd₁.chained.version_le hmem
    omega
  have hmem : newer ∈ (d₁.advance (.transform i kind context type value)).file path := by
    rw [happended]
    exact List.mem_append_right _ List.mem_cons_self
  have hdays : 1 ≤ ring.expiryDays.toNat := rotates_iff.mp hrotates
  rw [← happends.timestamp] at hspaced
  exact ⟨d₁, i, kind, context, type, value, ring, h, .start, happends.rule, happends.writes,
    happends.path, hnew, hmem, hdays, hspaced⟩

/-- In a history from the start every version succeeds the one before. -/
theorem Evolves.succeeds (h : Evolves Step.Ordinary d d') (hd : d.Regular)
    (hempty : ∀ path, d.file path = []) {older newer : Dek} (holder : older ∈ d'.file path)
    (hnewer : newer ∈ d'.file path) (hnext : newer.version.toNat = older.version.toNat + 1) :
    d.Succeeds d' path older newer := by
  induction h with
  | start =>
    rw [hempty] at holder
    cases holder
  | handle h config url ih => exact (ih holder hnewer).later (.handle .start config url)
  | @step d₁ h s hs ih =>
    have hd₁ := h.regular hd
    have hstep : Evolves Step.Ordinary d₁ (d₁.advance s) := .step .start s hs
    rcases hd₁.file_advance hs.indirect path with
      hsame | ⟨i, kind, context, type, value, ring, dek, rfl, happends, happended⟩
    · rw [hsame] at holder hnewer
      exact (ih holder hnewer).later hstep
    rw [happended, List.mem_append, List.mem_singleton] at holder hnewer
    have hbound : ∀ {d : Dek}, d ∈ d₁.file path → d.version.toNat ≤ (d₁.file path).length :=
      fun hmem => hd₁.chained.version_le hmem
    have hversion := happends.version
    -- The version that was appended precedes no other one.
    have holder' : older ∈ d₁.file path := by
      refine holder.resolve_right fun heq => ?_
      subst heq
      rcases hnewer with hnewer | rfl
      · have := hbound hnewer
        omega
      · omega
    rcases hnewer with hnewer | rfl
    · exact (ih holder' hnewer).later hstep
    · exact hd₁.succeeds h happends happended holder' hnext

/-- While the clock stands still, a file gains at most one version, and this is
as old as the clock says. -/
theorem Evolves.steady (h : Evolves Step.Steady d d') (hd : d.Regular) (path : DekPath) :
    d'.world.clock = d.world.clock ∧
      (d'.file path = d.file path ∨
        ∃ dek, d'.file path = d.file path ++ [dek] ∧ dek.timestamp = d.world.clock) := by
  induction h with
  | start => exact ⟨rfl, .inl rfl⟩
  | handle h config url ih => exact ih
  | @step d₁ h s hs ih =>
    obtain ⟨hclock, hfile⟩ := ih
    have hd₁ : d₁.Regular := (h.mono fun _ hs => hs.ordinary).regular hd
    have hset : ∀ clock engineClock, s ≠ .setClock clock engineClock := by
      rintro clock engineClock rfl
      exact hs
    refine ⟨(d₁.clock_advance hset).1.trans hclock, ?_⟩
    rcases hd₁.file_advance hs.ordinary.indirect path with
      hsame | ⟨i, kind, context, type, value, ring, dek, rfl, happends, happended⟩
    · rw [hsame]
      exact hfile
    rcases hfile with hsame | ⟨new, happended', hstamp⟩
    · rw [hsame] at happended
      exact .inr ⟨dek, happended, happends.timestamp.trans hclock⟩
    · -- The version that is new already would have expired at once.
      have hnew : new ∈ d₁.file path := by
        rw [happended']
        exact List.mem_append_right _ List.mem_cons_self
      obtain ⟨hrotates, hspaced⟩ := happends.spaced new hnew (hd₁.chained.last happended')
      have hdays : 1 ≤ ring.expiryDays.toNat := rotates_iff.mp hrotates
      rw [hstamp, hclock] at hspaced
      omega

/-- The chain of versions.  Whatever happens to a deployment whose registry was
empty, as long as only executors register data keys and the clock shows times
from 0 on: the versions in a file are 1, 2, … without gaps; every version but
the first was registered by a writer for which the one before had expired; a
writer whose keys do not rotate adds no version but the first; and while the
clock stands still, no file gains a second version. -/
theorem rotation_chain (hempty : d.world.registry = ∅) (hclock : 0 ≤ d.world.clock)
    (hshared : d.world.engineClock = none) (h : Evolves Step.Ordinary d d') :
    (∀ path, (d'.file path).map (fun dek => dek.version.toNat) =
        List.range' 1 (d'.file path).length) ∧
      (∀ path older newer, older ∈ d'.file path → newer ∈ d'.file path →
        newer.version.toNat = older.version.toNat + 1 → d.Succeeds d' path older newer) ∧
      (∀ i kind context type value ring, (d'.executors i).ring context = .ok ring →
        ring.rotates = false → ∀ path dek,
          dek ∈ (d'.transform i kind context type value).2.file path → dek ∉ d'.file path →
            dek.version = firstVersion) ∧
      ∀ d'', Evolves Step.Steady d' d'' → ∀ path,
        (d''.file path).length ≤ (d'.file path).length + 1 := by
  have hregular : d.Regular := ⟨hempty ▸ Store.chained_empty, hclock, hshared⟩
  have hregular' : d'.Regular := h.regular hregular
  have hnone : ∀ path, d.file path = [] := by
    intro path
    rw [file, hempty]
    rfl
  refine ⟨hregular'.chained.numbered, ?_, ?_, ?_⟩
  · intro path older newer holder hnewer hnext
    exact h.succeeds hregular hnone holder hnewer hnext
  · intro i kind context type value ring hring hfixed path dek hdek hnew
    have hs : Step.Indirect (.transform i kind context type value : Step ι σ) := trivial
    have hdek' : dek ∈ (d'.advance (.transform i kind context type value)).file path := hdek
    rcases hregular'.file_advance hs path with
      hsame | ⟨j, kind', context', type', value', ring', dek', hstep, happends, happended⟩
    · rw [hsame] at hdek'
      exact absurd hdek' hnew
    · cases hstep
      obtain rfl := Except.ok.inj (hring.symm.trans happends.rule)
      rw [happended, List.mem_append, List.mem_singleton] at hdek'
      rw [hdek'.resolve_left hnew]
      exact happends.version_eq (hregular'.chained.numbered path) hfixed
  · intro d'' hsteady path
    obtain ⟨-, hsame | ⟨dek, happended, -⟩⟩ := hsteady.steady hregular' path
    · rw [hsame]
      exact Nat.le_succ _
    · refine Nat.le_of_eq ?_
      rw [happended, List.length_append, List.length_singleton]

theorem rotation_chain_daily :
    ∃ (d d' : Deployment Unit Unit) (path : DekPath) (older newer : Dek),
      d.world.registry = ∅ ∧ 0 ≤ d.world.clock ∧ d.world.engineClock = none ∧
      Evolves Step.Ordinary d d' ∧ d'.file path = [older, newer] ∧
      d.Succeeds d' path older newer := by
  let driver : Kms.Driver Unit := Kms.Plain.driver "local-kms://"
  let world : World Store Unit := ⟨∅, .empty, (), 0, none, ⟨fun _ => 0, 0⟩, []⟩
  let d : Deployment Unit Unit := ⟨fun _ => ⟨some (), ∅⟩, world⟩
  let params : Properties :=
    Dict.ofList [(Parameter.kekName, "k"), (Parameter.dekAlgorithm, "AES256_SIV"),
      (Parameter.kmsType, "local-kms"), (Parameter.kmsKeyId, "m"), (Parameter.dekExpiryDays, "1")]
  let context : Context := ⟨"s", .write, params, ∅⟩
  let write : Step Unit Unit := .transform () .field context .bytes (some (.bytes [104, 105]))
  let path : DekPath := ⟨"k", "s", "AES256_SIV"⟩
  have hlength : ((((((d.advance (.registerDriver driver)).advance write).advance
      (.setClock 86400000 none)).advance write).file path)).length = 2 := by
    decide +kernel
  have hevolves : Evolves Step.Ordinary d ((((d.advance (.registerDriver driver)).advance
      write).advance (.setClock 86400000 none)).advance write) := by
    refine .step (.step (.step (.step .start _ trivial) write trivial) _ ⟨?_, rfl⟩) write trivial
    decide
  generalize (((d.advance (.registerDriver driver)).advance write).advance
    (.setClock 86400000 none)).advance write = d' at hlength hevolves
  obtain ⟨hversions, hsucceeds, -⟩ := rotation_chain rfl (by decide) rfl hevolves
  obtain ⟨older, newer, hfile⟩ := List.length_eq_two.mp hlength
  have hnumbers := hversions path
  rw [hfile] at hnumbers
  have hnext : newer.version.toNat = older.version.toNat + 1 := by
    simp only [List.map_cons, List.map_nil, List.length_cons, List.length_nil, List.range',
      List.cons.injEq] at hnumbers
    omega
  have hsucceeds' : d.Succeeds d' path older newer :=
    hsucceeds path older newer (by simp [hfile]) (by simp [hfile]) hnext
  exact ⟨d, d', path, older, newer, rfl, by decide, rfl, hevolves, hfile, hsucceeds'⟩

end Deployment
end Envelope
