import Envelope.Proofs.Success

/-!
# Racing writers

Writers take turns in any order, one request at a time, while time passes and
the systems behind the drivers change.  In every state that they reach, the
world is healthy and each of them has followed its own program through it
(`Pool.Orderly`).  What one writer finds in healthy worlds therefore holds of
all writers at once: none of them fails because another one was first, and
those that use the same version of a data key use the same raw key.
-/

namespace Envelope

open Program Engine KeyRing

/-- A state of a race: the world, what is left of every writer, and what it has
asked and was answered. -/
structure Pool (ι σ : Type) where
  world : World Store σ
  left : ι → Engine (Except Error (Option FieldValue))
  history : ι → Trace

namespace Pool

variable {ι σ : Type}

/-- What a writer has come to, if it has finished. -/
def result (q : Pool ι σ) (i : ι) : Option (Except Error (Option FieldValue)) :=
  match q.left i with
  | .done result => some result
  | .ask _ _ => none

/-- The next request of a writer is answered. -/
def turn [DecidableEq ι] (q : Pool ι σ) (i : ι) : Pool ι σ :=
  match q.left i with
  | .done _ => q
  | .ask req next =>
    let answered := (World.answer req).run q.world
    { world := answered.2
      left := Function.update q.left i (next answered.1)
      history := Function.update q.history i (q.history i ++ [⟨req, answered.1⟩]) }

/-- Time passes, and the systems behind the drivers change. -/
def elapse (q : Pool ι σ) (clock : Int64) (engineClock : Option Int64) (systems : σ) :
    Pool ι σ :=
  { q with
    world := { q.world with clock := clock, engineClock := engineClock, systems := systems } }

variable {q : Pool ι σ} {i j : ι}

theorem left_of_result {r : Except Error (Option FieldValue)} (h : q.result i = some r) :
    q.left i = .done r := by
  unfold result at h
  split at h
  · rename_i last hdone
    rw [hdone, Option.some.inj h]
  · cases h

variable [DecidableEq ι]

theorem turn_of_done {r : Except Error (Option FieldValue)} (h : q.left i = .done r) :
    q.turn i = q := by
  rw [turn, h]

theorem turn_of_ask {req : Effect} {next : req.Answer → Engine (Except Error (Option FieldValue))}
    (h : q.left i = .ask req next) :
    q.turn i =
      { world := ((World.answer req).run q.world).2
        left := Function.update q.left i (next ((World.answer req).run q.world).1)
        history := Function.update q.history i
          (q.history i ++ [⟨req, ((World.answer req).run q.world).1⟩]) } := by
  rw [turn, h]

/-- Whoever follows a program goes on to do so. -/
theorem after_turn {program : ι → Engine (Except Error (Option FieldValue))}
    (h : ∀ j, After (program j) (q.history j) (q.left j)) (i j : ι) :
    After (program j) ((q.turn i).history j) ((q.turn i).left j) := by
  cases hleft : q.left i with
  | done r =>
    rw [turn_of_done hleft]
    exact h j
  | ask req next =>
    rw [turn_of_ask hleft]
    by_cases hj : j = i
    · subst hj
      have hafter := h j
      rw [hleft] at hafter
      simp only [Function.update_self]
      exact hafter.next _
    · simp only [Function.update_of_ne hj]
      exact h j

end Pool

namespace Race

variable {ι σ : Type}

/-- The race before the first turn. -/
def pool (r : Race ι σ) : Pool ι σ :=
  ⟨r.start, fun i => (r.writers i).program, fun _ => []⟩

/-- The states that a race reaches, whoever takes the turns. -/
inductive Reaches [DecidableEq ι] (r : Race ι σ) : Pool ι σ → Prop where
  | start : Reaches r r.pool
  | turn {q : Pool ι σ} (h : Reaches r q) (i : ι) : Reaches r (q.turn i)
  | elapse {q : Pool ι σ} (h : Reaches r q) (clock : Int64) (engineClock : Option Int64)
      (systems : σ) : Reaches r (q.elapse clock engineClock systems)

end Race

/-! ## Every state of a race -/

/-- A record that a request leaves in a file was there before, or it is the
record of a registration. -/
theorem World.mem_file_answer {σ : Type} {w : World Store σ} {req : Effect} {path : DekPath}
    {dek : Dek} (hdek : dek ∈ ((World.answer req).run w).2.registry.file path) :
    dek ∈ w.registry.file path ∨
      ∃ kekName request, (⟨req, ((World.answer req).run w).1⟩ : Engine.Exchange) =
        called (.registerDek kekName request) (.ok dek) := by
  cases req with
  | registry c =>
    cases c with
    | getKek name deleted => exact .inl hdek
    | getDek id deleted => exact .inl hdek
    | registerKek request =>
      refine .inl ?_
      rw [← Store.file_registerKek]
      exact hdek
    | registerDek kekName request =>
      rcases (World.answer_registerDek w kekName request).mem_file hdek with hold | ⟨hok, -, -⟩
      · exact .inl hold
      · exact .inr ⟨kekName, request, by rw [hok]⟩
  | clock => exact .inl hdek
  | random n => exact .inl hdek
  | keyHandle config url => exact .inl hdek
  | log event => exact .inl hdek

namespace Race

variable {ι σ : Type} {r : Race ι σ} {q : Pool ι σ} {i j : ι}

/-- In a state of a race the world is healthy, every writer has followed its
program through healthy worlds, and every new record was registered by one of
the writers. -/
structure Orderly (r : Race ι σ) (q : Pool ι σ) : Prop where
  healthy : r.Healthy q.world
  after : ∀ i, After (r.writers i).program (q.history i) (q.left i)
  span : ∀ i, r.Span r.start (q.history i) q.world
  registered : ∀ path, ∀ dek ∈ q.world.registry.file path,
    dek ∈ r.start.registry.file path ∨
      ∃ i kekName request, called (.registerDek kekName request) (.ok dek) ∈ q.history i

theorem orderly_pool (hfair : r.Fair) : r.Orderly r.pool := by
  refine ⟨hfair.healthy, fun i => .start _, fun i => ?_, fun path dek hdek => .inl hdek⟩
  exact .nil hfair.healthy hfair.healthy (.refl _)

theorem Orderly.elapse (h : r.Orderly q) (clock : Int64) (engineClock : Option Int64)
    (systems : σ) : r.Orderly (q.elapse clock engineClock systems) := by
  have hhealthy : r.Healthy (q.elapse clock engineClock systems).world := h.healthy.congr rfl rfl
  refine ⟨hhealthy, h.after, fun i => ?_, h.registered⟩
  exact Timeline.later (E := World.Extends) World.Extends.trans (h.span i) ⟨.refl _, .refl _⟩
    hhealthy

variable [DecidableEq ι]

theorem Orderly.turn (h : r.Orderly q) (hfair : r.Fair) (i : ι) : r.Orderly (q.turn i) := by
  cases hleft : q.left i with
  | done result =>
    rw [Pool.turn_of_done hleft]
    exact h
  | ask req next =>
    have hafter := h.after i
    rw [hleft] at hafter
    have hhealthy := (h.span i).healthy_answer hfair hafter
    have hextends := World.extends_answer q.world req
    have hafter' := Pool.after_turn h.after i
    rw [Pool.turn_of_ask hleft] at hafter' ⊢
    refine ⟨hhealthy, hafter', fun j => ?_, fun path dek hdek => ?_⟩
    · by_cases hj : j = i
      · subst hj
        simp only [Function.update_self]
        exact Timeline.next (E := World.Extends) World.Extends.refl (h.span j) hextends hhealthy
      · simp only [Function.update_of_ne hj]
        exact Timeline.later (E := World.Extends) World.Extends.trans (h.span j) hextends hhealthy
    · have hkept : ∀ {j : ι} {x : Engine.Exchange}, x ∈ q.history j →
          x ∈ Function.update q.history i
            (q.history i ++ [⟨req, ((World.answer req).run q.world).1⟩]) j := by
        intro j x hx
        by_cases hj : j = i
        · subst hj
          simp only [Function.update_self]
          exact List.mem_append_left _ hx
        · simp only [Function.update_of_ne hj]
          exact hx
      rcases World.mem_file_answer hdek with hold | ⟨kekName, request, hnew⟩
      · rcases h.registered path dek hold with hstart | ⟨j, kekName, request, hmem⟩
        · exact .inl hstart
        · exact .inr ⟨j, kekName, request, hkept hmem⟩
      · refine .inr ⟨i, kekName, request, ?_⟩
        simp only [Function.update_self]
        exact List.mem_append_right _ (List.mem_singleton.mpr hnew.symm)

theorem Reaches.orderly (h : r.Reaches q) (hfair : r.Fair) : r.Orderly q := by
  induction h with
  | start => exact orderly_pool hfair
  | turn h i ih => exact ih.turn hfair i
  | elapse h clock engineClock systems ih => exact ih.elapse clock engineClock systems

end Race

/-! ## Agreement -/

/-- A file holds one record of each version. -/
theorem Store.Filed.countP_version {s : Store} (h : s.Filed) {path : DekPath} {dek : Dek}
    (hdek : dek ∈ s.file path) :
    (s.file path).countP (fun d => d.version = dek.version) = 1 := by
  have hcount : ∀ {deks : List Dek}, (deks.Pairwise fun a b => a.version < b.version) →
      dek ∈ deks → deks.countP (fun d => d.version = dek.version) = 1 := by
    intro deks hdeks hmem
    induction hdeks with
    | nil => cases hmem
    | @cons first rest hless hrest ih =>
      rw [List.countP_cons]
      rcases List.mem_cons.mp hmem with rfl | hmem
      · have hother : rest.countP (fun d => d.version = dek.version) = 0 := by
          rw [List.countP_eq_zero]
          intro d hd
          simpa using (UInt32.ne_of_lt (hless d hd)).symm
        rw [hother, if_pos (decide_eq_true rfl)]
      · have hne : first.version ≠ dek.version := UInt32.ne_of_lt (hless dek hmem)
        rw [ih hmem, if_neg (by simpa using hne)]
  exact hcount (h.increasing path) hdek

/-- A record that is kept has one raw key. -/
theorem World.Keeps.raw_eq {σ : Type} {w : World Store σ} {ring ring' : KeyRing}
    {subject subject' : String} {record : Dek} {raw raw' : Bytes} {kek kek' : Kek}
    (h : w.Keeps ring subject record raw kek) (h' : w.Keeps ring' subject' record raw' kek')
    (hname : ring.kekName = ring'.kekName) : raw = raw' := by
  have hstored := h.stored
  rw [hname, h'.stored] at hstored
  obtain rfl := Option.some.inj hstored
  obtain ⟨unwrap, hopens, hwrapped⟩ := h.opens
  obtain ⟨unwrap', hopens', hwrapped'⟩ := h'.opens
  have hsame : record.keyMaterial = none → unwrap = unwrap' := by
    intro hclear
    obtain ⟨handle, hpublished, hunwraps⟩ := hwrapped hclear
    obtain ⟨handle', hpublished', hunwraps'⟩ := hwrapped' hclear
    obtain rfl := hpublished.unique hpublished'
    funext wrapped
    exact (hunwraps wrapped).symm.trans (hunwraps' wrapped)
  rw [recovered_congr hsame, hopens'] at hopens
  exact (Except.ok.inj hopens).symm

namespace Race

variable {ι σ : Type} {r : Race ι σ} {q : Pool ι σ} {i j : ι}

/-- A writer has encrypted a value under the raw key of a record.  The record
can be looked up by the version that was used, and if keys rotate the value
names this version. -/
structure Encrypts (r : Race ι σ) (q : Pool ι σ) (i : ι) (ring : KeyRing) (record : Dek)
    (raw : Bytes) (value out : FieldValue) : Prop where
  hasRing : r.HasRing i ring
  found : q.world.registry.getDek
    ⟨ring.kekName, (r.writers i).context.subject, record.version, ring.cryptor.format⟩ false =
      .ok record
  keeps : ∃ kek, q.world.Keeps ring (r.writers i).context.subject record raw kek
  encrypted : Transform.EncryptedUnder ring (r.writers i).type record.version ⟨raw⟩ value out

/-- A record was there before the race, or a writer other than `i` registered
it. -/
def Foreign (r : Race ι σ) (q : Pool ι σ) (i : ι) (ring : KeyRing) (record : Dek) : Prop :=
  record ∈ r.start.registry.file (r.path i ring) ∨
    ∃ j, j ≠ i ∧ ∃ kekName request,
      called (.registerDek kekName request) (.ok record) ∈ q.history j

/-- A writer has lost the registration of a data key to another one. -/
def Lost (q : Pool ι σ) (i : ι) : Prop :=
  ∃ kekName request e, called (.registerDek kekName request) (.error e) ∈ q.history i

/-- The registration of a data key was refused. -/
def refuses : Engine.Exchange → Bool
  | ⟨.registry (.registerDek _ _), .error _⟩ => true
  | _ => false

theorem lost_iff : Lost q i ↔ (q.history i).any refuses = true := by
  rw [List.any_eq_true]
  constructor
  · rintro ⟨kekName, request, e, hmem⟩
    exact ⟨_, hmem, rfl⟩
  · rintro ⟨⟨req, answer⟩, hmem, hrefuses⟩
    unfold refuses at hrefuses
    split at hrefuses
    · rename_i kekName request e heq
      cases heq
      exact ⟨kekName, request, e, hmem⟩
    · cases hrefuses

instance : Decidable (Lost q i) :=
  decidable_of_iff ((q.history i).any refuses = true) lost_iff.symm

/-- A writer whose keys rotate has stopped.  The last that it did was to look up
its newest record and to read the clock, at a time so far from that of the record
that the age does not fit; one of the two is before time 0 (`fits_age`).  It has
registered no data key, so it lost no registration either. -/
def Stopped (r : Race ι σ) (q : Pool ι σ) (i : ι) (cause : Overflow) : Prop :=
  ∃ ring before record now, r.HasRing i ring ∧ ring.rotates = true ∧
    q.history i = before ++
      [called (.getDek (ring.dekId (r.writers i).context.subject (some Dek.latestVersion)) false)
        (.ok record), clocked now] ∧
    (∀ kekName request answer, called (.registerDek kekName request) answer ∉ q.history i) ∧
    record ∈ q.world.registry.file (r.path i ring) ∧ ¬ Fits (age now record) ∧
    cause = ⟨now, record.timestamp⟩

theorem Orderly.transformation (h : r.Orderly q) {result : Except Error (Option FieldValue)}
    (hresult : q.result i = some result) :
    (r.writers i).executor.Transformation (r.writers i).context (r.writers i).type
      (r.writers i).value (q.history i) result := by
  have hafter := h.after i
  rw [Pool.left_of_result hresult] at hafter
  exact Executor.transformField_comesTo hafter

theorem Orderly.stopped (h : r.Orderly q) {cause : Overflow}
    (hresult : q.result i = some (.error (Transform.overflow cause))) : r.Stopped q i cause := by
  obtain ⟨ring, before, record, now, htaken, hrotates, -, hhistory, hnone, hlarge, hcause⟩ :=
    (h.transformation hresult).of_overflow
  have hring : r.HasRing i ring := (Executor.admitted_eq_ok_iff.mp htaken).2
  have hlast : called (.getDek (ring.dekId (r.writers i).context.subject
      (some Dek.latestVersion)) false) (.ok record) ∈ q.history i := by
    rw [hhistory]
    exact List.mem_append_right before List.mem_cons_self
  obtain ⟨hfile, -⟩ := (h.span i).course.backs.getDek_stored hlast
  exact ⟨ring, before, record, now, hring, hrotates, hhistory, hnone, hfile, hlarge, hcause⟩

/-- A writer that succeeds has encrypted its value. -/
theorem Orderly.exists_encrypts (h : r.Orderly q) (hfair : r.Fair) {value : FieldValue}
    {out : Option FieldValue} (hvalue : (r.writers i).value = some value)
    (hresult : q.result i = some (.ok out)) :
    ∃ ring record raw sealed, out = some sealed ∧ r.Encrypts q i ring record raw value sealed := by
  have hcourse := h.transformation hresult
  rw [hvalue] at hcourse
  obtain ⟨ring, kek, record, raw, sealed, hring, hout, hkeeps, hencrypted⟩ :=
    hcourse.keeps (hfair.writes i) (h.span i).course
  have hfound : q.world.registry.getDek
      ⟨ring.kekName, (r.writers i).context.subject, record.version, ring.cryptor.format⟩ false =
        .ok record := h.healthy.filed.getDek_of_mem hkeeps.file rfl
  exact ⟨ring, record, raw, sealed, hout, hring, hfound, ⟨kek, hkeeps⟩, hencrypted⟩

/-- A writer that lost a registration did not register the record that it uses. -/
theorem Orderly.foreign (h : r.Orderly q) {result : Except Error (Option FieldValue)}
    (hresult : q.result i = some result) (hlost : Lost q i) {ring : KeyRing} {record : Dek}
    (hfile : record ∈ q.world.registry.file (r.path i ring)) : r.Foreign q i ring record := by
  rcases h.registered _ record hfile with hstart | ⟨j, kekName, request, hmem⟩
  · exact .inl hstart
  · refine .inr ⟨j, ?_, kekName, request, hmem⟩
    rintro rfl
    obtain ⟨_, _, _, hrefused⟩ := hlost
    cases (h.transformation hresult).registerDek_once hmem hrefused

/-- Writers that use the same version of a data key use the same record and
the same raw key. -/
theorem Encrypts.agree {ring ring' : KeyRing} {record record' : Dek} {raw raw' : Bytes}
    {value value' out out' : FieldValue} (h : r.Encrypts q i ring record raw value out)
    (h' : r.Encrypts q j ring' record' raw' value' out') (hpath : r.path i ring = r.path j ring')
    (hversion : record.version = record'.version) : record = record' ∧ raw = raw' := by
  obtain ⟨hname, hsubject, halgorithm⟩ := DekPath.mk.inj hpath
  have hfound := h.found
  rw [hname, hsubject, halgorithm, hversion, h'.found] at hfound
  obtain rfl := Except.ok.inj hfound
  obtain ⟨kek, hkeeps⟩ := h.keeps
  obtain ⟨kek', hkeeps'⟩ := h'.keeps
  exact ⟨rfl, hkeeps.raw_eq hkeeps' hname⟩

variable [DecidableEq ι]

/-- Racing writers agree.  However they take turns, a writer fails only with an
excuse that it had from the start, or it stops because the newest record is out of
reach of the clock.  One that succeeds has encrypted its value under a record that
the registry has under the version that was used, and not under a key of its own if
it lost the registration.  Writers that end up with the same version of a data key
use the same raw key, and where keys do not rotate there is exactly one first
version. -/
theorem writers_agree (hfair : r.Fair) (h : r.Reaches q)
    (hroom : ∀ path, ∀ dek ∈ q.world.registry.file path,
      dek.version ≠ UInt32.ofNat (UInt32.size - 1)) :
    (∀ i error, q.result i = some (.error error) →
      r.Excuse i error ∨ ∃ cause, error = Transform.overflow cause ∧ r.Stopped q i cause) ∧
    (∀ i value out, (r.writers i).value = some value → q.result i = some (.ok out) →
      ∃ ring record raw sealed, out = some sealed ∧
        r.Encrypts q i ring record raw value sealed ∧
        (Lost q i → r.Foreign q i ring record)) ∧
    (∀ i j ring ring' record record' raw raw' value value' out out',
      r.Encrypts q i ring record raw value out → r.Encrypts q j ring' record' raw' value' out' →
      r.path i ring = r.path j ring' → record.version = record'.version →
      record = record' ∧ raw = raw') ∧
    ∀ i ring record raw value out, r.Encrypts q i ring record raw value out →
      ring.rotates = false →
      record.version = firstVersion ∧
        (q.world.registry.file (r.path i ring)).countP (fun d => d.version = firstVersion) = 1 := by
  have horderly : r.Orderly q := h.orderly hfair
  refine ⟨fun i error hresult => ?_, fun i value out hvalue hresult => ?_, ?_, ?_⟩
  · by_cases hstops : ∃ cause, error = Transform.overflow cause
    · obtain ⟨cause, rfl⟩ := hstops
      exact .inr ⟨cause, rfl, horderly.stopped hresult⟩
    · exact .inl ((horderly.span i).excused hfair hroom (not_exists.mp hstops)
        (horderly.transformation hresult))
  · obtain ⟨ring, record, raw, sealed, hout, hencrypts⟩ :=
      horderly.exists_encrypts hfair hvalue hresult
    refine ⟨ring, record, raw, sealed, hout, hencrypts, fun hlost => ?_⟩
    obtain ⟨kek, hkeeps⟩ := hencrypts.keeps
    exact horderly.foreign hresult hlost hkeeps.file
  · intro i j ring ring' record record' raw raw' value value' out out' hi hj hpath hversion
    exact hi.agree hj hpath hversion
  · intro i ring record raw value out hencrypts hfixed
    obtain ⟨kek, hkeeps⟩ := hencrypts.keeps
    have hfirst := hkeeps.first hfixed
    have hcount := horderly.healthy.filed.countP_version hkeeps.file
    rw [hfirst] at hcount
    exact ⟨hfirst, hcount⟩

theorem Reaches.turns (h : r.Reaches q) (turns : List ι) :
    r.Reaches (turns.foldl Pool.turn q) :=
  List.foldlRecOn turns Pool.turn h fun _ hq i _ => hq.turn i

/-- Two writers that encrypt a value each, the first ones to do so. -/
def firstWriters : Race Bool Unit where
  writers i :=
    { executor := ⟨some (), ∅⟩
      context := ⟨"s", .write,
        Dict.ofList [(Parameter.kekName, "k"), (Parameter.dekAlgorithm, "AES256_SIV"),
          (Parameter.kmsType, "local-kms"), (Parameter.kmsKeyId, "m")], ∅⟩
      type := .bytes
      value := some (.bytes (if i then [104, 105] else [104, 111])) }
  start := ⟨∅, ⟨[Kms.Plain.driver "local-kms://"], ∅⟩, (), 0, none, ⟨fun _ => 0, 0⟩, []⟩
  kmsType _ := "local-kms"
  kmsKeyId _ := "m"
  unwrap _ := .ok

theorem firstWriters_ring {i : Bool} {ring : KeyRing} (hring : firstWriters.HasRing i ring) :
    ring = ⟨"k", ⟨"AES256_SIV"⟩, 0, ∅⟩ := by
  have hknown : ∀ i, (firstWriters.writers i).executor.ring (firstWriters.writers i).context =
      .ok ⟨"k", ⟨"AES256_SIV"⟩, 0, ∅⟩ := by
    decide +kernel
  exact Except.ok.inj (hring.symm.trans (hknown i))

theorem fair_firstWriters : firstWriters.Fair := by
  refine ⟨Store.filed_empty, nofun, fun _ => rfl, fun i ring hring => ?_, fun i ring hring => ?_,
    fun i ring hring => ?_⟩
  · have htype : ∀ i, firstWriters.namedType i = some "local-kms" := by
      decide +kernel
    have hkey : ∀ i, firstWriters.namedKey i = some "m" := by
      decide +kernel
    constructor
    · intro text h
      exact Option.some.inj (h.symm.trans (htype i))
    · intro text h
      exact Option.some.inj (h.symm.trans (hkey i))
  · rw [firstWriters_ring hring]
    exact ⟨.aes256Siv, by decide +kernel⟩
  · have hdriver : firstWriters.start.directory.resolve "local-kms://m" =
        .ok (Kms.Plain.driver "local-kms://") := by
      have hclaims : Kms.claims (Kms.Plain.driver (σ := Unit) "local-kms://").urlPrefix
          "local-kms://m" = true := by
        decide +kernel
      simp [Kms.Directory.resolve, firstWriters, hclaims, Kms.Directory.preferred]
    exact Kms.Plain.works hdriver nofun

theorem writers_agree_conflict :
    ∃ (r : Race Bool Unit) (q : Pool Bool Unit) (ring : KeyRing) (record : Dek) (raw : Bytes)
      (out out' : FieldValue), r.Fair ∧ r.Reaches q ∧ Lost q false ∧
      r.Encrypts q true ring record raw (.bytes [104, 105]) out ∧
      r.Encrypts q false ring record raw (.bytes [104, 111]) out' ∧
      r.Foreign q false ring record := by
  let q := (List.replicate 16 [true, false]).flatten.foldl Pool.turn firstWriters.pool
  have hreaches : firstWriters.Reaches q := Reaches.start.turns _
  have hlost : Lost q false := by
    decide +kernel
  have hsucceed : ∀ i, ((q.result i).any fun result => result.isOk) = true := by
    decide +kernel
  have hfiles : (q.world.registry.files.all fun entry => entry.2.all fun dek =>
      dek.version ≠ UInt32.ofNat (UInt32.size - 1)) = true := by
    decide +kernel
  generalize q = q at hreaches hlost hsucceed hfiles
  have hroom : ∀ path, ∀ dek ∈ q.world.registry.file path,
      dek.version ≠ UInt32.ofNat (UInt32.size - 1) := by
    intro path dek hdek
    obtain ⟨entry, hentry, hmem⟩ := Store.mem_files_of_mem_file hdek
    have hall := List.all_eq_true.mp (List.all_eq_true.mp hfiles entry hentry) dek hmem
    exact of_decide_eq_true hall
  have hresult : ∀ i, ∃ out, q.result i = some (.ok out) := by
    intro i
    obtain ⟨result, hresult, hok⟩ := (Option.any_eq_true _ _).mp (hsucceed i)
    obtain ⟨out, rfl⟩ := exists_ok_of_isOk hok
    exact ⟨out, hresult⟩
  obtain ⟨out, hout⟩ := hresult true
  obtain ⟨out', hout'⟩ := hresult false
  obtain ⟨-, hsealed, hagree, hfirst⟩ := writers_agree fair_firstWriters hreaches hroom
  obtain ⟨ring, record, raw, sealed, -, hencrypts, -⟩ := hsealed true _ out rfl hout
  obtain ⟨ring', record', raw', sealed', -, hencrypts', hforeign⟩ := hsealed false _ out' rfl hout'
  have hring : ring = ring' :=
    (firstWriters_ring hencrypts.hasRing).trans (firstWriters_ring hencrypts'.hasRing).symm
  subst hring
  have hfixed : ring.rotates = false := by
    rw [firstWriters_ring hencrypts.hasRing]
    rfl
  have hversion : record.version = record'.version :=
    (hfirst _ _ _ _ _ _ hencrypts hfixed).1.trans (hfirst _ _ _ _ _ _ hencrypts' hfixed).1.symm
  obtain ⟨rfl, rfl⟩ := hagree _ _ _ _ _ _ _ _ _ _ _ _ hencrypts hencrypts' rfl hversion
  exact ⟨firstWriters, q, ring, record, raw, sealed, sealed', fair_firstWriters, hreaches, hlost,
    hencrypts, hencrypts', hforeign hlost⟩

end Race
end Envelope
