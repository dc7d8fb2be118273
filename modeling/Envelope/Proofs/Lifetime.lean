import Envelope.Proofs.Ledger
import Envelope.Proofs.Serial

/-!
# The life of a registry

A registry in memory lives through calls and deletions, in any order and
whoever makes them: executors, one after the other or interleaved, and others
past all executors (`Store.Reaches`).  What one registration and one deletion
keep, a whole life keeps.
-/

namespace Envelope

open Program

namespace Store

/-- A store comes from another one by calls, each answered at its own time and
with its own random bytes, and by deletions. -/
inductive Reaches (s : Store) : Store → Prop where
  | start : Reaches s s
  | call {s₁ s₂ : Store} (h : Reaches s s₁) {c : Registry.Call} {now : Int64}
      {draws : List (Exchange Draw.signature)} {x : c.Answer}
      (hanswer : Runs (Store.answer c now s₁) draws (x, s₂)) : Reaches s s₂
  | deletion {s₁ : Store} (h : Reaches s s₁) (name : String) :
      Reaches s (s₁.softDeleteKek name).2

variable {s s' s₁ : Store} {now : Int64} {kekName name : String} {request : DekRequest}
  {dek : Dek} {draws : List (Exchange Draw.signature)}

theorem Reaches.trans (h : s.Reaches s₁) (h' : s₁.Reaches s') : s.Reaches s' := by
  induction h' with
  | start => exact h
  | call h' hanswer ih => exact .call ih hanswer
  | deletion h' name ih => exact .deletion ih name

/-- What every registration and every deletion keeps is kept for life: look-ups
change nothing. -/
theorem Reaches.invariant {P : Store → Prop}
    (hkek : ∀ {s request now}, P s → P (s.registerKek request now).2)
    (hdek : ∀ {s kekName request now x s'}, s.DekOutcome kekName request now x s' → P s → P s')
    (hdeletion : ∀ {s name}, P s → P (s.softDeleteKek name).2)
    (h : s.Reaches s') (hs : P s) : P s' := by
  induction h with
  | start => exact hs
  | @call s₁ s₂ h c now draws x hanswer ih =>
    cases c with
    | getKek name deleted =>
      obtain ⟨-, hx⟩ := runs_done_iff.mp hanswer
      exact (Prod.mk.inj hx).2 ▸ ih
    | registerKek request =>
      obtain ⟨-, hx⟩ := runs_done_iff.mp hanswer
      have hregistered : P (s₁.registerKek request now).2 := hkek ih
      rwa [← hx] at hregistered
    | getDek id deleted =>
      obtain ⟨-, hx⟩ := runs_done_iff.mp hanswer
      exact (Prod.mk.inj hx).2 ▸ ih
    | registerDek kekName request => exact hdek (registerDek_runs hanswer) ih
  | deletion h name ih => exact hdeletion ih

/-- A registry that started without records reflects a ledger. -/
theorem Reaches.exists_reflects (h : Reaches ∅ s) : ∃ l, s.Reflects l :=
  h.invariant (P := fun s => ∃ l, s.Reflects l)
    (fun ⟨_, hl⟩ => ⟨_, hl.afterRegisterKek _ _⟩) (fun hx ⟨_, hl⟩ => ⟨_, hx.reflects hl⟩)
    (fun ⟨_, hl⟩ => ⟨_, hl.afterSoftDeleteKek _⟩) ⟨[], reflects_empty⟩

/-- No record is ever lost. -/
theorem Reaches.outlives (h : s.Reaches s') : s.Outlives s' :=
  h.invariant (P := s.Outlives) (fun hs => hs.trans extends_registerKek.outlives)
    (fun hx hs => hs.trans hx.extends.outlives) (fun hs => hs.trans outlives_softDeleteKek)
    (.refl s)

/-- No raw key is ever kept in a file. -/
theorem Reaches.unknown (h : Reaches ∅ s) : ∀ path, ∀ dek ∈ s.file path, dek.rawKey = none := by
  refine h.invariant (P := fun s => ∀ path, ∀ dek ∈ s.file path, dek.rawKey = none) ?_ ?_ ?_ nofun
  · intro s request now hs path dek hdek
    rw [file_registerKek] at hdek
    exact hs path dek hdek
  · intro s kekName request now x s' hx hs path dek hdek
    rcases hx.mem_file hdek with hold | ⟨-, -, _, _, _, rfl, -⟩
    · exact hs path dek hold
    · rfl
  · intro s name hs path dek hdek
    rw [file_congr files_softDeleteKek] at hdek
    exact hs path dek hdek

theorem Answers.reaches {calls : List Engine.Answered} (h : Answers now s calls s') :
    s.Reaches s' := by
  induction h with
  | nil s => exact .start
  | cons hanswer rest ih => exact (Reaches.call .start hanswer).trans ih

end Store

namespace World

variable {σ : Type} {w w' : World Store σ} {t : Engine.Trace}

theorem Serial.reaches (h : Serial w t w') : w.registry.Reaches w'.registry :=
  h.registry.reaches

/-- The work of the engine is part of the life of its registry. -/
theorem reaches_run {α : Type} (program : Engine α) (w : World Store σ) :
    w.registry.Reaches ((World.run program).run w).2.registry := by
  obtain ⟨t, -, hserial⟩ := exists_serial (fun r : Effect => World.answer r) program w
  exact Serial.reaches hserial

end World

/-! ## Looking up what was registered -/

/-- What names a record in a look-up. -/
def Dek.identity (dek : Dek) : DekId :=
  ⟨dek.kekName, dek.subject, dek.version, dek.algorithm⟩

namespace Store

variable {s s' s₁ : Store} {now : Int64} {kekName name : String} {request : DekRequest}
  {id : DekId} {deleted : Bool} {dek : Dek} {draws : List (Exchange Draw.signature)}

/-- The record that an identity stands for: the version of its file with that
number, or for version 0 the greatest one. -/
def Designated (s : Store) (id : DekId) (dek : Dek) : Prop :=
  dek ∈ s.file (pathOf id) ∧
    if id.version = Dek.latestVersion then ∀ d ∈ s.file (pathOf id), d.version ≤ dek.version
    else dek.version = id.version

theorem Designated.version_eq (h : s.Designated id dek)
    (hversion : id.version ≠ Dek.latestVersion) : dek.version = id.version := by
  have hchosen := h.2
  rwa [if_neg hversion] at hchosen

/-- A registry that started without records finds what an identity stands for,
and nothing else. -/
theorem Reaches.getDek_eq_ok_iff (h : Reaches ∅ s) :
    s.getDek id deleted = .ok dek ↔ s.Designated id dek := by
  obtain ⟨l, hl⟩ := h.exists_reflects
  exact hl.getDek_eq_ok_iff id deleted dek

/-- A file has one record of each version. -/
theorem Reaches.eq_of_version (h : Reaches ∅ s) {path : DekPath} {d : Dek}
    (hdek : dek ∈ s.file path) (hd : d ∈ s.file path) (hversion : d.version = dek.version) :
    d = dek := by
  obtain ⟨l, hl⟩ := h.exists_reflects
  exact hl.eq_of_version hd hdek hversion

/-- A record of a file is found under its own identity, unless its version is 0
and it is not alone. -/
theorem Reaches.getDek_identity_iff (h : Reaches ∅ s) (hdek : dek ∈ s.file dek.path) :
    s.getDek dek.identity deleted = .ok dek ↔
      dek.version ≠ Dek.latestVersion ∨ ∀ d ∈ s.file dek.path, d = dek := by
  rw [h.getDek_eq_ok_iff]
  have hpath : pathOf dek.identity = dek.path := rfl
  have hnumber : dek.identity.version = dek.version := rfl
  unfold Designated
  rw [hpath, hnumber]
  by_cases hversion : dek.version = Dek.latestVersion
  · rw [if_pos hversion]
    constructor
    · rintro ⟨-, hgreatest⟩
      right
      intro d hd
      apply h.eq_of_version hdek hd
      -- No version is less than 0.
      have hle := hgreatest d hd
      rw [hversion] at hle ⊢
      exact UInt32.le_antisymm hle UInt32.zero_le
    · rintro (hother | halone)
      · exact absurd hversion hother
      · refine ⟨hdek, ?_⟩
        intro d hd
        rw [halone d hd]
        exact UInt32.le_refl _
  · rw [if_neg hversion]
    constructor
    · intro _
      exact .inl hversion
    · intro _
      exact ⟨hdek, rfl⟩

/-- A registered version is never lost.  From then on it is found under its own
identity, unless its version is 0: this number asks for the greatest version,
so that the record is found only as long as it is the only one of its file. -/
theorem registered_dek_kept (hbefore : Reaches ∅ s)
    (hregistered : Runs (s.registerDek kekName request now) draws (.ok dek, s₁))
    (hafter : s₁.Reaches s') :
    dek.identity = ⟨kekName, request.subject, request.version, request.algorithm⟩ ∧
      dek ∈ s'.file dek.path ∧
      ∀ deleted, s'.getDek dek.identity deleted = .ok dek ↔
        dek.version ≠ Dek.latestVersion ∨ ∀ d ∈ s'.file dek.path, d = dek := by
  have hcall : s.Reaches s₁ := .call .start (c := .registerDek kekName request) hregistered
  have hreached : Reaches ∅ s' := (hbefore.trans hcall).trans hafter
  have hstored : dek.identity = ⟨kekName, request.subject, request.version, request.algorithm⟩ ∧
      dek ∈ s₁.file dek.path := by
    cases registerDek_runs hregistered with
    | added hkek hnew hmaterial => exact ⟨rfl, mem_file_addDek.mpr (.inl ⟨rfl, rfl⟩)⟩
  obtain ⟨hidentity, hfile⟩ := hstored
  have hkept : dek ∈ s'.file dek.path := hafter.outlives.files _ hfile
  refine ⟨hidentity, hkept, ?_⟩
  intro deleted
  exact hreached.getDek_identity_iff hkept

/-- A registry with one key-encryption key. -/
def single : Store :=
  (registerKek ∅ ⟨"k", "t", "i", ∅, none, false⟩ 0).2

/-- The registration of a wrapped version. -/
def wrappedRequest (version : UInt32) : DekRequest :=
  ⟨"s", version, "AES256_GCM", some "AAAA"⟩

/-- The record of that version under this key. -/
def wrappedRecord (version : UInt32) : Dek :=
  dekOf "k" (wrappedRequest version) (some "AAAA") none 0

/-- This registry with one version. -/
def versioned (version : UInt32) : Store :=
  single.addDek (wrappedRecord version).path (wrappedRecord version)

theorem reaches_single : Reaches ∅ single :=
  .call .start (c := .registerKek ⟨"k", "t", "i", ∅, none, false⟩) (runs_done_iff.mpr ⟨rfl, rfl⟩)

theorem registered_versioned (version : UInt32) :
    Runs (single.registerDek "k" (wrappedRequest version) 0) []
      (.ok (wrappedRecord version), versioned version) :=
  runs_done_iff.mpr ⟨rfl, rfl⟩

/-- The first version is found after the registration of another one. -/
theorem registered_dek_kept_followed :
    ∃ (s s₁ s' : Store) (dek : Dek), Reaches ∅ s ∧
      Runs (s.registerDek "k" (wrappedRequest 1) 0) [] (.ok dek, s₁) ∧ s₁.Reaches s' ∧
      (s'.file dek.path).length = 2 ∧ s'.getDek dek.identity false = .ok dek := by
  let s' : Store := (versioned 1).addDek (wrappedRecord 2).path (wrappedRecord 2)
  have hnext : Runs ((versioned 1).registerDek "k" (wrappedRequest 2) 0) []
      (.ok (wrappedRecord 2), s') := runs_done_iff.mpr ⟨rfl, rfl⟩
  have hafter : (versioned 1).Reaches s' :=
    .call .start (c := .registerDek "k" (wrappedRequest 2)) hnext
  obtain ⟨-, -, hfound⟩ := registered_dek_kept reaches_single (registered_versioned 1) hafter
  refine ⟨single, versioned 1, s', wrappedRecord 1, reaches_single, registered_versioned 1, hafter,
    by decide +kernel, ?_⟩
  exact (hfound false).mpr (.inl (by decide))

/-- A version 0 that was registered after version 1 is not found under its own
identity, not even at once. -/
theorem registered_zero_unseen :
    ∃ (s s' : Store) (dek : Dek), Reaches ∅ s ∧
      Runs (s.registerDek "k" (wrappedRequest 0) 0) [] (.ok dek, s') ∧
      s'.getDek dek.identity false = .ok (wrappedRecord 1) ∧ wrappedRecord 1 ≠ dek := by
  have hbefore : Reaches ∅ (versioned 1) :=
    reaches_single.trans (.call .start (c := .registerDek "k" (wrappedRequest 1))
      (registered_versioned 1))
  refine ⟨versioned 1, (versioned 1).addDek (wrappedRecord 0).path (wrappedRecord 0),
    wrappedRecord 0, hbefore, runs_done_iff.mpr ⟨rfl, rfl⟩, ?_, ?_⟩
  · decide +kernel
  · decide

end Store
end Envelope
