import Envelope.Proofs.Carriage
import Envelope.Proofs.Drivers
import Envelope.Proofs.Timeline
import Envelope.Registry.Store
import Envelope.World
import Mathlib.Data.List.Pairwise

/-!
# What surroundings keep

Records and clients are made once and then kept.  A registry in memory only
gains records (`Store.Extends`), and by a deletion it only loses sight of a
key-encryption key (`Store.Outlives`); its files stay in order (`Store.Filed`).
A directory only gains clients (`Kms.Directory.Extends`), so that an address
that once had a handle has it for good (`Kms.Directory.Published`).
-/

namespace Envelope

open Program

/-! ## Stores -/

/-- The file to which a version of a data key belongs. -/
def Dek.path (dek : Dek) : DekPath :=
  ⟨dek.kekName, dek.subject, dek.algorithm⟩

namespace Store

/-- The files of a store are in order: the versions increase from 1, no record
is deleted, and no raw key is kept. -/
structure Filed (s : Store) : Prop where
  increasing : ∀ path, (s.file path).Pairwise fun a b => a.version < b.version
  numbered : ∀ path, ∀ dek ∈ s.file path, dek.version ≠ Dek.latestVersion
  visible : ∀ path, ∀ dek ∈ s.file path, dek.deleted = false
  unknown : ∀ path, ∀ dek ∈ s.file path, dek.rawKey = none

/-- A store has all the records of another one. -/
structure Extends (s s' : Store) : Prop where
  keks : ∀ {name kek}, s.keks.get? name = some kek → s'.keks.get? name = some kek
  files : ∀ path, s.file path ⊆ s'.file path

/-- A store has all the records of another one, some of its key-encryption keys
perhaps marked as deleted or no longer so. -/
structure Outlives (s s' : Store) : Prop where
  keks : ∀ {name kek}, s.keks.get? name = some kek →
    ∃ mark, s'.keks.get? name = some { kek with deleted := mark }
  files : ∀ path, s.file path ⊆ s'.file path

variable {s s' s'' : Store} {path : DekPath} {dek : Dek} {now : Int64}

theorem Extends.refl (s : Store) : Extends s s :=
  ⟨id, fun _ => List.Subset.refl _⟩

theorem Extends.trans (h : Extends s s') (h' : Extends s' s'') : Extends s s'' :=
  ⟨fun hkek => h'.keks (h.keks hkek), fun path => List.Subset.trans (h.files path) (h'.files path)⟩

theorem Extends.outlives (h : Extends s s') : Outlives s s' :=
  ⟨fun {_ kek} hkek => ⟨kek.deleted, h.keks hkek⟩, h.files⟩

theorem Outlives.refl (s : Store) : Outlives s s :=
  (Extends.refl s).outlives

theorem Outlives.trans (h : Outlives s s') (h' : Outlives s' s'') : Outlives s s'' := by
  refine ⟨fun hkek => ?_, fun path => List.Subset.trans (h.files path) (h'.files path)⟩
  obtain ⟨mark, hmark⟩ := h.keks hkek
  obtain ⟨mark', hmark'⟩ := h'.keks hmark
  exact ⟨mark', hmark'⟩

theorem filed_empty : Filed ∅ := by
  have hfile : ∀ path, (∅ : Store).file path = [] := fun _ => rfl
  constructor <;> intro path <;> simp [hfile]

theorem mem_files_of_mem_file (h : dek ∈ s.file path) : ∃ entry ∈ s.files, dek ∈ entry.2 := by
  unfold file at h
  generalize s.files = files at h
  induction files with
  | nil => cases h
  | cons entry rest ih =>
    rw [Dict.lookup_cons] at h
    split at h
    · exact ⟨entry, List.mem_cons_self, h⟩
    · obtain ⟨other, hother, hdek⟩ := ih h
      exact ⟨other, List.mem_cons_of_mem _ hother, hdek⟩

theorem mem_insertVersion {d : Dek} {deks : List Dek} :
    d ∈ insertVersion dek deks ↔ d = dek ∨ d ∈ deks := by
  induction deks with
  | nil => simp [insertVersion]
  | cons head rest ih =>
    unfold insertVersion
    split
    · simp
    · simp only [List.mem_cons, ih]
      grind

theorem perm_insertVersion (dek : Dek) (deks : List Dek) :
    (insertVersion dek deks).Perm (dek :: deks) := by
  induction deks with
  | nil => exact .refl _
  | cons head rest ih =>
    unfold insertVersion
    split
    · exact .refl _
    · exact (ih.cons head).trans (.swap dek head rest)

/-- A version greater than all others goes to the end. -/
theorem insertVersion_of_lt {deks : List Dek} (h : ∀ d ∈ deks, d.version < dek.version) :
    insertVersion dek deks = deks ++ [dek] := by
  induction deks with
  | nil => rfl
  | cons head rest ih =>
    have hhead : ¬ dek.version < head.version :=
      UInt32.not_lt.mpr (UInt32.le_of_lt (h head List.mem_cons_self))
    rw [insertVersion, if_neg hhead, ih fun d hd => h d (List.mem_cons_of_mem _ hd)]
    rfl

/-- A new version keeps the order. -/
theorem pairwise_insertVersion {deks : List Dek}
    (h : deks.Pairwise fun a b => a.version < b.version)
    (hnew : ∀ d ∈ deks, d.version ≠ dek.version) :
    (insertVersion dek deks).Pairwise fun a b => a.version < b.version := by
  induction deks with
  | nil => simp [insertVersion]
  | cons head rest ih =>
    obtain ⟨hfirst, htail⟩ := List.pairwise_cons.mp h
    unfold insertVersion
    split
    · rename_i hless
      refine List.pairwise_cons.mpr ⟨fun d hd => ?_, h⟩
      rcases List.mem_cons.mp hd with rfl | hd
      · exact hless
      · exact UInt32.lt_trans hless (hfirst d hd)
    · rename_i hless
      refine List.pairwise_cons.mpr ⟨fun d hd => ?_, ?_⟩
      · rcases mem_insertVersion.mp hd with rfl | hd
        · have hne := hnew head List.mem_cons_self
          exact UInt32.lt_of_le_of_ne (UInt32.not_lt.mp hless) hne
        · exact hfirst d hd
      · exact ih htail fun d hd => hnew d (List.mem_cons_of_mem _ hd)

/-- A file has one record of each version. -/
theorem Filed.eq_of_version (h : Filed s) {d : Dek} (hdek : dek ∈ s.file path)
    (hd : d ∈ s.file path) (hversion : dek.version = d.version) : dek = d := by
  have hdistinct : (s.file path).Pairwise fun a b => a.version ≠ b.version :=
    (h.increasing path).imp fun hless => UInt32.ne_of_lt hless
  have : Std.Symm fun a b : Dek => a.version ≠ b.version := ⟨fun _ _ hne => hne.symm⟩
  by_contra hne
  exact hdistinct.forall hdek hd hne hversion

/-- A file with a new version holds the old ones and the new one. -/
theorem mem_file_addDek {other : DekPath} {d : Dek} :
    d ∈ (s.addDek path dek).file other ↔ (other = path ∧ d = dek) ∨ d ∈ s.file other := by
  rw [file_addDek]
  by_cases hpath : other = path
  · subst hpath
    rw [if_pos rfl, mem_insertVersion]
    simp
  · simp [hpath]

theorem file_congr (h : s'.files = s.files) : s'.file path = s.file path := by
  rw [file, file, h]

theorem putFile_of_lookup {deks : List Dek} {files : List (DekPath × List Dek)}
    (h : files.lookup path = some deks) : putFile path deks files = files := by
  induction files with
  | nil => cases h
  | cons head rest ih =>
    obtain ⟨p, ds⟩ := head
    rw [Dict.lookup_cons] at h
    unfold putFile
    by_cases hpath : p = path
    · rw [if_pos hpath.symm] at h
      obtain rfl := Option.some.inj h
      rw [if_pos hpath, hpath]
    · rw [if_neg (Ne.symm hpath)] at h
      rw [if_neg hpath, ih h]

theorem putFile_putFile (path : DekPath) (deks deks' : List Dek)
    (files : List (DekPath × List Dek)) :
    putFile path deks' (putFile path deks files) = putFile path deks' files := by
  induction files with
  | nil => simp [putFile]
  | cons head rest ih =>
    obtain ⟨p, ds⟩ := head
    by_cases hpath : p = path
    · simp [putFile, hpath]
    · simp [putFile, hpath, ih]

/-- A file with records is open. -/
theorem openFile_of_mem (h : dek ∈ s.file path) : s.openFile path = s := by
  have hlookup : s.files.lookup path = some (s.file path) := by
    unfold file at h ⊢
    cases hfile : s.files.lookup path with
    | none =>
      rw [hfile] at h
      cases h
    | some deks => rfl
  rw [openFile, putFile_of_lookup hlookup]

theorem addDek_openFile (s : Store) (path : DekPath) (dek : Dek) :
    (s.openFile path).addDek path dek = s.addDek path dek := by
  rw [addDek, file_openFile, openFile, putFile_putFile]
  rfl

theorem Filed.congr (h : Filed s) (hfile : ∀ path, s'.file path = s.file path) : Filed s' := by
  have hfile' : s'.file = s.file := funext hfile
  obtain ⟨hincreasing, hnumbered, hvisible, hunknown⟩ := h
  rw [← hfile'] at hincreasing hnumbered hvisible hunknown
  exact ⟨hincreasing, hnumbered, hvisible, hunknown⟩

/-- A store whose files hold the same has the same records. -/
theorem extends_of_file (hkeks : s'.keks = s.keks) (hfile : ∀ path, s'.file path = s.file path) :
    Extends s s' := by
  refine ⟨fun hkek => ?_, fun path => ?_⟩
  · rw [hkeks]
    exact hkek
  · rw [hfile]
    exact List.Subset.refl _

/-- Adding a version depends on what is in the file alone. -/
theorem file_addDek_congr (hfile : ∀ path, s'.file path = s.file path) (other : DekPath) :
    (s'.addDek path dek).file other = (s.addDek path dek).file other := by
  rw [file_addDek, file_addDek, hfile, hfile]

theorem extends_addDek : Extends s (s.addDek path dek) :=
  ⟨id, fun _ _ hd => mem_file_addDek.mpr (.inr hd)⟩

theorem Filed.addDek (h : Filed s) (hnew : ∀ d ∈ s.file path, d.version ≠ dek.version)
    (hnumbered : dek.version ≠ Dek.latestVersion) (hvisible : dek.deleted = false)
    (hunknown : dek.rawKey = none) : Filed (s.addDek path dek) := by
  constructor
  · intro other
    rw [file_addDek]
    by_cases hpath : other = path
    · rw [if_pos hpath]
      exact pairwise_insertVersion (h.increasing path) hnew
    · rw [if_neg hpath]
      exact h.increasing other
  · intro other d hd
    rcases mem_file_addDek.mp hd with ⟨-, rfl⟩ | hd
    · exact hnumbered
    · exact h.numbered other d hd
  · intro other d hd
    rcases mem_file_addDek.mp hd with ⟨-, rfl⟩ | hd
    · exact hvisible
    · exact h.visible other d hd
  · intro other d hd
    rcases mem_file_addDek.mp hd with ⟨-, rfl⟩ | hd
    · exact hunknown
    · exact h.unknown other d hd

theorem isNotFound_kekNotFound (name : String) : (kekNotFound name).isNotFound = true := by
  change RegistryError.inFamily 404 (40401 : UInt32).toNat = true
  decide +kernel

theorem isConflict_kekExists (name : String) : (kekExists name).isConflict = true := by
  change RegistryError.inFamily 409 (40972 : UInt32).toNat = true
  decide +kernel

theorem isNotFound_dekNotFound (kekName subject : String) (version : UInt32) :
    (dekNotFound kekName subject version).isNotFound = true := by
  change RegistryError.inFamily 404 (40470 : UInt32).toNat = true
  decide +kernel

theorem isConflict_dekExists (kekName subject : String) (version : UInt32) :
    (dekExists kekName subject version).isConflict = true := by
  change RegistryError.inFamily 409 (40971 : UInt32).toNat = true
  decide +kernel

/-! ## Look-ups -/

variable {name : String} {deleted : Bool} {kek : Kek} {id : DekId} {e : RegistryError}

theorem getKek_eq_ok_iff : s.getKek name deleted = .ok kek ↔
    s.keks.get? name = some kek ∧ (deleted = true ∨ kek.deleted = false) := by
  unfold getKek
  cases hkek : s.keks.get? name with
  | none => simp
  | some kek' =>
    dsimp only
    split
    · grind
    · grind

theorem getKek_eq_error (h : s.getKek name deleted = .error e) : e = kekNotFound name := by
  unfold getKek at h
  split at h
  · split at h
    · cases h
    · exact (Except.error.inj h).symm
  · exact (Except.error.inj h).symm

theorem getKek_of_deleted (h : s.keks.get? name = some kek) (hmark : kek.deleted = true) :
    s.getKek name false = .error (kekNotFound name) := by
  simp [getKek, h, hmark]

theorem Extends.getKek (h : Extends s s') (hkek : s.getKek name deleted = .ok kek) :
    s'.getKek name deleted = .ok kek := by
  obtain ⟨hfound, hvisible⟩ := getKek_eq_ok_iff.mp hkek
  exact getKek_eq_ok_iff.mpr ⟨h.keks hfound, hvisible⟩

/-- The file in which a look-up searches. -/
def pathOf (id : DekId) : DekPath :=
  ⟨id.kekName, id.subject, id.algorithm⟩

theorem mem_of_getDek (hdek : s.getDek id deleted = .ok dek) :
    dek ∈ s.file (pathOf id) ∧ (id.version ≠ Dek.latestVersion → dek.version = id.version) := by
  unfold getDek at hdek
  dsimp only at hdek
  split at hdek
  · rename_i d hfound
    obtain rfl := Except.ok.inj hdek
    by_cases hlatest : id.version = Dek.latestVersion
    · rw [if_pos hlatest] at hfound
      exact ⟨List.mem_reverse.mp (List.mem_of_find?_eq_some hfound), absurd hlatest⟩
    · rw [if_neg hlatest] at hfound
      obtain ⟨hfind, -⟩ := Option.filter_eq_some_iff.mp hfound
      have hversion := List.find?_some hfind
      exact ⟨List.mem_of_find?_eq_some hfind, fun _ => of_decide_eq_true hversion⟩
  · cases hdek

/-- A version of a file can be looked up. -/
theorem Filed.getDek_of_mem (h : Filed s) (hdek : dek ∈ s.file (pathOf id))
    (hversion : dek.version = id.version) : s.getDek id deleted = .ok dek := by
  have hlatest : id.version ≠ Dek.latestVersion := hversion ▸ h.numbered _ dek hdek
  have hfind : (s.file (pathOf id)).find? (fun d => d.version = id.version) = some dek := by
    cases hfound : (s.file (pathOf id)).find? fun d => d.version = id.version with
    | none =>
      have hnone := List.find?_eq_none.mp hfound dek hdek
      simp [hversion] at hnone
    | some d =>
      have hd := List.find?_some hfound
      rw [h.eq_of_version hdek (List.mem_of_find?_eq_some hfound)
        (hversion.trans (of_decide_eq_true hd).symm)]
  have hvisible := h.visible _ dek hdek
  unfold pathOf at hfind
  unfold getDek
  simp only [if_neg hlatest, hfind, Option.filter, hvisible, Bool.not_false, Bool.or_true, if_true]

/-- The latest version of a file that has one can be looked up. -/
theorem Filed.getDek_latest (h : Filed s) (hdek : dek ∈ s.file (pathOf id))
    (hlatest : id.version = Dek.latestVersion) : ∃ d, s.getDek id deleted = .ok d := by
  have hsome : ((s.file (pathOf id)).reverse.find?
      fun d => deleted || !d.deleted).isSome = true := by
    refine List.find?_isSome.mpr ⟨dek, List.mem_reverse.mpr hdek, ?_⟩
    simp [h.visible _ dek hdek]
  obtain ⟨d, hd⟩ := Option.isSome_iff_exists.mp hsome
  refine ⟨d, ?_⟩
  unfold pathOf at hd
  unfold getDek
  simp only [if_pos hlatest, hd]

theorem getDek_eq_error (h : s.getDek id deleted = .error e) :
    e = dekNotFound id.kekName id.subject id.version := by
  unfold getDek at h
  dsimp only at h
  split at h
  · cases h
  · exact (Except.error.inj h).symm

/-! ## Registrations -/

variable {request : KekRequest} {kekName : String} {dekRequest : DekRequest}

/-- The record that a registration makes of a key-encryption key. -/
def kekOf (request : KekRequest) (now : Int64) : Kek where
  name := request.name
  kmsType := request.kmsType
  kmsKeyId := request.kmsKeyId
  kmsProps := request.kmsProps
  doc := request.doc
  shared := request.shared
  timestamp := now
  deleted := false

theorem registerKek_of_some (h : s.keks.get? request.name = some kek) :
    s.registerKek request now = (.error (kekExists request.name), s) := by
  unfold registerKek
  rw [h]

theorem registerKek_of_none (h : s.keks.get? request.name = none) :
    s.registerKek request now =
      (.ok (kekOf request now),
        { s with keks := s.keks.insert request.name (kekOf request now) }) := by
  unfold registerKek
  rw [h]
  rfl

theorem registerKek_eq_ok (h : (s.registerKek request now).1 = .ok kek) :
    s.keks.get? request.name = none ∧ kek = kekOf request now := by
  cases hknown : s.keks.get? request.name with
  | some other =>
    rw [registerKek_of_some hknown] at h
    cases h
  | none =>
    rw [registerKek_of_none hknown] at h
    exact ⟨rfl, (Except.ok.inj h).symm⟩

theorem registerKek_eq_error (h : (s.registerKek request now).1 = .error e) :
    (∃ kek, s.keks.get? request.name = some kek) ∧ e = kekExists request.name := by
  cases hknown : s.keks.get? request.name with
  | some other =>
    rw [registerKek_of_some hknown] at h
    exact ⟨⟨other, rfl⟩, (Except.error.inj h).symm⟩
  | none =>
    rw [registerKek_of_none hknown] at h
    cases h

theorem get?_registerKek (h : (s.registerKek request now).2.keks.get? name = some kek) :
    s.keks.get? name = some kek ∨ (name = request.name ∧ kek = kekOf request now) := by
  cases hknown : s.keks.get? request.name with
  | some other =>
    rw [registerKek_of_some hknown] at h
    exact .inl h
  | none =>
    rw [registerKek_of_none hknown] at h
    dsimp only at h
    rw [Dict.get?_insert] at h
    by_cases hname : name = request.name
    · rw [if_pos hname] at h
      exact .inr ⟨hname, (Option.some.inj h).symm⟩
    · rw [if_neg hname] at h
      exact .inl h

/-- A key-encryption key that was registered is kept. -/
theorem get?_of_registerKek (h : (s.registerKek request now).1 = .ok kek) :
    (s.registerKek request now).2.keks.get? request.name = some kek := by
  obtain ⟨habsent, rfl⟩ := registerKek_eq_ok h
  rw [registerKek_of_none habsent]
  exact (Dict.get?_insert _ _ _ _).trans (if_pos rfl)

theorem files_registerKek : (s.registerKek request now).2.files = s.files := by
  cases hknown : s.keks.get? request.name with
  | some other => rw [registerKek_of_some hknown]
  | none => rw [registerKek_of_none hknown]

theorem file_registerKek : (s.registerKek request now).2.file path = s.file path :=
  file_congr files_registerKek

/-- The record that a registration makes of a version of a data key. -/
def dekOf (kekName : String) (request : DekRequest) (wrapped clear : Option String)
    (now : Int64) : Dek where
  kekName := kekName
  subject := request.subject
  version := request.version
  algorithm := request.algorithm
  encryptedKeyMaterial := wrapped
  keyMaterial := clear
  timestamp := now
  deleted := false
  rawKey := none

/-- The key material of a new version: wrapped as given, or for a shared
key-encryption key in the clear and of the length that its algorithm has. -/
inductive Material (shared : Bool) (request : DekRequest) :
    Option String → Option String → Prop where
  | given (text : String) (h : request.encryptedKeyMaterial = some text) :
      Material shared request (some text) none
  | made (h : request.encryptedKeyMaterial = none) (hshared : shared = true) (a : Algorithm)
      (halgorithm : (Cryptor.mk request.algorithm).algorithm = .ok a) (key : Bytes)
      (hlength : key.length = a.keyLength) :
      Material shared request none (some (Base64.encode key))

/-- The registration of a version without key material is refused, if the
key-encryption key is not shared or the algorithm not supported. -/
structure Unmade (shared : Bool) (request : DekRequest) : Prop where
  material : request.encryptedKeyMaterial = none
  unsupported : shared = true → ∃ e, (Cryptor.mk request.algorithm).algorithm = .error e

/-- What the registration of a version comes to. -/
inductive DekOutcome (s : Store) (kekName : String) (request : DekRequest) (now : Int64) :
    Except RegistryError Dek → Store → Prop where
  | unknown (e : RegistryError) (h : s.getKek kekName false = .error e) :
      DekOutcome s kekName request now (.error e) s
  | taken {kek : Kek} (h : s.getKek kekName false = .ok kek) {dek : Dek}
      (hdek : dek ∈ s.file ⟨kekName, request.subject, request.algorithm⟩)
      (hversion : dek.version = request.version) :
      DekOutcome s kekName request now
        (.error (dekExists kekName request.subject request.version)) s
  | unmade {kek : Kek} (h : s.getKek kekName false = .ok kek) (hunmade : Unmade kek.shared request)
      (reason : String) :
      DekOutcome s kekName request now (.error (invalidDek reason))
        (s.openFile ⟨kekName, request.subject, request.algorithm⟩)
  | added {kek : Kek} (h : s.getKek kekName false = .ok kek)
      (hnew : ∀ d ∈ s.file ⟨kekName, request.subject, request.algorithm⟩,
        d.version ≠ request.version)
      {wrapped clear : Option String} (hmaterial : Material kek.shared request wrapped clear) :
      DekOutcome s kekName request now (.ok (dekOf kekName request wrapped clear now))
        (s.addDek ⟨kekName, request.subject, request.algorithm⟩
          (dekOf kekName request wrapped clear now))

theorem material_comesTo {shared : Bool} {u : List (Exchange Draw.signature)}
    {r : Except RegistryError (Option String × Option String)}
    (h : ComesTo (material kekName shared dekRequest) u r) :
    (∃ reason, r = .error (invalidDek reason) ∧ Unmade shared dekRequest) ∨
      ∃ wrapped clear, r = .ok (wrapped, clear) ∧ Material shared dekRequest wrapped clear := by
  unfold material at h
  split at h
  · rename_i text hgiven
    obtain ⟨-, rfl⟩ := comesTo_pure.mp h
    exact .inr ⟨some text, none, rfl, .given text hgiven⟩
  · rename_i hmissing
    obtain ⟨r', hadapt, rfl⟩ := (comesTo_bind_except fun _ _ _ => comesTo_pure).mp h
    obtain ⟨r'', hkey, rfl⟩ := comesTo_adapt.mp hadapt
    rcases Cryptor.generateKey_comesTo hkey with ⟨e, halgorithm, -, rfl⟩ |
      ⟨a, halgorithm, key, -, rfl⟩
    · exact .inl ⟨e.message, rfl, hmissing, fun _ => ⟨e, halgorithm⟩⟩
    · exact .inr ⟨none, _, rfl, .made hmissing rfl a halgorithm key.val key.property⟩
  · rename_i hmissing
    obtain ⟨-, rfl⟩ := comesTo_throw.mp h
    exact .inl ⟨_, rfl, hmissing, fun hshared => nomatch hshared⟩

theorem registerDek_runs {u : List (Exchange Draw.signature)}
    {x : Except RegistryError Dek × Store} (h : Runs (s.registerDek kekName dekRequest now) u x) :
    DekOutcome s kekName dekRequest now x.1 x.2 := by
  unfold registerDek at h
  dsimp only at h
  cases hkek : s.getKek kekName false with
  | error e =>
    rw [hkek] at h
    obtain ⟨-, rfl⟩ := runs_done_iff.mp h
    exact .unknown e hkek
  | ok kek =>
    rw [hkek] at h
    simp only [file_openFile, addDek_openFile] at h
    split at h
    · rename_i htaken
      obtain ⟨-, rfl⟩ := runs_done_iff.mp h
      obtain ⟨dek, hdek, hversion⟩ := List.any_eq_true.mp htaken
      dsimp only
      rw [openFile_of_mem hdek]
      exact .taken hkek hdek (of_decide_eq_true hversion)
    · rename_i hfree
      have hnew : ∀ d ∈ s.file ⟨kekName, dekRequest.subject, dekRequest.algorithm⟩,
          d.version ≠ dekRequest.version := by
        intro d hd hversion
        exact hfree (List.any_eq_true.mpr ⟨d, hd, decide_eq_true hversion⟩)
      obtain ⟨u₁, u₂, r, hmaterial, hrest, rfl⟩ := runs_bind_iff.mp h
      rcases material_comesTo hmaterial with ⟨reason, rfl, hunmade⟩ | ⟨wrapped, clear, rfl, hmade⟩
      · obtain ⟨-, rfl⟩ := runs_done_iff.mp hrest
        exact .unmade hkek hunmade reason
      · obtain ⟨-, rfl⟩ := runs_done_iff.mp hrest
        exact .added hkek hnew hmade

theorem extends_insertKek (h : s.keks.get? name = none) :
    Extends s { s with keks := s.keks.insert name kek } := by
  refine ⟨fun {other kek'} hkek => ?_, fun _ => List.Subset.refl _⟩
  have hne : other ≠ name := by
    rintro rfl
    rw [h] at hkek
    cases hkek
  rw [Dict.get?_insert, if_neg hne]
  exact hkek

theorem extends_registerKek : Extends s (s.registerKek request now).2 := by
  cases h : s.keks.get? request.name with
  | some kek =>
    rw [registerKek_of_some h]
    exact .refl s
  | none =>
    rw [registerKek_of_none h]
    exact extends_insertKek h

theorem Filed.registerKek (h : Filed s) : Filed (s.registerKek request now).2 := by
  cases hkek : s.keks.get? request.name with
  | some kek =>
    rw [registerKek_of_some hkek]
    exact h
  | none =>
    rw [registerKek_of_none hkek]
    exact ⟨h.increasing, h.numbered, h.visible, h.unknown⟩

theorem DekOutcome.extends {x : Except RegistryError Dek}
    (h : DekOutcome s kekName dekRequest now x s') : Extends s s' := by
  cases h with
  | unknown e h => exact .refl s
  | taken h hdek hversion => exact .refl s
  | unmade h hunmade reason => exact extends_of_file rfl (s.file_openFile _)
  | added h hnew hmaterial => exact extends_addDek

theorem DekOutcome.filed {x : Except RegistryError Dek}
    (h : DekOutcome s kekName dekRequest now x s') (hs : Filed s)
    (hnumbered : dekRequest.version ≠ Dek.latestVersion) : Filed s' := by
  cases h with
  | unknown e h => exact hs
  | taken h hdek hversion => exact hs
  | unmade h hunmade reason => exact hs.congr (s.file_openFile _)
  | added h hnew hmaterial => exact hs.addDek hnew hnumbered rfl rfl

theorem DekOutcome.keks_eq {x : Except RegistryError Dek}
    (h : DekOutcome s kekName dekRequest now x s') : s'.keks = s.keks := by
  cases h <;> rfl

/-- What a registration leaves in a file was there before, or it is the record
that was registered. -/
theorem DekOutcome.mem_file {x : Except RegistryError Dek}
    (h : DekOutcome s kekName dekRequest now x s') (hdek : dek ∈ s'.file path) :
    dek ∈ s.file path ∨
      (x = .ok dek ∧ path = ⟨kekName, dekRequest.subject, dekRequest.algorithm⟩ ∧
        ∃ shared wrapped clear, dek = dekOf kekName dekRequest wrapped clear now ∧
          Material shared dekRequest wrapped clear) := by
  cases h with
  | unknown e h => exact .inl hdek
  | taken h hdek' hversion => exact .inl hdek
  | unmade h hunmade reason => exact .inl (s.file_openFile _ path ▸ hdek)
  | added h hnew hmaterial =>
    rcases mem_file_addDek.mp hdek with ⟨rfl, rfl⟩ | hdek
    · exact .inr ⟨rfl, rfl, _, _, _, rfl, hmaterial⟩
    · exact .inl hdek

theorem softDeleteKek_of_some (h : s.keks.get? name = some kek) :
    s.softDeleteKek name =
      (.ok (), { s with keks := s.keks.insert name { kek with deleted := true } }) := by
  unfold softDeleteKek
  rw [h]

theorem softDeleteKek_of_none (h : s.keks.get? name = none) :
    s.softDeleteKek name = (.error (kekNotFound name), s) := by
  unfold softDeleteKek
  rw [h]

theorem outlives_softDeleteKek : Outlives s (s.softDeleteKek name).2 := by
  cases hkek : s.keks.get? name with
  | none =>
    rw [softDeleteKek_of_none hkek]
    exact .refl s
  | some kek =>
    rw [softDeleteKek_of_some hkek]
    refine ⟨fun {other kek'} hother => ?_, fun _ => List.Subset.refl _⟩
    by_cases hname : other = name
    · subst hname
      rw [hkek] at hother
      obtain rfl := Option.some.inj hother
      exact ⟨true, by rw [Dict.get?_insert, if_pos rfl]⟩
    · exact ⟨kek'.deleted, by rw [Dict.get?_insert, if_neg hname]; exact hother⟩

theorem softDeleteKek_eq_error (h : (s.softDeleteKek name).1 = .error e) :
    e = kekNotFound name := by
  cases hkek : s.keks.get? name with
  | none =>
    rw [softDeleteKek_of_none hkek] at h
    exact (Except.error.inj h).symm
  | some kek =>
    rw [softDeleteKek_of_some hkek] at h
    cases h

theorem files_softDeleteKek : (s.softDeleteKek name).2.files = s.files := by
  cases hkek : s.keks.get? name with
  | none => rw [softDeleteKek_of_none hkek]
  | some kek => rw [softDeleteKek_of_some hkek]

theorem Filed.softDeleteKek (h : Filed s) : Filed (s.softDeleteKek name).2 :=
  h.congr fun _ => file_congr files_softDeleteKek

end Store

/-! ## Directories -/

namespace Kms.Directory

variable {σ : Type} {k k' k'' : Directory σ} {url : String} {handle : Handle}
  {config : Properties} {systems : σ}

/-- A directory has all the clients of another one, and finds a driver wherever
the other one does. -/
structure Extends (k k' : Directory σ) : Prop where
  clients : ∀ {url client}, k.slots.get? url = some (some client) →
    k'.slots.get? url = some (some client)
  drivers : ∀ {url}, (∃ driver, k.resolve url = .ok driver) →
    ∃ driver, k'.resolve url = .ok driver

/-- The client of an address is connected and hands out a handle, and there is
a driver for the address. -/
structure Published (k : Directory σ) (url : String) (handle : Handle) : Prop where
  driver : ∃ driver, k.resolve url = .ok driver
  client : ∃ client, k.slots.get? url = some (some client) ∧ client.handle url = .ok handle

theorem Extends.refl (k : Directory σ) : Extends k k :=
  ⟨id, id⟩

theorem Extends.trans (h : Extends k k') (h' : Extends k' k'') : Extends k k'' :=
  ⟨fun hclient => h'.clients (h.clients hclient), fun hdriver => h'.drivers (h.drivers hdriver)⟩

theorem Published.mono (h : Published k url handle) (h' : Extends k k') :
    Published k' url handle := by
  obtain ⟨client, hclient, hhandle⟩ := h.client
  exact ⟨h'.drivers h.driver, client, h'.clients hclient, hhandle⟩

theorem Published.unique {handle' : Handle} (h : Published k url handle)
    (h' : Published k url handle') : handle = handle' := by
  obtain ⟨client, hclient, hhandle⟩ := h.client
  obtain ⟨client', hclient', hhandle'⟩ := h'.client
  rw [hclient] at hclient'
  obtain rfl := Option.some.inj (Option.some.inj hclient')
  rw [hhandle] at hhandle'
  exact Except.ok.inj hhandle'

theorem extends_register (driver : Driver σ) : Extends k (k.register driver) := by
  refine ⟨id, fun {url} h => ?_⟩
  obtain ⟨d, hd, hclaims⟩ := exists_resolve_iff.mp h
  refine exists_resolve_iff.mpr ?_
  by_cases hprefix : d.urlPrefix = driver.urlPrefix
  · exact ⟨driver, by simp [register], hprefix ▸ hclaims⟩
  · exact ⟨d, by simp [register, hd, hprefix], hclaims⟩

/-- What a request for a client comes to: the address has one already, or the
driver connects to one, or it cannot. -/
inductive Connection (k : Directory σ) (driver : Driver σ) (config : Properties) (url : String)
    (systems : σ) : Attempt σ Client → Prop where
  | known (client : Client) (h : k.slots.get? url = some (some client)) :
      Connection k driver config url systems ⟨.ok client, k, systems, []⟩
  | connected (hnew : ∀ client, k.slots.get? url ≠ some (some client)) (client : Client)
      (systems' : σ) (events : List Event) (slots : Dict (Option Client))
      (hconnect : driver.connect config url systems = (.ok client, systems'))
      (hslots : ∀ other, slots.get? other =
        if other = url then some (some client) else k.slots.get? other) :
      Connection k driver config url systems
        ⟨.ok client, { k with slots := slots }, systems', events⟩
  | refused (hnew : ∀ client, k.slots.get? url ≠ some (some client)) (e : Error)
      (systems' : σ) (events : List Event) (slots : Dict (Option Client))
      (hconnect : driver.connect config url systems = (.error e, systems'))
      (hslots : ∀ other, slots.get? other = if other = url then none else k.slots.get? other) :
      Connection k driver config url systems ⟨.error e, { k with slots := slots }, systems', events⟩

theorem client_connection (k : Directory σ) (driver : Driver σ) (config : Properties)
    (url : String) (systems : σ) :
    k.Connection driver config url systems (k.client driver config url systems) := by
  unfold Directory.client
  split
  · rename_i client hclient
    exact .known client hclient
  · rename_i hnew
    dsimp only
    split
    · rename_i client systems' hconnect
      refine .connected hnew client systems' _ _ hconnect fun other => ?_
      rw [Dict.get?_insert, Dict.get?_insert]
      by_cases hother : other = url
      · rw [if_pos hother, if_pos hother]
      · rw [if_neg hother, if_neg hother, if_neg hother]
    · rename_i e systems' hconnect
      refine .refused hnew e systems' _ _ hconnect fun other => ?_
      rw [Dict.get?_erase, Dict.get?_insert]
      by_cases hother : other = url
      · rw [if_pos hother, if_pos hother]
      · rw [if_neg hother, if_neg hother, if_neg hother]

variable {driver : Driver σ} {attempt : Attempt σ Client} {client : Client} {other : String}

theorem Connection.drivers (h : k.Connection driver config url systems attempt) :
    attempt.directory.drivers = k.drivers := by
  cases h <;> rfl

/-- A request for a client leaves the clients of other addresses alone. -/
theorem Connection.get?_of_ne (h : k.Connection driver config url systems attempt)
    (hother : other ≠ url) : attempt.directory.slots.get? other = k.slots.get? other := by
  cases h with
  | known client h => rfl
  | connected hnew client systems' events slots hconnect hslots =>
    exact (hslots other).trans (if_neg hother)
  | refused hnew e systems' events slots hconnect hslots =>
    exact (hslots other).trans (if_neg hother)

theorem Connection.extends (h : k.Connection driver config url systems attempt) :
    Extends k attempt.directory := by
  refine ⟨fun {other client} hclient => ?_, fun {other} hdriver => ?_⟩
  · by_cases hother : other = url
    · subst hother
      cases h with
      | known client' h => exact hclient
      | connected hnew => exact absurd hclient (hnew client)
      | refused hnew => exact absurd hclient (hnew client)
    · rw [h.get?_of_ne hother]
      exact hclient
  · rwa [resolve_of_drivers h.drivers]

theorem Connection.get?_of_ok (h : k.Connection driver config url systems attempt)
    (hok : attempt.outcome = .ok client) :
    attempt.directory.slots.get? url = some (some client) := by
  cases h with
  | known client' h =>
    obtain rfl := Except.ok.inj hok
    exact h
  | connected hnew client' systems' events slots hconnect hslots =>
    obtain rfl := Except.ok.inj hok
    exact (hslots url).trans (if_pos rfl)
  | refused hnew e systems' events slots hconnect hslots => cases hok

/-- A client that is found after a connection was there before, or it is the
one that was connected. -/
theorem Connection.get?_cases (h : k.Connection driver config url systems attempt)
    (hclient : attempt.directory.slots.get? other = some (some client)) :
    k.slots.get? other = some (some client) ∨ (other = url ∧ attempt.outcome = .ok client) := by
  by_cases hother : other = url
  · subst hother
    cases h with
    | known client' h => exact .inl hclient
    | connected hnew client' systems' events slots hconnect hslots =>
      have hconnected := ((hslots other).trans (if_pos rfl)).symm.trans hclient
      obtain rfl := Option.some.inj (Option.some.inj hconnected)
      exact .inr ⟨rfl, rfl⟩
    | refused hnew e systems' events slots hconnect hslots =>
      have hnone := ((hslots other).trans (if_pos rfl)).symm.trans hclient
      cases hnone
  · rw [h.get?_of_ne hother] at hclient
    exact .inl hclient

theorem handle_of_unresolved {e : Error} (h : k.resolve url = .error e) (config : Properties)
    (systems : σ) :
    (k.handle config url systems).directory = k ∧
      (k.handle config url systems).outcome = .error e := by
  unfold Directory.handle
  rw [h]
  exact ⟨rfl, rfl⟩

theorem handle_of_resolve (h : k.resolve url = .ok driver) (config : Properties) (systems : σ) :
    (k.handle config url systems).directory = (k.client driver config url systems).directory ∧
      (k.handle config url systems).outcome =
        (k.client driver config url systems).outcome >>= fun client => client.handle url := by
  unfold Directory.handle
  rw [h]
  exact ⟨rfl, rfl⟩

theorem extends_handle : Extends k (k.handle config url systems).directory := by
  cases h : k.resolve url with
  | error e =>
    rw [(handle_of_unresolved h config systems).1]
    exact .refl k
  | ok driver =>
    rw [(handle_of_resolve h config systems).1]
    exact (client_connection k driver config url systems).extends

/-- A handle that is handed out is there for good. -/
theorem published_of_handle (h : (k.handle config url systems).outcome = .ok handle) :
    Published (k.handle config url systems).directory url handle := by
  cases hresolve : k.resolve url with
  | error e =>
    rw [(handle_of_unresolved hresolve config systems).2] at h
    cases h
  | ok driver =>
    obtain ⟨hdirectory, houtcome⟩ := handle_of_resolve hresolve config systems
    have hconnection := client_connection k driver config url systems
    rw [houtcome] at h
    cases hclient : (k.client driver config url systems).outcome with
    | error e =>
      rw [hclient] at h
      cases h
    | ok client =>
      rw [hclient] at h
      rw [hdirectory]
      exact ⟨hconnection.extends.drivers ⟨driver, hresolve⟩, client,
        hconnection.get?_of_ok hclient, h⟩

/-- An address that has a handle is given no other one. -/
theorem Published.handle_eq (h : Published k url handle) :
    (k.handle config url systems).outcome = .ok handle := by
  obtain ⟨driver, hdriver⟩ := h.driver
  obtain ⟨client, hclient, hhandle⟩ := h.client
  rw [(handle_of_resolve hdriver config systems).2]
  unfold Directory.client
  rw [hclient]
  exact hhandle

end Kms.Directory

/-! ## Worlds -/

namespace World

variable {σ : Type} {w w' w'' : World Store σ} {r : Effect}

/-- A world has all the records and clients of another one. -/
structure Extends (w w' : World Store σ) : Prop where
  registry : w.registry.Extends w'.registry
  directory : w.directory.Extends w'.directory

/-- A world has all the records and clients of another one, up to the marks of
deletion. -/
structure Outlives (w w' : World Store σ) : Prop where
  registry : w.registry.Outlives w'.registry
  directory : w.directory.Extends w'.directory

theorem Extends.refl (w : World Store σ) : Extends w w :=
  ⟨.refl _, .refl _⟩

theorem Extends.trans (h : Extends w w') (h' : Extends w' w'') : Extends w w'' :=
  ⟨h.registry.trans h'.registry, h.directory.trans h'.directory⟩

theorem Extends.outlives (h : Extends w w') : Outlives w w' :=
  ⟨h.registry.outlives, h.directory⟩

theorem Outlives.refl (w : World Store σ) : Outlives w w :=
  (Extends.refl w).outlives

theorem Outlives.trans (h : Outlives w w') (h' : Outlives w' w'') : Outlives w w'' :=
  ⟨h.registry.trans h'.registry, h.directory.trans h'.directory⟩

theorem answer_registerDek (w : World Store σ) (kekName : String) (request : DekRequest) :
    w.registry.DekOutcome kekName request w.clock
      ((answer (.registry (.registerDek kekName request))).run w).1
      ((answer (.registry (.registerDek kekName request))).run w).2.registry := by
  obtain ⟨u, hruns⟩ := exists_runs RandomSource.answer
    (w.registry.registerDek kekName request w.clock) w.random
  exact Store.registerDek_runs hruns

theorem extends_answer (w : World Store σ) (r : Effect) : Extends w ((answer r).run w).2 := by
  cases r with
  | registry c =>
    refine ⟨?_, .refl _⟩
    cases c with
    | getKek name deleted => exact .refl _
    | registerKek request => exact Store.extends_registerKek
    | getDek id deleted => exact .refl _
    | registerDek kekName request => exact (answer_registerDek w kekName request).extends
  | clock => exact .refl w
  | random n => exact ⟨.refl _, .refl _⟩
  | keyHandle config url => exact ⟨.refl _, Kms.Directory.extends_handle⟩
  | log event => exact ⟨.refl _, .refl _⟩

/-- A request keeps the files of the registry in order: versions are registered
from 1 on. -/
def Proper : Effect → Prop
  | .registry (.registerDek _ request) => request.version ≠ Dek.latestVersion
  | _ => True

theorem filed_answer (h : w.registry.Filed) (hproper : Proper r) :
    ((answer r).run w).2.registry.Filed := by
  cases r with
  | registry c =>
    cases c with
    | getKek name deleted => exact h
    | registerKek request => exact h.registerKek
    | getDek id deleted => exact h
    | registerDek kekName request => exact (answer_registerDek w kekName request).filed h hproper
  | clock => exact h
  | random n => exact h
  | keyHandle config url => exact h
  | log event => exact h

end World
end Envelope
