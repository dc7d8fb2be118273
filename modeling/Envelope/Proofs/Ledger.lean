import Envelope.Proofs.Growth

/-!
# The registry as a ledger

A registry in memory keeps dictionaries and sorted files.  Seen from outside it
is much simpler: a ledger of the registrations and deletions that it has
accepted, to which entries are only ever added.  Every answer can be computed
from the ledger (`Ledger.answer`), the time, and the random bytes that a shared
key is made of.
-/

namespace Envelope

open Program

/-! ## Ledgers -/

/-- Something that a registry has accepted. -/
inductive Entry where
  | kek (record : Kek)
  | deletion (name : String)
  | dek (record : Dek)
deriving DecidableEq

/-- What a registry has accepted, the first entry first. -/
abbrev Ledger := List Entry

/-- What a registry in memory can be asked for, and a setting of its clock. -/
inductive Operation where
  | call (c : Registry.Call)
  | softDeleteKek (name : String)
  | countVersions (path : DekPath)
  | setClock (clock : Int64)

/-- The answers to an operation. -/
abbrev Operation.Answer : Operation → Type
  | call c => c.Answer
  | softDeleteKek _ => Except RegistryError Unit
  | countVersions _ => Nat
  | setClock _ => Unit

namespace Ledger

/-- The ledger with one more entry. -/
def add (l : Ledger) (entry : Entry) : Ledger :=
  l ++ [entry]

/-- The key-encryption key of a name as it was registered. -/
def registered? (l : Ledger) (name : String) : Option Kek :=
  l.findSome? fun entry =>
    match entry with
    | .kek record => if record.name = name then some record else none
    | _ => none

/-- The key-encryption key of a name with its deleted mark. -/
def kek? (l : Ledger) (name : String) : Option Kek :=
  (l.registered? name).map fun record =>
    { record with deleted := decide (Entry.deletion name ∈ l) }

/-- The versions that were registered for a file. -/
def versions (l : Ledger) (path : DekPath) : List Dek :=
  l.filterMap fun entry =>
    match entry with
    | .dek record => if record.path = path then some record else none
    | _ => none

/-- The version of a file with a number, or for version 0 the one that no other
exceeds. -/
def dek? (l : Ledger) (id : DekId) : Option Dek :=
  let versions := l.versions (Store.pathOf id)
  if id.version = Dek.latestVersion then
    versions.find? fun dek => versions.all fun d => d.version ≤ dek.version
  else
    versions.find? fun dek => dek.version = id.version

/-- The answer to a look-up of a key-encryption key. -/
def getKek (l : Ledger) (name : String) (deleted : Bool) : Except RegistryError Kek :=
  match (l.kek? name).filter fun kek => deleted || !kek.deleted with
  | some kek => .ok kek
  | none => .error (Store.kekNotFound name)

/-- The answer to a look-up of a data key. -/
def getDek (l : Ledger) (id : DekId) : Except RegistryError Dek :=
  match l.dek? id with
  | some dek => .ok dek
  | none => .error (Store.dekNotFound id.kekName id.subject id.version)

/-- The answer to the registration of a key-encryption key. -/
def registerKek (l : Ledger) (request : KekRequest) (now : Int64) : Except RegistryError Kek :=
  match l.kek? request.name with
  | some _ => .error (Store.kekExists request.name)
  | none => .ok (Store.kekOf request now)

/-- The answer to the registration of a version of a data key. -/
def registerDek (l : Ledger) (kekName : String) (request : DekRequest) (now : Int64) :
    Draw (Except RegistryError Dek) := do
  match l.getKek kekName false with
  | .error e => return .error e
  | .ok kek =>
    if (l.versions ⟨kekName, request.subject, request.algorithm⟩).any fun dek =>
        dek.version = request.version then
      return .error (Store.dekExists kekName request.subject request.version)
    else
      match ← (Store.material kekName kek.shared request).run with
      | .error e => return .error e
      | .ok (wrapped, clear) => return .ok (Store.dekOf kekName request wrapped clear now)

/-- The answer to a deletion. -/
def softDeleteKek (l : Ledger) (name : String) : Except RegistryError Unit :=
  match l.kek? name with
  | some _ => .ok ()
  | none => .error (Store.kekNotFound name)

/-- The answer to an operation, at a time. -/
def answer (l : Ledger) (now : Int64) : (op : Operation) → Draw op.Answer
  | .call (.getKek name deleted) => return l.getKek name deleted
  | .call (.registerKek request) => return l.registerKek request now
  | .call (.getDek id _) => return l.getDek id
  | .call (.registerDek kekName request) => l.registerDek kekName request now
  | .softDeleteKek name => return l.softDeleteKek name
  | .countVersions path => return (l.versions path).length
  | .setClock _ => return ()

/-- The ledger after an operation: a registration or deletion is added, if it
succeeded. -/
def after (l : Ledger) : (op : Operation) → op.Answer → Ledger
  | .call (.registerKek _), .ok kek => l.add (.kek kek)
  | .call (.registerDek _ _), .ok dek => l.add (.dek dek)
  | .softDeleteKek name, .ok () => l.add (.deletion name)
  | _, _ => l

/-! ## Adding an entry -/

variable {l : Ledger} {name : String} {path : DekPath}

theorem registered?_add (l : Ledger) (entry : Entry) (name : String) :
    (l.add entry).registered? name =
      (l.registered? name).or (registered? [entry] name) := by
  rw [add, registered?, List.findSome?_append]
  rfl

theorem registered?_add_deletion (l : Ledger) (deleted name : String) :
    (l.add (.deletion deleted)).registered? name = l.registered? name := by
  rw [registered?_add, show registered? [.deletion deleted] name = none from rfl, Option.or_none]

theorem registered?_add_dek (l : Ledger) (record : Dek) (name : String) :
    (l.add (.dek record)).registered? name = l.registered? name := by
  rw [registered?_add, show registered? [.dek record] name = none from rfl, Option.or_none]

theorem versions_add (l : Ledger) (entry : Entry) (path : DekPath) :
    (l.add entry).versions path = l.versions path ++ versions [entry] path := by
  rw [add, versions, List.filterMap_append]
  rfl

theorem versions_add_kek (l : Ledger) (record : Kek) (path : DekPath) :
    (l.add (.kek record)).versions path = l.versions path := by
  rw [versions_add, show versions [.kek record] path = [] from rfl, List.append_nil]

theorem versions_add_deletion (l : Ledger) (deleted : String) (path : DekPath) :
    (l.add (.deletion deleted)).versions path = l.versions path := by
  rw [versions_add, show versions [.deletion deleted] path = [] from rfl, List.append_nil]

theorem kek?_eq_none_iff : l.kek? name = none ↔ l.registered? name = none := by
  rw [kek?, Option.map_eq_none_iff]

/-- A registration shows the record under a name that was never used. -/
theorem kek?_add_kek {record : Kek} (hvisible : record.deleted = false)
    (hnew : l.registered? record.name = none) (hkept : Entry.deletion record.name ∉ l)
    (name : String) :
    (l.add (.kek record)).kek? name = if name = record.name then some record else l.kek? name := by
  have hmem : ∀ name, Entry.deletion name ∈ l.add (.kek record) ↔ Entry.deletion name ∈ l := by
    intro name
    simp [add]
  unfold kek?
  rw [registered?_add]
  simp only [hmem]
  by_cases hname : name = record.name
  · subst hname
    have hsame : { record with deleted := decide (Entry.deletion record.name ∈ l) } = record := by
      rw [decide_eq_false hkept, ← hvisible]
    have hsingle : registered? [.kek record] record.name = some record := by
      simp [registered?]
    rw [hnew, Option.none_or, hsingle, Option.map_some, hsame, if_pos rfl]
  · rw [if_neg hname]
    have hnone : registered? [.kek record] name = none := by
      simp [registered?, Ne.symm hname]
    rw [hnone, Option.or_none]

/-- A deletion marks the record. -/
theorem kek?_add_deletion (l : Ledger) (deleted name : String) :
    (l.add (.deletion deleted)).kek? name =
      if name = deleted then (l.kek? name).map fun kek => { kek with deleted := true }
      else l.kek? name := by
  unfold kek?
  rw [registered?_add_deletion]
  by_cases hname : name = deleted
  · subst hname
    simp [add, Function.comp_def]
  · simp [add, hname]

theorem kek?_add_dek (l : Ledger) (record : Dek) (name : String) :
    (l.add (.dek record)).kek? name = l.kek? name := by
  unfold kek?
  rw [registered?_add_dek]
  simp [add]

theorem versions_add_dek (l : Ledger) (record : Dek) (path : DekPath) :
    (l.add (.dek record)).versions path =
      if path = record.path then l.versions path ++ [record] else l.versions path := by
  rw [versions_add]
  by_cases hpath : path = record.path
  · subst hpath
    simp [versions]
  · simp [versions, hpath, Ne.symm hpath]

theorem mem_of_registered? {record : Kek} (h : l.registered? name = some record) :
    .kek record ∈ l ∧ record.name = name := by
  obtain ⟨entry, hentry, hfound⟩ := List.exists_of_findSome?_eq_some h
  cases entry with
  | kek other =>
    obtain ⟨hname, hrecord⟩ := Option.ite_none_right_eq_some.mp hfound
    obtain rfl := Option.some.inj hrecord
    exact ⟨hentry, hname⟩
  | deletion name => cases hfound
  | dek dek => cases hfound

theorem getKek_eq_ok_iff {deleted : Bool} {kek : Kek} : l.getKek name deleted = .ok kek ↔
    l.kek? name = some kek ∧ (deleted = true ∨ kek.deleted = false) := by
  unfold getKek
  cases hfound : (l.kek? name).filter fun kek => deleted || !kek.deleted with
  | none =>
    have hnone := Option.filter_eq_none_iff.mp hfound
    simp only [reduceCtorEq, false_iff, not_and]
    intro hkek
    simpa using hnone kek hkek
  | some other =>
    obtain ⟨hother, hvisible⟩ := Option.filter_eq_some_iff.mp hfound
    rw [hother]
    simp only [Bool.or_eq_true, Bool.not_eq_true'] at hvisible
    grind

end Ledger

/-! ## Stores and ledgers -/

theorem find?_eq_some_iff_of_unique {α : Type} {l : List α} {p : α → Bool} {a : α}
    (hunique : ∀ x ∈ l, ∀ y ∈ l, p x = true → p y = true → x = y) :
    l.find? p = some a ↔ a ∈ l ∧ p a = true := by
  constructor
  · intro h
    exact ⟨List.mem_of_find?_eq_some h, List.find?_some h⟩
  · rintro ⟨hmem, hp⟩
    obtain ⟨b, hb⟩ := Option.isSome_iff_exists.mp (List.find?_isSome.mpr ⟨a, hmem, hp⟩)
    rw [hb, hunique b (List.mem_of_find?_eq_some hb) a hmem (List.find?_some hb) hp]

namespace Store

variable {s s' : Store} {l : Ledger} {path : DekPath} {name : String} {dek : Dek}

/-- A store holds what a ledger comes to. -/
structure Reflects (s : Store) (l : Ledger) : Prop where
  keks : ∀ name, s.keks.get? name = l.kek? name
  files : ∀ path, (s.file path).Perm (l.versions path)
  increasing : ∀ path, (s.file path).Pairwise fun a b => a.version < b.version
  visible : ∀ path, ∀ dek ∈ s.file path, dek.deleted = false
  /-- No name was registered twice. -/
  once : ∀ kek, Entry.kek kek ∈ l → l.registered? kek.name = some kek
  /-- Only what was registered has been deleted. -/
  deletions : ∀ name, Entry.deletion name ∈ l → l.registered? name ≠ none

theorem reflects_empty : Reflects ∅ [] :=
  ⟨fun _ => rfl, fun _ => .refl _, fun _ => .nil, nofun, nofun, nofun⟩

/-- The newest visible version of an increasing file is the greatest one. -/
theorem find?_reverse_eq_some_iff {deks : List Dek} {visible : Dek → Bool}
    (hincreasing : deks.Pairwise fun a b => a.version < b.version)
    (hvisible : ∀ d ∈ deks, visible d = true) :
    deks.reverse.find? visible = some dek ↔ dek ∈ deks ∧ ∀ d ∈ deks, d.version ≤ dek.version := by
  rcases List.eq_nil_or_concat deks with rfl | ⟨rest, last, rfl⟩
  · simp
  have hlast : visible last = true := hvisible last (by simp)
  obtain ⟨-, -, hless⟩ := List.pairwise_append.mp (List.concat_eq_append ▸ hincreasing)
  rw [List.concat_eq_append, List.reverse_append, List.reverse_singleton, List.singleton_append,
    List.find?_cons_of_pos hlast]
  constructor
  · intro h
    obtain rfl := Option.some.inj h
    refine ⟨by simp, fun d hd => ?_⟩
    rcases List.mem_append.mp hd with hd | hd
    · exact UInt32.le_of_lt (hless d hd last List.mem_cons_self)
    · rw [List.mem_singleton.mp hd]
      exact UInt32.le_refl _
  · rintro ⟨hdek, hgreatest⟩
    rcases List.mem_append.mp hdek with hdek | hdek
    · have hlt := hless dek hdek last List.mem_cons_self
      have hle := hgreatest last (by simp)
      exact absurd hlt (UInt32.not_lt.mpr hle)
    · rw [List.mem_singleton.mp hdek]

theorem Reflects.eq_of_version (h : s.Reflects l) {a b : Dek} (ha : a ∈ s.file path)
    (hb : b ∈ s.file path) (hversion : a.version = b.version) : a = b := by
  have hdistinct : (s.file path).Pairwise fun a b => a.version ≠ b.version :=
    (h.increasing path).imp fun hless => UInt32.ne_of_lt hless
  have : Std.Symm fun a b : Dek => a.version ≠ b.version := ⟨fun _ _ hne => hne.symm⟩
  by_contra hne
  exact hdistinct.forall ha hb hne hversion

theorem Reflects.mem_versions_iff (h : s.Reflects l) : dek ∈ l.versions path ↔ dek ∈ s.file path :=
  (h.files path).mem_iff.symm

/-- The key-encryption key of a name is the one that was registered under it,
with its deleted mark. -/
theorem Reflects.kek?_eq_some_iff (h : s.Reflects l) {kek : Kek} : l.kek? name = some kek ↔
    ∃ record, .kek record ∈ l ∧ record.name = name ∧
      kek = { record with deleted := decide (.deletion name ∈ l) } := by
  unfold Ledger.kek?
  rw [Option.map_eq_some_iff]
  constructor
  · rintro ⟨record, hrecord, rfl⟩
    obtain ⟨hmem, hname⟩ := Ledger.mem_of_registered? hrecord
    exact ⟨record, hmem, hname, rfl⟩
  · rintro ⟨record, hmem, rfl, rfl⟩
    exact ⟨record, h.once record hmem, rfl⟩

theorem Reflects.kek?_eq_none (h : s.Reflects l) :
    l.kek? name = none ↔ ∀ record, .kek record ∈ l → record.name ≠ name := by
  rw [Ledger.kek?_eq_none_iff]
  constructor
  · rintro hnone record hmem rfl
    rw [h.once record hmem] at hnone
    cases hnone
  · intro hnew
    rw [Option.eq_none_iff_forall_ne_some]
    intro record hrecord
    obtain ⟨hmem, hname⟩ := Ledger.mem_of_registered? hrecord
    exact hnew record hmem hname

/-! ### The same answers -/

theorem Reflects.getKek (h : s.Reflects l) (name : String) (deleted : Bool) :
    s.getKek name deleted = l.getKek name deleted := by
  unfold Store.getKek Ledger.getKek
  rw [h.keks]
  cases l.kek? name with
  | none => rfl
  | some kek =>
    dsimp only [Option.filter]
    split
    · rfl
    · rfl

theorem Reflects.dek? (h : s.Reflects l) (id : DekId) (dek : Dek) :
    l.dek? id = some dek ↔ dek ∈ s.file (pathOf id) ∧
      if id.version = Dek.latestVersion then ∀ d ∈ s.file (pathOf id), d.version ≤ dek.version
      else dek.version = id.version := by
  have hmem : ∀ d, d ∈ l.versions (pathOf id) ↔ d ∈ s.file (pathOf id) :=
    fun d => h.mem_versions_iff
  unfold Ledger.dek?
  dsimp only
  split
  · rw [find?_eq_some_iff_of_unique, hmem]
    · simp only [List.all_eq_true, hmem, decide_eq_true_eq]
    · intro a ha b hb hgreatest hgreatest'
      rw [List.all_eq_true] at hgreatest hgreatest'
      have hle := of_decide_eq_true (hgreatest b hb)
      have hle' := of_decide_eq_true (hgreatest' a ha)
      exact h.eq_of_version ((hmem a).mp ha) ((hmem b).mp hb) (UInt32.le_antisymm hle' hle)
  · rw [find?_eq_some_iff_of_unique, hmem, decide_eq_true_eq]
    intro a ha b hb hversion hversion'
    exact h.eq_of_version ((hmem a).mp ha) ((hmem b).mp hb)
      ((of_decide_eq_true hversion).trans (of_decide_eq_true hversion').symm)

theorem Reflects.getDek (h : s.Reflects l) (id : DekId) (deleted : Bool) :
    s.getDek id deleted = l.getDek id := by
  have hvisible : ∀ d ∈ s.file (pathOf id), (deleted || !d.deleted) = true := by
    intro d hd
    rw [h.visible (pathOf id) d hd]
    exact Bool.or_true deleted
  have hfound : (if id.version = Dek.latestVersion then
        (s.file (pathOf id)).reverse.find? fun d => deleted || !d.deleted
      else
        ((s.file (pathOf id)).find? fun d => d.version = id.version).filter fun d =>
          deleted || !d.deleted) = l.dek? id := by
    ext dek
    rw [h.dek?]
    split
    · exact find?_reverse_eq_some_iff (h.increasing _) hvisible
    · rw [Option.filter_eq_some_iff, find?_eq_some_iff_of_unique, decide_eq_true_eq]
      · constructor
        · exact fun hdek => hdek.1
        · exact fun hdek => ⟨hdek, hvisible dek hdek.1⟩
      · intro a ha b hb hversion hversion'
        exact h.eq_of_version ha hb
          ((of_decide_eq_true hversion).trans (of_decide_eq_true hversion').symm)
  unfold Store.getDek Ledger.getDek
  rw [← hfound]
  rfl

/-- A look-up finds the version that it names, or the greatest one for version
0. -/
theorem Reflects.getDek_eq_ok_iff (h : s.Reflects l) (id : DekId) (deleted : Bool) (dek : Dek) :
    s.getDek id deleted = .ok dek ↔ dek ∈ s.file (pathOf id) ∧
      if id.version = Dek.latestVersion then ∀ d ∈ s.file (pathOf id), d.version ≤ dek.version
      else dek.version = id.version := by
  rw [h.getDek, ← h.dek?, Ledger.getDek]
  cases l.dek? id with
  | none => simp
  | some other => simp

theorem Reflects.registerKek (h : s.Reflects l) (request : KekRequest) (now : Int64) :
    (s.registerKek request now).1 = l.registerKek request now := by
  unfold Ledger.registerKek
  rw [← h.keks]
  cases hkek : s.keks.get? request.name with
  | none => rw [registerKek_of_none hkek]
  | some kek => rw [registerKek_of_some hkek]

theorem Reflects.softDeleteKek (h : s.Reflects l) (name : String) :
    (s.softDeleteKek name).1 = l.softDeleteKek name := by
  unfold Store.softDeleteKek Ledger.softDeleteKek
  rw [← h.keks]
  cases s.keks.get? name with
  | none => rfl
  | some kek => rfl

theorem Reflects.registerDek (h : s.Reflects l) (kekName : String) (request : DekRequest)
    (now : Int64) :
    Prod.fst <$> s.registerDek kekName request now = l.registerDek kekName request now := by
  unfold Store.registerDek Ledger.registerDek
  rw [h.getKek]
  cases l.getKek kekName false with
  | error e => rfl
  | ok kek =>
    dsimp only
    rw [file_openFile, (h.files _).any_eq]
    split
    · rfl
    · rw [map_bind]
      congr 1
      funext made
      cases made with
      | error e => rfl
      | ok material => rfl

/-! ### The next entry -/

theorem Reflects.congr (h : s.Reflects l) (hkeks : s'.keks = s.keks)
    (hfile : ∀ path, s'.file path = s.file path) : s'.Reflects l := by
  have hfile' : s'.file = s.file := funext hfile
  obtain ⟨hkek, hfiles, hincreasing, hvisible, honce, hdeletions⟩ := h
  rw [← hkeks] at hkek
  rw [← hfile'] at hfiles hincreasing hvisible
  exact ⟨hkek, hfiles, hincreasing, hvisible, honce, hdeletions⟩

/-- A store with a new key-encryption key reflects the ledger with its
registration. -/
theorem Reflects.addKek (h : s.Reflects l) (kek : Kek) (hnew : s.keks.get? kek.name = none)
    (hvisible : kek.deleted = false) :
    Reflects { s with keks := s.keks.insert kek.name kek } (l.add (.kek kek)) := by
  have hunregistered : l.registered? kek.name = none := by
    rw [← Ledger.kek?_eq_none_iff, ← h.keks, hnew]
  have hkept : Entry.deletion kek.name ∉ l := fun hmem => h.deletions kek.name hmem hunregistered
  refine ⟨fun name => ?_, fun path => ?_, h.increasing, h.visible, fun record hmem => ?_,
    fun name hmem => ?_⟩
  · rw [Dict.get?_insert, Ledger.kek?_add_kek hvisible hunregistered hkept, h.keks]
  · rw [Ledger.versions_add_kek]
    exact h.files path
  · rw [Ledger.registered?_add]
    rw [Ledger.add, List.mem_append, List.mem_singleton] at hmem
    rcases hmem with hold | hadded
    · rw [h.once record hold, Option.some_or]
    · obtain rfl := Entry.kek.inj hadded
      rw [hunregistered, Option.none_or]
      simp [Ledger.registered?]
  · rw [Ledger.add, List.mem_append, List.mem_singleton] at hmem
    have hold := h.deletions name (hmem.resolve_right nofun)
    rw [Ledger.registered?_add]
    intro hnone
    exact hold (Option.or_eq_none_iff.mp hnone).1

/-- A store with a mark of deletion reflects the ledger with the deletion. -/
theorem Reflects.markKek (h : s.Reflects l) {kek : Kek} (hkek : s.keks.get? name = some kek) :
    Reflects { s with keks := s.keks.insert name { kek with deleted := true } }
      (l.add (.deletion name)) := by
  refine ⟨fun other => ?_, fun path => ?_, h.increasing, h.visible, fun record hmem => ?_,
    fun other hmem => ?_⟩
  · rw [Dict.get?_insert, Ledger.kek?_add_deletion, ← h.keks]
    by_cases hother : other = name
    · rw [if_pos hother, if_pos hother, hother, hkek]
      rfl
    · rw [if_neg hother, if_neg hother]
  · rw [Ledger.versions_add_deletion]
    exact h.files path
  · rw [Ledger.add, List.mem_append, List.mem_singleton] at hmem
    rw [Ledger.registered?_add_deletion]
    exact h.once record (hmem.resolve_right nofun)
  · rw [Ledger.add, List.mem_append, List.mem_singleton] at hmem
    rw [Ledger.registered?_add_deletion]
    rcases hmem with hold | hnew
    · exact h.deletions other hold
    · obtain rfl := Entry.deletion.inj hnew
      intro hnone
      rw [← Ledger.kek?_eq_none_iff, ← h.keks, hkek] at hnone
      cases hnone

/-- A store with a new version reflects the ledger with its registration. -/
theorem Reflects.addDek (h : s.Reflects l) (dek : Dek)
    (hnew : ∀ d ∈ s.file dek.path, d.version ≠ dek.version) (hvisible : dek.deleted = false) :
    Reflects (s.addDek dek.path dek) (l.add (.dek dek)) := by
  refine ⟨fun name => ?_, fun path => ?_, fun path => ?_, fun path d hd => ?_,
    fun kek hmem => ?_, fun name hmem => ?_⟩
  · rw [Ledger.kek?_add_dek]
    exact h.keks name
  · rw [file_addDek, Ledger.versions_add_dek]
    by_cases hpath : path = dek.path
    · subst hpath
      rw [if_pos rfl, if_pos rfl]
      exact ((perm_insertVersion dek _).trans ((h.files _).cons dek)).trans
        (List.perm_append_singleton dek _).symm
    · rw [if_neg hpath, if_neg hpath]
      exact h.files path
  · rw [file_addDek]
    by_cases hpath : path = dek.path
    · rw [if_pos hpath]
      exact pairwise_insertVersion (h.increasing _) hnew
    · rw [if_neg hpath]
      exact h.increasing path
  · rcases mem_file_addDek.mp hd with ⟨-, rfl⟩ | hold
    · exact hvisible
    · exact h.visible path d hold
  · rw [Ledger.add, List.mem_append, List.mem_singleton] at hmem
    rw [Ledger.registered?_add_dek]
    exact h.once kek (hmem.resolve_right nofun)
  · rw [Ledger.add, List.mem_append, List.mem_singleton] at hmem
    rw [Ledger.registered?_add_dek]
    exact h.deletions name (hmem.resolve_right nofun)

/-- Key material is refused before anything is drawn, or it is not refused. -/
theorem material_settled (kekName : String) (shared : Bool) (request : DekRequest) :
    (∃ e, (material kekName shared request).run = pure (.error e)) ∨
      ∀ u r, ComesTo (material kekName shared request) u r → ∃ made, r = .ok made := by
  unfold material
  split
  · refine .inr fun u r h => ?_
    obtain ⟨-, rfl⟩ := comesTo_pure.mp h
    exact ⟨_, rfl⟩
  · cases halgorithm : (Cryptor.mk request.algorithm).algorithm with
    | error e =>
      refine .inl ⟨invalidDek e.message, ?_⟩
      unfold Cryptor.generateKey
      rw [halgorithm]
      rfl
    | ok a =>
      refine .inr fun u r h => ?_
      obtain ⟨r', hadapt, rfl⟩ := (comesTo_bind_except fun _ _ _ => comesTo_pure).mp h
      obtain ⟨r'', hkey, rfl⟩ := comesTo_adapt.mp hadapt
      rcases Cryptor.generateKey_comesTo hkey with ⟨e, hnone, -, -⟩ | ⟨a', -, key, -, rfl⟩
      · rw [halgorithm] at hnone
        cases hnone
      · exact ⟨_, rfl⟩
  · exact .inl ⟨_, rfl⟩

/-- A registration of a version fails before anything is drawn, or it does not
fail. -/
theorem registerDek_settled (s : Store) (kekName : String) (request : DekRequest) (now : Int64) :
    (∃ e s', s.registerDek kekName request now = pure (.error e, s')) ∨
      ∀ u x, Runs (s.registerDek kekName request now) u x → ∃ dek, x.1 = .ok dek := by
  unfold registerDek
  dsimp only
  cases s.getKek kekName false with
  | error e => exact .inl ⟨e, s, rfl⟩
  | ok kek =>
    dsimp only
    split
    · exact .inl ⟨_, _, rfl⟩
    · rcases material_settled kekName kek.shared request with ⟨e, he⟩ | hmade
      · rw [he]
        exact .inl ⟨e, _, rfl⟩
      · refine .inr fun u x h => ?_
        obtain ⟨u₁, u₂, r, hmaterial, hrest, rfl⟩ := runs_bind_iff.mp h
        obtain ⟨made, rfl⟩ := hmade u₁ r hmaterial
        obtain ⟨-, rfl⟩ := runs_done_iff.mp hrest
        exact ⟨_, rfl⟩

/-! ### The ledger after an operation -/

theorem Reflects.afterRegisterKek (h : s.Reflects l) (request : KekRequest) (now : Int64) :
    (s.registerKek request now).2.Reflects
      (l.after (.call (.registerKek request)) (s.registerKek request now).1) := by
  cases hkek : s.keks.get? request.name with
  | some kek =>
    rw [registerKek_of_some hkek]
    exact h
  | none =>
    rw [registerKek_of_none hkek]
    exact h.addKek (kekOf request now) hkek rfl

theorem Reflects.afterSoftDeleteKek (h : s.Reflects l) (name : String) :
    (s.softDeleteKek name).2.Reflects (l.after (.softDeleteKek name) (s.softDeleteKek name).1) := by
  cases hkek : s.keks.get? name with
  | some kek =>
    rw [softDeleteKek_of_some hkek]
    exact h.markKek hkek
  | none =>
    rw [softDeleteKek_of_none hkek]
    exact h

theorem DekOutcome.reflects {kekName : String} {request : DekRequest} {now : Int64}
    {x : Except RegistryError Dek} (hx : s.DekOutcome kekName request now x s')
    (h : s.Reflects l) : s'.Reflects (l.after (.call (.registerDek kekName request)) x) := by
  cases hx with
  | unknown e hkek => exact h
  | taken hkek hdek hversion => exact h
  | unmade hkek hunmade reason => exact h.congr rfl (s.file_openFile _)
  | @added kek hkek hnew wrapped clear hmaterial =>
    exact h.addDek (dekOf kekName request wrapped clear now) hnew rfl

end Store

end Envelope
