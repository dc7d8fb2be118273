import Envelope.Cryptor
import Envelope.Registry.Call

/-!
# A registry in memory

A registry that keeps its records in memory.  Key-encryption keys are kept by
name; the versions of a data-encryption key are kept in one file per
key-encryption key, subject and algorithm, in increasing order.  Records are
never removed and, but for the deleted mark of a key-encryption key, never
changed.
-/

namespace Envelope

/-- The file of a data-encryption key. -/
structure DekPath where
  kekName : String
  subject : String
  algorithm : String
deriving DecidableEq

/-- The records of a registry in memory. -/
structure Store where
  keks : Dict Kek
  files : List (DekPath × List Dek)
deriving DecidableEq

namespace Store

/-- The store without records. -/
def empty : Store := ⟨∅, []⟩

instance : EmptyCollection Store := ⟨empty⟩

/-- The versions in a file, in increasing order. -/
def file (s : Store) (path : DekPath) : List Dek :=
  (s.files.lookup path).getD []

/-- Puts a file into a list of files. -/
def putFile (path : DekPath) (deks : List Dek) :
    List (DekPath × List Dek) → List (DekPath × List Dek)
  | [] => [(path, deks)]
  | (p, ds) :: rest => if p = path then (path, deks) :: rest else (p, ds) :: putFile path deks rest

/-- Puts a version in front of the first greater one. -/
def insertVersion (dek : Dek) : List Dek → List Dek
  | [] => [dek]
  | d :: rest => if dek.version < d.version then dek :: d :: rest else d :: insertVersion dek rest

/-- The store with one more version in a file. -/
def addDek (s : Store) (path : DekPath) (dek : Dek) : Store :=
  { s with files := putFile path (insertVersion dek (s.file path)) s.files }

/-- The store with a file for a path, an empty one if there was none. -/
def openFile (s : Store) (path : DekPath) : Store :=
  { s with files := putFile path (s.file path) s.files }

theorem lookup_putFile (path other : DekPath) (deks : List Dek)
    (files : List (DekPath × List Dek)) :
    (putFile path deks files).lookup other =
      if other = path then some deks else files.lookup other := by
  induction files with
  | nil => rw [putFile, Dict.lookup_cons]
  | cons head rest ih =>
    obtain ⟨p, ds⟩ := head
    unfold putFile
    split
    · rename_i same
      subst same
      simp only [Dict.lookup_cons]
      split <;> rfl
    · rename_i different
      simp only [Dict.lookup_cons, ih]
      by_cases h : other = p
      · subst h
        simp [different]
      · simp [h]

/-- Adding a version changes its own file and no other. -/
theorem file_addDek (s : Store) (path other : DekPath) (dek : Dek) :
    (s.addDek path dek).file other =
      if other = path then insertVersion dek (s.file path) else s.file other := by
  unfold file addDek
  rw [lookup_putFile]
  split <;> rfl

/-- Opening a file is not seen in any file. -/
theorem file_openFile (s : Store) (path other : DekPath) :
    (s.openFile path).file other = s.file other := by
  unfold openFile
  rw [file, lookup_putFile]
  split
  · rename_i same
    rw [same]
    rfl
  · rfl

/-! ## Errors -/

/-- No visible key-encryption key has the name. -/
def kekNotFound (name : String) : RegistryError :=
  ⟨40401, s!"kek {name} not found"⟩

/-- A key-encryption key with the name exists, deleted or not. -/
def kekExists (name : String) : RegistryError :=
  ⟨40972, s!"kek {name} already exists"⟩

/-- No visible data-encryption key has the identity. -/
def dekNotFound (kekName subject : String) (version : UInt32) : RegistryError :=
  ⟨40470, s!"dek for {kekName}/{subject} version {version} not found"⟩

/-- The version is in its file already. -/
def dekExists (kekName subject : String) (version : UInt32) : RegistryError :=
  ⟨40971, s!"dek for {kekName}/{subject} version {version} already exists"⟩

/-- The key material of a registration is not acceptable. -/
def invalidDek (reason : String) : RegistryError :=
  ⟨42271, reason⟩

/-! ## Calls -/

/-- Looks up a key-encryption key. -/
def getKek (s : Store) (name : String) (deleted : Bool) : Except RegistryError Kek :=
  match s.keks.get? name with
  | some kek => if deleted || !kek.deleted then .ok kek else .error (kekNotFound name)
  | none => .error (kekNotFound name)

/-- Registers a key-encryption key under a name that was never used. -/
def registerKek (s : Store) (request : KekRequest) (now : Int64) :
    Except RegistryError Kek × Store :=
  match s.keks.get? request.name with
  | some _ => (.error (kekExists request.name), s)
  | none =>
    let kek : Kek :=
      { name := request.name
        kmsType := request.kmsType
        kmsKeyId := request.kmsKeyId
        kmsProps := request.kmsProps
        doc := request.doc
        shared := request.shared
        timestamp := now
        deleted := false }
    (.ok kek, { s with keks := s.keks.insert kek.name kek })

/-- Sets the deleted mark of a key-encryption key. -/
def softDeleteKek (s : Store) (name : String) : Except RegistryError Unit × Store :=
  match s.keks.get? name with
  | some kek => (.ok (), { s with keks := s.keks.insert name { kek with deleted := true } })
  | none => (.error (kekNotFound name), s)

/-- Looks up a version of a data-encryption key, or the greatest one for
version 0. -/
def getDek (s : Store) (id : DekId) (deleted : Bool) : Except RegistryError Dek :=
  let visible := fun dek : Dek => deleted || !dek.deleted
  let versions := s.file ⟨id.kekName, id.subject, id.algorithm⟩
  let found :=
    if id.version = Dek.latestVersion then
      versions.reverse.find? visible
    else
      (versions.find? fun dek => dek.version = id.version).filter visible
  match found with
  | some dek => .ok dek
  | none => .error (dekNotFound id.kekName id.subject id.version)

/-- The key material of a new version: as given, or for a shared
key-encryption key a fresh raw key. -/
def material (kekName : String) (shared : Bool) (request : DekRequest) :
    ExceptT RegistryError Draw (Option String × Option String) := do
  match request.encryptedKeyMaterial, shared with
  | some wrapped, _ => return (some wrapped, none)
  | none, true =>
    let key ← ((Cryptor.mk request.algorithm).generateKey).adapt fun e => invalidDek e.message
    return (none, some (Base64.encode key.bytes))
  | none, false =>
    throw (invalidDek s!"encrypted key material required for unshared kek {kekName}")

/-- Registers a new version of a data-encryption key.  Its file is opened even
if the registration then fails. -/
def registerDek (s : Store) (kekName : String) (request : DekRequest) (now : Int64) :
    Draw (Except RegistryError Dek × Store) := do
  let path : DekPath := ⟨kekName, request.subject, request.algorithm⟩
  match s.getKek kekName false with
  | .error e => return (.error e, s)
  | .ok kek =>
    let s := s.openFile path
    if (s.file path).any fun dek => dek.version = request.version then
      return (.error (dekExists kekName request.subject request.version), s)
    else
      match ← (material kekName kek.shared request).run with
      | .error e => return (.error e, s)
      | .ok (wrapped, clear) =>
        let dek : Dek :=
          { Dek.bare kekName request.subject request.version request.algorithm with
            encryptedKeyMaterial := wrapped
            keyMaterial := clear
            timestamp := now }
        return (.ok dek, s.addDek path dek)

/-- The number of versions in a file. -/
def countVersions (s : Store) (path : DekPath) : Nat :=
  (s.file path).length

/-- Answers a call of a registry. -/
def answer (call : Registry.Call) (now : Int64) (s : Store) : Draw (call.Answer × Store) :=
  match call with
  | .getKek name deleted => return (s.getKek name deleted, s)
  | .registerKek request => return s.registerKek request now
  | .getDek id deleted => return (s.getDek id deleted, s)
  | .registerDek kekName request => s.registerDek kekName request now

instance : Registry Store := ⟨answer⟩

end Store
end Envelope
