import Envelope.Proofs.Ledger

/-!
# Auditing a registry

Operations on a registry in memory leave a ledger of what it has accepted
(`World.Logged`).  Whatever the operations were, the registry follows the
ledger (`World.Follows`): every answer is computed from it, a record is found
exactly if the ledger has its registration, and what failed has left no trace.
-/

namespace Envelope

open Program

theorem RandomSource.run_map {α β : Type} (f : α → β) (d : Draw α) (source : RandomSource) :
    (run (f <$> d)).run source = (f ((run d).run source).1, ((run d).run source).2) :=
  congrArg (StateT.run · source)
    (@interpret_map Draw.signature α β (StateM RandomSource) _ _ answer f d)

/-! ## Operations -/

namespace Operation

/-- An operation was answered with an error. -/
def Failed : (op : Operation) → op.Answer → Prop
  | .call _, .error _ => True
  | .softDeleteKek _, .error _ => True
  | _, _ => False

/-- An operation is to change what is recorded under the name of a
key-encryption key. -/
def Concerns : Operation → String → Prop
  | .call (.registerKek request), name => name = request.name
  | .softDeleteKek deleted, name => name = deleted
  | _, _ => False

/-- An operation is to add a version to a file. -/
def Extends : Operation → DekPath → Prop
  | .call (.registerDek kekName request), path =>
    path = ⟨kekName, request.subject, request.algorithm⟩
  | _, _ => False

end Operation

theorem Ledger.after_of_failed {l : Ledger} {op : Operation} {answer : op.Answer}
    (hfailed : op.Failed answer) : l.after op answer = l := by
  cases op with
  | call c =>
    cases answer with
    | ok record => exact hfailed.elim
    | error e => cases c <;> rfl
  | softDeleteKek name =>
    cases answer with
    | ok done => exact hfailed.elim
    | error e => rfl
  | countVersions path => rfl
  | setClock clock => rfl

/-- A key-encryption key was registered under a name and not deleted. -/
structure Ledger.Visible (l : Ledger) (name : String) (record : Kek) : Prop where
  registered : .kek record ∈ l
  named : record.name = name
  kept : .deletion name ∉ l

namespace World

variable {σ : Type} {w : World Store σ} {l : Ledger}

/-- Performs an operation on the registry of a world. -/
def operate : (op : Operation) → StateM (World Store σ) op.Answer
  | .call c => call c
  | .softDeleteKek name => fun w =>
    let (answer, registry) := w.registry.softDeleteKek name
    (answer, { w with registry := registry })
  | .countVersions path => fun w => (w.registry.countVersions path, w)
  | .setClock clock => fun w => ((), { w with clock := clock })

/-- What an operation is answered with. -/
def answerTo (w : World Store σ) (op : Operation) : op.Answer :=
  ((operate op).run w).1

/-- The world after an operation. -/
def afterwards (w : World Store σ) (op : Operation) : World Store σ :=
  ((operate op).run w).2

/-- The answers to operations that are performed one after the other. -/
def replies (w : World Store σ) : List Operation → List ((op : Operation) × op.Answer)
  | [] => []
  | op :: ops => ⟨op, w.answerTo op⟩ :: (w.afterwards op).replies ops

/-- Operations on a registry without records have led to a world, and left a
ledger of what was accepted. -/
inductive Logged : World Store σ → Ledger → Prop where
  | start {w : World Store σ} (h : w.registry = ∅) : Logged w []
  | operate {w : World Store σ} {l : Ledger} (h : Logged w l) (op : Operation) :
      Logged (w.afterwards op) (l.after op (w.answerTo op))

/-- The registry of a world follows a ledger. -/
structure Follows (w : World Store σ) (l : Ledger) : Prop where
  /-- The answers are computed from the ledger, the time and the random bytes. -/
  answers : ∀ op, w.answerTo op = ((RandomSource.run (l.answer w.clock op)).run w.random).1
  kek_found : ∀ name deleted kek, w.answerTo (.call (.getKek name deleted)) = .ok kek ↔
    ∃ record, .kek record ∈ l ∧ record.name = name ∧ (deleted = true ∨ .deletion name ∉ l) ∧
      kek = { record with deleted := decide (.deletion name ∈ l) }
  kek_missed : ∀ name deleted e, w.answerTo (.call (.getKek name deleted)) = .error e →
    e.isNotFound = true
  version_found : ∀ id deleted dek, id.version ≠ Dek.latestVersion →
    (w.answerTo (.call (.getDek id deleted)) = .ok dek ↔
      dek ∈ l.versions (Store.pathOf id) ∧ dek.version = id.version)
  latest_found : ∀ id deleted dek, id.version = Dek.latestVersion →
    (w.answerTo (.call (.getDek id deleted)) = .ok dek ↔
      dek ∈ l.versions (Store.pathOf id) ∧
        ∀ d ∈ l.versions (Store.pathOf id), d.version ≤ dek.version)
  dek_missed : ∀ id deleted e, w.answerTo (.call (.getDek id deleted)) = .error e →
    e.isNotFound = true
  kek_registered : ∀ request kek, w.answerTo (.call (.registerKek request)) = .ok kek ↔
    (∀ record, .kek record ∈ l → record.name ≠ request.name) ∧ kek = Store.kekOf request w.clock
  /-- A name stays taken after the deletion of its key. -/
  kek_duplicate : ∀ request e, w.answerTo (.call (.registerKek request)) = .error e →
    e.isConflict = true
  dek_registered : ∀ kekName request,
    (∃ dek, w.answerTo (.call (.registerDek kekName request)) = .ok dek) ↔
      ∃ record, l.Visible kekName record ∧
        (∀ dek ∈ l.versions ⟨kekName, request.subject, request.algorithm⟩,
          dek.version ≠ request.version) ∧
        (request.encryptedKeyMaterial ≠ none ∨
          record.shared = true ∧ ∃ a, (Cryptor.mk request.algorithm).algorithm = .ok a)
  dek_recorded : ∀ kekName request dek,
    w.answerTo (.call (.registerDek kekName request)) = .ok dek →
      dek.path = ⟨kekName, request.subject, request.algorithm⟩ ∧ dek.version = request.version
  /-- Under a deleted key, a version that exists is not reported as such. -/
  dek_hidden : ∀ kekName request, (∀ record, ¬ l.Visible kekName record) →
    ∃ e, w.answerTo (.call (.registerDek kekName request)) = .error e ∧ e.isNotFound = true
  dek_duplicate : ∀ kekName request record, l.Visible kekName record →
    (∃ dek ∈ l.versions ⟨kekName, request.subject, request.algorithm⟩,
      dek.version = request.version) →
    ∃ e, w.answerTo (.call (.registerDek kekName request)) = .error e ∧ e.isConflict = true
  kek_deleted : ∀ name, w.answerTo (.softDeleteKek name) = .ok () ↔
    ∃ record, .kek record ∈ l ∧ record.name = name
  deletion_missed : ∀ name e, w.answerTo (.softDeleteKek name) = .error e → e.isNotFound = true
  counted : ∀ path, w.answerTo (.countVersions path) = (l.versions path).length
  /-- What failed is not seen afterwards. -/
  unchanged : ∀ op ops, op.Failed (w.answerTo op) → (w.afterwards op).replies ops = w.replies ops
  /-- An operation is not seen under other names. -/
  keks_apart : ∀ op name deleted, ¬ op.Concerns name →
    (w.afterwards op).answerTo (.call (.getKek name deleted)) =
      w.answerTo (.call (.getKek name deleted))
  /-- An operation is not seen in other files. -/
  files_apart : ∀ op id deleted, ¬ op.Extends (Store.pathOf id) →
    (w.afterwards op).answerTo (.call (.getDek id deleted)) =
        w.answerTo (.call (.getDek id deleted)) ∧
      (w.afterwards op).answerTo (.countVersions (Store.pathOf id)) =
        w.answerTo (.countVersions (Store.pathOf id))

/-! ## The ledger of a run -/

theorem reflects_afterwards (h : w.registry.Reflects l) (op : Operation) :
    (w.afterwards op).registry.Reflects (l.after op (w.answerTo op)) := by
  cases op with
  | call c =>
    cases c with
    | getKek name deleted => exact h
    | registerKek request => exact h.afterRegisterKek request w.clock
    | getDek id deleted => exact h
    | registerDek kekName request => exact (answer_registerDek w kekName request).reflects h
  | softDeleteKek name => exact h.afterSoftDeleteKek name
  | countVersions path => exact h
  | setClock clock => exact h

theorem Logged.reflects (h : Logged w l) : w.registry.Reflects l := by
  induction h with
  | start h =>
    rw [h]
    exact Store.reflects_empty
  | operate h op ih => exact reflects_afterwards ih op

/-! ## Answers -/

/-- A registry that reflects a ledger gives the answers of the ledger, and draws
as many bytes for them. -/
theorem operate_eq (h : w.registry.Reflects l) (op : Operation) :
    (w.answerTo op, (w.afterwards op).random) =
      (RandomSource.run (l.answer w.clock op)).run w.random := by
  have hplain : ∀ {α : Type} {a b : α}, a = b →
      (a, w.random) = (RandomSource.run (pure b)).run w.random :=
    fun hab => congrArg (·, w.random) hab
  cases op with
  | call c =>
    cases c with
    | getKek name deleted => exact hplain (h.getKek name deleted)
    | registerKek request => exact hplain (h.registerKek request w.clock)
    | getDek id deleted => exact hplain (h.getDek id deleted)
    | registerDek kekName request =>
      show _ = (RandomSource.run (l.registerDek kekName request w.clock)).run w.random
      rw [← h.registerDek, RandomSource.run_map]
      rfl
  | softDeleteKek name => exact hplain (h.softDeleteKek name)
  | countVersions path => exact hplain (h.files path).length_eq
  | setClock clock => exact hplain rfl

theorem answerTo_eq (h : w.registry.Reflects l) (op : Operation) :
    w.answerTo op = ((RandomSource.run (l.answer w.clock op)).run w.random).1 :=
  congrArg Prod.fst (operate_eq h op)

theorem getKek_iff (h : w.registry.Reflects l) (name : String) (deleted : Bool) (kek : Kek) :
    w.answerTo (.call (.getKek name deleted)) = .ok kek ↔
      ∃ record, .kek record ∈ l ∧ record.name = name ∧ (deleted = true ∨ .deletion name ∉ l) ∧
        kek = { record with deleted := decide (.deletion name ∈ l) } := by
  show w.registry.getKek name deleted = .ok kek ↔ _
  rw [h.getKek, Ledger.getKek_eq_ok_iff, h.kek?_eq_some_iff]
  constructor
  · rintro ⟨⟨record, hmem, hname, rfl⟩, hseen⟩
    exact ⟨record, hmem, hname, hseen.imp_right of_decide_eq_false, rfl⟩
  · rintro ⟨record, hmem, hname, hseen, rfl⟩
    exact ⟨⟨record, hmem, hname, rfl⟩, hseen.imp_right decide_eq_false⟩

theorem getDek_iff (h : w.registry.Reflects l) (id : DekId) (deleted : Bool) (dek : Dek) :
    w.answerTo (.call (.getDek id deleted)) = .ok dek ↔
      dek ∈ l.versions (Store.pathOf id) ∧
        if id.version = Dek.latestVersion then
          ∀ d ∈ l.versions (Store.pathOf id), d.version ≤ dek.version
        else dek.version = id.version := by
  show w.registry.getDek id deleted = .ok dek ↔ _
  rw [h.getDek_eq_ok_iff]
  simp only [h.mem_versions_iff]

theorem registerKek_iff (h : w.registry.Reflects l) (request : KekRequest) (kek : Kek) :
    w.answerTo (.call (.registerKek request)) = .ok kek ↔
      (∀ record, .kek record ∈ l → record.name ≠ request.name) ∧
        kek = Store.kekOf request w.clock := by
  show (w.registry.registerKek request w.clock).1 = .ok kek ↔ _
  rw [h.registerKek, Ledger.registerKek, ← h.kek?_eq_none]
  cases l.kek? request.name with
  | some other => simp
  | none => simp [eq_comm]

/-- The key-encryption keys under which versions can be registered are those
that the ledger shows. -/
theorem getKek_iff_visible (h : w.registry.Reflects l) (name : String) (kek : Kek) :
    w.registry.getKek name false = .ok kek ↔
      ∃ record, l.Visible name record ∧ kek = { record with deleted := false } := by
  have hiff := getKek_iff h name false kek
  refine hiff.trans ⟨?_, ?_⟩
  · rintro ⟨record, hmem, hname, hseen, rfl⟩
    have hkept := hseen.resolve_left nofun
    exact ⟨record, ⟨hmem, hname, hkept⟩, by rw [decide_eq_false hkept]⟩
  · rintro ⟨record, ⟨hmem, hname, hkept⟩, rfl⟩
    exact ⟨record, hmem, hname, .inr hkept, by rw [decide_eq_false hkept]⟩

theorem exists_dekOutcome (w : World Store σ) (kekName : String) (request : DekRequest) :
    ∃ x s, w.registry.DekOutcome kekName request w.clock x s ∧
      w.answerTo (.call (.registerDek kekName request)) = x ∧
      (w.afterwards (.call (.registerDek kekName request))).registry = s :=
  ⟨_, _, answer_registerDek w kekName request, rfl, rfl⟩

theorem registerDek_iff (h : w.registry.Reflects l) (kekName : String) (request : DekRequest) :
    (∃ dek, w.answerTo (.call (.registerDek kekName request)) = .ok dek) ↔
      ∃ record, l.Visible kekName record ∧
        (∀ dek ∈ l.versions ⟨kekName, request.subject, request.algorithm⟩,
          dek.version ≠ request.version) ∧
        (request.encryptedKeyMaterial ≠ none ∨
          record.shared = true ∧ ∃ a, (Cryptor.mk request.algorithm).algorithm = .ok a) := by
  obtain ⟨x, s, houtcome, hanswer, -⟩ := exists_dekOutcome w kekName request
  rw [hanswer]
  constructor
  · rintro ⟨dek, rfl⟩
    cases houtcome with
    | @added kek hkek hnew wrapped clear hmaterial =>
      obtain ⟨record, hrecord, rfl⟩ := (getKek_iff_visible h kekName kek).mp hkek
      refine ⟨record, hrecord, fun d hd => hnew d (h.mem_versions_iff.mp hd), ?_⟩
      cases hmaterial with
      | given text hgiven =>
        refine .inl ?_
        rw [hgiven]
        nofun
      | made hmissing hshared a halgorithm key hlength => exact .inr ⟨hshared, a, halgorithm⟩
  · rintro ⟨record, hrecord, hnew, hmaterial⟩
    have hvisible := (getKek_iff_visible h kekName _).mpr ⟨record, hrecord, rfl⟩
    cases houtcome with
    | unknown e hmissing =>
      rw [hvisible] at hmissing
      cases hmissing
    | taken hkek hdek hversion => exact absurd hversion (hnew _ (h.mem_versions_iff.mpr hdek))
    | unmade hkek hunmade reason =>
      obtain rfl := Except.ok.inj (hvisible.symm.trans hkek)
      rcases hmaterial with hgiven | ⟨hshared, a, halgorithm⟩
      · exact absurd hunmade.material hgiven
      · obtain ⟨e, he⟩ := hunmade.unsupported hshared
        rw [halgorithm] at he
        cases he
    | added hkek hnew' hmade => exact ⟨_, rfl⟩

/-- Whoever does not see the key-encryption key is told so. -/
theorem registerDek_of_hidden (h : w.registry.Reflects l) {kekName : String}
    (hhidden : ∀ record, ¬ l.Visible kekName record) (request : DekRequest) :
    w.answerTo (.call (.registerDek kekName request)) = .error (Store.kekNotFound kekName) := by
  have hinvisible : ∀ kek, w.registry.getKek kekName false ≠ .ok kek := by
    intro kek hkek
    obtain ⟨record, hrecord, -⟩ := (getKek_iff_visible h kekName kek).mp hkek
    exact hhidden record hrecord
  obtain ⟨x, s, houtcome, hanswer, -⟩ := exists_dekOutcome w kekName request
  rw [hanswer]
  cases houtcome with
  | unknown e hmissing => rw [Store.getKek_eq_error hmissing]
  | taken hkek hdek hversion => exact absurd hkek (hinvisible _)
  | unmade hkek hunmade reason => exact absurd hkek (hinvisible _)
  | added hkek hnew hmade => exact absurd hkek (hinvisible _)

/-- A version that exists is reported before its material is looked at. -/
theorem registerDek_of_taken (h : w.registry.Reflects l) {kekName : String} {record : Kek}
    (hrecord : l.Visible kekName record) {request : DekRequest} {dek : Dek}
    (hdek : dek ∈ l.versions ⟨kekName, request.subject, request.algorithm⟩)
    (hversion : dek.version = request.version) :
    w.answerTo (.call (.registerDek kekName request)) =
      .error (Store.dekExists kekName request.subject request.version) := by
  have hvisible := (getKek_iff_visible h kekName _).mpr ⟨record, hrecord, rfl⟩
  have htaken : ((w.registry.file ⟨kekName, request.subject, request.algorithm⟩).any fun dek =>
      dek.version = request.version) = true :=
    List.any_eq_true.mpr ⟨dek, h.mem_versions_iff.mp hdek, decide_eq_true hversion⟩
  have hrefused : w.registry.registerDek kekName request w.clock =
      pure (.error (Store.dekExists kekName request.subject request.version), w.registry) := by
    unfold Store.registerDek
    rw [hvisible]
    dsimp only
    rw [Store.file_openFile, htaken, Store.openFile_of_mem (h.mem_versions_iff.mp hdek)]
    rfl
  show ((RandomSource.run (w.registry.registerDek kekName request w.clock)).run w.random).1.1 = _
  rw [hrefused]
  rfl

theorem softDeleteKek_iff (h : w.registry.Reflects l) (name : String) :
    w.answerTo (.softDeleteKek name) = .ok () ↔ ∃ record, .kek record ∈ l ∧ record.name = name := by
  have hregistered : (∃ record, .kek record ∈ l ∧ record.name = name) ↔ l.kek? name ≠ none := by
    rw [Ne, h.kek?_eq_none]
    simp
  show (w.registry.softDeleteKek name).1 = .ok () ↔ _
  rw [h.softDeleteKek, Ledger.softDeleteKek, hregistered]
  cases l.kek? name with
  | some kek => simp
  | none => simp

/-! ## What operations leave as it was -/

theorem clock_afterwards {w' : World Store σ} (h : w'.clock = w.clock) (op : Operation) :
    (w'.afterwards op).clock = (w.afterwards op).clock := by
  cases op with
  | setClock clock => rfl
  | _ => exact h

/-- Two registries with the same ledger, at the same time and with the same
random bytes to come, cannot be told apart. -/
theorem replies_congr {w' : World Store σ} (h : w.registry.Reflects l)
    (h' : w'.registry.Reflects l) (hclock : w'.clock = w.clock) (hrandom : w'.random = w.random)
    (ops : List Operation) : w'.replies ops = w.replies ops := by
  induction ops generalizing w w' l with
  | nil => rfl
  | cons op ops ih =>
    have hoperate : (w'.answerTo op, (w'.afterwards op).random) =
        (w.answerTo op, (w.afterwards op).random) := by
      rw [operate_eq h', operate_eq h, hclock, hrandom]
    obtain ⟨hanswer, hrandom'⟩ := Prod.mk.inj hoperate
    have hnext := reflects_afterwards h' op
    rw [hanswer] at hnext
    rw [replies, replies, hanswer,
      ih (reflects_afterwards h op) hnext (clock_afterwards hclock op) hrandom']

/-- An operation that failed has not touched the clock, and has drawn nothing. -/
theorem surroundings_of_failed (w : World Store σ) {op : Operation}
    (hfailed : op.Failed (w.answerTo op)) :
    (w.afterwards op).clock = w.clock ∧ (w.afterwards op).random = w.random := by
  cases op with
  | call c =>
    cases c with
    | registerDek kekName request =>
      let drawing :=
        (RandomSource.run (w.registry.registerDek kekName request w.clock)).run w.random
      refine ⟨rfl, show drawing.2 = w.random from ?_⟩
      have hfailed' : Operation.Failed (.call (.registerDek kekName request)) drawing.1.1 := hfailed
      rcases w.registry.registerDek_settled kekName request w.clock with ⟨e, s, hrefused⟩ | hdone
      · simp only [drawing, hrefused]
        rfl
      · obtain ⟨u, hruns⟩ := exists_runs RandomSource.answer
          (w.registry.registerDek kekName request w.clock) w.random
        obtain ⟨dek, hdek⟩ := hdone u _ hruns
        have hok : drawing.1.1 = .ok dek := hdek
        rw [hok] at hfailed'
        exact hfailed'.elim
    | _ => exact ⟨rfl, rfl⟩
  | softDeleteKek name => exact ⟨rfl, rfl⟩
  | countVersions path => exact hfailed.elim
  | setClock clock => exact hfailed.elim

/-- What failed is not seen by whatever is asked afterwards. -/
theorem replies_of_failed (h : w.registry.Reflects l) {op : Operation}
    (hfailed : op.Failed (w.answerTo op)) (ops : List Operation) :
    (w.afterwards op).replies ops = w.replies ops := by
  have hafter := reflects_afterwards h op
  rw [Ledger.after_of_failed hfailed] at hafter
  obtain ⟨hclock, hrandom⟩ := w.surroundings_of_failed hfailed
  exact replies_congr h hafter hclock hrandom ops

theorem get?_afterwards (w : World Store σ) {op : Operation} {name : String}
    (hother : ¬ op.Concerns name) :
    (w.afterwards op).registry.keks.get? name = w.registry.keks.get? name := by
  cases op with
  | call c =>
    cases c with
    | getKek other deleted => rfl
    | getDek id deleted => rfl
    | registerKek request =>
      show (w.registry.registerKek request w.clock).2.keks.get? name = _
      cases hkek : w.registry.keks.get? request.name with
      | some kek => rw [Store.registerKek_of_some hkek]
      | none =>
        rw [Store.registerKek_of_none hkek, Dict.get?_insert]
        exact if_neg hother
    | registerDek kekName request =>
      obtain ⟨x, s, houtcome, -, hafter⟩ := exists_dekOutcome w kekName request
      rw [hafter, houtcome.keks_eq]
  | softDeleteKek deleted =>
    show (w.registry.softDeleteKek deleted).2.keks.get? name = _
    cases hkek : w.registry.keks.get? deleted with
    | some kek =>
      rw [Store.softDeleteKek_of_some hkek, Dict.get?_insert]
      exact if_neg hother
    | none => rw [Store.softDeleteKek_of_none hkek]
  | countVersions path => rfl
  | setClock clock => rfl

theorem file_afterwards (w : World Store σ) {op : Operation} {path : DekPath}
    (hother : ¬ op.Extends path) :
    (w.afterwards op).registry.file path = w.registry.file path := by
  cases op with
  | call c =>
    cases c with
    | getKek other deleted => rfl
    | getDek id deleted => rfl
    | registerKek request => exact Store.file_registerKek
    | registerDek kekName request =>
      obtain ⟨x, s, houtcome, -, hafter⟩ := exists_dekOutcome w kekName request
      rw [hafter]
      cases houtcome with
      | unknown e hkek => rfl
      | taken hkek hdek hversion => rfl
      | unmade hkek hunmade reason => exact w.registry.file_openFile _ path
      | added hkek hnew hmade =>
        rw [Store.file_addDek]
        exact if_neg hother
  | softDeleteKek deleted => exact Store.file_congr Store.files_softDeleteKek
  | countVersions path => rfl
  | setClock clock => rfl

theorem getKek_afterwards (w : World Store σ) {op : Operation} {name : String}
    (hother : ¬ op.Concerns name) (deleted : Bool) :
    (w.afterwards op).answerTo (.call (.getKek name deleted)) =
      w.answerTo (.call (.getKek name deleted)) := by
  show (w.afterwards op).registry.getKek name deleted = w.registry.getKek name deleted
  unfold Store.getKek
  rw [get?_afterwards w hother]

theorem getDek_afterwards (w : World Store σ) {op : Operation} {id : DekId}
    (hother : ¬ op.Extends (Store.pathOf id)) (deleted : Bool) :
    (w.afterwards op).answerTo (.call (.getDek id deleted)) =
      w.answerTo (.call (.getDek id deleted)) := by
  have hfile : (w.afterwards op).registry.file ⟨id.kekName, id.subject, id.algorithm⟩ =
      w.registry.file ⟨id.kekName, id.subject, id.algorithm⟩ := file_afterwards w hother
  show (w.afterwards op).registry.getDek id deleted = w.registry.getDek id deleted
  unfold Store.getDek
  rw [hfile]

theorem countVersions_afterwards (w : World Store σ) {op : Operation} {path : DekPath}
    (hother : ¬ op.Extends path) :
    (w.afterwards op).answerTo (.countVersions path) = w.answerTo (.countVersions path) :=
  congrArg List.length (file_afterwards w hother)

/-! ## The registry follows its ledger -/

/-- Whatever the operations on a registry in memory were, it follows the ledger
of what it has accepted. -/
theorem registry_follows_ledger (h : Logged w l) : w.Follows l := by
  have hreflects : w.registry.Reflects l := h.reflects
  refine {
    answers := answerTo_eq hreflects
    kek_found := getKek_iff hreflects
    kek_missed := fun name deleted e he => ?kek_missed
    version_found := fun id deleted dek hversion => ?version_found
    latest_found := fun id deleted dek hversion => ?latest_found
    dek_missed := fun id deleted e he => ?dek_missed
    kek_registered := registerKek_iff hreflects
    kek_duplicate := fun request e he => ?kek_duplicate
    dek_registered := registerDek_iff hreflects
    dek_recorded := fun kekName request dek hdek => ?dek_recorded
    dek_hidden := fun kekName request hhidden => ?dek_hidden
    dek_duplicate := fun kekName request record hrecord ⟨dek, hdek, hversion⟩ => ?dek_duplicate
    kek_deleted := softDeleteKek_iff hreflects
    deletion_missed := fun name e he => ?deletion_missed
    counted := fun path => (hreflects.files path).length_eq
    unchanged := fun op ops hfailed => replies_of_failed hreflects hfailed ops
    keks_apart := fun op name deleted hother => w.getKek_afterwards hother deleted
    files_apart := fun op id deleted hother =>
      ⟨w.getDek_afterwards hother deleted, w.countVersions_afterwards hother⟩ }
  case kek_missed =>
    rw [Store.getKek_eq_error he]
    exact Store.isNotFound_kekNotFound name
  case version_found =>
    rw [getDek_iff hreflects, if_neg hversion]
  case latest_found =>
    rw [getDek_iff hreflects, if_pos hversion]
  case dek_missed =>
    rw [Store.getDek_eq_error he]
    exact Store.isNotFound_dekNotFound ..
  case kek_duplicate =>
    obtain ⟨-, rfl⟩ := Store.registerKek_eq_error he
    exact Store.isConflict_kekExists request.name
  case dek_recorded =>
    obtain ⟨x, s, houtcome, hanswer, -⟩ := w.exists_dekOutcome kekName request
    obtain rfl := hanswer.symm.trans hdek
    cases houtcome with
    | added hkek hnew hmaterial => exact ⟨rfl, rfl⟩
  case dek_hidden =>
    exact ⟨_, registerDek_of_hidden hreflects hhidden request, Store.isNotFound_kekNotFound kekName⟩
  case dek_duplicate =>
    exact ⟨_, registerDek_of_taken hreflects hrecord hdek hversion, Store.isConflict_dekExists ..⟩
  case deletion_missed =>
    rw [Store.softDeleteKek_eq_error he]
    exact Store.isNotFound_kekNotFound name

/-- The registration of a key-encryption key that is not shared. -/
def ordinaryKek : KekRequest :=
  ⟨"k", "t", "i", ∅, none, false⟩

/-- The registration of a wrapped version. -/
def wrappedDek : DekRequest :=
  ⟨"s", 1, "AES256_GCM", some "AAAA"⟩

/-- A world whose only key-encryption key was deleted after the registration of
a version. -/
def retired : World Store Unit :=
  let blank : World Store Unit := ⟨∅, .empty, (), 0, none, ⟨fun _ => 0, 0⟩, []⟩
  ((blank.afterwards (.call (.registerKek ordinaryKek))).afterwards
    (.call (.registerDek "k" wrappedDek))).afterwards (.softDeleteKek "k")

/-- What the registry of that world has accepted. -/
def retirement : Ledger :=
  [.kek (Store.kekOf ordinaryKek 0), .dek (Store.dekOf "k" wrappedDek (some "AAAA") none 0),
    .deletion "k"]

theorem logged_retirement : Logged retired retirement := by
  let blank : World Store Unit := ⟨∅, .empty, (), 0, none, ⟨fun _ => 0, 0⟩, []⟩
  have hblank : Logged blank [] := .start rfl
  exact ((hblank.operate (.call (.registerKek ordinaryKek))).operate
    (.call (.registerDek "k" wrappedDek))).operate (.softDeleteKek "k")

theorem registry_follows_ledger_retired :
    Logged retired retirement ∧ retired.Follows retirement :=
  ⟨logged_retirement, registry_follows_ledger logged_retirement⟩

/-- A version that exists is not reported as a duplicate, if its key-encryption
key was deleted. -/
theorem duplicate_dek_unseen :
    Logged retired retirement ∧
      (∃ dek ∈ retirement.versions ⟨"k", "s", "AES256_GCM"⟩, dek.version = wrappedDek.version) ∧
      ∃ e, retired.answerTo (.call (.registerDek "k" wrappedDek)) = .error e ∧
        e.isConflict = false := by
  refine ⟨logged_retirement, ⟨_, List.mem_cons_self, rfl⟩, Store.kekNotFound "k", ?_, ?_⟩
  · rfl
  · decide +kernel

end World
end Envelope
