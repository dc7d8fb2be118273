import Envelope.Proofs.Audit
import Envelope.Proofs.Lifetime
import Envelope.Proofs.ReadOnly

/-!
# After a deletion

The deletion of a key-encryption key is final for writers: its name stays taken,
it is never found again, and no version is ever added under it.  Readers do not
notice it.
-/

namespace Envelope

open Program Engine

/-! ## Names that are out of use -/

namespace Store

variable {s s' : Store} {now : Int64} {kekName name : String} {kek : Kek} {path : DekPath}
  {request : DekRequest}

/-- The key-encryption key of this name is deleted. -/
def Retired (s : Store) (name : String) : Prop :=
  ∃ kek, s.keks.get? name = some kek ∧ kek.deleted = true

theorem retired_softDeleteKek (h : (s.softDeleteKek name).1 = .ok ()) :
    (s.softDeleteKek name).2.Retired name := by
  cases hkek : s.keks.get? name with
  | none =>
    rw [softDeleteKek_of_none hkek] at h
    cases h
  | some kek =>
    rw [softDeleteKek_of_some hkek]
    exact ⟨_, (Dict.get?_insert _ _ _ _).trans (if_pos rfl), rfl⟩

namespace Retired

/-- What is out of use is not found by those who do not ask for deleted keys. -/
theorem getKek (h : s.Retired name) : s.getKek name false = .error (kekNotFound name) := by
  obtain ⟨kek, hkek, hmark⟩ := h
  exact getKek_of_deleted hkek hmark

theorem registerKek {request : KekRequest} (h : s.Retired request.name) (now : Int64) :
    s.registerKek request now = (.error (kekExists request.name), s) := by
  obtain ⟨kek, hkek, -⟩ := h
  exact registerKek_of_some hkek

theorem registerDek {x : Except RegistryError Dek} (h : s.Retired kekName)
    (hx : s.DekOutcome kekName request now x s') : x = .error (kekNotFound kekName) := by
  have hhidden := h.getKek
  cases hx with
  | unknown e hkek => exact congrArg Except.error (getKek_eq_error hkek)
  | taken hkek hdek hversion =>
    rw [hhidden] at hkek
    cases hkek
  | unmade hkek hunmade reason =>
    rw [hhidden] at hkek
    cases hkek
  | added hkek hnew hmaterial =>
    rw [hhidden] at hkek
    cases hkek

/-- A deleted mark is never taken away: not by registrations, and not by the
deletion of this or of another key. -/
theorem mono (h : s.Retired name) (hs : s.Extends s') : s'.Retired name := by
  obtain ⟨kek, hkek, hmark⟩ := h
  exact ⟨kek, hs.keks hkek, hmark⟩

theorem softDeleteKek (h : s.Retired name) (other : String) :
    (s.softDeleteKek other).2.Retired name := by
  obtain ⟨kek, hkek, hmark⟩ := h
  cases hother : s.keks.get? other with
  | none =>
    rw [softDeleteKek_of_none hother]
    exact ⟨kek, hkek, hmark⟩
  | some kek' =>
    rw [softDeleteKek_of_some hother]
    by_cases hname : name = other
    · exact ⟨_, (Dict.get?_insert _ _ _ _).trans (if_pos hname), rfl⟩
    · exact ⟨kek, (Dict.get?_insert _ _ _ _).trans ((if_neg hname).trans hkek), hmark⟩

/-- A registration leaves the files of a name that is out of use as they
were. -/
theorem file_registerDek {x : Except RegistryError Dek} (h : s.Retired path.kekName)
    (hx : s.DekOutcome kekName request now x s') : s'.file path = s.file path := by
  cases hx with
  | unknown e hkek => rfl
  | taken hkek hdek hversion => rfl
  | unmade hkek hunmade reason => exact s.file_openFile _ path
  | added hkek hnew hmaterial =>
    have hother : path ≠ ⟨kekName, request.subject, request.algorithm⟩ := by
      rintro rfl
      rw [h.getKek] at hkek
      cases hkek
    rw [file_addDek, if_neg hother]

/-- A name that is out of use stays so for life, and its files stay as they
are. -/
theorem reaches (h : s.Retired name) (hs : s.Reaches s') :
    s'.Retired name ∧ ∀ path : DekPath, path.kekName = name → s'.file path = s.file path := by
  refine hs.invariant (P := fun u => u.Retired name ∧
    ∀ path : DekPath, path.kekName = name → u.file path = s.file path) ?_ ?_ ?_ ⟨h, fun _ _ => rfl⟩
  · rintro u request now ⟨hu, hfiles⟩
    refine ⟨hu.mono extends_registerKek, ?_⟩
    intro path hpath
    rw [file_registerKek, hfiles path hpath]
  · rintro u kekName request now x u' hx ⟨hu, hfiles⟩
    refine ⟨hu.mono hx.extends, ?_⟩
    intro path hpath
    rw [file_registerDek (hpath ▸ hu) hx, hfiles path hpath]
  · rintro u other ⟨hu, hfiles⟩
    refine ⟨hu.softDeleteKek other, ?_⟩
    intro path hpath
    rw [file_congr files_softDeleteKek, hfiles path hpath]

end Retired

/-! ## Writers under such a name -/

/-- The calls of a trace were answered in the life of a store, with anything in
between. -/
def Serves (s : Store) (t : Trace) : Prop :=
  ∀ (c : Registry.Call) (x : c.Answer), called c x ∈ t → ∃ (s₁ s₂ : Store) (now : Int64)
    (draws : List (Exchange Draw.signature)), s.Reaches s₁ ∧
      Runs (Store.answer c now s₁) draws (x, s₂)

variable {t u : Trace}

theorem Serves.mono (h : s.Serves t) (hsub : u ⊆ t) : s.Serves u :=
  fun c x hx => h c x (hsub hx)

theorem Retired.getKek_not_mem (h : s.Retired name) (ht : s.Serves t) (kek : Kek) :
    called (.getKek name false) (.ok kek) ∉ t := by
  intro hmem
  obtain ⟨s₁, s₂, now, draws, hreaches, hruns⟩ := ht _ _ hmem
  obtain ⟨-, hx⟩ := runs_done_iff.mp hruns
  have hget : s₁.getKek name false = .ok kek := (Prod.mk.inj hx).1.symm
  rw [(h.reaches hreaches).1.getKek] at hget
  cases hget

theorem Retired.registerKek_not_mem {request : KekRequest} (h : s.Retired request.name)
    (ht : s.Serves t) (kek : Kek) : called (.registerKek request) (.ok kek) ∉ t := by
  intro hmem
  obtain ⟨s₁, s₂, now, draws, hreaches, hruns⟩ := ht _ _ hmem
  obtain ⟨-, hx⟩ := runs_done_iff.mp hruns
  have hregister : (s₁.registerKek request now).1 = .ok kek := (congrArg Prod.fst hx).symm
  rw [(h.reaches hreaches).1.registerKek now] at hregister
  cases hregister

end Store

namespace KeyRing

variable {ring : KeyRing} {mode : Mode} {kmsType kmsKeyId : Option String} {t : Trace} {kek : Kek}

/-- Writers use a key-encryption key that was found undeleted or registered. -/
theorem KekSearch.found_or_registered (writes : mode = .write)
    (h : ring.KekSearch mode kmsType kmsKeyId t (.ok kek)) :
    called (.getKek ring.kekName false) (.ok kek) ∈ t ∨
      ∃ request, request.name = ring.kekName ∧ called (.registerKek request) (.ok kek) ∈ t := by
  subst writes
  generalize hr : Except.ok kek = r at h
  cases h with
  | failed e fatal => cases hr
  | found kek' =>
    cases hr
    exact .inl List.mem_cons_self
  | unread e absent reads => cases hr
  | untyped e absent writes htype => cases hr
  | unnamed e absent writes type htype hid => cases hr
  | created e absent writes type id htype hid rest =>
    cases rest with
    | registered kek' =>
      cases hr
      exact .inr ⟨ring.kekRequest type id, rfl, by simp⟩
    | refused e' fatal => cases hr
    | settled e' lost answer =>
      obtain rfl := fetched_eq_ok_iff.mp hr.symm
      exact .inl (List.mem_of_getLast? rfl)

end KeyRing

namespace Executor

variable {κ : Type} {e : Executor κ} {context : Context} {type : FieldType}
  {value : Option FieldValue} {t : Trace} {r : Except Error (Option FieldValue)} {s : Store}
  {name : String}

theorem kekName_of_admitted {ring : KeyRing} (h : e.admitted context = .ok ring)
    (hname : Parameter.readKekName (e.parameter context Parameter.kekName) = .ok name) :
    ring.kekName = name := by
  have hring := (admitted_eq_ok_iff.mp h).2
  unfold Executor.ring at hring
  rw [hname] at hring
  cases hdays : Parameter.readExpiryDays (e.parameter context Parameter.dekExpiryDays) with
  | error error =>
    rw [hdays] at hring
    cases hring
  | ok days =>
    rw [hdays] at hring
    cases hring
    rfl

/-- No writer succeeds under a name that is out of use. -/
theorem Transformation.refused (h : e.Transformation context type value t r)
    (writes : context.mode = .write)
    (hname : Parameter.readKekName (e.parameter context Parameter.kekName) = .ok name)
    (hretired : s.Retired name) (hserves : s.Serves t) : ∃ error, r = .error error := by
  cases h with
  | rejected error htaken => exact ⟨error, rfl⟩
  | unresolved ring htaken search hrefused => exact ⟨_, rfl⟩
  | @resolved ring htaken t₁ t₂ kek search hbound _ application =>
    have hring := kekName_of_admitted htaken hname
    have hsearch : s.Serves t₁ := hserves.mono (List.subset_append_left t₁ t₂)
    rcases search.found_or_registered writes with hfound | ⟨request, hrequest, hregistered⟩
    · rw [hring] at hfound
      exact absurd hfound (hretired.getKek_not_mem hsearch kek)
    · rw [hring] at hrequest
      subst hrequest
      exact absurd hregistered (hretired.registerKek_not_mem hsearch kek)

theorem ReadsAlike.refl (e : Executor κ) (context : Context) :
    e.ReadsAlike context e context :=
  ⟨rfl, rfl, rfl, fun _ _ => rfl, .inl rfl⟩

end Executor

/-! ## Worlds with such a name -/

namespace World

variable {σ κ : Type} {w w' : World Store σ} {t : Trace} {s : Store} {name : String}

/-- The calls of a program that runs alone are answered in the life of the
registry. -/
theorem Serial.serves (h : Serial w t w') : w.registry.Serves t := by
  intro c x hmem
  obtain ⟨u, t₁, t₂, hbefore, hanswer, -⟩ := h.answered hmem
  obtain ⟨draws, hruns⟩ := exists_runs RandomSource.answer
    (Store.answer c u.clock u.registry) u.random
  have hx : x = ((RandomSource.run (Store.answer c u.clock u.registry)).run u.random).1.1 := hanswer
  rw [hx]
  exact ⟨u.registry, _, u.clock, draws, Serial.reaches hbefore, hruns⟩

theorem resembles_softDeleteKek (w : World Store σ) (name : String) (config : Properties) :
    w.Resembles config (w.afterwards (.softDeleteKek name)) config := by
  have hregistry : (w.afterwards (.softDeleteKek name)).registry =
      (w.registry.softDeleteKek name).2 := rfl
  refine ⟨?_, ?_, fun _ => rfl⟩
  · intro other
    rw [hregistry]
    cases hkek : w.registry.keks.get? name with
    | none => rw [Store.softDeleteKek_of_none hkek]
    | some kek =>
      rw [Store.softDeleteKek_of_some hkek]
      dsimp only
      rw [Dict.get?_insert]
      by_cases hother : other = name
      · rw [if_pos hother, hother, hkek]
        rfl
      · rw [if_neg hother]
  · intro id
    rw [hregistry]
    unfold Store.getDek
    rw [Store.file_congr Store.files_softDeleteKek]

/-- The deletion of a key-encryption key is final.  From then on every writer
under its name fails, alone or while others are at work; the name is taken, no
version can be added under it, and the versions that exist stay as they are.
Readers come to the same whether or not a key is marked as deleted. -/
theorem deletion_final (hdeleted : (s.softDeleteKek name).1 = .ok ())
    (hlater : (s.softDeleteKek name).2.Reaches w.registry) :
    (∀ (e : Executor κ) (kind : ExecutorKind) (context : Context) (type : FieldType)
      (value : Option FieldValue), context.mode = .write →
      Parameter.readKekName (e.parameter context Parameter.kekName) = .ok name →
      (∃ error, ((run (e.transform kind context type value).run).run w).1 = .error error) ∧
      ∀ (t : Trace) (result : Except Error (Option FieldValue)),
        ComesTo (e.transform kind context type value) t result → w.registry.Serves t →
        ∃ error, result = .error error) ∧
    (∀ request : KekRequest, request.name = name →
      ∃ error, w.answerTo (.call (.registerKek request)) = .error error ∧
        error.isConflict = true) ∧
    (∀ request : DekRequest,
      ∃ error, w.answerTo (.call (.registerDek name request)) = .error error ∧
        error.isNotFound = true) ∧
    (∀ path : DekPath, path.kekName = name → w.registry.file path = s.file path) ∧
    ∀ (u : World Store σ) (other : String) (e : Executor κ) (kind : ExecutorKind)
      (context : Context) (type : FieldType) (value : Option FieldValue), context.mode = .read →
      ((run (e.transform kind context type value).run).run
          (u.afterwards (.softDeleteKek other))).1 =
        ((run (e.transform kind context type value).run).run u).1 := by
  obtain ⟨hretired, hfiles⟩ := (Store.retired_softDeleteKek hdeleted).reaches hlater
  refine ⟨?_, ?_, ?_, ?_, ?_⟩
  · intro e kind context type value writes hname
    have hrefused : ∀ (t : Trace) (result : Except Error (Option FieldValue)),
        ComesTo (e.transform kind context type value) t result → w.registry.Serves t →
        ∃ error, result = .error error := by
      intro t result hcomes hserves
      rw [Executor.transform_eq] at hcomes
      exact (Executor.transformField_comesTo hcomes).refused writes hname hretired hserves
    obtain ⟨t, hruns, hserial⟩ := exists_serial (fun r : Effect => World.answer r)
      (e.transform kind context type value).run w
    exact ⟨hrefused t _ hruns (Serial.serves hserial), hrefused⟩
  · rintro request rfl
    refine ⟨Store.kekExists request.name, ?_, Store.isConflict_kekExists request.name⟩
    exact congrArg Prod.fst (hretired.registerKek w.clock)
  · intro request
    refine ⟨Store.kekNotFound name, ?_, Store.isNotFound_kekNotFound name⟩
    exact hretired.registerDek (answer_registerDek w name request)
  · intro path hpath
    rw [hfiles path hpath, Store.file_congr Store.files_softDeleteKek]
  · intro u other e kind context type value reads
    obtain ⟨hresult, -⟩ := run_reading u e kind reads type value
    obtain ⟨hresult', -⟩ := run_reading (u.afterwards (.softDeleteKek other)) e kind reads type
      value
    rw [hresult, hresult']
    exact reading_congr (resembles_softDeleteKek u other e.config) (.refl e context)
      (kind.declared type) value

/-- A value that was written is read after the deletion of its key-encryption
key, and no other one is written under it. -/
theorem deletion_final_written :
    ∃ (w w' : World Store Unit) (out : Option FieldValue),
      w.answerTo (.softDeleteKek "k") = .ok () ∧ w' = w.afterwards (.softDeleteKek "k") ∧
      (∃ error, ((run (Sample.executor.transform .field Sample.writer .bytes
        (some (.bytes [104, 105]))).run).run w').1 = .error error) ∧
      ((run (Sample.executor.transform .field (Sample.reader "1") .bytes out).run).run w').1 =
        .ok (some (.bytes [104, 105])) := by
  obtain ⟨out, w, hwritten, hfiled, -⟩ := Sample.exists_written
  have hread : ((run (Sample.executor.transform .field (Sample.reader "1") .bytes out).run).run
      w).1 = .ok (some (.bytes [104, 105])) :=
    Sample.read_written hwritten (.refl w) hfiled Sample.ring_reader (by decide)
  have hdeleted : (w.registry.softDeleteKek "k").1 = .ok () := by
    -- The reader has found the key.
    obtain ⟨url, -, hurl, -⟩ := Sample.resolved_of_read hread
    obtain ⟨kek, hfound, -⟩ := foundUrl_eq_ok_iff.mp hurl
    have hkek : w.registry.keks.get? "k" = some kek := hfound
    rw [Store.softDeleteKek_of_some hkek]
  obtain ⟨hwriters, -, -, -, hreaders⟩ := deletion_final (w := w.afterwards (.softDeleteKek "k"))
    hdeleted .start
  obtain ⟨hrefused, -⟩ := hwriters Sample.executor .field Sample.writer .bytes
    (some (.bytes [104, 105])) rfl (by decide +kernel)
  exact ⟨w, _, out, hdeleted, rfl, hrefused,
    (hreaders w "k" Sample.executor .field (Sample.reader "1") .bytes out rfl).trans hread⟩

end World
end Envelope
