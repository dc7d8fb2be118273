import Envelope.Proofs.Equality

/-!
# Key-encryption keys and their master keys

A rule may give a type of key management system and a master key.  Whatever the
registry answers, a key-encryption key that belongs to another master key is
refused before all work on a data key (`Executor.Transformation.bound_or_refused`).
A registry in memory keeps one key-encryption key under a name, so that all
rules that get along with it agree with each other (`Invocation.Reaches.agree`).
-/

namespace Envelope

open Program Engine

/-- A request comes before all work on a data key: it looks up or registers a
key-encryption key, or it reports. -/
def Effect.Preliminary : Effect → Prop
  | .registry (.getKek _ _) => True
  | .registry (.registerKek _) => True
  | .log _ => True
  | _ => False

namespace KeyRing

variable {ring : KeyRing} {mode : Mode} {t u : Trace} {kek kek' : Kek}
  {parameter kmsType kmsKeyId : Option String} {text : String}

/-- A parameter gives a text, which is not empty. -/
def Gives (parameter : Option String) (text : String) : Prop :=
  parameter = some text ∧ text ≠ ""

theorem nonempty_eq_some_iff : nonempty parameter = some text ↔ Gives parameter text := by
  rw [nonempty, Option.filter_eq_some_iff, decide_eq_true_iff]
  exact Iff.rfl

theorem agrees_nonempty_iff :
    Agrees (nonempty parameter) text ↔ ∀ given, Gives parameter given → given = text := by
  unfold Agrees
  simp only [nonempty_eq_some_iff]

/-! ## The comparison with the rule -/

theorem bound_of_type {type : String} (htype : kmsType = some type) (hother : type ≠ kek.kmsType) :
    ring.bound kmsType kmsKeyId kek =
      .error (.kmsTypeMismatch ring.kekName kek.kmsType type) := by
  subst htype
  simp [bound, checkBinding, hother, bind, Except.bind, throw, throwThe, MonadExceptOf.throw]

theorem bound_of_key {id : String} (htype : Agrees kmsType kek.kmsType)
    (hid : kmsKeyId = some id) (hother : id ≠ kek.kmsKeyId) :
    ring.bound kmsType kmsKeyId kek =
      .error (.kmsKeyIdMismatch ring.kekName kek.kmsKeyId id) := by
  subst hid
  cases kmsType with
  | none =>
    simp [bound, checkBinding, hother, bind, Except.bind, throw, throwThe, MonadExceptOf.throw]
  | some type =>
    obtain rfl := htype type rfl
    simp [bound, checkBinding, hother, bind, Except.bind, throw, throwThe, MonadExceptOf.throw]

theorem KekSearch.preliminary {r : Except KeyError Kek}
    (h : ring.KekSearch mode kmsType kmsKeyId t r) : ∀ x ∈ t, x.1.Preliminary := by
  cases h with
  | created e absent writes type id htype hid rest =>
    cases rest <;> simp [Effect.Preliminary]
  | _ => simp [Effect.Preliminary]

/-- A search in which a record is given out ends with it. -/
theorem KekSearch.eq_ok {r : Except KeyError Kek} (h : ring.KekSearch mode kmsType kmsKeyId t r)
    (hkek : ring.KekGivenOut t kek) : r = .ok kek := by
  cases hkek with
  | found deleted hmem =>
    have hcalls := mem_registryCalls.mpr hmem
    cases h with
    | found kek' =>
      rcases hcalls with _ | ⟨_, ⟨⟩⟩
      rfl
    | created e absent writes type id htype hid rest =>
      cases rest with
      | registered kek' => simp at hcalls
      | refused e' fatal => simp at hcalls
      | settled e' lost answer =>
        rcases hcalls with _ | ⟨_, _ | ⟨_, _ | ⟨_, ⟨⟩⟩⟩⟩
        rfl
    | _ => simp at hcalls
  | registered request hname hmem =>
    have hcalls := mem_registryCalls.mpr hmem
    cases h with
    | created e absent writes type id htype hid rest =>
      cases rest with
      | registered kek' =>
        rcases hcalls with _ | ⟨_, _ | ⟨_, ⟨⟩⟩⟩
        rfl
      | refused e' fatal => simp at hcalls
      | settled e' lost answer => simp at hcalls
    | _ => simp at hcalls

/-- What is resolved was given out and belongs to the master key of the rule. -/
theorem kek_bound (h : ComesTo (ring.kek mode kmsType kmsKeyId) t (.ok kek)) :
    ring.KekGivenOut t kek ∧ (∀ type, Gives kmsType type → type = kek.kmsType) ∧
      ∀ id, Gives kmsKeyId id → id = kek.kmsKeyId := by
  obtain ⟨r, search, hr⟩ := kek_comesTo h
  cases r with
  | error e => cases hr
  | ok kek' =>
    obtain ⟨rfl, htype, hid⟩ := bound_eq_ok_iff.mp hr.symm
    exact ⟨search.givenOut, agrees_nonempty_iff.mp htype, agrees_nonempty_iff.mp hid⟩

/-- A key-encryption key that is found at once is compared with the rule. -/
theorem kek_found (ring : KeyRing) (mode : Mode) (kmsType kmsKeyId : Option String) (kek : Kek) :
    ComesTo (ring.kek mode kmsType kmsKeyId)
      [called (.getKek ring.kekName (mode = .read)) (.ok kek)]
      (ring.bound (nonempty kmsType) (nonempty kmsKeyId) kek) := by
  have hfind : ComesTo (ring.findKek mode) [called (.getKek ring.kekName (mode = .read)) (.ok kek)]
      (.ok (some kek)) :=
    comesTo_request_bind.mpr ⟨.ok kek, [], rfl, comesTo_except.mpr ⟨rfl, rfl⟩⟩
  refine comesTo_bind.mpr (.inr ⟨_, [], some kek, hfind, ?_, rfl⟩)
  exact (comesTo_bind_except fun _ _ _ => comesTo_pure).mpr ⟨_, comesTo_except.mpr ⟨rfl, rfl⟩, rfl⟩

theorem DekPhase.getKek_not_mem {id : DekId} {calls : List Answered}
    (h : ring.DekPhase kek' id mode t calls) {name : String} {deleted : Bool}
    {answer : Except RegistryError Kek} : (⟨.getKek name deleted, answer⟩ : Answered) ∉ calls := by
  cases h <;> simp

/-- A trace that does not ask for key-encryption keys gives none out. -/
theorem KekGivenOut.left (h : ring.KekGivenOut (t ++ u) kek)
    (hget : ∀ {name deleted answer},
      (⟨.getKek name deleted, answer⟩ : Answered) ∉ registryCalls u)
    (hregister : ∀ {request answer},
      (⟨.registerKek request, answer⟩ : Answered) ∉ registryCalls u) :
    ring.KekGivenOut t kek := by
  cases h with
  | found deleted hmem =>
    refine .found deleted ((List.mem_append.mp hmem).resolve_right fun hu => ?_)
    exact hget (mem_registryCalls.mpr hu)
  | registered request hname hmem =>
    refine .registered request hname ((List.mem_append.mp hmem).resolve_right fun hu => ?_)
    exact hregister (mem_registryCalls.mpr hu)

end KeyRing

namespace Executor

open KeyRing

variable {κ : Type} {e : Executor κ} {context : Context} {type : FieldType}
  {value : Option FieldValue} {t : Trace} {r : Except Error (Option FieldValue)} {ring : KeyRing}
  {kek : Kek}

/-- A key-encryption key that is given out belongs to the master key that the
rule names, or it is refused before all work on a data key. -/
theorem Transformation.bound_or_refused (h : e.Transformation context type value t r)
    (hring : e.ring context = .ok ring) (hkek : ring.KekGivenOut t kek) :
    (Agrees (e.namedType context) kek.kmsType ∧ Agrees (e.namedKey context) kek.kmsKeyId) ∨
      (∀ x ∈ t, x.1.Preliminary) ∧ ∃ error,
        ring.bound (e.namedType context) (e.namedKey context) kek = .error error ∧
        r = .error (.key error) := by
  cases h with
  | rejected error h => cases hkek <;> contradiction
  | @unresolved ring' h t r error search hrefused =>
    obtain rfl := Except.ok.inj (hring.symm.trans (admitted_eq_ok_iff.mp h).2)
    rw [search.eq_ok hkek] at hrefused
    exact .inr ⟨search.preliminary, error, hrefused, rfl⟩
  | @resolved ring' h t u kek' search hbound r application =>
    obtain ⟨taken, hring'⟩ := admitted_eq_ok_iff.mp h
    obtain rfl := Except.ok.inj (hring.symm.trans hring')
    -- All that follows the search is about data keys.
    have hleft : ring.KekGivenOut t kek := by
      rcases application.phase (mode_of_taken taken) (List.subset_append_right t u) with
        ⟨-, hnone⟩ | ⟨version, -, phase⟩
      · exact hkek.left (by simp [hnone]) (by simp [hnone])
      · exact hkek.left phase.getKek_not_mem phase.registerKek_not_mem
    obtain rfl := Except.ok.inj (search.eq_ok hleft)
    exact .inl (bound_eq_ok_iff.mp hbound).2

/-- Whoever succeeds was given a key-encryption key that belongs to the master
key that the rule names. -/
theorem Transformation.exists_bound {out : Option FieldValue}
    (h : e.Transformation context type value t (.ok out)) (hring : e.ring context = .ok ring) :
    ∃ kek, ring.KekGivenOut t kek ∧ Agrees (e.namedType context) kek.kmsType ∧
      Agrees (e.namedKey context) kek.kmsKeyId := by
  cases h with
  | @resolved ring' h t u kek search hbound _ application =>
    obtain rfl := Except.ok.inj (hring.symm.trans (admitted_eq_ok_iff.mp h).2)
    exact ⟨kek, search.givenOut.mono (List.subset_append_left t u), (bound_eq_ok_iff.mp hbound).2⟩

/-- A refused key-encryption key ends the transformation. -/
theorem transformField_refused {error : KeyError} (h : e.admitted context = .ok ring)
    (hkek : ComesTo (ring.kek context.mode (e.parameter context Parameter.kmsType)
      (e.parameter context Parameter.kmsKeyId)) t (.error error)) :
    ComesTo (e.transformField context type value) t (.error (.key error)) := by
  obtain ⟨taken, hring⟩ := admitted_eq_ok_iff.mp h
  have hclient : ¬ e.client.isNone = true := by
    intro hnone
    exact taken (.inr (.inl (Option.isNone_iff_eq_none.mp hnone)))
  have hmode : ¬ (context.mode ≠ .write ∧ context.mode ≠ .read) := by
    intro hmode
    exact taken (.inr (.inr hmode))
  refine comesTo_bind.mpr (.inl ⟨_, ?_, rfl⟩)
  unfold newTransform
  refine comesTo_except_bind.mpr (.inr ⟨ring, mapError_eq_ok_iff.mpr hring, ?_⟩)
  rw [if_neg hclient]
  dsimp only
  rw [if_neg hmode]
  exact comesTo_adapt_bind.mpr (.inl ⟨error, hkek, rfl⟩)

end Executor

/-! ## Runs over a registry in memory -/

namespace Store

variable {s s' : Store} {name : String} {kek kek' : Kek}

/-- A key-encryption key is stored under a name, marked as deleted or not. -/
def Has (s : Store) (name : String) (kek : Kek) : Prop :=
  ∃ mark, s.keks.get? name = some { kek with deleted := mark }

theorem has_of_getKek {deleted : Bool} (h : s.getKek name deleted = .ok kek) : s.Has name kek :=
  ⟨kek.deleted, (getKek_eq_ok_iff.mp h).1⟩

theorem has_of_registerKek {request : KekRequest} {now : Int64}
    (h : (s.registerKek request now).1 = .ok kek) :
    (s.registerKek request now).2.Has request.name kek :=
  ⟨kek.deleted, get?_of_registerKek h⟩

theorem Has.later (h : s.Has name kek) (hlater : s.Outlives s') : s'.Has name kek := by
  obtain ⟨mark, hmark⟩ := h
  obtain ⟨mark', hmark'⟩ := hlater.keks hmark
  exact ⟨mark', hmark'⟩

/-- One name belongs to one master key. -/
theorem Has.unique (h : s.Has name kek) (h' : s.Has name kek') :
    kek.kmsType = kek'.kmsType ∧ kek.kmsKeyId = kek'.kmsKeyId := by
  obtain ⟨mark, hmark⟩ := h
  obtain ⟨mark', hmark'⟩ := h'
  obtain ⟨-, htype, hid, -⟩ := Kek.mk.inj (Option.some.inj (hmark.symm.trans hmark'))
  exact ⟨htype, hid⟩

end Store

namespace Pool

variable {ι σ : Type} [DecidableEq ι] {q : Pool ι σ} {i j : ι}

theorem extends_turn (q : Pool ι σ) (i : ι) : q.world.Extends (q.turn i).world := by
  cases hleft : q.left i with
  | done r =>
    rw [turn_of_done hleft]
    exact .refl _
  | ask req next =>
    rw [turn_of_ask hleft]
    exact World.extends_answer q.world req

/-- An exchange was there before a turn, or the turn has answered it. -/
theorem mem_history_turn {x : Engine.Exchange} (h : x ∈ (q.turn i).history j) :
    x ∈ q.history j ∨ x.2 = ((World.answer x.1).run q.world).1 ∧
      (q.turn i).world = ((World.answer x.1).run q.world).2 := by
  cases hleft : q.left i with
  | done r =>
    rw [turn_of_done hleft] at h
    exact .inl h
  | ask req next =>
    rw [turn_of_ask hleft] at h ⊢
    by_cases hj : j = i
    · subst hj
      simp only [Function.update_self] at h
      rcases List.mem_append.mp h with hold | hnew
      · exact .inl hold
      · obtain rfl := List.mem_singleton.mp hnew
        exact .inr ⟨rfl, rfl⟩
    · simp only [Function.update_of_ne hj] at h
      exact .inl h

end Pool

/-- A value that an executor is to transform. -/
structure Invocation (κ : Type) where
  executor : Executor κ
  kind : ExecutorKind
  context : Context
  type : FieldType
  value : Option FieldValue

namespace Invocation

open KeyRing

variable {κ ι σ : Type}

/-- What the executor does. -/
def program (x : Invocation κ) : Action (Option FieldValue) :=
  x.executor.transform x.kind x.context x.type x.value

def ring (x : Invocation κ) : Except ConfigError KeyRing :=
  x.executor.ring x.context

/-- The type of key management system that the parameters give. -/
def kmsType (x : Invocation κ) : Option String :=
  x.executor.parameter x.context Parameter.kmsType

/-- The master key that the parameters give. -/
def kmsKeyId (x : Invocation κ) : Option String :=
  x.executor.parameter x.context Parameter.kmsKeyId

theorem transformation {x : Invocation κ} {t : Trace} {r : Except Error (Option FieldValue)}
    (h : ComesTo x.program t r) :
    x.executor.Transformation x.context (x.kind.declared x.type) x.value t r := by
  unfold program at h
  rw [Executor.transform_eq] at h
  exact Executor.transformField_comesTo h

variable [DecidableEq ι] {x : ι → Invocation κ} {w : World Store σ} {q : Pool ι σ}

/-- The states that a run reaches in which any number of values are transformed
beside each other, one request at a time.  In between, the world moves on by
itself, but it never takes a record or a client away. -/
inductive Reaches (x : ι → Invocation κ) (w : World Store σ) : Pool ι σ → Prop where
  | start : Reaches x w ⟨w, fun i => (x i).program.run, fun _ => []⟩
  | turn {q : Pool ι σ} (h : Reaches x w q) (i : ι) : Reaches x w (q.turn i)
  | meanwhile {q : Pool ι σ} (h : Reaches x w q) {w' : World Store σ}
      (hlater : q.world.Outlives w') : Reaches x w { q with world := w' }

/-- Meanwhile everything can happen to the world that can happen to that of a
deployment. -/
theorem Reaches.evolves {ι' : Type} [DecidableEq ι'] {d d' : Deployment ι' σ}
    (h : Reaches x w q) (hworld : d.world = q.world)
    (hevolves : Deployment.Evolves (fun _ => True) d d') :
    Reaches x w { q with world := d'.world } := by
  apply h.meanwhile
  obtain ⟨hregistry, hdirectory⟩ := hevolves.lives
  rw [← hworld]
  exact ⟨hregistry.outlives, hdirectory⟩

theorem Reaches.after (h : Reaches x w q) (i : ι) :
    After (x i).program.run (q.history i) (q.left i) := by
  induction h generalizing i with
  | start => exact .start _
  | turn h j ih => exact Pool.after_turn ih j i
  | meanwhile h hlater ih => exact ih i

theorem Reaches.turns (h : Reaches x w q) (turns : List ι) :
    Reaches x w (turns.foldl Pool.turn q) :=
  List.foldlRecOn turns Pool.turn h fun _ hq i _ => hq.turn i

/-- A key-encryption key that was given out is stored from then on. -/
theorem Reaches.has (h : Reaches x w q) {i : ι} {ring : KeyRing} {kek : Kek}
    (hkek : ring.KekGivenOut (q.history i) kek) : q.world.registry.Has ring.kekName kek := by
  induction h with
  | start => cases hkek <;> contradiction
  | meanwhile h hlater ih => exact (ih hkek).later hlater.registry
  | @turn q h j ih =>
    have hlater := (q.extends_turn j).outlives.registry
    -- A turn answers one request: the record was stored before, or it is stored now.
    cases hkek with
    | found deleted hmem =>
      rcases Pool.mem_history_turn hmem with hold | ⟨hanswer, hworld⟩
      · exact (ih (.found deleted hold)).later hlater
      · rw [hworld]
        exact Store.has_of_getKek hanswer.symm
    | registered request hname hmem =>
      rcases Pool.mem_history_turn hmem with hold | ⟨hanswer, hworld⟩
      · exact (ih (.registered request hname hold)).later hlater
      · rw [hworld, ← hname]
        exact Store.has_of_registerKek hanswer.symm

/-- Whoever succeeds has named no master key but the one of the stored
key-encryption key. -/
theorem Reaches.bound (h : Reaches x w q) {i : ι} {out : Option FieldValue}
    (hresult : q.result i = some (.ok out)) {ring : KeyRing} (hring : (x i).ring = .ok ring) :
    ∃ kek, q.world.registry.Has ring.kekName kek ∧
      (∀ type, Gives (x i).kmsType type → type = kek.kmsType) ∧
      ∀ id, Gives (x i).kmsKeyId id → id = kek.kmsKeyId := by
  have hafter := h.after i
  rw [Pool.left_of_result hresult] at hafter
  obtain ⟨kek, hkek, htype, hid⟩ := (transformation hafter).exists_bound hring
  exact ⟨kek, h.has hkek, agrees_nonempty_iff.mp htype, agrees_nonempty_iff.mp hid⟩

/-- Two that succeed with one key-encryption key have named the same master key,
as far as both have named one. -/
theorem Reaches.agree (h : Reaches x w q) {i j : ι} {out out' : Option FieldValue}
    (hresult : q.result i = some (.ok out)) (hresult' : q.result j = some (.ok out'))
    {ring ring' : KeyRing} (hring : (x i).ring = .ok ring) (hring' : (x j).ring = .ok ring')
    (hname : ring.kekName = ring'.kekName) :
    (∀ type type', Gives (x i).kmsType type → Gives (x j).kmsType type' → type = type') ∧
      ∀ id id', Gives (x i).kmsKeyId id → Gives (x j).kmsKeyId id' → id = id' := by
  obtain ⟨kek, hkek, htype, hid⟩ := h.bound hresult hring
  obtain ⟨kek', hkek', htype', hid'⟩ := h.bound hresult' hring'
  rw [hname] at hkek
  obtain ⟨hsameType, hsameId⟩ := hkek.unique hkek'
  constructor
  · intro type type' hgives hgives'
    rw [htype type hgives, htype' type' hgives', hsameType]
  · intro id id' hgives hgives'
    rw [hid id hgives, hid' id' hgives', hsameId]

/-- A key-encryption key that belongs to another master key than the parameters
give is refused before all work on a data key; the type is compared first. -/
theorem refused {x : Invocation κ} {t : Trace} {r : Except Error (Option FieldValue)}
    {ring : KeyRing} {kek : Kek} (h : ComesTo x.program t r) (hring : x.ring = .ok ring)
    (hkek : ring.KekGivenOut t kek) :
    (∀ type, Gives x.kmsType type → type ≠ kek.kmsType → (∀ y ∈ t, y.1.Preliminary) ∧
      r = .error (.key (.kmsTypeMismatch ring.kekName kek.kmsType type))) ∧
    ∀ id, Gives x.kmsKeyId id → id ≠ kek.kmsKeyId →
      (∀ type, Gives x.kmsType type → type = kek.kmsType) → (∀ y ∈ t, y.1.Preliminary) ∧
        r = .error (.key (.kmsKeyIdMismatch ring.kekName kek.kmsKeyId id)) := by
  have hcases := (transformation h).bound_or_refused hring hkek
  constructor
  · intro type hgives hother
    have hnamed : x.executor.namedType x.context = some type := nonempty_eq_some_iff.mpr hgives
    rcases hcases with ⟨htype, -⟩ | ⟨hearly, error, hrefused, rfl⟩
    · exact absurd (htype type hnamed) hother
    · rw [bound_of_type hnamed hother] at hrefused
      rw [Except.error.inj hrefused]
      exact ⟨hearly, rfl⟩
  · intro id hgives hother htype
    have hnamed : x.executor.namedKey x.context = some id := nonempty_eq_some_iff.mpr hgives
    rcases hcases with ⟨-, hid⟩ | ⟨hearly, error, hrefused, rfl⟩
    · exact absurd (hid id hnamed) hother
    · have hagrees : Agrees (x.executor.namedType x.context) kek.kmsType :=
        agrees_nonempty_iff.mpr htype
      rw [bound_of_key hagrees hnamed hother] at hrefused
      rw [Except.error.inj hrefused]
      exact ⟨hearly, rfl⟩

/-- The binding of key-encryption keys.  A key-encryption key that is resolved
was given out by the registry and belongs to the master key that the parameters
give, if they give one; empty parameters give none.  If it belongs to another
one, the whole transformation fails, with the type if both differ, and has asked
for key-encryption keys alone.  In a run over a registry in memory, all
transformations that succeed with one key-encryption key give the same master
key, as far as they give one. -/
theorem keks_bound :
    (∀ (ring : KeyRing) mode kmsType kmsKeyId t kek,
      ComesTo (ring.kek mode kmsType kmsKeyId) t (.ok kek) → ring.KekGivenOut t kek ∧
        (∀ type, Gives kmsType type → type = kek.kmsType) ∧
        ∀ id, Gives kmsKeyId id → id = kek.kmsKeyId) ∧
    (∀ (x : Invocation κ) t r ring kek, ComesTo x.program t r → x.ring = .ok ring →
      ring.KekGivenOut t kek →
        (∀ type, Gives x.kmsType type → type ≠ kek.kmsType → (∀ y ∈ t, y.1.Preliminary) ∧
          r = .error (.key (.kmsTypeMismatch ring.kekName kek.kmsType type))) ∧
        ∀ id, Gives x.kmsKeyId id → id ≠ kek.kmsKeyId →
          (∀ type, Gives x.kmsType type → type = kek.kmsType) → (∀ y ∈ t, y.1.Preliminary) ∧
            r = .error (.key (.kmsKeyIdMismatch ring.kekName kek.kmsKeyId id))) ∧
    ∀ (x : ι → Invocation κ) (w : World Store σ) (q : Pool ι σ), Reaches x w q →
      ∀ i j ring ring' out out', (x i).ring = .ok ring → (x j).ring = .ok ring' →
        ring.kekName = ring'.kekName → q.result i = some (.ok out) →
        q.result j = some (.ok out') →
          (∀ type type', Gives (x i).kmsType type → Gives (x j).kmsType type' → type = type') ∧
          ∀ id id', Gives (x i).kmsKeyId id → Gives (x j).kmsKeyId id' → id = id' := by
  refine ⟨?_, ?_, ?_⟩
  · intro ring mode kmsType kmsKeyId t kek h
    exact kek_bound h
  · intro x t r ring kek h hring hkek
    exact refused h hring hkek
  · intro x w q h i j ring ring' out out' hring hring' hname hresult hresult'
    exact h.agree hresult hresult' hring hring' hname

/-- A key-encryption key is found for a rule that gives its type and an empty key
id, and refused for one that gives another type.  In memory it is created by a
writer and, deleted meanwhile, found by a reader. -/
theorem keks_bound_shared :
    let ring : KeyRing := ⟨"k", ⟨"AES256_SIV"⟩, 0, ∅⟩
    let kek : Kek := ⟨"k", "local-kms", "m", ∅, none, false, 0, false⟩
    let t : Trace := [called (.getKek "k" false) (.ok kek)]
    let x (mode : Mode) (type id : String) (value : Option FieldValue) : Invocation Unit :=
      { executor := ⟨some (), ∅⟩
        kind := .field
        context := ⟨"s", mode,
          Dict.ofList [(Parameter.kekName, "k"), (Parameter.dekAlgorithm, "AES256_SIV"),
            (Parameter.kmsType, type), (Parameter.kmsKeyId, id)], ∅⟩
        type := .bytes
        value := value }
    let other := x .write "other-kms" "n" none
    let both (first : Bool) : Invocation Unit :=
      if first then
        x .write "local-kms" "m" (some (.bytes [104, 105]))
      else
        x .read "local-kms" "" none
    let w : World Store Unit :=
      ⟨∅, ⟨[Kms.Plain.driver "local-kms://"], ∅⟩, (), 0, none, ⟨fun _ => 0, 0⟩, []⟩
    (ComesTo (ring.kek .write (some "local-kms") (some "")) t (.ok kek) ∧
        "local-kms" = kek.kmsType) ∧
      (ComesTo other.program t
          (.error (.key (.kmsTypeMismatch "k" "local-kms" "other-kms"))) ∧
        ∀ y ∈ t, y.1.Preliminary) ∧
      ∃ q : Pool Bool Unit, Reaches both w q ∧
        (∀ i, ((q.result i).any fun result => result.isOk) = true) ∧
        ∀ type type', Gives (both true).kmsType type → Gives (both false).kmsType type' →
          type = type' := by
  intro ring kek t x other both w
  obtain ⟨hbound, hrefused, hagree⟩ := @keks_bound Unit Bool Unit _
  refine ⟨?_, ?_, ?_⟩
  · have hagrees : ring.bound (nonempty (some "local-kms")) (nonempty (some "")) kek = .ok kek := by
      decide +kernel
    have hfound := ring.kek_found .write (some "local-kms") (some "") kek
    rw [hagrees] at hfound
    obtain ⟨-, htype, -⟩ := hbound _ _ _ _ _ _ hfound
    exact ⟨hfound, htype "local-kms" ⟨rfl, by decide⟩⟩
  · have hadmitted : other.executor.admitted other.context = .ok ring := by decide +kernel
    have hgives : Gives other.kmsType "other-kms" := ⟨by decide +kernel, by decide⟩
    have hother : "other-kms" ≠ kek.kmsType := by decide
    have hfound := ring.kek_found .write other.kmsType other.kmsKeyId kek
    rw [bound_of_type (nonempty_eq_some_iff.mpr hgives) hother] at hfound
    have hcomes : ComesTo other.program t
        (.error (.key (.kmsTypeMismatch "k" "local-kms" "other-kms"))) :=
      Executor.transformField_refused hadmitted hfound
    have hring : other.ring = .ok ring := (Executor.admitted_eq_ok_iff.mp hadmitted).2
    have hgiven : ring.KekGivenOut t kek := .found false List.mem_cons_self
    obtain ⟨htype, -⟩ := hrefused other t _ ring kek hcomes hring hgiven
    exact ⟨hcomes, (htype "other-kms" hgives hother).1⟩
  · let start : Pool Bool Unit := ⟨w, fun i => (both i).program.run, fun _ => []⟩
    let written := (List.replicate 12 true).foldl Pool.turn start
    let d : Deployment Unit Unit := ⟨fun _ => ⟨none, ∅⟩, written.world⟩
    let deleted : Pool Bool Unit :=
      { written with world := (d.advance (.softDeleteKek "k")).world }
    let q := (List.replicate 3 false).foldl Pool.turn deleted
    have hwritten : Reaches both w written := Reaches.start.turns _
    have hdeleted : Reaches both w deleted := hwritten.evolves rfl (.step .start _ trivial)
    have hreaches : Reaches both w q := hdeleted.turns _
    have hsucceed : ∀ i, ((q.result i).any fun result => result.isOk) = true := by
      decide +kernel
    have hring : ∀ i, (both i).ring = .ok ring := by
      decide +kernel
    generalize q = q at hreaches hsucceed
    have hresult : ∀ i, ∃ out, q.result i = some (.ok out) := by
      intro i
      obtain ⟨result, hresult, hok⟩ := (Option.any_eq_true _ _).mp (hsucceed i)
      obtain ⟨out, rfl⟩ := exists_ok_of_isOk hok
      exact ⟨out, hresult⟩
    obtain ⟨out, hout⟩ := hresult true
    obtain ⟨out', hout'⟩ := hresult false
    obtain ⟨htype, -⟩ := hagree both w q hreaches true false ring ring out out' (hring true)
      (hring false) rfl hout hout'
    exact ⟨q, hreaches, hsucceed, htype⟩

end Invocation
end Envelope
