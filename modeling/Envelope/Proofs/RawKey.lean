import Envelope.Json.Printer
import Envelope.Record.Handling
import Envelope.Proofs.Canonical
import Envelope.Proofs.Faithful
import Mathlib.Data.List.Induction

/-!
# The raw key of a record in hand

A record changes by the steps that are performed on it, one after the other.  Its
raw key was known at first, was kept, or was decoded when the record was asked for
it (`Dek.Learns`), and from then on it stays until another one is kept
(`Dek.rawKey_after_iff`).  What is stored of the record depends on none of this,
but only on the texts that were assigned last (`Dek.stored_after`), and what is
shown depends on the key material only in so far as there is any
(`Dek.redacted_after`).
-/

namespace Envelope

/-! ## Programs with a state that may fail -/

section

variable {ε σ α β : Type} {x : ExceptT ε (StateM σ) α} {f : α → ExceptT ε (StateM σ) β}
  {s s' : σ}

theorem run_bind_of_ok {a : α} (h : x.run.run s = (.ok a, s')) :
    (x >>= f).run.run s = (f a).run.run s' := by
  rw [ExceptT.run_bind, StateT.run_bind, h]
  rfl

theorem run_bind_of_error {e : ε} (h : x.run.run s = (.error e, s')) :
    (x >>= f).run.run s = (.error e, s') := by
  rw [ExceptT.run_bind, StateT.run_bind, h]
  rfl

theorem run_get : (get : ExceptT ε (StateM σ) σ).run.run s = (.ok s, s) := rfl

theorem run_set : (set s' : ExceptT ε (StateM σ) PUnit).run.run s = (.ok ⟨⟩, s') := rfl

theorem run_except {x : Except ε α} :
    (liftM x : ExceptT ε (StateM σ) α).run.run s = (x, s) := rfl

end

namespace Dek

variable {dek d : Dek} {steps steps' later : List Step} {step : Step} {raw : KeyMaterial}
  {text : String} {bytes : Bytes}

/-! ## Steps -/

/-- What comes back when a step is performed on a record. -/
def reply (dek : Dek) (step : Step) : Reply :=
  ((perform step).run dek).1

/-- The record after a step. -/
def next (dek : Dek) (step : Step) : Dek :=
  ((perform step).run dek).2

/-- The record after some steps. -/
def after (dek : Dek) (steps : List Step) : Dek :=
  steps.foldl next dek

theorem after_append : after dek (steps ++ later) = after (after dek steps) later :=
  List.foldl_append

theorem after_append_singleton : after dek (steps ++ [step]) = next (after dek steps) step :=
  after_append

/-! ## Asking for the raw key -/

theorem decodeMaterial_eq_ok_iff : decodeMaterial text = .ok bytes ↔ text = Base64.encode bytes :=
  Base64.decode_text_eq_ok_iff

theorem resolveRawKey_of_known (h : dek.rawKey = some raw) : dek.resolveRawKey = .ok dek := by
  rw [resolveRawKey, h]

theorem resolveRawKey_of_absent (h : dek.rawKey = none) (hmaterial : dek.keyMaterial = none) :
    dek.resolveRawKey = .ok dek := by
  rw [resolveRawKey, h, hmaterial]

theorem resolveRawKey_of_text (h : dek.rawKey = none) (hmaterial : dek.keyMaterial = some text) :
    dek.resolveRawKey =
      (decodeMaterial text).map fun bytes => { dek with rawKey := some ⟨bytes⟩ } := by
  rw [resolveRawKey, h, hmaterial]
  rfl

theorem perform_askRaw :
    (perform .askRaw).run dek = (.raw (askRawKey.run.run dek).1, (askRawKey.run.run dek).2) :=
  rfl

/-- A record that is asked for its raw key is resolved if it can be. -/
theorem run_askRawKey : askRawKey.run.run dek =
    (dek.resolveRawKey.map rawKey, dek.resolveRawKey.toOption.getD dek) := by
  unfold askRawKey
  rw [run_bind_of_ok run_get]
  -- the cases of the program, in each of which the record is resolved in the same way
  cases hraw : dek.rawKey with
  | some raw =>
    rw [Option.isNone_some, if_neg Bool.false_ne_true, run_bind_of_ok run_get,
      resolveRawKey_of_known hraw]
    rfl
  | none =>
    rw [Option.isNone_none, if_pos rfl]
    cases hmaterial : dek.keyMaterial with
    | none =>
      dsimp only
      rw [run_bind_of_ok run_get, resolveRawKey_of_absent hraw hmaterial]
      rfl
    | some text =>
      dsimp only
      rw [resolveRawKey_of_text hraw hmaterial]
      cases htext : decodeMaterial text with
      | ok bytes =>
        rw [run_bind_of_ok run_except, run_bind_of_ok run_set, run_bind_of_ok run_get, ← hmaterial]
        rfl
      | error e =>
        rw [run_bind_of_error run_except]
        rfl

theorem askRaw_of_ok (h : dek.resolveRawKey = .ok d) :
    reply dek .askRaw = .raw (.ok d.rawKey) ∧ next dek .askRaw = d := by
  rw [reply, next, perform_askRaw, run_askRawKey, h]
  exact ⟨rfl, rfl⟩

theorem askRaw_of_error {e : Base64.DecodeError} (h : dek.resolveRawKey = .error e) :
    reply dek .askRaw = .raw (.error e) ∧ next dek .askRaw = dek := by
  rw [reply, next, perform_askRaw, run_askRawKey, h]
  exact ⟨rfl, rfl⟩

theorem askRaw_of_encoded (h : dek.rawKey = none)
    (hmaterial : dek.keyMaterial = some (Base64.encode bytes)) :
    reply dek .askRaw = .raw (.ok (some ⟨bytes⟩)) ∧
      next dek .askRaw = { dek with rawKey := some ⟨bytes⟩ } := by
  have hresolve : dek.resolveRawKey = .ok { dek with rawKey := some ⟨bytes⟩ } := by
    rw [resolveRawKey_of_text h hmaterial, decodeMaterial_encode]
    rfl
  exact askRaw_of_ok hresolve

theorem askRaw_of_misencoded (h : dek.rawKey = none) (hmaterial : dek.keyMaterial = some text)
    (htext : ∀ bytes, text ≠ Base64.encode bytes) :
    (∃ e, reply dek .askRaw = .raw (.error e)) ∧ next dek .askRaw = dek := by
  cases hdecode : decodeMaterial text with
  | ok bytes => exact absurd (decodeMaterial_eq_ok_iff.mp hdecode) (htext bytes)
  | error e =>
    have hresolve : dek.resolveRawKey = .error e := by
      rw [resolveRawKey_of_text h hmaterial, hdecode]
      rfl
    obtain ⟨hreply, hnext⟩ := askRaw_of_error hresolve
    exact ⟨⟨e, hreply⟩, hnext⟩

/-- Asked for its raw key, a record stays the same or takes over the bytes that
its key material is the base64 text of. -/
theorem next_askRaw_cases (dek : Dek) :
    next dek .askRaw = dek ∨ ∃ bytes, dek.rawKey = none ∧
      dek.keyMaterial = some (Base64.encode bytes) ∧
      next dek .askRaw = { dek with rawKey := some ⟨bytes⟩ } := by
  cases hresolve : dek.resolveRawKey with
  | error e => exact .inl (askRaw_of_error hresolve).2
  | ok d =>
    rw [(askRaw_of_ok hresolve).2]
    rcases KeyRing.resolveRawKey_cases hresolve with
      ⟨rfl, -⟩ | ⟨text, bytes, hunknown, hmaterial, htext, rfl⟩
    · exact .inl rfl
    · obtain rfl := decodeMaterial_eq_ok_iff.mp htext
      exact .inr ⟨bytes, hunknown, hmaterial, rfl⟩

/-! ## The texts of a record -/

/-- The text that a step assigns to the key material. -/
def Step.material? : Step → Option (Option String)
  | .assignMaterial text => some text
  | _ => none

/-- The text that a step assigns to the wrapped key. -/
def Step.wrapped? : Step → Option (Option String)
  | .assignWrapped text => some text
  | _ => none

/-- What was assigned last in the course of some steps, or else what was there at
first. -/
def lastAssigned {α : Type} (assigns : Step → Option α) (first : α) (steps : List Step) : α :=
  (steps.filterMap assigns).getLast?.getD first

/-- The key material after some steps. -/
def material (dek : Dek) (steps : List Step) : Option String :=
  lastAssigned Step.material? dek.keyMaterial steps

/-- The wrapped key after some steps. -/
def wrapped (dek : Dek) (steps : List Step) : Option String :=
  lastAssigned Step.wrapped? dek.encryptedKeyMaterial steps

/-- What is stored of a record. -/
def stored (dek : Dek) : Dek :=
  { dek with rawKey := none }

/-- A record with the texts that are assigned to it in the course of some steps,
and without a raw key. -/
def assigned (dek : Dek) (steps : List Step) : Dek :=
  { dek with
    encryptedKeyMaterial := dek.wrapped steps
    keyMaterial := dek.material steps
    rawKey := none }

theorem lastAssigned_append_singleton {α : Type} {assigns : Step → Option α} {first : α} :
    lastAssigned assigns first (steps ++ [step]) =
      (assigns step).getD (lastAssigned assigns first steps) := by
  unfold lastAssigned
  rw [List.filterMap_append]
  cases h : assigns step with
  | none => rw [List.filterMap_cons_none h, List.filterMap_nil, List.append_nil, Option.getD_none]
  | some a =>
    rw [List.filterMap_cons_some h, List.filterMap_nil, List.getLast?_concat, Option.getD_some,
      Option.getD_some]

/-- Steps that are changed one by one assign something changed. -/
theorem lastAssigned_map {α β : Type} {assigns : Step → Option α} {assigns' : Step → Option β}
    {change : Step → Step} {f : α → β}
    (h : ∀ step, assigns' (change step) = (assigns step).map f) (first : α) :
    lastAssigned assigns' (f first) (steps.map change) = f (lastAssigned assigns first steps) := by
  have hsteps : (steps.map change).filterMap assigns' = (steps.filterMap assigns).map f := by
    rw [List.filterMap_map, List.map_filterMap]
    exact List.filterMap_congr fun step _ => h step
  unfold lastAssigned
  rw [hsteps, List.getLast?_map]
  exact Option.getD_map _ _ _

/-- A step changes what is stored of a record only by assigning a text. -/
theorem stored_next : (next dek step).stored =
    { dek.stored with
      encryptedKeyMaterial := step.wrapped?.getD dek.stored.encryptedKeyMaterial
      keyMaterial := step.material?.getD dek.stored.keyMaterial } := by
  cases step with
  | askRaw =>
    rcases next_askRaw_cases dek with h | ⟨bytes, -, -, h⟩
    · rw [h]
      rfl
    · rw [h]
      rfl
  | askWrapped | askKnown | askKey | keep | copy | assignMaterial | assignWrapped => rfl

theorem stored_after : (after dek steps).stored = dek.assigned steps := by
  induction steps using List.reverseRecOn with
  | nil => rfl
  | append_singleton steps step ih =>
    rw [after_append_singleton, stored_next, ih]
    simp only [assigned, material, wrapped, lastAssigned_append_singleton]

theorem keyMaterial_after : (after dek steps).keyMaterial = dek.material steps :=
  congrArg keyMaterial stored_after

/-! ## Redaction -/

/-- A record in which nothing is left of the key but whether there is key
material. -/
def redacted (dek : Dek) : Dek :=
  { dek with
    keyMaterial := dek.keyMaterial.map fun _ => "[REDACTED]"
    rawKey := none }

/-- A step in which nothing is left of a key but whether there is key material. -/
def Step.redacted : Step → Step
  | .keep _ => .keep ⟨[]⟩
  | .assignMaterial text => .assignMaterial (text.map fun _ => "[REDACTED]")
  | step => step

theorem shown_redacted : dek.redacted.shown = dek.shown := by
  unfold shown redacted
  rw [Option.map_map]
  rfl

theorem material_redacted : dek.redacted.material (steps.map Step.redacted) =
    (dek.material steps).map fun _ => "[REDACTED]" := by
  have hstep : ∀ step : Step,
      step.redacted.material? = step.material?.map (Option.map fun _ => "[REDACTED]") := by
    intro step
    cases step <;> rfl
  exact lastAssigned_map hstep dek.keyMaterial

theorem wrapped_redacted : dek.redacted.wrapped (steps.map Step.redacted) = dek.wrapped steps := by
  have hstep : ∀ step : Step, step.redacted.wrapped? = step.wrapped?.map id := by
    intro step
    cases step <;> rfl
  exact lastAssigned_map hstep dek.encryptedKeyMaterial

theorem redacted_after : (after dek steps).redacted =
    dek.redacted.assigned (steps.map Step.redacted) := by
  have hstored : (after dek steps).redacted = (after dek steps).stored.redacted := rfl
  rw [hstored, stored_after, assigned, assigned, material_redacted, wrapped_redacted]
  rfl

/-! ## The raw key -/

/-- Whether a step keeps a raw key. -/
def Step.keeps : Step → Bool
  | .keep _ => true
  | _ => false

/-- How a raw key becomes known with the last of some steps, if it was not known
before all of them: it is kept, or it is decoded. -/
inductive Learns (dek : Dek) : List Step → KeyMaterial → Prop where
  | carried (raw : KeyMaterial) (h : dek.rawKey = some raw) : Learns dek [] raw
  | kept (steps : List Step) (raw : KeyMaterial) : Learns dek (steps ++ [.keep raw]) raw
  | decoded (steps : List Step) (bytes : Bytes) (h : (after dek steps).rawKey = none)
      (hmaterial : dek.material steps = some (Base64.encode bytes)) :
      Learns dek (steps ++ [.askRaw]) ⟨bytes⟩

theorem rawKey_next_of_known (h : dek.rawKey = some raw) (hkeeps : step.keeps = false) :
    (next dek step).rawKey = some raw := by
  cases step with
  | keep raw' => cases hkeeps
  | askRaw =>
    rw [(askRaw_of_ok (resolveRawKey_of_known h)).2]
    exact h
  | askWrapped | askKnown | askKey | copy | assignMaterial | assignWrapped => exact h

theorem rawKey_after_of_known (h : dek.rawKey = some raw)
    (hkeeps : ∀ step ∈ later, step.keeps = false) : (after dek later).rawKey = some raw := by
  induction later generalizing dek with
  | nil => exact h
  | cons step later ih =>
    obtain ⟨hstep, hlater⟩ := List.forall_mem_cons.mp hkeeps
    exact ih (rawKey_next_of_known h hstep) hlater

theorem Learns.rawKey_after (h : Learns dek steps raw) : (after dek steps).rawKey = some raw := by
  cases h with
  | carried raw h => exact h
  | kept steps raw =>
    rw [after_append_singleton]
    rfl
  | decoded steps bytes h hmaterial =>
    rw [after_append_singleton]
    rw [← keyMaterial_after] at hmaterial
    rw [(askRaw_of_encoded h hmaterial).2]

/-- A raw key that is known after a step was known before it, or it is learned
with it. -/
theorem known_or_learned (h : (after dek (steps ++ [step])).rawKey = some raw) :
    (after dek steps).rawKey = some raw ∧ step.keeps = false ∨
      Learns dek (steps ++ [step]) raw := by
  rw [after_append_singleton] at h
  cases step with
  | keep raw' =>
    obtain rfl := Option.some.inj h
    exact .inr (.kept steps raw')
  | askRaw =>
    rcases next_askRaw_cases (after dek steps) with hsame | ⟨bytes, hunknown, hmaterial, hnext⟩
    · rw [hsame] at h
      exact .inl ⟨h, rfl⟩
    · rw [hnext] at h
      obtain rfl := Option.some.inj h
      rw [keyMaterial_after] at hmaterial
      exact .inr (.decoded steps bytes hunknown hmaterial)
  | askWrapped | askKnown | askKey | copy | assignMaterial | assignWrapped => exact .inl ⟨h, rfl⟩

/-- The raw key that is known after some steps was learned at one of them, and no
other one was kept since. -/
theorem rawKey_after_iff : (after dek steps).rawKey = some raw ↔
    ∃ before later, steps = before ++ later ∧ Learns dek before raw ∧
      ∀ step ∈ later, step.keeps = false := by
  constructor
  · intro h
    -- back from the last step, which has left the key as it was until one has brought it
    induction steps using List.reverseRecOn with
    | nil => exact ⟨[], [], rfl, .carried raw h, List.forall_mem_nil _⟩
    | append_singleton steps step ih =>
      rcases known_or_learned h with ⟨hknown, hkeeps⟩ | hlearns
      · obtain ⟨before, later, rfl, hlearns, hlater⟩ := ih hknown
        refine ⟨before, later ++ [step], List.append_assoc _ _ _, hlearns, ?_⟩
        rw [List.forall_mem_append]
        exact ⟨hlater, List.forall_mem_singleton.mpr hkeeps⟩
      · exact ⟨steps ++ [step], [], (List.append_nil _).symm, hlearns, List.forall_mem_nil _⟩
  · rintro ⟨before, later, rfl, hlearns, hlater⟩
    rw [after_append]
    exact rawKey_after_of_known hlearns.rawKey_after hlater

/-- Whichever way a record is asked for its raw key, this one comes back, and a
copy has it too. -/
structure Yields (dek : Dek) (raw : KeyMaterial) : Prop where
  asked : reply dek .askRaw = .raw (.ok (some raw))
  known : reply dek .askKnown = .known (some raw)
  key : reply dek .askKey = .key (.ok raw)
  copied : ∃ copy, reply dek .copy = .copied copy ∧ copy.rawKey = some raw

theorem yields_of_known (h : dek.rawKey = some raw) : Yields dek raw where
  asked := by
    rw [(askRaw_of_ok (resolveRawKey_of_known h)).1, h]
  known := congrArg Reply.known h
  key := by
    change Reply.key dek.key = _
    rw [Dek.key, h]
  copied := ⟨dek, rfl, h⟩

/-- A raw key that is known stays until another one is kept, whatever is assigned
in between, and it was learned in one of three ways.  As long as none is known the
key is missing; a record that is asked for it then takes over the bytes that its
key material is the base64 text of, and it stays as it is if there is no key
material or no such bytes.  What is written and shown of a record depends only on
its assigned fields, and what is shown is the same for records that went through
the same steps, except that other keys were kept and other key material was
assigned. -/
theorem raw_key_settled (dek : Dek) (steps : List Step) :
    (∀ raw later, (after dek steps).rawKey = some raw → (∀ step ∈ later, step.keeps = false) →
      Yields (after dek (steps ++ later)) raw) ∧
    (∀ raw later, (∀ step ∈ later, step.keeps = false) →
      Yields (after dek (steps ++ .keep raw :: later)) raw) ∧
    (∀ raw, (after dek steps).rawKey = some raw ↔ ∃ before later, steps = before ++ later ∧
      Learns dek before raw ∧ ∀ step ∈ later, step.keeps = false) ∧
    ((after dek steps).rawKey = none →
      reply (after dek steps) .askKnown = .known none ∧
      reply (after dek steps) .askKey =
        .key (.error (.missingKeyMaterial dek.kekName dek.subject dek.version)) ∧
      (∀ bytes, dek.material steps = some (Base64.encode bytes) →
        reply (after dek steps) .askRaw = .raw (.ok (some ⟨bytes⟩)) ∧
          next (after dek steps) .askRaw = { after dek steps with rawKey := some ⟨bytes⟩ }) ∧
      (dek.material steps = none →
        reply (after dek steps) .askRaw = .raw (.ok none) ∧
          next (after dek steps) .askRaw = after dek steps) ∧
      ∀ text, dek.material steps = some text → (∀ bytes, text ≠ Base64.encode bytes) →
        (∃ e, reply (after dek steps) .askRaw = .raw (.error e)) ∧
          next (after dek steps) .askRaw = after dek steps) ∧
    (Record.write (after dek steps)).render = (Record.write (dek.assigned steps)).render ∧
    (after dek steps).shown = (dek.assigned steps).shown ∧
    ∀ dek' steps', redacted dek' = redacted dek →
      steps'.map Step.redacted = steps.map Step.redacted →
      (after dek' steps').shown = (after dek steps).shown := by
  have hstored : (after dek steps).stored = dek.assigned steps := stored_after
  refine ⟨fun raw later h hkeeps => ?_, fun raw later hkeeps => ?_, fun raw => rawKey_after_iff,
    fun h => ⟨?_, ?_, ?_, ?_, ?_⟩, ?_, ?_, ?_⟩
  · rw [after_append]
    exact yields_of_known (rawKey_after_of_known h hkeeps)
  · have hkept : (next (after dek steps) (.keep raw)).rawKey = some raw := rfl
    have hlater := rawKey_after_of_known hkept hkeeps
    rw [after_append]
    exact yields_of_known hlater
  · exact congrArg Reply.known h
  · have hkey : (after dek steps).key = .error (.missingKeyMaterial (after dek steps).stored.kekName
        (after dek steps).stored.subject (after dek steps).stored.version) := by
      rw [Dek.key, h]
      rfl
    rw [hstored] at hkey
    exact congrArg Reply.key hkey
  · intro bytes hmaterial
    exact askRaw_of_encoded h (keyMaterial_after.trans hmaterial)
  · intro hmaterial
    have hask := askRaw_of_ok (resolveRawKey_of_absent h (keyMaterial_after.trans hmaterial))
    rw [h] at hask
    exact hask
  · intro text hmaterial htext
    exact askRaw_of_misencoded h (keyMaterial_after.trans hmaterial) htext
  · rw [← hstored]
    rfl
  · rw [← hstored]
    rfl
  · intro dek' steps' hdek hsteps
    rw [← shown_redacted, redacted_after, hdek, hsteps, ← redacted_after, shown_redacted]

/-- A decoded key outlives key material that is no base64 text and none at all,
and gives way to a key that is kept.  A record that was assigned no base64 text
knows no key until it is assigned another one, and it is shown all the same. -/
theorem raw_key_settled_reassigned :
    ∃ (dek : Dek) (decoded misencoded reassigned : List Step),
      decoded = [.assignMaterial (some "AAEC"), .askRaw] ∧
      misencoded = [.assignMaterial (some "AAE"), .askRaw] ∧
      reassigned = [.assignMaterial (some "?"), .askRaw, .assignMaterial none, .copy] ∧
      Yields (after dek (decoded ++ reassigned)) ⟨[0, 1, 2]⟩ ∧
      Yields (after dek (misencoded ++ .keep ⟨[7]⟩ :: reassigned)) ⟨[7]⟩ ∧
      next (after dek []) .askRaw = dek ∧
      next (after dek misencoded) .askRaw = after dek misencoded ∧
      reply (after dek misencoded) .askKey =
        .key (.error (.missingKeyMaterial "orders" "value" 1)) ∧
      reply (after dek [.assignMaterial (some "AAEC")]) .askRaw =
        .raw (.ok (some ⟨[0, 1, 2]⟩)) ∧
      (after dek misencoded).shown = (after dek decoded).shown := by
  refine ⟨bare "orders" "value" 1 "AES128_GCM", [.assignMaterial (some "AAEC"), .askRaw],
    [.assignMaterial (some "AAE"), .askRaw],
    [.assignMaterial (some "?"), .askRaw, .assignMaterial none, .copy], rfl, rfl, rfl, ?_⟩
  obtain ⟨hknown, -, -, -, -, -, hshown⟩ :=
    raw_key_settled (bare "orders" "value" 1 "AES128_GCM")
      [.assignMaterial (some "AAEC"), .askRaw]
  obtain ⟨-, hkept, -, hmisencoded, -⟩ :=
    raw_key_settled (bare "orders" "value" 1 "AES128_GCM")
      [.assignMaterial (some "AAE"), .askRaw]
  obtain ⟨-, -, -, habsent, -⟩ := raw_key_settled (bare "orders" "value" 1 "AES128_GCM") []
  obtain ⟨-, -, -, hencoded, -⟩ :=
    raw_key_settled (bare "orders" "value" 1 "AES128_GCM") [.assignMaterial (some "AAEC")]
  have hnot : ∀ bytes, "AAE" ≠ Base64.encode bytes := by
    intro bytes hbytes
    have hdecode : decodeMaterial "AAE" = .ok bytes := decodeMaterial_eq_ok_iff.mpr hbytes
    have herror : decodeMaterial "AAE" = .error .invalidPadding := by decide
    cases herror.symm.trans hdecode
  obtain ⟨-, hkey, -, -, hmisencoded⟩ := hmisencoded (by decide)
  obtain ⟨-, -, -, habsent, -⟩ := habsent (by decide)
  obtain ⟨-, -, hencoded, -⟩ := hencoded (by decide)
  exact ⟨hknown _ _ (by decide) (by decide), hkept _ _ (by decide), (habsent rfl).2,
    (hmisencoded _ rfl hnot).2, hkey, (hencoded [0, 1, 2] (by decide)).1,
    hshown _ _ rfl (by decide)⟩

end Dek
end Envelope
