import Envelope.Executor

/-!
# Configurations

An executor is set up call by call.  A call binds it to a registry before it
looks at the entries to be added, and is refused as a whole all the same: only
an executor without registry is bound, and it has no entries yet with which
others could be in conflict (`Executor.InOrder`).  The configuration is then
the union of the entries of the calls that were taken (`get?_configured_iff`),
so that calls in agreement with each other may come in any order.
-/

namespace Envelope

/-- No key has one value in one dictionary and another value in the other. -/
def Dict.Compatible {α : Type} (d other : Dict α) : Prop :=
  ∀ key a b, d.get? key = some a → other.get? key = some b → a = b

namespace Executor

variable {κ : Type}

/-- A call that sets an executor up. -/
structure Setup (κ : Type) where
  /-- The registry to which the executor is to be bound. -/
  client : κ
  /-- The entries to be added. -/
  config : Properties

/-- Two calls name the same registry and have no entries in conflict. -/
def Setup.Compatible (s t : Setup κ) : Prop :=
  s.client = t.client ∧ s.config.Compatible t.config

theorem Setup.Compatible.symm {s t : Setup κ} (h : s.Compatible t) : t.Compatible s :=
  ⟨h.1.symm, fun key a b ha hb => (h.2 key b a hb ha).symm⟩

/-- An executor without registry has no configuration. -/
def InOrder (e : Executor κ) : Prop :=
  e.client = none → e.config = ∅

theorem inOrder_fresh : (fresh : Executor κ).InOrder :=
  fun _ => rfl

variable {e : Executor κ} {s : Setup κ}

/-! ## The parts of a call -/

theorem conflict?_eq_none_iff {config : Properties} :
    e.conflict? config = none ↔ e.config.Compatible config := by
  unfold conflict?
  rw [Option.map_eq_none_iff, List.find?_eq_none]
  constructor
  · intro h key a b ha hb
    have := h (key, b) ((Dict.mem_entries_iff config).mpr hb)
    simpa [ha] using this
  · intro h entry hentry
    have hb := (Dict.mem_entries_iff config).mp hentry
    cases ha : e.config.get? entry.1 with
    | none => simp
    | some a => simp [h entry.1 a entry.2 ha hb]

theorem run_extend (e : Executor κ) (config : Properties) :
    (extend config).run.run e =
      match e.conflict? config with
      | some key => (.error (.alreadySet key), e)
      | none => (.ok (), { e with config := e.config.merge config }) := by
  change ((match e.conflict? config with
    | some key => throw (.alreadySet key)
    | none => modify fun e => { e with config := e.config.merge config } :
      ExceptT ConfigError (StateM (Executor κ)) Unit)).run.run e = _
  split <;> rfl

variable [DecidableEq κ]

theorem run_bindTo (e : Executor κ) (client : κ) :
    (bindTo client).run.run e =
      if e.client.any fun bound => bound ≠ client then (.error .alreadyConfigured, e)
      else (.ok (), { e with client := some client }) := by
  obtain ⟨_ | bound, entries⟩ := e
  · rfl
  · change ((if bound ≠ client then throw .alreadyConfigured else pure () :
      ExceptT ConfigError (StateM (Executor κ)) Unit)).run.run _ = _
    by_cases h : bound = client
    · subst h
      simp
      rfl
    · simp [h]
      rfl

/-! ## One call -/

theorem run_setUp_eq (e : Executor κ) (client : κ) (config : Properties) :
    (setUp client config).run.run e =
      match (bindTo client).run.run e with
      | (.ok (), e') => (extend config).run.run e'
      | (.error cause, e') => (.error cause, e') := by
  simp only [setUp, ExceptT.run_bind, StateT.run_bind]
  cases h : (bindTo client).run.run e with
  | mk outcome e' => cases outcome <;> rfl

/-- Binding, checking and adding one after the other is what is done at once:
a call that is refused has left nothing behind. -/
theorem run_setUp (he : e.InOrder) (client : κ) (config : Properties) :
    (setUp client config).run.run e =
      match e.configure client config with
      | .ok e' => (.ok (), e')
      | .error cause => (.error cause, e) := by
  rw [run_setUp_eq, run_bindTo]
  unfold configure
  by_cases hother : e.client.any fun bound => bound ≠ client
  · rw [if_pos hother, if_pos hother]
    rfl
  · rw [if_neg hother, if_neg hother]
    have hconflict : conflict? ⟨some client, e.config⟩ config = e.conflict? config := rfl
    simp only [run_extend, hconflict]
    cases h : e.conflict? config with
    | none => rfl
    | some key =>
      -- an executor with entries that can be in conflict has been bound before
      have hbound : e.client = some client := by
        cases hclient : e.client with
        | none =>
          have : e.conflict? config = none :=
            conflict?_eq_none_iff.mpr fun key a b ha _ => by simp [he hclient] at ha
          simp [h] at this
        | some bound => simpa [hclient] using hother
      simp only [← hbound]
      rfl

theorem configure_eq_ok_iff {client : κ} {config : Properties} {e' : Executor κ} :
    e.configure client config = .ok e' ↔
      ((∀ bound, e.client = some bound → bound = client) ∧ e.config.Compatible config) ∧
        (⟨some client, e.config.merge config⟩ : Executor κ) = e' := by
  rw [← conflict?_eq_none_iff]
  unfold configure
  by_cases hother : e.client.any fun bound => bound ≠ client
  · rw [if_pos hother]
    obtain ⟨bound, hbound, hne⟩ := Option.any_eq_true _ _ |>.mp hother
    refine iff_of_false (fun h => nomatch h) fun h => ?_
    exact of_decide_eq_true hne (h.1.1 bound hbound)
  · rw [if_neg hother]
    have hclient (bound) (h : e.client = some bound) : bound = client := by simpa [h] using hother
    cases h : e.conflict? config with
    | none => exact ⟨fun h => ⟨⟨hclient, rfl⟩, Except.ok.inj h⟩, fun h => congrArg _ h.2⟩
    | some key => exact iff_of_false (fun h => nomatch h) fun h => nomatch h.1.2

/-- A call succeeds. -/
def Takes (e : Executor κ) (s : Setup κ) : Prop :=
  ((setUp s.client s.config).run.run e).1 = .ok ()

instance (e : Executor κ) (s : Setup κ) : Decidable (e.Takes s) :=
  match h : ((setUp s.client s.config).run.run e).1 with
  | .ok () => isTrue h
  | .error _ => isFalse fun hok => nomatch h.symm.trans hok

/-- The executor after a call. -/
def after (e : Executor κ) (s : Setup κ) : Executor κ :=
  ((setUp s.client s.config).run.run e).2

theorem takes_iff (he : e.InOrder) :
    e.Takes s ↔ (∀ bound, e.client = some bound → bound = s.client) ∧
      e.config.Compatible s.config := by
  unfold Takes
  rw [run_setUp he]
  cases hs : e.configure s.client s.config with
  | ok e' => exact iff_of_true rfl (configure_eq_ok_iff.mp hs).1
  | error cause =>
    refine iff_of_false (fun h => nomatch h) fun h => ?_
    rw [configure_eq_ok_iff.mpr ⟨h, rfl⟩] at hs
    nomatch hs

theorem after_of_takes (he : e.InOrder) (h : e.Takes s) :
    e.after s = ⟨some s.client, e.config.merge s.config⟩ := by
  unfold after
  rw [run_setUp he, configure_eq_ok_iff.mpr ⟨(takes_iff he).mp h, rfl⟩]

theorem after_of_not_takes (he : e.InOrder) (h : ¬ e.Takes s) : e.after s = e := by
  unfold Takes at h
  unfold after
  rw [run_setUp he] at h ⊢
  cases hs : e.configure s.client s.config with
  | ok e' => simp [hs] at h
  | error cause => rfl

theorem takes_fresh (s : Setup κ) : (fresh : Executor κ).Takes s :=
  (takes_iff inOrder_fresh).mpr ⟨fun _ h => (nomatch h), fun _ _ _ h => (nomatch h)⟩

theorem InOrder.after (he : e.InOrder) (s : Setup κ) : (e.after s).InOrder := by
  by_cases h : e.Takes s
  · rw [after_of_takes he h]
    intro hnone
    nomatch hnone
  · rw [after_of_not_takes he h]
    exact he

/-- The entries of a call that is taken are added to those of the
configuration. -/
theorem get?_after (he : e.InOrder) (h : e.Takes s) (key value : String) :
    (e.after s).config.get? key = some value ↔
      e.config.get? key = some value ∨ s.config.get? key = some value := by
  rw [after_of_takes he h]
  show (e.config.merge s.config).get? key = some value ↔ _
  rw [Dict.get?_merge, Option.or_eq_some_iff]
  have hagree := ((takes_iff he).mp h).2 key
  constructor
  · rintro (hs | ⟨-, he⟩)
    · exact .inr hs
    · exact .inl he
  · rintro (he | hs)
    · cases hs : s.config.get? key with
      | none => exact .inr ⟨rfl, he⟩
      | some b => exact .inl (congrArg _ (hagree value b he hs).symm)
    · exact .inl hs

/-! ## Calls one after the other -/

/-- The executor after calls. -/
def configured (e : Executor κ) (calls : List (Setup κ)) : Executor κ :=
  calls.foldl after e

/-- The calls that succeed, of calls one after the other. -/
def taken (e : Executor κ) : List (Setup κ) → List (Setup κ)
  | [] => []
  | s :: calls => if e.Takes s then s :: (e.after s).taken calls else (e.after s).taken calls

theorem InOrder.configured (he : e.InOrder) (calls : List (Setup κ)) :
    (e.configured calls).InOrder := by
  induction calls generalizing e with
  | nil => exact he
  | cons s calls ih => exact ih (he.after s)

theorem client_configured (he : e.InOrder) {client : κ} (hclient : e.client = some client)
    (calls : List (Setup κ)) : (e.configured calls).client = some client := by
  induction calls generalizing e with
  | nil => exact hclient
  | cons s calls ih =>
    apply ih (he.after s)
    by_cases h : e.Takes s
    · rw [after_of_takes he h, ((takes_iff he).mp h).1 client hclient]
    · rw [after_of_not_takes he h, hclient]

/-- The configuration is the union of what was there before and the entries
of the calls that were taken. -/
theorem get?_configured_iff (he : e.InOrder) (calls : List (Setup κ)) (key value : String) :
    (e.configured calls).config.get? key = some value ↔
      e.config.get? key = some value ∨
        ∃ s ∈ e.taken calls, s.config.get? key = some value := by
  induction calls generalizing e with
  | nil => simp [configured, taken]
  | cons s calls ih =>
    show ((e.after s).configured calls).config.get? key = some value ↔ _
    rw [ih (he.after s), taken]
    by_cases h : e.Takes s
    · rw [if_pos h, get?_after he h, or_assoc]
      simp only [List.mem_cons, exists_eq_or_imp]
    · rw [if_neg h, after_of_not_takes he h]

/-- Calls in agreement with each other and with the executor are all taken. -/
theorem taken_of_compatible (he : e.InOrder) {calls : List (Setup κ)}
    (hclient : ∀ bound, e.client = some bound → ∀ s ∈ calls, bound = s.client)
    (hconfig : ∀ s ∈ calls, e.config.Compatible s.config)
    (hcalls : calls.Pairwise Setup.Compatible) : e.taken calls = calls := by
  induction calls generalizing e with
  | nil => rfl
  | cons s calls ih =>
    obtain ⟨hs, htail⟩ := List.pairwise_cons.mp hcalls
    have htakes : e.Takes s :=
      (takes_iff he).mpr ⟨fun bound h => hclient bound h s List.mem_cons_self,
        hconfig s List.mem_cons_self⟩
    rw [taken, if_pos htakes]
    refine congrArg _ (ih (he.after s) ?_ ?_ htail)
    · intro bound hbound t ht
      rw [after_of_takes he htakes] at hbound
      exact (Option.some.inj hbound) ▸ (hs t ht).1
    · intro t ht key a b ha hb
      obtain ha | ha := (get?_after he htakes key a).mp ha
      · exact hconfig t (List.mem_cons_of_mem _ ht) key a b ha hb
      · exact (hs t ht).2 key a b ha hb

theorem client_configured_fresh (first : Setup κ) (calls : List (Setup κ)) :
    (fresh.configured (first :: calls)).client = some first.client :=
  client_configured (inOrder_fresh.after first)
    (congrArg client (after_of_takes inOrder_fresh (takes_fresh first))) calls

theorem get?_configured_fresh_iff (calls : List (Setup κ)) (key value : String) :
    (fresh.configured calls).config.get? key = some value ↔
      ∃ s ∈ fresh.taken calls, s.config.get? key = some value := by
  rw [get?_configured_iff inOrder_fresh]
  exact or_iff_right fun h => nomatch h

theorem taken_fresh_of_compatible {calls : List (Setup κ)}
    (hcalls : calls.Pairwise Setup.Compatible) : fresh.taken calls = calls :=
  taken_of_compatible inOrder_fresh (fun _ h => (nomatch h)) (fun _ _ _ _ _ h => (nomatch h)) hcalls

/-- Calls in agreement with each other may come in any order. -/
theorem configured_of_perm {calls calls' : List (Setup κ)} (hperm : calls'.Perm calls)
    (hcalls : calls.Pairwise Setup.Compatible) :
    fresh.configured calls' = fresh.configured calls := by
  have hcalls' : calls'.Pairwise Setup.Compatible := hperm.symm.pairwise hcalls (·.symm)
  have hconfig : (fresh.configured calls').config = (fresh.configured calls).config := by
    refine Dict.ext_get? fun key => Option.ext fun value => ?_
    rw [get?_configured_fresh_iff, get?_configured_fresh_iff, taken_fresh_of_compatible hcalls',
      taken_fresh_of_compatible hcalls]
    simp only [hperm.mem_iff]
  have hclient : (fresh.configured calls').client = (fresh.configured calls).client := by
    cases calls' with
    | nil => rw [← List.nil_perm.mp hperm]
    | cons first' rest' =>
      cases calls with
      | nil => nomatch List.perm_nil.mp hperm
      | cons first rest =>
        rw [client_configured_fresh, client_configured_fresh]
        obtain h | h := List.mem_cons.mp (hperm.subset List.mem_cons_self)
        · rw [h]
        · rw [((List.pairwise_cons.mp hcalls).1 first' h).1]
  exact Executor.ext hclient hconfig

/-- The configuration of an executor is written once.  The first call is taken
whatever it brings; a later one is taken if it names the registry of the first
one and no entry is in conflict with the configuration, and changes nothing
otherwise.  The executor stays with the registry of the first call, its
configuration is the union of what the calls that were taken brought, and an
entry stays as it is whatever else is called.  Calls in agreement with each
other are all taken, and may come in any order. -/
theorem configuration_write_once (first : Setup κ) (calls : List (Setup κ)) :
    let e := (fresh : Executor κ).configured (first :: calls)
    (fresh : Executor κ).Takes first ∧
    (∀ next : Setup κ,
      (e.Takes next ↔ next.client = first.client ∧ e.config.Compatible next.config) ∧
      (¬ e.Takes next → e.after next = e)) ∧
    e.client = some first.client ∧
    (∀ key value, e.config.get? key = some value ↔
      ∃ s ∈ (fresh : Executor κ).taken (first :: calls), s.config.get? key = some value) ∧
    (∀ more key value, e.config.get? key = some value →
      (e.configured more).config.get? key = some value) ∧
    ((first :: calls).Pairwise Setup.Compatible →
      (fresh : Executor κ).taken (first :: calls) = first :: calls ∧
      ∀ calls', calls'.Perm (first :: calls) → (fresh : Executor κ).configured calls' = e) := by
  intro e
  have he : e.InOrder := inOrder_fresh.configured _
  have hclient : e.client = some first.client := client_configured_fresh first calls
  refine ⟨takes_fresh first, fun next => ⟨?_, after_of_not_takes he⟩, hclient,
    get?_configured_fresh_iff _, ?_, ?_⟩
  · rw [takes_iff he, hclient]
    refine and_congr_left fun _ => ⟨fun h => (h first.client rfl).symm, ?_⟩
    intro h bound hbound
    rw [← Option.some.inj hbound, h]
  · intro more key value h
    exact (get?_configured_iff he more key value).mpr (.inl h)
  · intro hcalls
    exact ⟨taken_fresh_of_compatible hcalls, fun calls' hperm => configured_of_perm hperm hcalls⟩

/-- Two calls in agreement, the second one before the first. -/
theorem configuration_write_once_swapped :
    let s : Setup Nat := ⟨0, Dict.ofList [("a", "1")]⟩
    let t : Setup Nat := ⟨0, Dict.ofList [("a", "1"), ("b", "2")]⟩
    [s, t].Pairwise Setup.Compatible ∧ fresh.taken [s, t] = [s, t] ∧
      fresh.configured [t, s] = fresh.configured [s, t] := by
  intro s t
  have hst : [s, t].Pairwise Setup.Compatible := by
    refine List.pairwise_pair.mpr ⟨rfl, ?_⟩
    exact conflict?_eq_none_iff (e := ⟨some 0, s.config⟩).mp (by decide +kernel)
  obtain ⟨-, -, -, -, -, hagree⟩ := configuration_write_once s [t]
  obtain ⟨htaken, hperm⟩ := hagree hst
  exact ⟨hst, htaken, hperm [t, s] (.swap s t [])⟩

/-- A call with another registry and a call with another value are refused,
and the call after them is taken. -/
example :
    (fresh : Executor Nat).configured
        [⟨0, Dict.ofList [("a", "1")]⟩, ⟨1, Dict.ofList [("c", "3")]⟩,
          ⟨0, Dict.ofList [("a", "2"), ("c", "3")]⟩, ⟨0, Dict.ofList [("b", "2")]⟩] =
      ⟨some 0, Dict.ofList [("a", "1"), ("b", "2")]⟩ := by
  decide +kernel

end Executor
end Envelope
