import Envelope.Proofs.Coupling
import Envelope.Proofs.Footprint
import Envelope.Proofs.Service
import Envelope.Registry.Scripted

/-!
# Worlds that look alike

Two worlds look alike (`World.Alike`) if nothing that an observer sees tells
them apart: the calls of the registry but for the characters of wrapped keys,
the log, and the key management systems.  They are twins (`World.Twins`) if
their registries hold the same records as well.  Twins answer alike whatever is
asked of them but random bytes and the registration of a data key
(`World.Quiet`).  If the registration of two versions that differ in their
wrapped keys alone succeeds, then the records may differ, and the worlds still
look alike.
-/

namespace Envelope

open Program Engine

/-! ## What is seen of a call -/

namespace Registry

/-- A text with every character made unreadable. -/
def mask (text : String) : String :=
  String.ofList (List.replicate text.length '*')

theorem mask_encode {bytes bytes' : Bytes} (h : bytes'.length = bytes.length) :
    mask (Base64.encode bytes') = mask (Base64.encode bytes) := by
  have hlength : ∀ b, (Base64.encode b).length = 4 * ((b.length + 2) / 3) := by
    intro b
    rw [Base64.encode, String.length_ofList, List.length_map, Base64.length_encodeBytes]
  rw [mask, mask, hlength, hlength, h]

end Registry

/-- A registration with its wrapped key made unreadable. -/
def DekRequest.masked (request : DekRequest) : DekRequest :=
  { request with encryptedKeyMaterial := request.encryptedKeyMaterial.map Registry.mask }

/-- A call of which an observer sees everything but the wrapped key in it. -/
def Registry.Call.masked : Registry.Call → Registry.Call
  | .registerDek kekName request => .registerDek kekName request.masked
  | call => call

/-! ## Answers of a scripted registry -/

/-- The answer that a reply gives, unless it lets the call through. -/
def Reply.settled {α : Type} : Reply α → Option (Except RegistryError α)
  | passOn => none
  | refuse error => some (.error error)
  | give record => some (.ok record)

namespace Scripted

variable {ρ : Type}

/-- A scripted registry after a call was recorded and a reply to it used up. -/
def after (state : Scripted ρ) (call : Registry.Call) : Scripted ρ :=
  { state with script := (state.script.next call).2, calls := state.calls ++ [call] }

/-- How a call is answered: as the script has settled, or by the registry
behind. -/
def Replied [Registry ρ] (call : Registry.Call) (now : Int64) (state : Scripted ρ) :
    Option call.Answer → call.Answer → Scripted ρ → Prop
  | some settled, answer, state' => answer = settled ∧ state' = state.after call
  | none, answer, state' => ∃ t inner,
      Runs (Registry.answer call now state.inner) t (answer, inner) ∧
        state' = { state.after call with inner := inner }

theorem replied_of_runs [Registry ρ] {call : Registry.Call} {now : Int64} {state : Scripted ρ}
    {t : List (Program.Exchange Draw.signature)} {x : call.Answer × Scripted ρ}
    (h : Runs (Scripted.answer call now state) t x) :
    Replied call now state (state.script.next call).1.settled x.1 x.2 := by
  unfold Scripted.answer at h
  dsimp only at h
  split at h
  · rename_i error hreply
    obtain ⟨-, rfl⟩ := runs_done_iff.mp h
    rw [hreply]
    exact ⟨rfl, rfl⟩
  · rename_i record hreply
    obtain ⟨-, rfl⟩ := runs_done_iff.mp h
    rw [hreply]
    exact ⟨rfl, rfl⟩
  · rename_i hreply
    obtain ⟨t₁, t₂, ⟨answer, inner⟩, hinner, hdone, rfl⟩ := runs_bind_iff.mp h
    obtain ⟨-, rfl⟩ := runs_done_iff.mp hdone
    rw [hreply]
    exact ⟨t₁, inner, hinner, rfl⟩

end Scripted

/-! ## Two registrations of a version -/

/-- Whether a key can be generated is a matter of the algorithm. -/
theorem Cryptor.generateKey_twins {c : Cryptor}
    {t t' : List (Program.Exchange Draw.signature)} {r r' : Except CipherError KeyMaterial}
    (h : ComesTo c.generateKey t r) (h' : ComesTo c.generateKey t' r') :
    (∃ e, r = .error e ∧ r' = .error e) ∨ ∃ key key', r = .ok key ∧ r' = .ok key' := by
  rcases generateKey_comesTo h with ⟨e, halgorithm, -, rfl⟩ | ⟨a, halgorithm, key, -, rfl⟩
  · rcases generateKey_comesTo h' with ⟨e', halgorithm', -, rfl⟩ | ⟨a', halgorithm', _, -, -⟩
    · obtain rfl := Except.error.inj (halgorithm.symm.trans halgorithm')
      exact .inl ⟨e, rfl, rfl⟩
    · rw [halgorithm] at halgorithm'
      cases halgorithm'
  · rcases generateKey_comesTo h' with ⟨e', halgorithm', -, -⟩ | ⟨a', -, key', -, rfl⟩
    · rw [halgorithm] at halgorithm'
      cases halgorithm'
    · exact .inr ⟨_, _, rfl, rfl⟩

namespace DekRequest

variable {request request' : DekRequest}

theorem shown_of_masked (h : request'.masked = request.masked) :
    request'.subject = request.subject ∧ request'.version = request.version ∧
      request'.algorithm = request.algorithm := by
  simp only [masked, mk.injEq] at h
  exact ⟨h.1, h.2.1, h.2.2.1⟩

/-- Registrations that carry no wrapped key show everything. -/
theorem eq_of_masked (h : request'.masked = request.masked)
    (hnone : request.encryptedKeyMaterial = none) : request' = request := by
  obtain ⟨subject, version, algorithm, material⟩ := request
  obtain ⟨subject', version', algorithm', material'⟩ := request'
  simp only [masked, mk.injEq] at h hnone
  obtain ⟨rfl, rfl, rfl, hmaterial⟩ := h
  rw [hnone, Option.map_none, Option.map_eq_none_iff] at hmaterial
  rw [hnone, hmaterial]

end DekRequest

namespace Store

variable {kekName : String} {shared : Bool} {request request' : DekRequest} {now : Int64}
  {s : Store} {t t' : List (Program.Exchange Draw.signature)}

theorem material_twins (hmasked : request'.masked = request.masked)
    {r r' : Except RegistryError (Option String × Option String)}
    (h : ComesTo (material kekName shared request) t r)
    (h' : ComesTo (material kekName shared request') t' r') :
    (∃ e, r = .error e ∧ r' = .error e) ∨
      ∃ wrapped clear wrapped' clear', r = .ok (wrapped, clear) ∧ r' = .ok (wrapped', clear') := by
  cases hmaterial : request.encryptedKeyMaterial with
  | some text =>
    obtain ⟨text', hmaterial'⟩ : ∃ text', request'.encryptedKeyMaterial = some text' := by
      have hmap := congrArg DekRequest.encryptedKeyMaterial hmasked
      simp only [DekRequest.masked, hmaterial, Option.map_some, Option.map_eq_some_iff] at hmap
      obtain ⟨text', hmaterial', -⟩ := hmap
      exact ⟨text', hmaterial'⟩
    unfold material at h h'
    rw [hmaterial] at h
    rw [hmaterial'] at h'
    obtain ⟨-, rfl⟩ := comesTo_pure.mp h
    obtain ⟨-, rfl⟩ := comesTo_pure.mp h'
    exact .inr ⟨_, _, _, _, rfl, rfl⟩
  | none =>
    obtain rfl := DekRequest.eq_of_masked hmasked hmaterial
    unfold material at h h'
    rw [hmaterial] at h h'
    cases shared with
    | false =>
      obtain ⟨-, rfl⟩ := comesTo_throw.mp h
      obtain ⟨-, rfl⟩ := comesTo_throw.mp h'
      exact .inl ⟨_, rfl, rfl⟩
    | true =>
      obtain ⟨_, hadapted, rfl⟩ := (comesTo_bind_except fun _ _ _ => comesTo_pure).mp h
      obtain ⟨_, hadapted', rfl⟩ := (comesTo_bind_except fun _ _ _ => comesTo_pure).mp h'
      obtain ⟨_, hkey, rfl⟩ := comesTo_adapt.mp hadapted
      obtain ⟨_, hkey', rfl⟩ := comesTo_adapt.mp hadapted'
      rcases Cryptor.generateKey_twins hkey hkey' with ⟨e, rfl, rfl⟩ |
        ⟨key, key', rfl, rfl⟩
      · exact .inl ⟨_, rfl, rfl⟩
      · exact .inr ⟨_, _, _, _, rfl, rfl⟩

/-- A record that a registration gave was made for it. -/
theorem DekOutcome.recorded {s' : Store} {dek : Dek}
    (h : s.DekOutcome kekName request now (.ok dek) s') :
    ∃ kek, KeyRing.Recorded kek kekName request dek := by
  cases h with
  | added hkek hnew hmaterial => exact ⟨_, _, _, now, hmaterial, rfl⟩

/-- Of two registrations that differ in their wrapped keys alone both are
refused for the same reason, and leave the same behind, or both are recorded. -/
theorem registerDek_twins (hmasked : request'.masked = request.masked)
    {x x' : Except RegistryError Dek × Store}
    (h : Runs (s.registerDek kekName request now) t x)
    (h' : Runs (s.registerDek kekName request' now) t' x') :
    (∃ e s₁, x = (.error e, s₁) ∧ x' = (.error e, s₁)) ∨
      ∃ d d', x.1 = .ok d ∧ x'.1 = .ok d' := by
  obtain ⟨hsubject, hversion, halgorithm⟩ := DekRequest.shown_of_masked hmasked
  unfold registerDek at h h'
  rw [hsubject, hversion, halgorithm] at h'
  dsimp only at h h'
  cases hkek : s.getKek kekName false with
  | error e =>
    rw [hkek] at h h'
    obtain ⟨-, rfl⟩ := runs_done_iff.mp h
    obtain ⟨-, rfl⟩ := runs_done_iff.mp h'
    exact .inl ⟨e, s, rfl, rfl⟩
  | ok kek =>
    rw [hkek] at h h'
    dsimp only at h h'
    split at h
    · rename_i htaken
      rw [if_pos htaken] at h'
      obtain ⟨-, rfl⟩ := runs_done_iff.mp h
      obtain ⟨-, rfl⟩ := runs_done_iff.mp h'
      exact .inl ⟨_, _, rfl, rfl⟩
    · rename_i hfree
      rw [if_neg hfree] at h'
      obtain ⟨u₁, u₂, r, hmaterial, hrest, rfl⟩ := runs_bind_iff.mp h
      obtain ⟨u₁', u₂', r', hmaterial', hrest', rfl⟩ := runs_bind_iff.mp h'
      rcases material_twins hmasked hmaterial hmaterial' with ⟨e, rfl, rfl⟩ |
        ⟨wrapped, clear, wrapped', clear', rfl, rfl⟩
      · obtain ⟨-, rfl⟩ := runs_done_iff.mp hrest
        obtain ⟨-, rfl⟩ := runs_done_iff.mp hrest'
        exact .inl ⟨e, _, rfl, rfl⟩
      · obtain ⟨-, rfl⟩ := runs_done_iff.mp hrest
        obtain ⟨-, rfl⟩ := runs_done_iff.mp hrest'
        exact .inr ⟨_, _, rfl, rfl⟩

end Store

/-- Two records that were given for two registrations: one and the same, or each
made for its own registration. -/
def KeyRing.Counterparts (kekName : String) (request request' : DekRequest) (d d' : Dek) : Prop :=
  d' = d ∨ (∃ kek, Recorded kek kekName request d) ∧ ∃ kek, Recorded kek kekName request' d'

namespace World

variable {σ : Type} {w w' : World (Scripted Store) σ}

theorem replied_call {ρ : Type} [Registry ρ] (w : World (Scripted ρ) σ) (c : Registry.Call) :
    ∃ registry source, ((call c).run w).2 = { w with registry := registry, random := source } ∧
      Scripted.Replied c w.clock w.registry (w.registry.script.next c).1.settled
        ((call c).run w).1 registry := by
  obtain ⟨t, hruns⟩ := exists_runs RandomSource.answer
    (Registry.answer c w.clock w.registry) w.random
  exact ⟨_, _, rfl, Scripted.replied_of_runs hruns⟩

/-! ## Worlds that look alike -/

/-- An observer sees the same in two worlds. -/
structure Alike (w w' : World (Scripted Store) σ) : Prop where
  script : w'.registry.script = w.registry.script
  calls : w'.registry.calls.map Registry.Call.masked = w.registry.calls.map Registry.Call.masked
  directory : w'.directory = w.directory
  systems : w'.systems = w.systems
  clock : w'.clock = w.clock
  engineClock : w'.engineClock = w.engineClock
  log : w'.log = w.log

/-- Two worlds that look alike also hold the same records, and their handles are
discreet. -/
structure Twins (w w' : World (Scripted Store) σ) : Prop extends Alike w w' where
  records : w'.registry.inner = w.registry.inner
  discreet : w.directory.Offers Kms.Handle.Discreet

theorem Alike.now_eq (h : Alike w w') : w'.now = w.now := by
  rw [now, now, h.clock, h.engineClock]

theorem Alike.draws (h : Alike w w') (source source' : RandomSource) :
    Alike { w with random := source } { w' with random := source' } :=
  ⟨h.script, h.calls, h.directory, h.systems, h.clock, h.engineClock, h.log⟩

theorem Alike.record (h : Alike w w') (event : Event) :
    Alike ((record event).run w).2 ((record event).run w').2 :=
  ⟨h.script, h.calls, h.directory, h.systems, h.clock, h.engineClock,
    congrArg (fun log => log ++ [event]) h.log⟩

theorem Alike.keyHandle (h : Alike w w') (config : Properties) (url : String) :
    Same Alike ((keyHandle config url).run w).1 ((keyHandle config url).run w').1
      ((keyHandle config url).run w).2 ((keyHandle config url).run w').2 := by
  have hattempt : w'.directory.handle config url w'.systems =
      w.directory.handle config url w.systems := by
    rw [h.directory, h.systems]
  refine ⟨congrArg Kms.Attempt.outcome hattempt, h.script, h.calls,
    congrArg Kms.Attempt.directory hattempt, congrArg Kms.Attempt.systems hattempt, h.clock,
    h.engineClock, ?_⟩
  show w'.log ++ (w'.directory.handle config url w'.systems).events =
    w.log ++ (w.directory.handle config url w.systems).events
  rw [h.log, hattempt]

/-- A request that worlds answer alike as soon as they look alike. -/
def Public : Effect → Prop
  | .clock => True
  | .keyHandle _ _ => True
  | .log _ => True
  | _ => False

theorem Alike.answer (h : Alike w w') {r : Effect} (hr : Public r) :
    Same Alike ((answer r).run w).1 ((answer r).run w').1 ((answer r).run w).2
      ((answer r).run w').2 := by
  cases r with
  | registry c => exact hr.elim
  | clock => exact ⟨h.now_eq, h⟩
  | random n => exact hr.elim
  | keyHandle config url => exact h.keyHandle config url
  | log event => exact ⟨rfl, h.record event⟩

/-! ## Twins -/

/-- A request that twins answer alike. -/
def Quiet : Effect → Prop
  | .registry (.registerDek _ _) => False
  | .random _ => False
  | _ => True

/-- Calls of which an observer sees the same leave worlds alike, whatever becomes
of the records. -/
theorem Alike.after (h : Alike w w') {c c' : Registry.Call} (hc : c'.masked = c.masked)
    (hscript : (w'.registry.script.next c').2 = (w.registry.script.next c).2)
    (inner inner' : Store) (source source' : RandomSource) :
    Alike { w with registry := { w.registry.after c with inner := inner }, random := source }
      { w' with registry := { w'.registry.after c' with inner := inner' }, random := source' } := by
  refine ⟨hscript, ?_, h.directory, h.systems, h.clock, h.engineClock, h.log⟩
  show (w'.registry.calls ++ [c']).map Registry.Call.masked =
    (w.registry.calls ++ [c]).map Registry.Call.masked
  rw [List.map_append, List.map_append, h.calls, List.map_singleton, List.map_singleton, hc]

theorem Twins.after (h : Twins w w') {c c' : Registry.Call} (hc : c'.masked = c.masked)
    (hscript : (w'.registry.script.next c').2 = (w.registry.script.next c).2)
    {inner inner' : Store} (hinner : inner' = inner) (source source' : RandomSource) :
    Twins { w with registry := { w.registry.after c with inner := inner }, random := source }
      { w' with registry := { w'.registry.after c' with inner := inner' }, random := source' } :=
  ⟨h.toAlike.after hc hscript inner inner' source source', hinner, h.discreet⟩

theorem Twins.record (h : Twins w w') (event : Event) :
    Twins ((record event).run w).2 ((record event).run w').2 :=
  ⟨h.toAlike.record event, h.records, h.discreet⟩

theorem Twins.draws (h : Twins w w') (source source' : RandomSource) :
    Twins { w with random := source } { w' with random := source' } :=
  ⟨h.toAlike.draws source source', h.records, h.discreet⟩

/-- Twins answer a call alike for which the registry behind draws nothing. -/
theorem Twins.call (h : Twins w w') {c : Registry.Call}
    (hdrawless : ∀ now s, ∃ x, Registry.answer c now s = (pure x : Draw (c.Answer × Store))) :
    Same Twins ((call c).run w).1 ((call c).run w').1 ((call c).run w).2 ((call c).run w').2 := by
  obtain ⟨registry, source, hworld, hreplied⟩ := replied_call w c
  obtain ⟨registry', source', hworld', hreplied'⟩ := replied_call w' c
  have hnext : w'.registry.script.next c = w.registry.script.next c := by rw [h.script]
  have hscript : (w'.registry.script.next c).2 = (w.registry.script.next c).2 :=
    congrArg Prod.snd hnext
  rw [hnext] at hreplied'
  rw [hworld, hworld']
  cases hsettled : (w.registry.script.next c).1.settled with
  | some answer =>
    rw [hsettled] at hreplied hreplied'
    obtain ⟨hanswer, rfl⟩ := hreplied
    obtain ⟨hanswer', rfl⟩ := hreplied'
    exact ⟨hanswer'.trans hanswer.symm, h.after rfl hscript h.records source source'⟩
  | none =>
    rw [hsettled] at hreplied hreplied'
    obtain ⟨t, inner, hinner, rfl⟩ := hreplied
    obtain ⟨t', inner', hinner', rfl⟩ := hreplied'
    obtain ⟨x, hx⟩ := hdrawless w.clock w.registry.inner
    rw [h.clock, h.records, hx] at hinner'
    rw [hx] at hinner
    obtain ⟨-, hsame⟩ := runs_done_iff.mp hinner
    obtain ⟨-, hsame'⟩ := runs_done_iff.mp hinner'
    obtain ⟨hanswer, hrecords⟩ := Prod.mk.inj (hsame'.trans hsame.symm)
    exact ⟨hanswer, h.after rfl hscript hrecords source source'⟩

theorem Twins.answer (h : Twins w w') {r : Effect} (hr : Quiet r) :
    Same Twins ((answer r).run w).1 ((answer r).run w').1 ((answer r).run w).2
      ((answer r).run w').2 := by
  cases r with
  | registry c =>
    cases c with
    | getKek name deleted => exact h.call fun now s => ⟨_, rfl⟩
    | registerKek request => exact h.call fun now s => ⟨_, rfl⟩
    | getDek id deleted => exact h.call fun now s => ⟨_, rfl⟩
    | registerDek kekName request => exact hr.elim
  | clock => exact ⟨h.now_eq, h⟩
  | random n => exact hr.elim
  | keyHandle config url =>
    obtain ⟨hsame, halike⟩ := h.toAlike.keyHandle config url
    exact ⟨hsame, halike, h.records, h.discreet.handle⟩
  | log event => exact ⟨rfl, h.record event⟩

/-- Two registrations of a version that differ in the wrapped key alone fail
alike, and then the worlds are still twins, or both succeed, and then the worlds
look alike. -/
theorem Twins.registerDek (h : Twins w w') {kekName : String} {request request' : DekRequest}
    (hmasked : request'.masked = request.masked) :
    Outcomes Twins
      (fun d d' u u' => KeyRing.Counterparts kekName request request' d d' ∧ Alike u u')
      ((World.call (.registerDek kekName request)).run w).1
      ((World.call (.registerDek kekName request')).run w').1
      ((World.call (.registerDek kekName request)).run w).2
      ((World.call (.registerDek kekName request')).run w').2 := by
  obtain ⟨registry, source, hworld, hreplied⟩ := replied_call w (.registerDek kekName request)
  obtain ⟨registry', source', hworld', hreplied'⟩ := replied_call w' (.registerDek kekName request')
  have hcall : (Registry.Call.registerDek kekName request').masked =
      (Registry.Call.registerDek kekName request).masked :=
    congrArg (Registry.Call.registerDek kekName) hmasked
  have hnext : w'.registry.script.next (.registerDek kekName request') =
      w.registry.script.next (.registerDek kekName request) := by
    rw [h.script]
    rfl
  have hscript : (w'.registry.script.next (.registerDek kekName request')).2 =
      (w.registry.script.next (.registerDek kekName request)).2 :=
    congrArg Prod.snd hnext
  rw [hnext] at hreplied'
  rw [hworld, hworld']
  generalize ((World.call (.registerDek kekName request)).run w).1 = answer at hreplied ⊢
  generalize ((World.call (.registerDek kekName request')).run w').1 = answer' at hreplied' ⊢
  cases hsettled : (w.registry.script.next (.registerDek kekName request)).1.settled with
  | some settled =>
    rw [hsettled] at hreplied hreplied'
    obtain ⟨hanswer, rfl⟩ := hreplied
    obtain ⟨hanswer', rfl⟩ := hreplied'
    rw [hanswer, hanswer']
    have htwins := h.after hcall hscript h.records source source'
    cases settled with
    | error e => exact .failed e htwins
    | ok d => exact .done ⟨.inl rfl, htwins.toAlike⟩
  | none =>
    rw [hsettled] at hreplied hreplied'
    obtain ⟨t, inner, hinner, rfl⟩ := hreplied
    obtain ⟨t', inner', hinner', rfl⟩ := hreplied'
    rw [h.clock, h.records] at hinner'
    rcases Store.registerDek_twins hmasked hinner hinner' with ⟨e, s₁, hfailed, hfailed'⟩ |
      ⟨d, d', hok, hok'⟩
    · obtain ⟨rfl, rfl⟩ := Prod.mk.inj hfailed
      obtain ⟨rfl, rfl⟩ := Prod.mk.inj hfailed'
      exact .failed e (h.after hcall hscript rfl source source')
    · obtain rfl : answer = .ok d := hok
      obtain rfl : answer' = .ok d' := hok'
      exact .done ⟨.inr ⟨(Store.registerDek_runs hinner).recorded,
        (Store.registerDek_runs hinner').recorded⟩,
        h.toAlike.after hcall hscript inner inner' source source'⟩

/-! ## Drawings -/

/-- A program that only draws leaves a world with other random bytes. -/
theorem eq_of_draws {t : Trace}
    (h : Program.Serial (fun r : Effect => World.answer r) w t w')
    (hdraws : ∀ y ∈ t, ∃ n, y.1 = .random n) : ∃ source, w' = { w with random := source } := by
  induction h with
  | nil w => exact ⟨w.random, rfl⟩
  | @cons w w' r t rest ih =>
    obtain ⟨n, hr⟩ := hdraws _ List.mem_cons_self
    obtain ⟨source, hrest⟩ := ih fun y hy => hdraws y (List.mem_cons_of_mem _ hy)
    dsimp only at hr
    subst hr
    exact ⟨source, hrest⟩

end World
end Envelope
