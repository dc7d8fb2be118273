import Envelope.Proofs.Canonical
import Envelope.Proofs.Twins

/-!
# Text and binary values

A text is transformed as the binary value of its bytes is.  Between the form in
which a value comes in and the form in which it goes out again, a transform does
the same for both (`Transform.encrypt_eq`, `Transform.decrypt_eq`): it encrypts
bytes to bytes (`Transform.encipher`) or decrypts bytes to bytes
(`Transform.decipher`).  Base64 and UTF-8 stand at the ends, ask for nothing, and
so change the result only.
-/

namespace Envelope

open Program Engine

namespace Action

variable {α β : Type}

/-- A last step that asks for nothing only changes the result. -/
theorem run_bind_except (p : Action α) (g : α → Except Error β) :
    (p >>= fun a => (liftM (g a) : Action β)).run = (fun r => r >>= g) <$> p.run := by
  rw [ExceptT.run_bind, map_eq_pure_bind]
  apply bind_congr
  intro r
  cases r with
  | error error => rfl
  | ok a => rfl

theorem liftM_ok (a : α) : (liftM (.ok a : Except Error α) : Action α) = pure a :=
  rfl

theorem liftM_map (f : α → β) (x : Except Error α) :
    (liftM (f <$> x) : Action β) = liftM x >>= fun a => pure (f a) := by
  cases x with
  | error error => rfl
  | ok a => rfl

end Action

theorem World.run_bind_except {ρ σ α β : Type} [Registry ρ] (p : Action α)
    (g : α → Except Error β) (w : World ρ σ) :
    (World.run (p >>= fun a => (liftM (g a) : Action β)).run).run w =
      (((World.run p.run).run w).1 >>= g, ((World.run p.run).run w).2) := by
  have hmap : (World.run (p >>= fun a => (liftM (g a) : Action β)).run : StateM (World ρ σ) _) =
      (fun r => r >>= g) <$> World.run p.run := by
    rw [Action.run_bind_except]
    exact interpret_map _ _ _
  rw [hmap]
  rfl

namespace Transform

/-! ## The two ends -/

/-- The value that carries a ciphertext. -/
def packed (type : FieldType) (carried : Bytes) : FieldValue :=
  if type = .string then .string (Base64.encode carried) else .bytes carried

/-- The ciphertext that a value carries, from the bytes of the value. -/
def unpacked (type : FieldType) (bytes : Bytes) : Except Error Bytes :=
  if type = .string then (Base64.decode bytes).mapError Error.base64 else .ok bytes

/-- The value that has the decrypted bytes. -/
def legible (type : FieldType) (plain : Bytes) : Except Error FieldValue :=
  if type = .string then .string <$> (Utf8.decode plain).mapError Error.invalidUtf8
  else .ok (.bytes plain)

/-- A writer of text comes up with the base64 text of what a writer of bytes comes
up with. -/
theorem packed_eq_ok_iff {result : Except Error Bytes} {text : String} :
    (result >>= fun carried => .ok (some (packed .string carried))) = .ok (some (.string text)) ↔
      ∃ b, (result >>= fun carried => .ok (some (packed .bytes carried))) =
        .ok (some (.bytes b)) ∧ text = Base64.encode b := by
  cases result with
  | error error => exact ⟨nofun, nofun⟩
  | ok carried =>
    constructor
    · rintro ⟨⟩
      exact ⟨carried, rfl, rfl⟩
    · rintro ⟨b, ⟨⟩, rfl⟩
      rfl

/-- A text carries a ciphertext if and only if it is the base64 text of it. -/
theorem unpacked_string_eq_ok_iff {text : String} {carried : Bytes} :
    unpacked .string (Utf8.encode text) = .ok carried ↔ text = Base64.encode carried := by
  rw [unpacked, if_pos rfl, mapError_eq_ok_iff, Base64.decode_text_eq_ok_iff]

theorem unpacked_string_of_not_canonical {text : String}
    (h : ∀ carried, text ≠ Base64.encode carried) :
    ∃ malformed, Base64.decode (Utf8.encode text) = .error malformed ∧
      unpacked .string (Utf8.encode text) = .error (.base64 malformed) := by
  unfold unpacked
  cases hdecode : Base64.decode (Utf8.encode text) with
  | error malformed => exact ⟨malformed, rfl, rfl⟩
  | ok carried => exact absurd (Base64.decode_text_eq_ok_iff.mp hdecode) (h carried)

/-- A reader of text comes up with a text if and only if a reader of bytes comes
up with the bytes of this text. -/
theorem legible_eq_ok_iff {result : Except Error Bytes} {text : String} :
    (result >>= fun plain => some <$> legible .string plain) = .ok (some (.string text)) ↔
      (result >>= fun plain => some <$> legible .bytes plain) =
        .ok (some (.bytes (Utf8.encode text))) := by
  cases result with
  | error error => exact ⟨nofun, nofun⟩
  | ok plain =>
    have hbytes : (some <$> legible .bytes plain) = .ok (some (.bytes plain)) := rfl
    show (some <$> legible .string plain) = _ ↔ (some <$> legible .bytes plain) = _
    rw [hbytes]
    simp only [Except.ok.injEq, Option.some.injEq, FieldValue.bytes.injEq]
    rw [← Utf8.decode_eq_ok_iff]
    unfold legible
    rw [if_pos rfl]
    cases Utf8.decode plain with
    | error malformed => exact ⟨nofun, nofun⟩
    | ok text' =>
      constructor
      · rintro ⟨⟩
        rfl
      · rintro ⟨⟩
        rfl

theorem legible_string_of_malformed {plain : Bytes} (h : ∀ text, plain ≠ Utf8.encode text) :
    ∃ malformed, Utf8.decode plain = .error malformed ∧
      legible .string plain = .error (.invalidUtf8 malformed) := by
  unfold legible
  cases hdecode : Utf8.decode plain with
  | error malformed => exact ⟨malformed, rfl, rfl⟩
  | ok text => exact absurd (Utf8.decode_eq_ok_iff.mp hdecode) (h text)

/-! ## Between the ends -/

/-- Encrypts bytes to the bytes that a value carries. -/
def encipher (t : Transform) (subject : String) (plain : Bytes) : Action Bytes := do
  let version := if t.ring.rotates then some Dek.latestVersion else none
  let dek ← (t.ring.dek t.kek subject version .write).adapt Error.key
  let key ← (dek.key).mapError Error.key
  let sealed ←
    (ExceptT.mk (Engine.draw (t.ring.cryptor.encrypt key.bytes plain []).run)).adapt Error.cipher
  let carried := if t.ring.rotates then Frame.encode ⟨dek.version, sealed⟩ else sealed
  Engine.log (.fieldEncrypted t.kek.name subject dek.version)
  return carried

/-- Decrypts the bytes that a value carries. -/
def decipher (t : Transform) (subject : String) (carried : Bytes) : Action Bytes := do
  let (version, sealed) ←
    if t.ring.rotates then do
      let frame ← (Frame.decode carried).mapError Error.framing
      pure (some frame.version, frame.body)
    else
      pure (none, carried)
  let dek ← (t.ring.dek t.kek subject version .read).adapt Error.key
  let key ← (dek.key).mapError Error.key
  (t.ring.cryptor.decrypt key.bytes sealed []).mapError Error.cipher

theorem encrypt_eq (t : Transform) (subject : String) (type : FieldType) (plain : Bytes) :
    t.encrypt subject type plain = packed type <$> t.encipher subject plain := by
  unfold encrypt encipher packed
  simp only [map_bind, map_pure]

theorem decrypt_eq (t : Transform) (subject : String) (type : FieldType) (bytes : Bytes) :
    t.decrypt subject type bytes =
      (liftM (unpacked type bytes) : Action Bytes) >>= fun carried =>
        t.decipher subject carried >>= fun plain =>
          (liftM (legible type plain) : Action FieldValue) := by
  unfold decrypt decipher unpacked legible
  by_cases htype : type = .string
  · by_cases hrotates : t.ring.rotates = true
    · simp only [if_pos htype, if_pos hrotates, Action.liftM_map, bind_assoc, pure_bind]
    · simp only [if_pos htype, if_neg hrotates, Action.liftM_map, bind_assoc, pure_bind]
  · by_cases hrotates : t.ring.rotates = true
    · simp only [if_neg htype, if_pos hrotates, Action.liftM_ok, bind_assoc, pure_bind]
    · simp only [if_neg htype, if_neg hrotates, Action.liftM_ok, bind_assoc, pure_bind]

end Transform

/-! ## The calls of a run -/

/-- However a call is answered, it is recorded. -/
theorem Scripted.Replied.calls {ρ : Type} [Registry ρ] {call : Registry.Call} {now : Int64}
    {state state' : Scripted ρ} {settled : Option call.Answer} {answer : call.Answer}
    (h : Replied call now state settled answer state') : state'.calls = state.calls ++ [call] := by
  cases settled with
  | some settled =>
    obtain ⟨-, rfl⟩ := h
    rfl
  | none =>
    obtain ⟨t, inner, -, rfl⟩ := h
    rfl

namespace World

variable {ρ σ : Type} [Registry ρ]

/-- A scripted registry records every call that it is asked. -/
theorem calls_of_serial {w w' : World (Scripted ρ) σ} {t : Trace}
    (h : Program.Serial (fun r : Effect => World.answer r) w t w') :
    w'.registry.calls = w.registry.calls ++ (registryCalls t).map Sigma.fst := by
  induction h with
  | nil w => exact (List.append_nil _).symm
  | @cons w w' r t rest ih =>
    rw [ih]
    cases r with
    | registry c =>
      obtain ⟨registry, source, hworld, hreplied⟩ := replied_call w c
      have hcalls : ((call c).run w).2.registry.calls = w.registry.calls ++ [c] := by
        rw [hworld]
        exact hreplied.calls
      show ((call c).run w).2.registry.calls ++ _ = _
      rw [hcalls, List.append_assoc]
      rfl
    | clock => rfl
    | random n => rfl
    | keyHandle config url => rfl
    | log event => rfl

end World

/-- A reader looks for its key-encryption key with one call. -/
theorem KeyRing.KekSearch.reads {ring : KeyRing} {kmsType kmsKeyId : Option String} {t : Trace}
    {r : Except KeyError Kek} (h : ring.KekSearch .read kmsType kmsKeyId t r) :
    (registryCalls t).map Sigma.fst = [.getKek ring.kekName true] := by
  cases h with
  | failed e fatal => rfl
  | found kek => rfl
  | unread e absent reads => rfl
  | untyped e absent writes htype => exact absurd rfl writes
  | unnamed e absent writes type htype hid => exact absurd rfl writes
  | created e absent writes type id htype hid rest => exact absurd rfl writes

namespace Executor

open Transform

variable {κ ρ σ : Type} [Registry ρ] {e : Executor κ} {context : Context} {type : FieldType}
  {value : FieldValue} {plain bytes carried : Bytes}

/-- Encrypts bytes by a rule, to the bytes that a value carries. -/
def encipher (e : Executor κ) (context : Context) (plain : Bytes) : Action Bytes :=
  e.newTransform context >>= fun t => t.encipher context.subject plain

/-- Decrypts by a rule the bytes that a value carries. -/
def decipher (e : Executor κ) (context : Context) (carried : Bytes) : Action Bytes :=
  e.newTransform context >>= fun t => t.decipher context.subject carried

theorem transformField_of_write (writes : context.mode = .write)
    (hplain : bytesOf type value = some plain) :
    e.transformField context type (some value) =
      e.encipher context plain >>= fun carried =>
        (liftM (.ok (some (packed type carried)) : Except Error (Option FieldValue)) :
          Action (Option FieldValue)) := by
  unfold transformField encipher
  rw [bind_assoc]
  apply bind_congr
  intro t
  unfold apply
  dsimp only
  rw [writes]
  dsimp only
  rw [hplain]
  dsimp only
  rw [encrypt_eq, map_eq_pure_bind, map_eq_pure_bind, bind_assoc]
  rfl

theorem transformField_of_read (reads : context.mode = .read)
    (hbytes : bytesOf type value = some bytes) :
    e.transformField context type (some value) =
      e.newTransform context >>= fun t =>
        (liftM (unpacked type bytes) : Action Bytes) >>= fun carried =>
          t.decipher context.subject carried >>= fun plain =>
            (liftM (some <$> legible type plain) : Action (Option FieldValue)) := by
  unfold transformField
  apply bind_congr
  intro t
  unfold apply
  dsimp only
  rw [reads]
  dsimp only
  rw [hbytes]
  dsimp only
  rw [decrypt_eq, map_eq_pure_bind]
  simp only [bind_assoc, Action.liftM_map]

/-- A reader decrypts the ciphertext that a value carries. -/
theorem transformField_of_unpacked (reads : context.mode = .read)
    (hbytes : bytesOf type value = some bytes) (hcarried : unpacked type bytes = .ok carried) :
    e.transformField context type (some value) =
      e.decipher context carried >>= fun plain =>
        (liftM (some <$> legible type plain) : Action (Option FieldValue)) := by
  rw [transformField_of_read reads hbytes, hcarried, decipher, bind_assoc]
  rfl

/-- A reader of a value that carries no ciphertext is refused as soon as it has
the key-encryption key. -/
theorem transformField_of_not_unpacked {error : Error} (reads : context.mode = .read)
    (hbytes : bytesOf type value = some bytes) (herror : unpacked type bytes = .error error) :
    e.transformField context type (some value) =
      e.newTransform context >>= fun _ =>
        (liftM (.error error : Except Error (Option FieldValue)) :
          Action (Option FieldValue)) := by
  rw [transformField_of_read reads hbytes, herror]
  rfl

/-! ## Values in a world -/

/-- What an executor makes of a value in a world, and the world afterwards. -/
def transformed (e : Executor κ) (context : Context) (type : FieldType) (value : FieldValue)
    (w : World ρ σ) : Except Error (Option FieldValue) × World ρ σ :=
  (World.run (e.transformField context type (some value)).run).run w

/-- The transform that an executor makes in a world, its key-encryption key
resolved, and the world afterwards. -/
def resolved (e : Executor κ) (context : Context) (w : World ρ σ) :
    Except Error Transform × World ρ σ :=
  (World.run (e.newTransform context).run).run w

theorem calls_of_resolved (e : Executor κ) {context : Context} (reads : context.mode = .read)
    (w : World (Scripted ρ) σ) :
    ∃ calls, (e.resolved context w).2.registry.calls = w.registry.calls ++ calls ∧
      ∀ c ∈ calls, ∃ name, c = .getKek name true := by
  obtain ⟨t, hruns, hserial⟩ := exists_serial (fun r : Effect => World.answer r)
    (e.newTransform context).run w
  refine ⟨(registryCalls t).map Sigma.fst, World.calls_of_serial hserial, ?_⟩
  rcases newTransform_comesTo hruns with ⟨error, -, rfl, -⟩ | ⟨ring, -, r, hsearch, -⟩
  · nofun
  · rw [reads] at hsearch
    rw [hsearch.reads]
    intro c hc
    exact ⟨ring.kekName, List.mem_singleton.mp hc⟩

theorem transformed_of_write (writes : context.mode = .write)
    (hplain : bytesOf type value = some plain) (w : World ρ σ) :
    e.transformed context type value w =
      (((World.run (e.encipher context plain).run).run w).1 >>= fun carried =>
          .ok (some (packed type carried)),
        ((World.run (e.encipher context plain).run).run w).2) := by
  unfold transformed
  rw [transformField_of_write writes hplain]
  exact World.run_bind_except _ _ w

theorem transformed_of_unpacked (reads : context.mode = .read)
    (hbytes : bytesOf type value = some bytes) (hcarried : unpacked type bytes = .ok carried)
    (w : World ρ σ) :
    e.transformed context type value w =
      (((World.run (e.decipher context carried).run).run w).1 >>= fun plain =>
        some <$> legible type plain, ((World.run (e.decipher context carried).run).run w).2) := by
  unfold transformed
  rw [transformField_of_unpacked reads hbytes hcarried]
  exact World.run_bind_except _ _ w

theorem transformed_of_not_unpacked {error : Error} (reads : context.mode = .read)
    (hbytes : bytesOf type value = some bytes) (herror : unpacked type bytes = .error error)
    (w : World ρ σ) :
    e.transformed context type value w =
      ((e.resolved context w).1 >>= fun _ => .error error, (e.resolved context w).2) := by
  unfold transformed
  rw [transformField_of_not_unpacked reads hbytes herror]
  exact World.run_bind_except _ _ w

/-- A text that carries no bytes is refused with the key-encryption key at hand,
or before. -/
theorem transformed_of_not_canonical (reads : context.mode = .read) {text : String}
    (hother : ∀ b, text ≠ Base64.encode b) (w : World ρ σ) :
    ∃ malformed, Base64.decode (Utf8.encode text) = .error malformed ∧
      e.transformed context .string (.string text) w =
        ((e.resolved context w).1 >>= fun _ => .error (.base64 malformed),
          (e.resolved context w).2) := by
  obtain ⟨malformed, hdecode, herror⟩ := unpacked_string_of_not_canonical hother
  exact ⟨malformed, hdecode, transformed_of_not_unpacked reads rfl herror w⟩

/-- A text that is read carries bytes. -/
theorem canonical_of_transformed (reads : context.mode = .read) {text : String} {w : World ρ σ}
    {out : Option FieldValue} (h : (e.transformed context .string (.string text) w).1 = .ok out) :
    ∃ b, text = Base64.encode b := by
  by_contra hother
  obtain ⟨malformed, -, hrefused⟩ :=
    transformed_of_not_canonical reads (not_exists.mp hother) w
  rw [hrefused] at h
  cases hresolved : (e.resolved context w).1 with
  | error error =>
    rw [hresolved] at h
    cases h
  | ok x =>
    rw [hresolved] at h
    cases h

/-- Text and binary values agree.  A text is written as the bytes of the text
are, and carries in base64 what they carry.  A text is read as the bytes are
that it carries in base64, and comes out as the text of the bytes that they come
out as.  What is asked and logged, and how it fails, is the same for both.  A
text that carries no bytes is refused as soon as the key-encryption key is
resolved, and bytes that are those of no text are refused in the end.  The
registry may be any one; the script in front of it records the calls. -/
theorem text_as_binary (e : Executor κ) (context : Context) (w : World (Scripted ρ) σ) :
    (context.mode = .write → ∀ s : String,
      let text := e.transformed context .string (.string s) w
      let binary := e.transformed context .bytes (.bytes (Utf8.encode s)) w
      text.2 = binary.2 ∧
      (∀ t, text.1 = .ok (some (.string t)) ↔
        ∃ b, binary.1 = .ok (some (.bytes b)) ∧ t = Base64.encode b) ∧
      ((∀ t, text.1 ≠ .ok (some (.string t))) →
        ∃ error, text.1 = .error error ∧ binary.1 = .error error)) ∧
    (context.mode = .read → ∀ t : String,
      let text := e.transformed context .string (.string t) w
      (∀ u, text.1 = .ok (some (.string u)) ↔
        ∃ b, t = Base64.encode b ∧
          (e.transformed context .bytes (.bytes b) w).1 =
            .ok (some (.bytes (Utf8.encode u)))) ∧
      (∀ b, t = Base64.encode b →
        let binary := e.transformed context .bytes (.bytes b) w
        text.2 = binary.2 ∧
        (∀ error, binary.1 = .error error → text.1 = .error error) ∧
        ((∀ plain, binary.1 ≠ .ok (some (.bytes plain))) → ∃ error, binary.1 = .error error) ∧
        ∀ plain, binary.1 = .ok (some (.bytes plain)) → (∀ u, plain ≠ Utf8.encode u) →
          ∃ malformed, Utf8.decode plain = .error malformed ∧
            text.1 = .error (.invalidUtf8 malformed)) ∧
      ((∀ b, t ≠ Base64.encode b) →
        let resolved := e.resolved context w
        text.2 = resolved.2 ∧
        (∀ error, resolved.1 = .error error → text.1 = .error error) ∧
        (∀ x, resolved.1 = .ok x →
          ∃ malformed, Base64.decode (Utf8.encode t) = .error malformed ∧
            text.1 = .error (.base64 malformed)) ∧
        ∃ calls, text.2.registry.calls = w.registry.calls ++ calls ∧
          ∀ c ∈ calls, ∃ name, c = .getKek name true)) := by
  constructor
  · intro writes s text binary
    have htext : text = _ := transformed_of_write writes rfl w
    have hbinary : binary = _ := transformed_of_write writes rfl w
    rw [htext, hbinary]
    refine ⟨rfl, fun t => packed_eq_ok_iff, ?_⟩
    intro hfailed
    cases hresult : ((World.run (e.encipher context (Utf8.encode s)).run).run w).1 with
    | error error => exact ⟨error, rfl, rfl⟩
    | ok carried =>
      rw [hresult] at hfailed
      exact absurd rfl (hfailed (Base64.encode carried))
  · intro reads t text
    have hbinary (b : Bytes) : e.transformed context .bytes (.bytes b) w = _ :=
      transformed_of_unpacked reads rfl rfl w
    have htext {b : Bytes} (hb : t = Base64.encode b) : text = _ :=
      transformed_of_unpacked reads rfl (unpacked_string_eq_ok_iff.mpr hb) w
    refine ⟨?_, ?_, ?_⟩
    · intro u
      constructor
      · intro h
        obtain ⟨b, hb⟩ := canonical_of_transformed reads h
        rw [htext hb] at h
        refine ⟨b, hb, ?_⟩
        rw [hbinary]
        exact legible_eq_ok_iff.mp h
      · rintro ⟨b, hb, h⟩
        rw [hbinary] at h
        rw [htext hb]
        exact legible_eq_ok_iff.mpr h
    · intro b hb binary
      have hbinary' : binary = _ := hbinary b
      rw [htext hb, hbinary']
      generalize (World.run (e.decipher context b).run).run w = outcome
      obtain ⟨result, w'⟩ := outcome
      cases result with
      | error error => exact ⟨rfl, fun _ h => h, fun _ => ⟨error, rfl⟩, nofun⟩
      | ok plain =>
        refine ⟨rfl, nofun, fun hother => absurd rfl (hother plain), ?_⟩
        rintro plain' ⟨⟩ hother
        obtain ⟨malformed, hdecode, hrefused⟩ := legible_string_of_malformed hother
        refine ⟨malformed, hdecode, ?_⟩
        show (some <$> legible .string plain) = _
        rw [hrefused]
        rfl
    · intro hother resolved
      obtain ⟨malformed, hdecode, hrefused⟩ := transformed_of_not_canonical reads hother w
      have htext : text = _ := hrefused
      rw [htext]
      refine ⟨rfl, ?_, ?_, calls_of_resolved e reads w⟩
      · intro error hresolved
        show resolved.1 >>= _ = _
        rw [hresolved]
        rfl
      · intro x hresolved
        refine ⟨malformed, hdecode, ?_⟩
        show resolved.1 >>= _ = _
        rw [hresolved]
        rfl

/-- A text that is written, and after it a text without meaning that is read. -/
theorem text_as_binary_written :
    ∃ (e : Executor Unit) (writing reading : Context) (w w' : World (Scripted Store) Unit)
      (b : Bytes) (malformed : Base64.DecodeError),
      writing.mode = .write ∧ reading.mode = .read ∧
      e.transformed writing .string (.string "hi") w =
        (.ok (some (.string (Base64.encode b))), w') ∧
      e.transformed writing .bytes (.bytes (Utf8.encode "hi")) w = (.ok (some (.bytes b)), w') ∧
      (e.transformed reading .string (.string "!") w').1 = .error (.base64 malformed) := by
  let driver : Kms.Driver Unit := Kms.Plain.driver "local-kms://"
  let w : World (Scripted Store) Unit :=
    ⟨.ofRegistry ∅, ⟨[driver], ∅⟩, (), 0, none, ⟨fun _ => 0, 0⟩, []⟩
  let params : Properties :=
    Dict.ofList [(Parameter.kekName, "k"), (Parameter.dekAlgorithm, "AES256_SIV"),
      (Parameter.kmsType, "local-kms"), (Parameter.kmsKeyId, "m")]
  let e : Executor Unit := ⟨some (), ∅⟩
  let writing : Context := ⟨"s", .write, params, ∅⟩
  let reading : Context := ⟨"s", .read, params, ∅⟩
  have hisOk : (e.transformed writing .string (.string "hi") w).1.isOk = true := by
    decide +kernel
  have hresolved :
      (e.resolved reading (e.transformed writing .string (.string "hi") w).2).1.isOk = true := by
    decide +kernel
  have hother : ∀ b, "!" ≠ Base64.encode b := by
    intro b hb
    have hdecode := Base64.decode_text_eq_ok_iff.mpr hb
    have herror : (Base64.decode (Utf8.encode "!")).isOk = false := by decide +kernel
    rw [hdecode] at herror
    cases herror
  obtain ⟨hwritten, -⟩ := text_as_binary e writing w
  obtain ⟨hworld, hok, hfailed⟩ := hwritten rfl "hi"
  generalize hwrite : e.transformed writing .string (.string "hi") w = text at *
  generalize hwrite' : e.transformed writing .bytes (.bytes (Utf8.encode "hi")) w = binary at *
  obtain ⟨result, w'⟩ := text
  obtain ⟨result', _⟩ := binary
  obtain rfl : w' = _ := hworld
  have hcarried : ∃ t, result = .ok (some (.string t)) := by
    by_contra hnone
    obtain ⟨error, rfl, -⟩ := hfailed (not_exists.mp hnone)
    cases hisOk
  obtain ⟨t, rfl⟩ := hcarried
  obtain ⟨b, hbinary, rfl⟩ := (hok t).mp rfl
  obtain rfl : result' = .ok (some (.bytes b)) := hbinary
  obtain ⟨-, hread⟩ := text_as_binary e reading w'
  obtain ⟨-, -, hrefused⟩ := hread rfl "!"
  obtain ⟨-, -, hmalformed, -⟩ := hrefused hother
  obtain ⟨x, hx⟩ := exists_ok_of_isOk hresolved
  obtain ⟨malformed, -, herror⟩ := hmalformed x hx
  exact ⟨e, writing, reading, w, w', b, malformed, rfl, rfl, hwrite, hwrite', herror⟩

end Executor
end Envelope
