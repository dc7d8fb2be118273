import Envelope.Proofs.Backing
import Envelope.Proofs.Service
import Envelope.Proofs.Underway

/-!
# Round trips

A value that was written can be read from then on.  What the writer leaves
behind is kept by the world (`World.Keeps`): the key-encryption key of its rule,
the record that it encrypted under, and, where the record is wrapped, a client
that unwraps it.  Nothing that happens to a deployment takes this away, and it
is all that a reader needs.
-/

namespace Envelope

open Program Engine KeyRing

/-! ## The course of one value -/

namespace World

variable {σ : Type} {w w' : World Store σ} {t : Trace} {ring : KeyRing} {kek : Kek}
  {subject : String} {version : Option UInt32} {dek : Dek} {config : Properties} {url : String}
  {handle : Kms.Handle}

/-- Worlds whose files are in order answered a trace, one after the other. -/
abbrev Course (w : World Store σ) (t : Trace) (w' : World Store σ) : Prop :=
  Timeline (fun r : Effect => World.answer r) (fun u => u.registry.Filed) World.Extends w t w'

theorem Course.answered (h : Course w t w') {x : Engine.Exchange} (hx : x ∈ t) :
    ∃ u, u.registry.Filed ∧ World.Extends w u ∧ x.2 = ((World.answer x.1).run u).1 ∧
      World.Extends ((World.answer x.1).run u).2 w' := by
  obtain ⟨u, hfiled, hearlier, hanswer, -, hlater⟩ :=
    Timeline.answered (E := World.Extends) World.Extends.trans h hx
  exact ⟨u, hfiled, hearlier, hanswer, hlater⟩

theorem Course.backs (h : Course w t w') : w'.Backs t := by
  intro x hx
  obtain ⟨u, -, -, hanswer, hlater⟩ := h.answered hx
  exact ⟨u, hanswer, hlater⟩

/-- A reader finds a key-encryption key that is kept. -/
theorem Course.getKek_eq {name : String} {answer : Except RegistryError Kek} (h : Course w t w')
    (hkek : w.registry.keks.get? name = some kek) (hmem : called (.getKek name true) answer ∈ t) :
    answer = .ok kek := by
  obtain ⟨u, -, hearlier, hanswer, -⟩ := h.answered hmem
  have hget : answer = u.registry.getKek name true := hanswer
  rw [hget]
  exact Store.getKek_eq_ok_iff.mpr ⟨hearlier.registry.keks hkek, .inl rfl⟩

/-- A version that is kept is found. -/
theorem Course.getDek_eq {id : DekId} {deleted : Bool} {answer : Except RegistryError Dek}
    (h : Course w t w') (hdek : dek ∈ w.registry.file (Store.pathOf id))
    (hversion : dek.version = id.version) (hmem : called (.getDek id deleted) answer ∈ t) :
    answer = .ok dek := by
  obtain ⟨u, hfiled, hearlier, hanswer, -⟩ := h.answered hmem
  have hget : answer = u.registry.getDek id deleted := hanswer
  rw [hget]
  exact hfiled.getDek_of_mem (hearlier.registry.files _ hdek) hversion

/-- A handle that is kept is handed out. -/
theorem Course.handle_eq {answer : Except Kms.Error Kms.Handle} (h : Course w t w')
    (hpublished : w.directory.Published url handle) (hmem : handed config url answer ∈ t) :
    answer = .ok handle := by
  obtain ⟨u, -, hearlier, hanswer, -⟩ := h.answered hmem
  have hhandle : answer = (u.directory.handle config url u.systems).outcome := hanswer
  rw [hhandle]
  exact (hpublished.mono hearlier.directory).handle_eq

end World

namespace Executor

variable {κ σ : Type} {e : Executor κ} {context : Context} {type : FieldType}
  {value : Option FieldValue} {t : Trace}

/-- Versions that an executor registers are greater than 0. -/
theorem proper_of_after {r : Effect} {next : r.Answer → Engine (Except Error (Option FieldValue))}
    (h : After (e.transformField context type value).run t (.ask r next)) : World.Proper r := by
  cases r with
  | registry c =>
    cases c with
    | registerDek kekName request =>
      obtain ⟨-, -, -, -, -, -, hproper, -⟩ := asked_registerDek h
      exact hproper
    | _ => trivial
  | _ => trivial

/-- In a world whose files are in order, a value takes a course. -/
theorem exists_course {w : World Store σ} (hw : w.registry.Filed) (e : Executor κ)
    (context : Context) (type : FieldType) (value : Option FieldValue) :
    ∃ t, e.Transformation context type value t
        ((World.run (e.transformField context type value).run).run w).1 ∧
      World.Course w t ((World.run (e.transformField context type value).run).run w).2 := by
  have hstep : ∀ {t r next} {u : World Store σ},
      After (e.transformField context type value).run t (.ask r next) → u.registry.Filed →
      ((World.answer r).run u).2.registry.Filed ∧ World.Extends u ((World.answer r).run u).2 := by
    intro t r next u hafter hu
    exact ⟨World.filed_answer hu (proper_of_after hafter), World.extends_answer u r⟩
  have hcourse : ∃ t, Runs (e.transformField context type value).run t
        ((World.run (e.transformField context type value).run).run w).1 ∧
      World.Course w t ((World.run (e.transformField context type value).run).run w).2 :=
    exists_timeline World.Extends.refl hstep hw
  obtain ⟨t, hruns, hcourse⟩ := hcourse
  exact ⟨t, transformField_comesTo hruns, hcourse⟩

end Executor

/-! ## What a writer leaves behind -/

/-- A world keeps what is needed to read a value of a subject that was
encrypted under a record: its key-encryption key, the record in its file, and
a client that unwraps the raw key unless it is in the clear. -/
structure World.Keeps {σ : Type} (w : World Store σ) (ring : KeyRing) (subject : String)
    (record : Dek) (raw : Bytes) (kek : Kek) : Prop where
  stored : w.registry.keks.get? ring.kekName = some kek
  file : record ∈ w.registry.file ⟨ring.kekName, subject, ring.cryptor.format⟩
  first : ring.rotates = false → record.version = firstVersion
  opens : ∃ unwrap, recovered unwrap record = .ok raw ∧
    (record.keyMaterial = none →
      ∃ handle, w.directory.Published kek.url handle ∧ Unwraps handle unwrap)

/-- Two key rings use the same keys: those of one name and one algorithm, and
either of them rotates them or none does. -/
structure KeyRing.Alike (ring ring' : KeyRing) : Prop where
  kekName : ring'.kekName = ring.kekName
  cryptor : ring'.cryptor = ring.cryptor
  rotates : ring'.rotates = ring.rotates

namespace World

variable {σ : Type} {w w' : World Store σ} {t : Trace} {ring ring' : KeyRing} {kek : Kek}
  {subject : String} {version : Option UInt32} {record : Dek} {raw : Bytes} {key : KeyMaterial}

/-- What is kept stays, but for marks of deletion. -/
theorem Keeps.mono (h : w.Keeps ring subject record raw kek) (hlater : World.Outlives w w') :
    ∃ mark, w'.Keeps ring subject record raw { kek with deleted := mark } := by
  obtain ⟨mark, hkek⟩ := hlater.registry.keks h.stored
  obtain ⟨unwrap, hopens, hwrapped⟩ := h.opens
  refine ⟨mark, hkek, hlater.registry.files _ h.file, h.first, unwrap, hopens, fun hclear => ?_⟩
  obtain ⟨handle, hpublished, hunwraps⟩ := hwrapped hclear
  exact ⟨handle, hpublished.mono hlater.directory, hunwraps⟩

theorem Keeps.alike (h : w.Keeps ring subject record raw kek) (halike : ring.Alike ring') :
    w.Keeps ring' subject record raw kek := by
  obtain ⟨hname, hcryptor, hrotates⟩ := halike
  refine ⟨?_, ?_, ?_, h.opens⟩
  · rw [hname]
    exact h.stored
  · rw [hname, hcryptor]
    exact h.file
  · rw [hrotates]
    exact h.first

/-- Keys that were given out in the course of a value are kept. -/
theorem Backs.keeps (h : w.Backs t)
    (hunknown : ∀ path, ∀ dek ∈ w.registry.file path, dek.rawKey = none)
    (hkek : ring.KekGivenOut t kek) (hdek : ring.GivenOut subject version t record)
    (hversion : ring.rotates = false → version = none)
    (hholds : ring.Holds kek t record key) : w.Keeps ring subject record key.bytes kek := by
  obtain ⟨hfile, hfirst⟩ := h.dek_stored hdek
  have hunknown : record.rawKey = none := hunknown _ record hfile
  refine ⟨h.kek_stored hkek, hfile, fun hfixed => hfirst hfixed (hversion hfixed), ?_⟩
  cases hholds with
  | known hraw =>
    rw [hunknown] at hraw
    cases hraw
  | clear _ htext hraw =>
    refine ⟨fun _ => .ok [], ?_, fun hclear => ?_⟩
    · rw [recovered_of_clear htext, hraw]
      rfl
    · rw [htext] at hclear
      cases hclear
  | @wrapped _ hclear text htext wrapped hwrapped handle hhandle raw hraw =>
    refine ⟨fun wrapped => handle.unwrap wrapped [], ?_, fun _ => ?_⟩
    · rw [recovered_of_wrapped hclear htext hwrapped, hraw]
      rfl
    · exact ⟨handle, h.handle_published hhandle, fun _ => rfl⟩

end World

/-- A value that was written leaves its keys behind. -/
theorem Executor.Transformation.keeps {κ σ : Type} {e : Executor κ} {context : Context}
    {type : FieldType} {value : FieldValue} {t : Trace} {result : Option FieldValue}
    {w w' : World Store σ}
    (h : e.Transformation context type (some value) t (.ok result))
    (writes : context.mode = .write) (hcourse : World.Course w t w') :
    ∃ ring kek record raw out, e.ring context = .ok ring ∧ result = some out ∧
      w'.Keeps ring context.subject record raw kek ∧
      Transform.EncryptedUnder ring type record.version ⟨raw⟩ value out := by
  obtain ⟨ring, kek, record, key, out, hring, hkek, hdek, hholds, hout, hencrypted⟩ :=
    h.encryptedUnder writes
  have hversion : ring.rotates = false → Transform.writtenVersion ring = none := by
    intro hfixed
    simp [Transform.writtenVersion, hfixed]
  exact ⟨ring, kek, record, key.bytes, out, hring, hout,
    hcourse.backs.keeps hcourse.finish.unknown hkek hdek hversion hholds, hencrypted⟩

/-! ## What a reader finds -/

namespace KeyRing

variable {ring : KeyRing} {kek : Kek} {subject : String} {version : Option UInt32} {t : Trace}
  {record : Dek} {raw : Bytes}

/-- A reader comes up with the key-encryption key that it is given. -/
theorem KekSearch.of_answer {kmsType kmsKeyId : Option String} {r : Except KeyError Kek}
    (h : ring.KekSearch .read kmsType kmsKeyId t r)
    (hanswer : ∀ answer, called (.getKek ring.kekName true) answer ∈ t → answer = .ok kek) :
    r = .ok kek := by
  cases h with
  | failed e fatal => cases hanswer (.error e) List.mem_cons_self
  | found kek' =>
    have hsame := hanswer (.ok kek') List.mem_cons_self
    rw [Except.ok.inj hsame]
  | unread e absent reads => cases hanswer (.error e) List.mem_cons_self
  | untyped e absent writes htype => exact absurd rfl writes
  | unnamed e absent writes type htype hid => exact absurd rfl writes
  | created e absent writes type id htype hid rest => exact absurd rfl writes

/-- A reader comes up with the raw key of the record that it is given. -/
theorem DekSearch.of_answer {r : Except KeyError Dek} {unwrap : Bytes → Except Kms.Error Bytes}
    (h : ring.DekSearch kek subject version .read t r)
    (hanswer : ∀ answer, called (.getDek (ring.dekId subject version) true) answer ∈ t →
      answer = .ok record)
    (hunknown : record.rawKey = none) (hopens : recovered unwrap record = .ok raw)
    (hhanded : record.keyMaterial = none → ∀ answer, handed ring.config kek.url answer ∈ t →
      ∃ h, answer = .ok h ∧ Unwraps h unwrap) :
    r = .ok { record with rawKey := some ⟨raw⟩ } := by
  cases h with
  | failed e fatal => cases hanswer (.error e) List.mem_cons_self
  | unread e absent reads now => cases hanswer (.error e) List.mem_cons_self
  | overflowed dek now cause stops =>
    rw [isExpired_read] at stops
    cases stops
  | current dek now fresh unlocked =>
    obtain rfl := Except.ok.inj (hanswer (.ok dek) List.mem_cons_self)
    have hunlocked := unlocked.eq_recovered hunknown (fun _ h hnone => nomatch hnone)
      fun hclear answer hmem =>
        hhanded hclear answer (List.mem_cons_of_mem _ (List.mem_cons_of_mem _ hmem))
    rw [hunlocked, hopens]
    rfl
  | unrotated answer now due rotated => exact absurd rfl due.writes
  | rotated answer now due rotated unlocked => exact absurd rfl due.writes

end KeyRing

namespace Transform

variable {ring ring' : KeyRing} {type : FieldType} {version : UInt32} {key : KeyMaterial}
  {value out : FieldValue}

theorem EncryptedUnder.alike (h : EncryptedUnder ring type version key value out)
    (halike : ring.Alike ring') : EncryptedUnder ring' type version key value out := by
  obtain ⟨-, hcryptor, hrotates⟩ := halike
  unfold EncryptedUnder
  rw [hcryptor, hrotates]
  exact h

/-- Bytes are given back as the value that they are the bytes of. -/
theorem revealed_of_bytesOf {plain : Bytes} (h : bytesOf type value = some plain) :
    revealed type plain = .ok value := by
  unfold bytesOf at h
  split at h
  · rename_i text
    obtain rfl := Option.some.inj h
    rw [revealed, if_pos rfl, Utf8.decode_encode]
    rfl
  · rename_i bytes
    obtain rfl := Option.some.inj h
    rfl
  · cases h

/-- A reader takes a written value apart into the version of its key, if keys
rotate, and a ciphertext that decrypts to the value. -/
theorem EncryptedUnder.received (h : EncryptedUnder ring type version key value out) :
    ∃ bytes ciphertext, bytesOf type out = some bytes ∧
      Transform.received ring type bytes =
        .ok (if ring.rotates then some version else none, ciphertext) ∧
      ((ring.cryptor.decrypt key.bytes ciphertext []).mapError Error.cipher >>= revealed type) =
        .ok value := by
  obtain ⟨plain, ciphertext, bytes, carried, draws, hplain, -, hbytes, hdecoded, hframed, hbare,
    hdecrypt⟩ := h
  refine ⟨bytes, ciphertext, hbytes, ?_, ?_⟩
  · unfold Transform.received unframed
    rw [hdecoded]
    cases hrotates : ring.rotates with
    | true =>
      have hframe := hframed hrotates
      simp [hframe, bind, Except.bind]
    | false =>
      have hcarried := hbare hrotates
      simp [hcarried, bind, Except.bind]
  · rw [hdecrypt]
    exact revealed_of_bytesOf hplain

/-- A reader that comes up with the key of a ciphertext decrypts it. -/
theorem Decryption.of_search {x : Transform} {subject : String} {bytes ciphertext raw : Bytes}
    {version : Option UInt32} {record : Dek} {t : Trace} {r : Except Error FieldValue}
    (h : x.Decryption subject type bytes t r)
    (hreceived : Transform.received x.ring type bytes = .ok (version, ciphertext))
    (hsearch : ∀ {r'}, x.ring.DekSearch x.kek subject version .read t r' →
      r' = .ok { record with rawKey := some ⟨raw⟩ })
    (hplain : ((x.ring.cryptor.decrypt raw ciphertext []).mapError Error.cipher >>=
      revealed type) = .ok value) : r = .ok value := by
  cases h with
  | unread error herror =>
    rw [hreceived] at herror
    cases herror
  | unkeyed hreceived' search =>
    rw [hreceived] at hreceived'
    obtain ⟨rfl, rfl⟩ := Prod.mk.inj (Except.ok.inj hreceived')
    cases hsearch search
  | keyed hreceived' search hkey =>
    rw [hreceived] at hreceived'
    obtain ⟨rfl, rfl⟩ := Prod.mk.inj (Except.ok.inj hreceived')
    obtain rfl := Except.ok.inj (hsearch search)
    obtain rfl := Option.some.inj hkey
    exact hplain

end Transform

/-- Where a record is kept, a reader comes up with its raw key. -/
theorem World.Keeps.dekSearch {σ : Type} {w w' : World Store σ} {t u : Trace} {ring : KeyRing}
    {kek : Kek} {subject : String} {record : Dek} {raw : Bytes}
    (h : w.Keeps ring subject record raw kek) (hcourse : World.Course w t w') (hsub : u ⊆ t)
    {r : Except KeyError Dek}
    (hsearch : ring.DekSearch kek subject (if ring.rotates then some record.version else none)
      .read u r) : r = .ok { record with rawKey := some ⟨raw⟩ } := by
  obtain ⟨unwrap, hopens, hwrapped⟩ := h.opens
  have hversion : record.version =
      (ring.dekId subject (if ring.rotates then some record.version else none)).version := by
    cases hrotates : ring.rotates with
    | true => rfl
    | false => exact h.first hrotates
  have hfile : record ∈ w.registry.file (Store.pathOf
      (ring.dekId subject (if ring.rotates then some record.version else none))) := h.file
  refine hsearch.of_answer (fun answer hmem => ?_) (hcourse.start.unknown _ record h.file) hopens
    fun hclear answer hmem => ?_
  · exact hcourse.getDek_eq hfile hversion (hsub hmem)
  · obtain ⟨handle, hpublished, hunwraps⟩ := hwrapped hclear
    exact ⟨handle, hcourse.handle_eq hpublished (hsub hmem), hunwraps⟩

namespace Executor

variable {κ σ : Type} {e : Executor κ} {context : Context} {type : FieldType} {t : Trace}
  {r : Except Error (Option FieldValue)} {ring : KeyRing} {kek : Kek} {record : Dek} {raw : Bytes}
  {value out : FieldValue} {w w' : World Store σ}

/-- Where its keys are kept, a written value is read. -/
theorem Transformation.of_keeps (h : e.Transformation context type (some out) t r)
    (hcourse : World.Course w t w') (hkeeps : w.Keeps ring context.subject record raw kek)
    (hencrypted : Transform.EncryptedUnder ring type record.version ⟨raw⟩ value out)
    (hring : e.ring context = .ok ring) (hbound : e.client ≠ none) (hreads : context.mode = .read)
    (htype : Agrees (e.namedType context) kek.kmsType)
    (hkey : Agrees (e.namedKey context) kek.kmsKeyId) : r = .ok (some value) := by
  have htaken := admitted_of_reads hring hbound hreads
  have hkek : ∀ {t' : Trace} {r' : Except KeyError Kek}, t' ⊆ t →
      ring.KekSearch context.mode (e.namedType context) (e.namedKey context) t' r' →
      r' = .ok kek := by
    intro t' r' hsub search
    rw [hreads] at search
    exact search.of_answer fun answer hmem => hcourse.getKek_eq hkeeps.stored (hsub hmem)
  cases h with
  | rejected error hdeclined =>
    rw [htaken] at hdeclined
    cases hdeclined
  | unresolved ring' htaken' search hrefused =>
    obtain rfl := Except.ok.inj (htaken.symm.trans htaken')
    obtain rfl := hkek (List.Subset.refl _) search
    have hfine : ring.bound (e.namedType context) (e.namedKey context) kek = .ok kek :=
      bound_eq_ok_iff.mpr ⟨rfl, htype, hkey⟩
    rw [show (Except.ok kek >>= ring.bound (e.namedType context) (e.namedKey context)) = .ok kek
      from hfine] at hrefused
    cases hrefused
  | resolved ring' htaken' search hfine application =>
    rename_i t₁ t₂ kek'
    obtain rfl := Except.ok.inj (htaken.symm.trans htaken')
    obtain rfl := Except.ok.inj (hkek (List.subset_append_left _ _) search)
    obtain ⟨bytes, ciphertext, hbytes, hreceived, hplain⟩ := hencrypted.received
    cases application with
    | unsupported _ writes => rw [hreads] at writes; cases writes
    | encrypted _ writes => rw [hreads] at writes; cases writes
    | untouched _ _ hnone =>
      rw [hbytes] at hnone
      cases hnone
    | refused _ hwrite hread => exact absurd hreads hread
    | decrypted _ _ bytes' hbytes' decryption =>
      obtain rfl := Option.some.inj (hbytes.symm.trans hbytes')
      have hright : t₂ ⊆ t₁ ++ t₂ := List.subset_append_right _ _
      rw [decryption.of_search hreceived (hkeeps.dekSearch hcourse hright) hplain]
      rfl

end Executor

/-! ## Deployments -/

/-- The type of the values that a kind of executor transforms: a payload is
binary, whatever is declared. -/
def ExecutorKind.declared : ExecutorKind → FieldType → FieldType
  | .field, type => type
  | .payload, _ => .bytes

namespace Executor

variable {κ : Type}

/-- Transforms a field or a payload, by the kind of the executor. -/
def transform (e : Executor κ) (kind : ExecutorKind) (context : Context) (type : FieldType)
    (value : Option FieldValue) : Action (Option FieldValue) :=
  match kind with
  | .field => e.transformField context type value
  | .payload => e.transformPayload context value

theorem transform_eq (e : Executor κ) (kind : ExecutorKind) (context : Context)
    (type : FieldType) (value : Option FieldValue) :
    e.transform kind context type value = e.transformField context (kind.declared type) value := by
  cases kind with
  | field => rfl
  | payload => rfl

/-- A value that is transformed leaves the files of the registry in order. -/
theorem filed_run {σ : Type} {w : World Store σ} (hw : w.registry.Filed) (e : Executor κ)
    (kind : ExecutorKind) (context : Context) (type : FieldType) (value : Option FieldValue) :
    ((World.run (e.transform kind context type value).run).run w).2.registry.Filed := by
  rw [transform_eq]
  obtain ⟨t, -, hcourse⟩ := exists_course hw e context (kind.declared type) value
  exact hcourse.finish

/-- A value that was written is read by every rule that uses the same keys, in
every world that has kept the records and the clients that the writer left. -/
theorem read_written {κ' σ : Type} {e : Executor κ} {e' : Executor κ'}
    {kind kind' : ExecutorKind} {context context' : Context} {type type' : FieldType}
    {w w₁ w₂ : World Store σ} {value : FieldValue} {out : Option FieldValue}
    {ring ring' : KeyRing} (hw : w.registry.Filed) (writes : context.mode = .write)
    (hwritten : (World.run (e.transform kind context type (some value)).run).run w = (.ok out, w₁))
    (hlater : w₁.Outlives w₂) (hw₂ : w₂.registry.Filed) (reads : context'.mode = .read)
    (hbound : e'.client ≠ none) (hring : e.ring context = .ok ring)
    (hring' : e'.ring context' = .ok ring') (halike : ring.Alike ring')
    (hsubject : context'.subject = context.subject)
    (htype : kind'.declared type' = kind.declared type)
    (hagrees : ∀ kek, w₂.registry.keks.get? ring'.kekName = some kek →
      Agrees (e'.namedType context') kek.kmsType ∧ Agrees (e'.namedKey context') kek.kmsKeyId) :
    ((World.run (e'.transform kind' context' type' out).run).run w₂).1 = .ok (some value) := by
  rw [transform_eq] at hwritten ⊢
  obtain ⟨t, hwrite, hcourse⟩ := exists_course hw e context (kind.declared type) (some value)
  rw [hwritten] at hwrite hcourse
  obtain ⟨ring₀, kek, record, raw, out', hring₀, rfl, hkeeps, hencrypted⟩ :=
    hwrite.keeps writes hcourse
  obtain rfl := Except.ok.inj (hring.symm.trans hring₀)
  obtain ⟨mark, hkept⟩ := hkeeps.mono hlater
  have hkept' := hkept.alike halike
  rw [← hsubject] at hkept'
  rw [htype]
  obtain ⟨u, hread, hcourse'⟩ := exists_course hw₂ e' context' (kind.declared type) (some out')
  obtain ⟨hnamedType, hnamedKey⟩ := hagrees _ hkept'.stored
  exact hread.of_keeps hcourse' hkept' (hencrypted.alike halike) hring' hbound reads
    hnamedType hnamedKey

end Executor

/-- Executors that share a registry in memory, the clients of their key
management systems, and a clock; `ι` names the executors. -/
structure Deployment (ι σ : Type) where
  executors : ι → Executor Unit
  world : World Store σ

namespace Deployment

variable {ι σ : Type}

/-- What can happen to a deployment. -/
inductive Step (ι σ : Type) where
  | configure (i : ι) (config : Properties)
  | transform (i : ι) (kind : ExecutorKind) (context : Context) (type : FieldType)
      (value : Option FieldValue)
  /-- Calls the registry past all executors. -/
  | call (c : Registry.Call)
  | softDeleteKek (name : String)
  | registerDriver (driver : Kms.Driver σ)
  | setClock (clock : Int64) (engineClock : Option Int64)
  /-- The systems behind the drivers change by themselves. -/
  | setSystems (systems : σ)

/-- Data keys are registered from version 1 on. -/
def Step.Proper : Step ι σ → Prop
  | .call c => World.Proper (.registry c)
  | _ => True

/-- Transforms a value with one of the executors. -/
def transform (d : Deployment ι σ) (i : ι) (kind : ExecutorKind) (context : Context)
    (type : FieldType) (value : Option FieldValue) :
    Except Error (Option FieldValue) × Deployment ι σ :=
  let outcome := (World.run ((d.executors i).transform kind context type value).run).run d.world
  (outcome.1, { d with world := outcome.2 })

/-- A transformation of a value is the course of an executor. -/
theorem exists_course {d : Deployment ι σ} (hd : d.world.registry.Filed) (i : ι)
    (kind : ExecutorKind) (context : Context) (type : FieldType) (value : Option FieldValue) :
    ∃ t, (d.executors i).Transformation context (kind.declared type) value t
        (d.transform i kind context type value).1 ∧
      World.Course d.world t (d.transform i kind context type value).2.world := by
  unfold Deployment.transform
  rw [Executor.transform_eq]
  exact Executor.exists_course hd _ _ _ _

variable [DecidableEq ι]

/-- The deployment after a step. -/
def advance (d : Deployment ι σ) : Step ι σ → Deployment ι σ
  | .configure i config =>
    match (d.executors i).configure () config with
    | .ok e => { d with executors := Function.update d.executors i e }
    | .error _ => d
  | .transform i kind context type value => (d.transform i kind context type value).2
  | .call c => { d with world := ((World.call c).run d.world).2 }
  | .softDeleteKek name =>
    { d with world := { d.world with registry := (d.world.registry.softDeleteKek name).2 } }
  | .registerDriver driver => { d with world := ((World.registerDriver driver).run d.world).2 }
  | .setClock clock engineClock =>
    { d with world := { d.world with clock := clock, engineClock := engineClock } }
  | .setSystems systems => { d with world := { d.world with systems := systems } }

/-- A deployment comes from another one by any number of steps. -/
inductive Reaches (d : Deployment ι σ) : Deployment ι σ → Prop where
  | start : Reaches d d
  | step {d' : Deployment ι σ} (h : Reaches d d') (s : Step ι σ) (hs : s.Proper) :
      Reaches d (d'.advance s)

variable {d d' d₁ d₂ : Deployment ι σ} {kind kind' : ExecutorKind} {context context' : Context}
  {type type' : FieldType}

/-- A step keeps the files in order, and takes no record and no client away. -/
theorem advance_kept (hd : d.world.registry.Filed) {s : Step ι σ} (hs : s.Proper) :
    (d.advance s).world.registry.Filed ∧ d.world.Outlives (d.advance s).world := by
  cases s with
  | configure i config =>
    unfold advance
    dsimp only
    split
    · exact ⟨hd, .refl _⟩
    · exact ⟨hd, .refl _⟩
  | transform i kind context type value =>
    obtain ⟨t, -, hcourse⟩ := exists_course hd i kind context type value
    have hextends : d.world.Extends (d.transform i kind context type value).2.world :=
      Timeline.extends (E := World.Extends) World.Extends.trans hcourse
    exact ⟨hcourse.finish, hextends.outlives⟩
  | call c =>
    exact ⟨World.filed_answer (r := .registry c) hd hs,
      (World.extends_answer d.world (.registry c)).outlives⟩
  | softDeleteKek name => exact ⟨hd.softDeleteKek, Store.outlives_softDeleteKek, .refl _⟩
  | registerDriver driver => exact ⟨hd, .refl _, Kms.Directory.extends_register driver⟩
  | setClock clock engineClock => exact ⟨hd, .refl _, .refl _⟩
  | setSystems systems => exact ⟨hd, .refl _, .refl _⟩

theorem Reaches.kept (h : d.Reaches d') (hd : d.world.registry.Filed) :
    d'.world.registry.Filed ∧ d.world.Outlives d'.world := by
  induction h with
  | start => exact ⟨hd, .refl _⟩
  | step h s hs ih =>
    obtain ⟨hfiled, houtlives⟩ := ih
    obtain ⟨hfiled', houtlives'⟩ := advance_kept hfiled hs
    exact ⟨hfiled', houtlives.trans houtlives'⟩

/-- What was written can be read.  Once a writer has given a value back
encrypted, every reader that uses the same keys recovers it from then on,
whatever else has happened to the deployment. -/
theorem read_after_write (hempty : d.world.registry = ∅) (hbefore : d.Reaches d₁) {i j : ι}
    {value : FieldValue} {out : Option FieldValue} (writes : context.mode = .write)
    (hwritten : d₁.transform i kind context type (some value) = (.ok out, d'))
    (hafter : d'.Reaches d₂) (reads : context'.mode = .read)
    (hbound : (d₂.executors j).client ≠ none) {ring ring' : KeyRing}
    (hring : (d₁.executors i).ring context = .ok ring)
    (hring' : (d₂.executors j).ring context' = .ok ring') (halike : ring.Alike ring')
    (hsubject : context'.subject = context.subject)
    (htype : kind'.declared type' = kind.declared type)
    (hagrees : ∀ kek, d₂.world.registry.keks.get? ring'.kekName = some kek →
      Agrees ((d₂.executors j).namedType context') kek.kmsType ∧
        Agrees ((d₂.executors j).namedKey context') kek.kmsKeyId) :
    (d₂.transform j kind' context' type' out).1 = .ok (some value) := by
  have hstart : d.world.registry.Filed := hempty ▸ Store.filed_empty
  have hfiled₁ := (hbefore.kept hstart).1
  obtain ⟨t, -, hcourse⟩ := exists_course hfiled₁ i kind context type (some value)
  rw [hwritten] at hcourse
  obtain ⟨hfiled₂, houtlives⟩ := hafter.kept hcourse.finish
  have hrun : (World.run ((d₁.executors i).transform kind context type (some value)).run).run
      d₁.world = (.ok out, d'.world) := by
    obtain ⟨hout, rfl⟩ := Prod.mk.inj hwritten
    exact Prod.ext hout rfl
  exact Executor.read_written hfiled₁ writes hrun houtlives hfiled₂ reads hbound hring hring'
    halike hsubject htype hagrees

theorem read_after_write_deleted :
    ∃ (d d₁ d' d₂ : Deployment Unit Unit) (context context' : Context) (out : Option FieldValue),
      d.Reaches d₁ ∧ context.mode = .write ∧
      d₁.transform () .field context .bytes (some (.bytes [104, 105])) = (.ok out, d') ∧
      d'.Reaches d₂ ∧ (d₂.world.registry.getKek "k" false).isOk = false ∧
      (d₂.transform () .payload context' .string out).1 = .ok (some (.bytes [104, 105])) := by
  let driver : Kms.Driver Unit := Kms.Plain.driver "local-kms://"
  let world : World Store Unit := ⟨∅, .empty, (), 0, none, ⟨fun _ => 0, 0⟩, []⟩
  let d : Deployment Unit Unit := ⟨fun _ => ⟨some (), ∅⟩, world⟩
  let d₁ := d.advance (.registerDriver driver)
  let params : Properties :=
    Dict.ofList [(Parameter.kekName, "k"), (Parameter.dekAlgorithm, "AES256_SIV"),
      (Parameter.kmsType, "local-kms"), (Parameter.kmsKeyId, "m")]
  let context : Context := ⟨"s", .write, params, ∅⟩
  let params' : Properties :=
    Dict.ofList [(Parameter.kekName, "k"), (Parameter.dekAlgorithm, "AES256_SIV")]
  let context' : Context := ⟨"s", .read, params', ∅⟩
  let value : FieldValue := .bytes [104, 105]
  have hisOk : (d₁.transform () .field context .bytes (some value)).1.isOk = true := by
    decide +kernel
  have hdeleted : (((d₁.transform () .field context .bytes (some value)).2.advance
      (.softDeleteKek "k")).world.registry.getKek "k" false).isOk = false := by
    decide +kernel
  have hsame : (d₁.transform () .field context .bytes (some value)).2.executors =
      d.executors := rfl
  generalize hx : d₁.transform () .field context .bytes (some value) = x at *
  obtain ⟨result, d'⟩ := x
  obtain ⟨out, rfl⟩ := exists_ok_of_isOk hisOk
  let d₂ := d'.advance (.softDeleteKek "k")
  have hexecutors : d₂.executors = d.executors := hsame
  have hbefore : d.Reaches d₁ := .step .start (.registerDriver driver) trivial
  have hafter : d'.Reaches d₂ := .step .start (.softDeleteKek "k") trivial
  have hring : (d₁.executors ()).ring context = .ok ⟨"k", ⟨"AES256_SIV"⟩, 0, ∅⟩ := by
    decide +kernel
  have hring' : (d₂.executors ()).ring context' = .ok ⟨"k", ⟨"AES256_SIV"⟩, 0, ∅⟩ := by
    rw [hexecutors]
    decide +kernel
  have hbound : (d₂.executors ()).client ≠ none := by
    rw [hexecutors]
    decide
  have hunnamed : ∀ kek, d₂.world.registry.keks.get? "k" = some kek →
      Agrees ((d₂.executors ()).namedType context') kek.kmsType ∧
        Agrees ((d₂.executors ()).namedKey context') kek.kmsKeyId := by
    have htype : (d.executors ()).namedType context' = none := by
      decide +kernel
    have hkey : (d.executors ()).namedKey context' = none := by
      decide +kernel
    intro kek _
    rw [hexecutors, htype, hkey]
    exact ⟨nofun, nofun⟩
  have hread : (d₂.transform () .payload context' .string out).1 = .ok (some value) :=
    read_after_write rfl hbefore rfl hx hafter rfl hbound hring hring' ⟨rfl, rfl, rfl⟩ rfl rfl
      hunnamed
  exact ⟨d, d₁, d', d₂, context, context', out, hbefore, rfl, hx, hafter, hdeleted, hread⟩

end Deployment
end Envelope
