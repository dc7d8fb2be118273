import Envelope.Proofs.Lifetime
import Envelope.Proofs.Reading

/-!
# The version in a frame

A reader under rotating keys asks for the version that the frame of a ciphertext
names, and for no other one.  There is one exception: 0, by which look-ups ask
for the greatest version, can stand in a frame like any other number, and is
then read under the greatest version.
-/

namespace Envelope

open Program Engine

namespace Transform

variable {ring : KeyRing} {type : FieldType} {bytes ciphertext : Bytes} {version : Option UInt32}

/-- Under rotating keys, a reader takes frames and nothing else. -/
theorem received_eq_ok_iff (hrotates : ring.rotates = true) :
    received ring type bytes = .ok (version, ciphertext) ↔
      ∃ frame : Frame, decoded type bytes = .ok frame.encode ∧ version = some frame.version ∧
        ciphertext = frame.body := by
  unfold received
  cases hdecoded : decoded type bytes with
  | error error =>
    constructor
    · intro h
      cases h
    · rintro ⟨frame, hframe, -, -⟩
      cases hframe
  | ok carried =>
    have hunframed : (Except.ok carried >>= unframed ring) =
        ((Frame.decode carried).mapError Error.framing >>= fun frame =>
          .ok (some frame.version, frame.body)) := if_pos hrotates
    rw [hunframed]
    constructor
    · intro h
      cases hframe : Frame.decode carried with
      | error error =>
        rw [hframe] at h
        cases h
      | ok frame =>
        rw [hframe] at h
        obtain ⟨rfl, rfl⟩ := Prod.mk.inj (Except.ok.inj h)
        exact ⟨frame, congrArg Except.ok (Frame.decode_eq_ok_iff.mp hframe), rfl, rfl⟩
    · rintro ⟨frame, hframe, rfl, rfl⟩
      rw [Except.ok.inj hframe, Frame.decode_encode]
      rfl

end Transform

namespace World

variable {σ κ : Type} {w : World Store σ} {ring : KeyRing} {url subject : String}
  {type : FieldType} {bytes : Bytes} {out : FieldValue}

/-- What is decrypted was decrypted with the raw key of a record that was looked
up. -/
theorem decrypted_eq_ok (h : w.decrypted ring url subject type bytes = .ok out) :
    ∃ version ciphertext dek key plain,
      Transform.received ring type bytes = .ok (version, ciphertext) ∧
      w.registry.getDek (ring.dekId subject version) true = .ok dek ∧
      KeyRing.unlocked (w.handleAt ring.config url) dek =
        .ok { dek with rawKey := some key } ∧
      ring.cryptor.decrypt key.bytes ciphertext [] = .ok plain ∧
      Transform.revealed type plain = .ok out := by
  cases hreceived : Transform.received ring type bytes with
  | error error =>
    rw [decrypted_of_unreceived hreceived] at h
    cases h
  | ok carried =>
    obtain ⟨version, ciphertext⟩ := carried
    cases hfound : w.foundDek ring url subject version with
    | error error =>
      rw [decrypted_of_missing hreceived hfound] at h
      cases h
    | ok d =>
      have hunlocked := hfound
      unfold foundDek at hunlocked
      cases hget : KeyRing.fetched (.dekNotFoundOnRead ring.kekName subject)
          (w.registry.getDek (ring.dekId subject version) true) with
      | error error =>
        rw [hget] at hunlocked
        cases hunlocked
      | ok dek =>
        rw [hget] at hunlocked
        obtain ⟨key, rfl⟩ := KeyRing.unlocked_eq_ok hunlocked
        rw [decrypted_of_found hreceived hfound rfl] at h
        cases hplain : ring.cryptor.decrypt key.bytes ciphertext [] with
        | error error =>
          rw [hplain] at h
          cases h
        | ok plain =>
          rw [hplain] at h
          exact ⟨version, ciphertext, dek, key, plain, rfl, KeyRing.fetched_eq_ok_iff.mp hget,
            hunlocked, hplain, h⟩

/-- Where no record is found, nothing is decrypted. -/
theorem decrypted_of_getDek_error {version : Option UInt32} {ciphertext : Bytes}
    {e : RegistryError} (hreceived : Transform.received ring type bytes = .ok (version, ciphertext))
    (h : w.registry.getDek (ring.dekId subject version) true = .error e) :
    w.decrypted ring url subject type bytes =
      .error (.key (.dekNotFoundOnRead ring.kekName subject)) := by
  apply decrypted_of_missing hreceived
  have habsent : e.isNotFound = true := by
    rw [Store.getDek_eq_error h]
    exact Store.isNotFound_dekNotFound ..
  rw [foundDek, h, KeyRing.fetched_of_absent habsent]
  rfl

/-- The version in a frame matters only as far as another record is looked up for
it. -/
theorem decrypted_frame_congr {v v' : UInt32} (hrotates : ring.rotates = true)
    (h : w.registry.getDek (ring.dekId subject (some v)) true =
      w.registry.getDek (ring.dekId subject (some v')) true) (url : String) (body : Bytes) :
    w.decrypted ring url subject .bytes (Frame.encode ⟨v, body⟩) =
      w.decrypted ring url subject .bytes (Frame.encode ⟨v', body⟩) := by
  have hreceived : ∀ v : UInt32,
      Transform.received ring .bytes (Frame.encode ⟨v, body⟩) = .ok (some v, body) := by
    intro v
    exact (Transform.received_eq_ok_iff hrotates).mpr ⟨⟨v, body⟩, rfl, rfl, rfl⟩
  have hfound : w.foundDek ring url subject (some v) = w.foundDek ring url subject (some v') := by
    unfold foundDek
    rw [h]
  unfold decrypted
  rw [hreceived v, hreceived v']
  dsimp only [bind, Except.bind]
  rw [hfound]

variable {value : FieldValue} {result : Option FieldValue}

theorem readValue_of_bytes (h : Transform.bytesOf type value = some bytes) :
    w.readValue ring url subject type (some value) =
      (w.decrypted ring url subject type bytes).map some := by
  rw [readValue, h]

/-- A value that is read is in a frame, and is decrypted under the record that
the frame names. -/
theorem readValue_eq_ok (hreached : Store.Reaches ∅ w.registry) (hrotates : ring.rotates = true)
    (hbytes : Transform.bytesOf type value = some bytes)
    (h : w.readValue ring url subject type (some value) = .ok result) :
    ∃ (frame : Frame) (dek : Dek) (key : KeyMaterial) (plain : Bytes),
      Transform.decoded type bytes = .ok frame.encode ∧
      w.registry.Designated (ring.dekId subject (some frame.version)) dek ∧
      KeyRing.unlocked (w.handleAt ring.config url) dek = .ok { dek with rawKey := some key } ∧
      ring.cryptor.decrypt key.bytes frame.body [] = .ok plain ∧
      (Transform.revealed type plain).map some = .ok result := by
  rw [readValue_of_bytes hbytes] at h
  cases hdecrypted : w.decrypted ring url subject type bytes with
  | error error =>
    rw [hdecrypted] at h
    cases h
  | ok out =>
    rw [hdecrypted] at h
    obtain ⟨version, ciphertext, dek, key, plain, hreceived, hget, hunlocked, hplain, hrevealed⟩ :=
      decrypted_eq_ok hdecrypted
    obtain ⟨frame, hframe, rfl, rfl⟩ := (Transform.received_eq_ok_iff hrotates).mp hreceived
    refine ⟨frame, dek, key, plain, hframe, hreached.getDek_eq_ok_iff.mp hget, hunlocked, hplain,
      ?_⟩
    rw [hrevealed]
    exact h

/-- A value is not read if its frame names no record. -/
theorem readValue_of_missing {frame : Frame} (hreached : Store.Reaches ∅ w.registry)
    (hrotates : ring.rotates = true) (hbytes : Transform.bytesOf type value = some bytes)
    (hframe : Transform.decoded type bytes = .ok frame.encode)
    (hmissing : ∀ dek, ¬ w.registry.Designated (ring.dekId subject (some frame.version)) dek) :
    w.readValue ring url subject type (some value) =
      .error (.key (.dekNotFoundOnRead ring.kekName subject)) := by
  have hreceived := (Transform.received_eq_ok_iff hrotates).mpr ⟨frame, hframe, rfl, rfl⟩
  cases hget : w.registry.getDek (ring.dekId subject (some frame.version)) true with
  | ok dek => exact absurd (hreached.getDek_eq_ok_iff.mp hget) (hmissing dek)
  | error e =>
    rw [readValue_of_bytes hbytes, decrypted_of_getDek_error hreceived hget]
    rfl

/-- Under rotating keys, a value is read under the record that its frame names:
the version with the number in the frame, or for 0 the greatest version.  Where
there is no such record, it is not read. -/
theorem read_framed {e : Executor κ} {kind : ExecutorKind} {context : Context}
    {value : FieldValue} {result : Except Error (Option FieldValue)}
    (hreached : Store.Reaches ∅ w.registry) (reads : context.mode = .read)
    (hring : e.ring context = .ok ring) (hrotates : ring.rotates = true)
    (hbytes : Transform.bytesOf (kind.declared type) value = some bytes)
    (h : ((run (e.transform kind context type (some value)).run).run w).1 = result) :
    (∀ out, result = .ok out →
      ∃ (frame : Frame) (kek : Kek) (dek : Dek) (key : KeyMaterial) (plain : Bytes),
        Transform.decoded (kind.declared type) bytes = .ok frame.encode ∧
        w.registry.keks.get? ring.kekName = some kek ∧
        w.registry.Designated (ring.dekId context.subject (some frame.version)) dek ∧
        KeyRing.unlocked (w.handleAt ring.config kek.url) dek =
          .ok { dek with rawKey := some key } ∧
        ring.cryptor.decrypt key.bytes frame.body [] = .ok plain ∧
        (Transform.revealed (kind.declared type) plain).map some = .ok out) ∧
    ∀ (frame : Frame) (kek : Kek),
      Transform.decoded (kind.declared type) bytes = .ok frame.encode → e.client ≠ none →
      w.registry.keks.get? ring.kekName = some kek →
      KeyRing.Agrees (e.namedType context) kek.kmsType →
      KeyRing.Agrees (e.namedKey context) kek.kmsKeyId →
      (∀ dek, ¬ w.registry.Designated (ring.dekId context.subject (some frame.version)) dek) →
      result = .error (.key (.dekNotFoundOnRead ring.kekName context.subject)) := by
  obtain ⟨hresult, -⟩ := run_reading w e kind reads type (some value)
  rw [h] at hresult
  constructor
  · rintro out rfl
    obtain ⟨ring', url, htaken, hfound, hread⟩ := reading_eq_ok hresult.symm
    obtain rfl := Except.ok.inj (hring.symm.trans (Executor.admitted_eq_ok_iff.mp htaken).2)
    obtain ⟨kek, hstored, rfl, -, -⟩ := foundUrl_eq_ok_iff.mp hfound
    obtain ⟨frame, dek, key, plain, hframe, hdesignated, hdecrypted⟩ :=
      readValue_eq_ok hreached hrotates hbytes hread
    exact ⟨frame, kek, dek, key, plain, hframe, hstored, hdesignated, hdecrypted⟩
  · intro frame kek hframe hclient hstored htype hkey hmissing
    have htaken := Executor.admitted_of_reads hring hclient reads
    have hfound := foundUrl_eq_ok_iff.mpr ⟨kek, hstored, rfl, htype, hkey⟩
    rw [hresult, reading_of_resolved htaken hfound]
    exact readValue_of_missing hreached hrotates hbytes hframe hmissing

end World

namespace Sample

/-- The first value is framed with version 1, under the only record of its
file. -/
theorem exists_framed : ∃ body w, written = (.ok (some (.bytes (Frame.encode ⟨1, body⟩))), w) ∧
    w.registry.Filed ∧ Store.Reaches ∅ w.registry ∧
    ∃ dek, w.registry.file ⟨"k", "s", "AES256_SIV"⟩ = [dek] ∧ dek.version = 1 := by
  obtain ⟨out, w, hwritten, hfiled, -, dek, hfile, hversion⟩ := exists_written
  have hreached : Store.Reaches ∅ w.registry := by
    have hrun := World.reaches_run
      (executor.transform .field writer .bytes (some (.bytes [104, 105]))).run start
    rwa [show (World.run (executor.transform .field writer .bytes
      (some (.bytes [104, 105]))).run).run start = (.ok out, w) from hwritten] at hrun
  obtain ⟨t, hwrite, hcourse⟩ := Executor.exists_course (w := start) Store.filed_empty executor
    writer .bytes (some (.bytes [104, 105]))
  rw [show (World.run (executor.transformField writer .bytes (some (.bytes [104, 105]))).run).run
    start = (.ok out, w) from hwritten] at hwrite hcourse
  obtain ⟨ring₀, kek, record, raw, value, hring₀, rfl, hkeeps, hencrypted⟩ :=
    hwrite.keeps rfl hcourse
  have hring : executor.ring writer = .ok (ring 1) := by decide +kernel
  obtain rfl := Except.ok.inj (hring.symm.trans hring₀)
  have hrecord : record = dek := by
    have hmem : record ∈ w.registry.file ⟨"k", "s", "AES256_SIV"⟩ := hkeeps.file
    rw [hfile] at hmem
    exact List.mem_singleton.mp hmem
  obtain ⟨plain, body, bytes, carried, draws, -, -, hbytes, hdecoded, hframe, -, -⟩ := hencrypted
  obtain rfl : bytes = carried := Except.ok.inj hdecoded
  rw [hrecord, hversion] at hframe
  have hbytes' := Frame.decode_eq_ok_iff.mp (hframe rfl)
  obtain rfl : value = .bytes bytes := by
    cases value with
    | bytes other => exact congrArg FieldValue.bytes (Option.some.inj hbytes)
    | _ => cases hbytes
  rw [hbytes'] at hwritten
  exact ⟨body, w, hwritten, hfiled, hreached, dek, hfile, hversion⟩

/-- A framed ciphertext of this rule is read. -/
def readFrame (frame : Frame) (w : World Store Unit) : Except Error (Option FieldValue) :=
  ((World.run (executor.transform .field (reader "1") .bytes
    (some (.bytes frame.encode))).run).run w).1

end Sample

namespace World

/-- The first version is read, and a second one that does not exist is not. -/
theorem read_framed_first :
    ∃ (body : Bytes) (w : World Store Unit) (dek : Dek), Store.Reaches ∅ w.registry ∧
      Sample.readFrame ⟨1, body⟩ w = .ok (some (.bytes [104, 105])) ∧
      w.registry.Designated ⟨"k", "s", 1, "AES256_SIV"⟩ dek ∧
      Sample.readFrame ⟨2, body⟩ w = .error (.key (.dekNotFoundOnRead "k" "s")) := by
  obtain ⟨body, w, hwritten, hfiled, hreached, dek, hfile, hversion⟩ := Sample.exists_framed
  have hread : Sample.readFrame ⟨1, body⟩ w = .ok (some (.bytes [104, 105])) :=
    Sample.read_written hwritten (.refl w) hfiled Sample.ring_reader (by decide)
  obtain ⟨hnamed, -⟩ := read_framed hreached rfl Sample.ring_reader rfl rfl hread
  obtain ⟨frame, kek, dek', key, plain, hframe, hstored, hdesignated, -⟩ := hnamed _ rfl
  have hsame : (⟨1, body⟩ : Frame) = frame := by
    have hdecoded := Frame.decode_encode ⟨1, body⟩
    rw [Except.ok.inj hframe, Frame.decode_encode] at hdecoded
    exact (Except.ok.inj hdecoded).symm
  rw [← hsame] at hdesignated
  have hmissing : ∀ d, ¬ w.registry.Designated ⟨"k", "s", 2, "AES256_SIV"⟩ d := by
    intro d hd
    have hmem : d ∈ w.registry.file ⟨"k", "s", "AES256_SIV"⟩ := hd.1
    rw [hfile] at hmem
    have htwo : d.version = 2 := hd.version_eq (show (2 : UInt32) ≠ Dek.latestVersion by decide)
    rw [List.mem_singleton.mp hmem, hversion] at htwo
    cases htwo
  obtain ⟨-, hmissed⟩ := read_framed hreached rfl Sample.ring_reader rfl rfl
    (rfl : Sample.readFrame ⟨2, body⟩ w = _)
  have htype : KeyRing.Agrees (Sample.executor.namedType (Sample.reader "1")) kek.kmsType := by
    rw [Sample.namedType_reader]
    exact nofun
  have hkey : KeyRing.Agrees (Sample.executor.namedKey (Sample.reader "1")) kek.kmsKeyId := by
    rw [Sample.namedKey_reader]
    exact nofun
  exact ⟨body, w, dek', hreached, hread, hdesignated,
    hmissed ⟨2, body⟩ kek rfl nofun hstored htype hkey hmissing⟩

/-- A frame that names version 0 is read, although no version 0 exists. -/
theorem read_frame_zero :
    ∃ (body : Bytes) (w : World Store Unit), Store.Reaches ∅ w.registry ∧
      (∀ dek ∈ w.registry.file ⟨"k", "s", "AES256_SIV"⟩, dek.version ≠ 0) ∧
      Sample.readFrame ⟨0, body⟩ w = .ok (some (.bytes [104, 105])) := by
  obtain ⟨body, w, hwritten, hfiled, hreached, dek, hfile, hversion⟩ := Sample.exists_framed
  have hnumbered : ∀ d ∈ w.registry.file ⟨"k", "s", "AES256_SIV"⟩, d.version ≠ 0 := by
    intro d hd
    rw [hfile] at hd
    rw [List.mem_singleton.mp hd, hversion]
    decide
  have hreads : Sample.readFrame ⟨1, body⟩ w = .ok (some (.bytes [104, 105])) :=
    Sample.read_written hwritten (.refl w) hfiled Sample.ring_reader (by decide)
  -- The look-up of version 0 finds the first version, which is the only one.
  have hfound : ∀ v : UInt32, v = 0 ∨ v = 1 →
      w.registry.getDek ((Sample.ring 1).dekId "s" (some v)) true = .ok dek := by
    intro v hv
    have hmem : dek ∈ w.registry.file ⟨"k", "s", "AES256_SIV"⟩ := by
      rw [hfile]
      exact List.mem_singleton_self dek
    refine hreached.getDek_eq_ok_iff.mpr ⟨hmem, ?_⟩
    rcases hv with rfl | rfl
    · have hgreatest : ∀ d ∈ w.registry.file ⟨"k", "s", "AES256_SIV"⟩,
          d.version ≤ dek.version := by
        intro d hd
        rw [hfile] at hd
        rw [List.mem_singleton.mp hd]
        exact UInt32.le_refl _
      exact hgreatest
    · exact hversion
  have hsame : ∀ url, w.decrypted (Sample.ring 1) url "s" .bytes (Frame.encode ⟨0, body⟩) =
      w.decrypted (Sample.ring 1) url "s" .bytes (Frame.encode ⟨1, body⟩) := by
    intro url
    apply decrypted_frame_congr rfl
    rw [hfound 0 (.inl rfl), hfound 1 (.inr rfl)]
  obtain ⟨url, htaken, hurl, hvalue⟩ := Sample.resolved_of_read hreads
  obtain ⟨hzero, -⟩ := run_reading w Sample.executor .field
    (rfl : (Sample.reader "1").mode = .read) .bytes (some (.bytes (Frame.encode ⟨0, body⟩)))
  refine ⟨body, w, hreached, hnumbered, hzero.trans ?_⟩
  rw [reading_of_resolved htaken hurl, ← hvalue]
  exact congrArg (Except.map some) (hsame url)

end World
end Envelope
