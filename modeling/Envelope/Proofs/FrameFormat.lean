import Envelope.Proofs.Carriage

/-!
# The format of frames

A frame is written as the marker, the version in four bytes, most significant
first, and the body (`encode_eq_iff`).  These are all byte strings of at least
five bytes that begin with the marker (`exists_encode_iff`), each of them is
written for one frame, which is read back from it, and every other byte string
is refused for its length or for its first byte (`decode_eq_error_iff`).
-/

namespace Envelope
namespace Frame

variable {bytes : Bytes} {frame : Frame}

theorem encode_injective : Function.Injective encode := by
  intro frame frame' h
  have hdecode : decode (encode frame) = .ok frame' := decode_eq_ok_iff.mpr h
  exact Except.ok.inj ((decode_encode frame).symm.trans hdecode)

/-- The number of four digits, most significant first. -/
theorem toNat_four (a b c d : UInt8) :
    Bytes.toNat [a, b, c, d] =
      a.toNat * 16777216 + b.toNat * 65536 + c.toNat * 256 + d.toNat := by
  simp only [Bytes.toNat, List.foldl_cons, List.foldl_nil]
  omega

/-- The four bytes of the version lie between the marker and the body. -/
theorem encode_eq_iff :
    encode frame = bytes ↔ ∃ a b c d : UInt8, bytes = 0 :: a :: b :: c :: d :: frame.body ∧
      frame.version.toNat =
        a.toNat * 16777216 + b.toNat * 65536 + c.toNat * 256 + d.toNat := by
  constructor
  · rintro rfl
    have hlength := Bytes.length_ofNat 4 frame.version.toNat
    match hdigits : Bytes.ofNat 4 frame.version.toNat, hlength with
    | [a, b, c, d], _ =>
      refine ⟨a, b, c, d, ?_, ?_⟩
      · rw [encode, hdigits]
        rfl
      · rw [← toNat_four, ← hdigits, Bytes.toNat_ofNat]
        exact (Nat.mod_eq_of_lt frame.version.toNat_lt).symm
  · rintro ⟨a, b, c, d, rfl, hversion⟩
    have hdigits : Bytes.ofNat 4 (Bytes.toNat [a, b, c, d]) = [a, b, c, d] :=
      Bytes.ofNat_toNat [a, b, c, d]
    rw [encode, hversion, ← toNat_four, hdigits]
    rfl

theorem decode_of_short (h : bytes.length < 5) :
    decode bytes = .error (.truncated bytes.length) := by
  unfold decode
  split
  · exact absurd h (by simp)
  · rfl

/-- A whole header is refused for its first byte alone. -/
theorem decode_of_marker_ne {first : UInt8} {rest : Bytes} (hlong : 5 ≤ (first :: rest).length)
    (hne : first ≠ 0) : decode (first :: rest) = .error (.unknownMarker first) := by
  match rest, hlong with
  | a :: b :: c :: d :: body, _ => exact if_neg hne

theorem exists_decode_of_marker {rest : Bytes} (hlong : 5 ≤ (0 :: rest : Bytes).length) :
    ∃ frame, decode (0 :: rest) = .ok frame := by
  match rest, hlong with
  | a :: b :: c :: d :: body, _ => exact ⟨_, rfl⟩

/-- The length is looked at first, then the first byte. -/
theorem decode_eq_error_iff {cause : Error} :
    decode bytes = .error cause ↔
      (bytes.length < 5 ∧ cause = .truncated bytes.length) ∨
        ∃ first rest, bytes = first :: rest ∧ 5 ≤ bytes.length ∧ first ≠ 0 ∧
          cause = .unknownMarker first := by
  constructor
  · intro h
    by_cases hshort : bytes.length < 5
    · rw [decode_of_short hshort] at h
      exact .inl ⟨hshort, (Except.error.inj h).symm⟩
    · have hlong := Nat.not_lt.mp hshort
      have hpos : 0 < bytes.length := Nat.lt_of_lt_of_le (by decide) hlong
      obtain ⟨first, rest, rfl⟩ := List.exists_cons_of_length_pos hpos
      by_cases hmarker : first = 0
      · subst hmarker
        obtain ⟨frame, hframe⟩ := exists_decode_of_marker hlong
        nomatch h.symm.trans hframe
      · rw [decode_of_marker_ne hlong hmarker] at h
        exact .inr ⟨first, rest, rfl, hlong, hmarker, (Except.error.inj h).symm⟩
  · rintro (⟨hshort, rfl⟩ | ⟨first, rest, rfl, hlong, hne, rfl⟩)
    · exact decode_of_short hshort
    · exact decode_of_marker_ne hlong hne

/-- The written forms are the byte strings with a whole header that begin with
the marker. -/
theorem exists_encode_iff :
    (∃ frame, encode frame = bytes) ↔ 5 ≤ bytes.length ∧ bytes.head? = some 0 := by
  constructor
  · rintro ⟨frame, h⟩
    obtain ⟨a, b, c, d, rfl, -⟩ := encode_eq_iff.mp h
    simp
  · rintro ⟨hlong, hhead⟩
    obtain ⟨rest, rfl⟩ := List.head?_eq_some_iff.mp hhead
    obtain ⟨frame, hframe⟩ := exists_decode_of_marker hlong
    exact ⟨frame, (decode_eq_ok_iff.mp hframe).symm⟩

/-- Framing is a bijection onto its format.  A version and a ciphertext are read
back from their frame, a byte string that is read is the frame of what was read,
and no two pairs have one frame.  The frames are the byte strings of at least
five bytes that begin with the marker, with the version in the next four bytes;
a shorter byte string is refused for its length whatever it begins with, and a
longer one with another first byte for this byte. -/
theorem framing_bijective :
    (∀ (version : UInt32) (sealed : Bytes),
      decode (encode ⟨version, sealed⟩) = .ok ⟨version, sealed⟩) ∧
    (∀ bytes frame, decode bytes = .ok frame ↔ encode frame = bytes) ∧
    (∀ bytes cause, decode bytes = .error cause ↔
      (bytes.length < 5 ∧ cause = .truncated bytes.length) ∨
        ∃ first rest, bytes = first :: rest ∧ 5 ≤ bytes.length ∧ first ≠ 0 ∧
          cause = .unknownMarker first) ∧
    Function.Injective encode ∧
    (∀ bytes, (∃ frame, encode frame = bytes) ↔ 5 ≤ bytes.length ∧ bytes.head? = some 0) ∧
    ∀ frame bytes, encode frame = bytes ↔
      ∃ a b c d : UInt8, bytes = 0 :: a :: b :: c :: d :: frame.body ∧
        frame.version.toNat =
          a.toNat * 16777216 + b.toNat * 65536 + c.toNat * 256 + d.toNat := by
  refine ⟨?_, ?_, ?_, encode_injective, ?_, ?_⟩
  · intro version sealed
    exact decode_encode ⟨version, sealed⟩
  · intro bytes frame
    rw [decode_eq_ok_iff]
    exact eq_comm
  · intro bytes cause
    exact decode_eq_error_iff
  · intro bytes
    exact exists_encode_iff
  · intro frame bytes
    exact encode_eq_iff

/-- A version of four different bytes; a text with the marker alone and one that
is refused for its first byte. -/
example :
    encode ⟨0x01020304, [9]⟩ = [0, 1, 2, 3, 4, 9] ∧ decode [0] = .error (.truncated 1) ∧
      decode [1, 0, 0, 0, 1] = .error (.unknownMarker 1) := by
  decide

end Frame
end Envelope
