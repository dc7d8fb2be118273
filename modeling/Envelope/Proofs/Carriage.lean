import Envelope.Cryptor
import Envelope.Frame
import Envelope.Proofs.Trace
import Mathlib.Algebra.Group.Nat.Defs
import Mathlib.Data.List.Basic
import Mathlib.Data.List.Induction
import Mathlib.Tactic.ByContra

/-!
# Carrying ciphertexts

What a writer puts around a value can be taken off again: base64 text, frames,
the bytes of a text, and the ciphertext itself.
-/

namespace Envelope

namespace Bytes

theorem toNat_append_singleton (bytes : Bytes) (b : UInt8) :
    toNat (bytes ++ [b]) = toNat bytes * 256 + b.toNat := by
  simp [toNat]

/-- Digits beyond the width are lost. -/
theorem toNat_ofNat (width n : Nat) : toNat (ofNat width n) = n % 256 ^ width := by
  induction width generalizing n with
  | zero => simp [ofNat, toNat, Nat.mod_one]
  | succ width ih =>
    have hlow : (UInt8.ofNat n).toNat = n % 256 := UInt8.toNat_ofNat'
    rw [ofNat, toNat_append_singleton, ih, hlow, Nat.pow_succ', Nat.mod_mul]
    omega

/-- The digits of the number that bytes write are these bytes. -/
theorem ofNat_toNat (bytes : Bytes) : ofNat bytes.length (toNat bytes) = bytes := by
  induction bytes using List.reverseRecOn with
  | nil => rfl
  | append_singleton bytes b ih =>
    have hb := b.toNat_lt
    have hhigh : (toNat bytes * 256 + b.toNat) / 256 = toNat bytes := by omega
    have hlow : UInt8.ofNat (toNat bytes * 256 + b.toNat) = b := by
      apply UInt8.toNat_inj.mp
      rw [UInt8.toNat_ofNat']
      omega
    rw [List.length_append, List.length_singleton, toNat_append_singleton, ofNat, hhigh, hlow, ih]

theorem toNat_lt (bytes : Bytes) : toNat bytes < 256 ^ bytes.length := by
  have hmod : toNat bytes = toNat bytes % 256 ^ bytes.length := by
    rw [← toNat_ofNat, ofNat_toNat]
  rw [hmod]
  exact Nat.mod_lt _ (Nat.pow_pos (by decide))

end Bytes

namespace Frame

/-- A frame can be read back from its written form. -/
theorem decode_encode (frame : Frame) : decode (encode frame) = .ok frame := by
  have hlength := Bytes.length_ofNat 4 frame.version.toNat
  match hdigits : Bytes.ofNat 4 frame.version.toNat, hlength with
  | [a, b, c, d], _ =>
    have hversion : Bytes.toNat [a, b, c, d] = frame.version.toNat := by
      rw [← hdigits, Bytes.toNat_ofNat]
      exact Nat.mod_eq_of_lt frame.version.toNat_lt
    simp only [encode, hdigits, List.cons_append, List.nil_append, decode, if_true, hversion,
      UInt32.ofNat_toNat]

/-- Bytes that can be read as a frame are its written form. -/
theorem decode_eq_ok_iff {bytes : Bytes} {frame : Frame} :
    decode bytes = .ok frame ↔ bytes = encode frame := by
  constructor
  · intro h
    unfold decode at h
    split at h
    · rename_i first a b c d body
      split at h
      · rename_i hmarker
        obtain rfl := Except.ok.inj h
        have hlt : Bytes.toNat [a, b, c, d] < 2 ^ 32 :=
          Nat.lt_of_lt_of_eq (Bytes.toNat_lt [a, b, c, d]) (by simp)
        have hversion : (UInt32.ofNat (Bytes.toNat [a, b, c, d])).toNat =
            Bytes.toNat [a, b, c, d] := by
          rw [UInt32.toNat_ofNat']
          exact Nat.mod_eq_of_lt hlt
        have hdigits : Bytes.ofNat 4 (Bytes.toNat [a, b, c, d]) = [a, b, c, d] :=
          Bytes.ofNat_toNat [a, b, c, d]
        rw [encode, hversion, hdigits, hmarker]
        rfl
      · cases h
    · cases h
  · rintro rfl
    exact decode_encode frame

end Frame

namespace Utf8

/-- The bytes of a text are those of no other text. -/
theorem decode_encode (text : String) : decode (encode text) = .ok text := by
  have hbytes : (⟨(encode text).toArray⟩ : ByteArray) = text.toByteArray := by
    simp [encode]
  unfold decode String.fromUTF8?
  rw [hbytes, dif_pos text.isValidUTF8]
  rfl

/-- A text of small characters has one byte for each of them. -/
theorem encode_ofList {l : Bytes} (h : ∀ b ∈ l, b < 128) :
    encode (String.ofList (l.map fun b => Char.ofNat b.toNat)) = l := by
  have hsmall : ∀ n < 128, String.utf8EncodeChar (Char.ofNat n) = [UInt8.ofNat n] := by
    decide +kernel
  have hchar : ∀ b : UInt8, b < 128 → String.utf8EncodeChar (Char.ofNat b.toNat) = [b] := by
    intro b hb
    rw [hsmall b.toNat hb, UInt8.ofNat_toNat]
  have hflat : (l.map fun b => Char.ofNat b.toNat).flatMap String.utf8EncodeChar = l := by
    rw [List.flatMap_map]
    calc
      l.flatMap (fun b => String.utf8EncodeChar (Char.ofNat b.toNat)) = l.flatMap fun b => [b] :=
        List.flatMap_congr fun b hb => hchar b (h b hb)
      _ = l := List.flatMap_singleton' l
  unfold encode
  rw [String.toUTF8_eq_toByteArray, String.toByteArray_ofList, List.utf8Encode, hflat]
  simp

end Utf8

namespace Base64

theorem value?_symbol : ∀ n < 64, value? (symbol n) = some n := by
  decide

theorem symbol_lt : ∀ n < 64, symbol n < 128 := by
  decide

theorem symbol_ne_padding : ∀ n < 64, symbol n ≠ padding := by
  decide

theorem length_encodeBytes (bytes : Bytes) :
    (encodeBytes bytes).length = 4 * ((bytes.length + 2) / 3) := by
  fun_induction encodeBytes bytes with
  | case1 a b c rest n ih => simp only [List.length_cons, ih]; omega
  | case2 => simp
  | case3 => simp
  | case4 => rfl

theorem encodeBytes_lt (bytes : Bytes) : ∀ s ∈ encodeBytes bytes, s < 128 := by
  have hpadding : padding < 128 := by decide
  fun_induction encodeBytes bytes with
  | case1 a b c rest n ih =>
    have hn : n / 262144 < 64 := by
      have := a.toNat_lt
      have := b.toNat_lt
      have := c.toNat_lt
      omega
    simp only [List.forall_mem_cons]
    exact ⟨symbol_lt _ hn, symbol_lt _ (by omega), symbol_lt _ (by omega), symbol_lt _ (by omega),
      ih⟩
  | case2 a b n =>
    have hn : n / 1024 < 64 := by
      have := a.toNat_lt
      have := b.toNat_lt
      omega
    simp only [List.forall_mem_cons]
    exact ⟨symbol_lt _ hn, symbol_lt _ (by omega), symbol_lt _ (by omega), hpadding, by simp⟩
  | case3 a =>
    have ha := a.toNat_lt
    simp only [List.forall_mem_cons]
    exact ⟨symbol_lt _ (by omega), symbol_lt _ (by omega), hpadding, hpadding, by simp⟩
  | case4 => simp

/-- The text of a byte string is that of its symbols. -/
theorem encode_encode (bytes : Bytes) : Utf8.encode (encode bytes) = encodeBytes bytes :=
  Utf8.encode_ofList (encodeBytes_lt bytes)

/-! ## Decoding -/

theorem valueAt_symbol (offset : Nat) {n : Nat} (h : n < 64) :
    valueAt offset (symbol n) = .ok n := by
  rw [valueAt, value?_symbol n h]

theorem decodeTail_four (offset : Nat) {p q r s : Nat} (hp : p < 64) (hq : q < 64) (hr : r < 64)
    (hs : s < 64) :
    decodeTail offset [symbol p, symbol q, symbol r, symbol s] = .ok (ofValues p q r s) := by
  have hscan : scanTail offset [] 0 [symbol p, symbol q, symbol r, symbol s] =
      .ok ([p, q, r, s], 0) := by
    simp [scanTail, symbol_ne_padding, value?_symbol, hp, hq, hr, hs]
  rw [decodeTail, hscan]
  simp [bind, Except.bind, pure, Except.pure]

theorem decodeTail_three (offset : Nat) {p q r : Nat} (hp : p < 64) (hq : q < 64) (hr : r < 64)
    (hlast : r % 4 = 0) :
    decodeTail offset [symbol p, symbol q, symbol r, padding] =
      .ok ((ofValues p q r 0).take 2) := by
  have hscan : scanTail offset [] 0 [symbol p, symbol q, symbol r, padding] =
      .ok ([p, q, r], 1) := by
    simp [scanTail, symbol_ne_padding, value?_symbol, hp, hq, hr]
  rw [decodeTail, hscan]
  simp [bind, Except.bind, hlast, pure, Except.pure]

theorem decodeTail_two (offset : Nat) {p q : Nat} (hp : p < 64) (hq : q < 64)
    (hlast : q % 16 = 0) :
    decodeTail offset [symbol p, symbol q, padding, padding] =
      .ok ((ofValues p q 0 0).take 1) := by
  have hscan : scanTail offset [] 0 [symbol p, symbol q, padding, padding] =
      .ok ([p, q], 2) := by
    simp [scanTail, symbol_ne_padding, value?_symbol, hp, hq]
  rw [decodeTail, hscan]
  simp [bind, Except.bind, hlast, pure, Except.pure]

theorem decodeFrom_encodeBytes (offset : Nat) (bytes : Bytes) :
    decodeFrom offset (encodeBytes bytes) = .ok bytes := by
  fun_induction encodeBytes bytes generalizing offset with
  | case1 a b c rest n ih =>
    have ha := a.toNat_lt
    have hb := b.toNat_lt
    have hc := c.toNat_lt
    have hn : n / 262144 < 64 := by omega
    have hvalues : ofValues (n / 262144) (n / 4096 % 64) (n / 64 % 64) (n % 64) = [a, b, c] := by
      rw [ofValues, show ((n / 262144 * 64 + n / 4096 % 64) * 64 + n / 64 % 64) * 64 + n % 64 = n
        by omega]
      simpa [Bytes.toNat] using Bytes.ofNat_toNat [a, b, c]
    cases hrest : encodeBytes rest with
    | nil =>
      have hlength := length_encodeBytes rest
      rw [hrest, List.length_nil] at hlength
      obtain rfl : rest = [] := List.eq_nil_of_length_eq_zero (by omega)
      show decodeTail offset _ = _
      rw [decodeTail_four offset hn (by omega) (by omega) (by omega), hvalues]
    | cons e more =>
      rw [hrest] at ih
      rw [decodeFrom, valueAt_symbol _ hn, valueAt_symbol _ (by omega),
        valueAt_symbol _ (by omega), valueAt_symbol _ (by omega), ih]
      show Except.ok (ofValues _ _ _ _ ++ rest) = _
      rw [hvalues]
      rfl
  | case2 a b n =>
    have ha := a.toNat_lt
    have hb := b.toNat_lt
    have hvalues : ofValues (n / 1024) (n / 16 % 64) (n % 16 * 4) 0 = [a, b, 0] := by
      rw [ofValues, show ((n / 1024 * 64 + n / 16 % 64) * 64 + n % 16 * 4) * 64 + 0 = n * 256 + 0
        by omega]
      simpa [Bytes.toNat] using Bytes.ofNat_toNat [a, b, 0]
    show decodeTail offset _ = _
    rw [decodeTail_three offset (by omega) (by omega) (by omega) (by omega), hvalues]
    rfl
  | case3 a =>
    have ha := a.toNat_lt
    have hvalues : ofValues (a.toNat / 4) (a.toNat % 4 * 16) 0 0 = [a, 0, 0] := by
      rw [ofValues, show ((a.toNat / 4 * 64 + a.toNat % 4 * 16) * 64 + 0) * 64 + 0 =
        (a.toNat * 256 + 0) * 256 + 0 by omega]
      simpa [Bytes.toNat] using Bytes.ofNat_toNat [a, 0, 0]
    show decodeTail offset _ = _
    rw [decodeTail_two offset (by omega) (by omega) (by omega), hvalues]
    rfl
  | case4 => rfl

/-- A byte string can be read back from its symbols. -/
theorem decode_encodeBytes (bytes : Bytes) : decode (encodeBytes bytes) = .ok bytes := by
  have hlength := length_encodeBytes bytes
  have hfrom := decodeFrom_encodeBytes 0 bytes
  unfold decode
  split
  · rename_i hlast
    rw [List.getLast?_eq_none_iff.mp hlast] at hfrom
    exact hfrom
  · rw [if_neg (by omega), hfrom]

end Base64

/-- Key material that was encoded can be decoded. -/
theorem Dek.decodeMaterial_encode (bytes : Bytes) :
    Dek.decodeMaterial (Base64.encode bytes) = .ok bytes := by
  rw [Dek.decodeMaterial, Base64.encode_encode, Base64.decode_encodeBytes]

namespace Cryptor

open Program

/-- A fresh key has the length of its algorithm. -/
theorem generateKey_comesTo {c : Cryptor} {t : List (Exchange Draw.signature)}
    {r : Except CipherError KeyMaterial} (h : ComesTo c.generateKey t r) :
    (∃ e, c.algorithm = .error e ∧ t = [] ∧ r = .error e) ∨
      ∃ a, c.algorithm = .ok a ∧ ∃ key, t = [⟨a.keyLength, key⟩] ∧ r = .ok ⟨key.val⟩ := by
  unfold generateKey at h
  rcases comesTo_except_bind.mp h with ⟨e, halgorithm, rfl, rfl⟩ | ⟨a, halgorithm, hdraw⟩
  · exact .inl ⟨e, halgorithm, rfl, rfl⟩
  · obtain ⟨key, u, rfl, hreturn⟩ := comesTo_request_bind.mp hdraw
    obtain ⟨rfl, rfl⟩ := comesTo_pure.mp hreturn
    exact .inr ⟨a, halgorithm, key, rfl, rfl⟩

/-- An algorithm is chosen for the keys of its length. -/
theorem algorithmFor_eq_ok_iff {c : Cryptor} {a : Algorithm} {key : Bytes} :
    c.algorithmFor key = .ok a ↔ c.algorithm = .ok a ∧ key.length = a.keyLength := by
  unfold algorithmFor
  rw [bind_eq_ok_iff]
  constructor
  · rintro ⟨a', halgorithm, h⟩
    obtain ⟨hlength, h⟩ := check_eq_ok_iff.mp h
    obtain rfl := Except.ok.inj h
    exact ⟨halgorithm, Decidable.not_not.mp hlength⟩
  · rintro ⟨halgorithm, hlength⟩
    exact ⟨a, halgorithm, check_eq_ok_iff.mpr ⟨Decidable.not_not.mpr hlength, rfl⟩⟩

/-- What has been sealed with a whole nonce can be opened. -/
theorem decrypt_of_sealWith {c : Cryptor} {a : Algorithm} {key nonce aad plain sealed : Bytes}
    (halgorithm : c.algorithmFor key = .ok a)
    (hnonce : a.isDeterministic = false → nonce.length = nonceLength)
    (h : sealWith a key nonce aad plain = .ok sealed) : c.decrypt key sealed aad = .ok plain := by
  have opened : ∀ {text : Bytes}, nonce.length = nonceLength → sealed = nonce ++ text →
      sealed.take nonceLength = nonce ∧ sealed.drop nonceLength = text ∧
        ¬ sealed.length < nonceLength := by
    rintro text hlength rfl
    refine ⟨List.take_left' hlength, List.drop_left' hlength, ?_⟩
    rw [List.length_append, hlength]
    omega
  unfold decrypt
  rw [halgorithm]
  cases a with
  | aes256Siv =>
    obtain rfl := Except.ok.inj h
    have hopen := Cipher.Siv.decrypt_eq_some_iff.mpr (rfl : Cipher.Siv.encrypt
      (Cipher.Aes.cipher (key.take 32)) (Cipher.Aes.cipher (key.drop 32)) aad plain = _)
    simp only [bind, Except.bind, pure, Except.pure, hopen]
  | aes128Gcm =>
    simp only [sealWith] at h
    split at h
    · rename_i text hseal
      obtain ⟨htake, hdrop, hlong⟩ := opened (hnonce rfl) (Except.ok.inj h).symm
      have hopen := Cipher.Gcm.decrypt_eq_some_iff.mpr hseal
      simp only [bind, Except.bind, pure, Except.pure, if_neg hlong, htake, hdrop, hopen]
    · cases h
  | aes256Gcm =>
    simp only [sealWith] at h
    split at h
    · rename_i text hseal
      obtain ⟨htake, hdrop, hlong⟩ := opened (hnonce rfl) (Except.ok.inj h).symm
      have hopen := Cipher.Gcm.decrypt_eq_some_iff.mpr hseal
      simp only [bind, Except.bind, pure, Except.pure, if_neg hlong, htake, hdrop, hopen]
    · cases h

/-- A value is sealed with a whole nonce, unless the algorithm needs none. -/
theorem encrypt_comesTo {c : Cryptor} {key plain aad : Bytes} {t : List (Exchange Draw.signature)}
    {r : Except CipherError Bytes} (h : ComesTo (c.encrypt key plain aad) t r) :
    (∃ e, c.algorithmFor key = .error e ∧ r = .error e) ∨
      ∃ a nonce, c.algorithmFor key = .ok a ∧
        (a.isDeterministic = false → nonce.length = nonceLength) ∧
        r = sealWith a key nonce aad plain := by
  unfold encrypt at h
  rcases comesTo_except_bind.mp h with ⟨e, halgorithm, -, rfl⟩ | ⟨a, halgorithm, hseal⟩
  · exact .inl ⟨e, halgorithm, rfl⟩
  by_cases hdeterministic : a.isDeterministic = true
  · rw [if_pos hdeterministic] at hseal
    obtain ⟨-, rfl⟩ := comesTo_except.mp hseal
    refine .inr ⟨a, [], halgorithm, fun hrandom => ?_, rfl⟩
    rw [hdeterministic] at hrandom
    cases hrandom
  · rw [if_neg hdeterministic] at hseal
    obtain ⟨t₁, t₂, nonce, -, hwith, rfl⟩ := comesTo_lift_bind.mp hseal
    obtain ⟨-, rfl⟩ := comesTo_except.mp hwith
    exact .inr ⟨a, nonce.val, halgorithm, fun _ => nonce.property, rfl⟩

/-- Whatever is drawn, an encrypted value can be decrypted. -/
theorem decrypt_of_encrypt {c : Cryptor} {key plain aad sealed : Bytes}
    {t : List (Exchange Draw.signature)} (h : ComesTo (c.encrypt key plain aad) t (.ok sealed)) :
    c.decrypt key sealed aad = .ok plain := by
  rcases encrypt_comesTo h with ⟨e, -, hr⟩ | ⟨a, nonce, halgorithm, hnonce, hsealed⟩
  · cases hr
  · exact decrypt_of_sealWith halgorithm hnonce hsealed.symm

/-- Only a randomised algorithm refuses a value, and only one that is too long. -/
theorem sealWith_error {a : Algorithm} {key nonce aad plain : Bytes} {e : CipherError}
    (h : sealWith a key nonce aad plain = .error e) :
    e = .aeadFailure ∧ a.isDeterministic = false ∧
      (Cipher.maxLength < plain.length ∨ Cipher.maxLength < aad.length) := by
  have hlong : ∀ {cipher : Cipher.BlockCipher},
      Cipher.Gcm.encrypt cipher nonce aad plain = none →
      Cipher.maxLength < plain.length ∨ Cipher.maxLength < aad.length := by
    intro cipher hnone
    by_contra hshort
    rw [Cipher.Gcm.encrypt, if_neg hshort] at hnone
    cases hnone
  unfold sealWith at h
  split at h
  · cases h
  · split at h
    · cases h
    · rename_i hnone
      exact ⟨(Except.error.inj h).symm, rfl, hlong hnone⟩
  · split at h
    · cases h
    · rename_i hnone
      exact ⟨(Except.error.inj h).symm, rfl, hlong hnone⟩

/-- A supported algorithm refuses keys of another length and, if it is
randomised, inputs that are too long. -/
theorem encrypt_error {c : Cryptor} {a : Algorithm} {key plain aad : Bytes}
    {t : List (Exchange Draw.signature)} {e : CipherError} (halgorithm : c.algorithm = .ok a)
    (h : ComesTo (c.encrypt key plain aad) t (.error e)) :
    (e = .invalidKeyLength a.keyLength key.length ∧ key.length ≠ a.keyLength) ∨
      (e = .aeadFailure ∧ a.isDeterministic = false ∧
        (Cipher.maxLength < plain.length ∨ Cipher.maxLength < aad.length)) := by
  by_cases hlength : key.length = a.keyLength
  · have hchosen := algorithmFor_eq_ok_iff.mpr ⟨halgorithm, hlength⟩
    rcases encrypt_comesTo h with ⟨e', hrefused, -⟩ | ⟨a', nonce, hchosen', -, hsealed⟩
    · rw [hchosen] at hrefused
      cases hrefused
    · obtain rfl := Except.ok.inj (hchosen.symm.trans hchosen')
      exact .inr (sealWith_error hsealed.symm)
  · have hrefused : c.algorithmFor key =
        .error (.invalidKeyLength a.keyLength key.length) := by
      simp [algorithmFor, halgorithm, hlength, bind, Except.bind, throw, throwThe,
        MonadExceptOf.throw]
    rcases encrypt_comesTo h with ⟨e', hrefused', hr⟩ | ⟨a', nonce, hchosen, -, -⟩
    · obtain rfl := Except.error.inj (hrefused.symm.trans hrefused')
      exact .inl ⟨Except.error.inj hr, hlength⟩
    · rw [hrefused] at hchosen
      cases hchosen

end Cryptor
end Envelope
