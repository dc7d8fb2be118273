import Envelope.Proofs.Carriage

/-!
# Canonical texts

What is read back from a text is written as this very text, and no other one.
UTF-8 and base64 decode nothing but what they have encoded
(`Utf8.decode_eq_ok_iff`, `Base64.decode_eq_ok_iff`), so that a text has at most
one meaning and a byte string exactly one text.
-/

namespace Envelope

namespace Utf8

/-- Bytes that can be read as a text are the bytes of this text. -/
theorem decode_eq_ok_iff {bytes : Bytes} {text : String} :
    decode bytes = .ok text ↔ bytes = encode text := by
  constructor
  · intro h
    unfold decode String.fromUTF8? at h
    split at h
    · rename_i found hfound
      obtain rfl := Except.ok.inj h
      by_cases hvalid : (⟨bytes.toArray⟩ : ByteArray).IsValidUTF8
      · rw [dif_pos hvalid] at hfound
        obtain rfl := Option.some.inj hfound
        rfl
      · rw [dif_neg hvalid] at hfound
        cases hfound
    · cases h
  · rintro rfl
    exact decode_encode text

theorem encode_injective : Function.Injective encode := by
  intro text text' h
  have hdecode : decode (encode text) = .ok text' := decode_eq_ok_iff.mpr h
  exact Except.ok.inj ((decode_encode text).symm.trans hdecode)

end Utf8

namespace Base64

/-! ## Symbols -/

/-- A byte with a number is the symbol of this number. -/
theorem eq_symbol_of_value? {b : UInt8} {v : Nat} (h : value? b = some v) :
    v < 64 ∧ b = symbol v := by
  have hsmall : ∀ n < 256, ∀ v ∈ value? (UInt8.ofNat n), v < 64 ∧ UInt8.ofNat n = symbol v := by
    decide +kernel
  have hb := hsmall b.toNat b.toNat_lt v
  rw [UInt8.ofNat_toNat] at hb
  exact hb h

theorem eq_symbol_of_valueAt {offset : Nat} {b : UInt8} {v : Nat}
    (h : valueAt offset b = .ok v) : v < 64 ∧ b = symbol v := by
  unfold valueAt at h
  split at h
  · rename_i v' hvalue
    obtain rfl := Except.ok.inj h
    exact eq_symbol_of_value? hvalue
  · cases h

/-! ## Groups -/

theorem ofNat_three (n : Nat) :
    Bytes.ofNat 3 n = [UInt8.ofNat (n / 65536), UInt8.ofNat (n / 256), UInt8.ofNat n] := by
  have hhigh : n / 256 / 256 = n / 65536 := Nat.div_div_eq_div_mul n 256 256
  simp [Bytes.ofNat, hhigh]

/-- Four symbols are written for the three bytes that they are read as. -/
theorem encodeBytes_ofValues_append {p q r s : Nat} (hp : p < 64) (hq : q < 64) (hr : r < 64)
    (hs : s < 64) (rest : Bytes) :
    encodeBytes (ofValues p q r s ++ rest) =
      symbol p :: symbol q :: symbol r :: symbol s :: encodeBytes rest := by
  rw [ofValues, ofNat_three]
  simp only [List.cons_append, List.nil_append, encodeBytes, UInt8.toNat_ofNat']
  generalize hn : ((p * 64 + q) * 64 + r) * 64 + s = n
  have hwhole : (n / 65536 % 2 ^ 8 * 256 + n / 256 % 2 ^ 8) * 256 + n % 2 ^ 8 = n := by
    omega
  have hvalues : n / 262144 = p ∧ n / 4096 % 64 = q ∧ n / 64 % 64 = r ∧ n % 64 = s := by
    omega
  obtain ⟨hp', hq', hr', hs'⟩ := hvalues
  rw [hwhole, hp', hq', hr', hs']

theorem encodeBytes_take_two {p q r : Nat} (hp : p < 64) (hq : q < 64) (hr : r < 64)
    (hlast : r % 4 = 0) :
    encodeBytes ((ofValues p q r 0).take 2) = [symbol p, symbol q, symbol r, padding] := by
  rw [ofValues, ofNat_three]
  simp only [List.take_succ_cons, List.take_zero, encodeBytes, UInt8.toNat_ofNat']
  generalize hn : ((p * 64 + q) * 64 + r) * 64 + 0 = n
  have hwhole : n / 65536 % 2 ^ 8 * 256 + n / 256 % 2 ^ 8 = n / 256 := by
    omega
  have hvalues : n / 256 / 1024 = p ∧ n / 256 / 16 % 64 = q ∧ n / 256 % 16 * 4 = r := by
    omega
  obtain ⟨hp', hq', hr'⟩ := hvalues
  rw [hwhole, hp', hq', hr']

theorem encodeBytes_take_one {p q : Nat} (hp : p < 64) (hq : q < 64) (hlast : q % 16 = 0) :
    encodeBytes ((ofValues p q 0 0).take 1) = [symbol p, symbol q, padding, padding] := by
  rw [ofValues, ofNat_three]
  simp only [List.take_succ_cons, List.take_zero, encodeBytes, UInt8.toNat_ofNat']
  generalize hn : ((p * 64 + q) * 64 + 0) * 64 + 0 = n
  have hvalues : n / 65536 % 2 ^ 8 / 4 = p ∧ n / 65536 % 2 ^ 8 % 4 * 16 = q := by
    omega
  obtain ⟨hp', hq'⟩ := hvalues
  rw [hp', hq']

/-- The last group, as it was scanned: symbols, and then padding. -/
theorem scanTail_eq_ok {offset pads pads' : Nat} {values values' : List Nat} {tail : Bytes}
    (h : scanTail offset values pads tail = .ok (values', pads')) :
    ∃ more n, values' = values ++ more ∧ pads' = pads + n ∧ (0 < pads → more = []) ∧
      (∀ v ∈ more, v < 64) ∧ tail = more.map symbol ++ List.replicate n padding := by
  induction tail generalizing values pads with
  | nil =>
    obtain ⟨rfl, rfl⟩ := Prod.mk.inj (Except.ok.inj h)
    exact ⟨[], 0, (List.append_nil _).symm, rfl, fun _ => rfl, nofun, rfl⟩
  | cons b rest ih =>
    unfold scanTail at h
    dsimp only at h
    by_cases hpadding : b = padding
    · rw [if_pos hpadding] at h
      split at h
      · cases h
      · -- after padding there is nothing but padding
        obtain ⟨more, n, rfl, rfl, hdone, -, rfl⟩ := ih h
        obtain rfl : more = [] := hdone (Nat.succ_pos _)
        refine ⟨[], n + 1, rfl, Nat.add_right_comm _ _ _, fun _ => rfl, nofun, ?_⟩
        rw [hpadding]
        rfl
    · rw [if_neg hpadding] at h
      split at h
      · cases h
      · rename_i hpads
        split at h
        · rename_i v hvalue
          obtain ⟨hv, rfl⟩ := eq_symbol_of_value? hvalue
          obtain ⟨more, n, rfl, rfl, -, hmore, rfl⟩ := ih h
          refine ⟨v :: more, n, List.append_assoc _ _ _, rfl, fun h => absurd h hpads, ?_, rfl⟩
          exact List.forall_mem_cons.mpr ⟨hv, hmore⟩
        · cases h

/-- The numbers of a last group with its padding, and the bytes that they are
read as.  The bits beyond the last whole byte are not set. -/
inductive LastGroup : (values : List Nat) → (pads : Nat) → Bytes → Prop where
  | absent : LastGroup [] 0 []
  | whole (p q r s : Nat) : LastGroup [p, q, r, s] 0 (ofValues p q r s)
  | two (p q r : Nat) (hlast : r % 4 = 0) : LastGroup [p, q, r] 1 ((ofValues p q r 0).take 2)
  | one (p q : Nat) (hlast : q % 16 = 0) : LastGroup [p, q] 2 ((ofValues p q 0 0).take 1)

theorem lastGroup_of_decodeTail {offset pads : Nat} {values : List Nat} {tail bytes : Bytes}
    (hscan : scanTail offset [] 0 tail = .ok (values, pads))
    (hlength : tail.length = values.length + pads) (hshort : tail.length ≤ 4)
    (h : decodeTail offset tail = .ok bytes) : LastGroup values pads bytes := by
  unfold decodeTail at h
  rw [hscan] at h
  simp only [bind, Except.bind, throw, throwThe, MonadExceptOf.throw] at h
  split at h
  · cases h
  · rename_i hfew
    split at h
    · cases h
    · rename_i hwhole
      have hpads : tail = [] ∨ values.length + pads = 4 := by
        rw [← List.length_eq_zero_iff]
        omega
      rcases hpads with rfl | hpads
      · obtain ⟨rfl, rfl⟩ := Prod.mk.inj (Except.ok.inj hscan)
        obtain rfl := Except.ok.inj h
        exact .absent
      · have hmany : 2 ≤ values.length := by
          by_contra hmany
          apply hfew
          refine ⟨Nat.not_le.mp hmany, ?_⟩
          rw [← List.length_pos_iff]
          omega
        match values with
        | [p, q] =>
          obtain rfl : pads = 2 := Nat.add_left_cancel hpads
          dsimp only at h
          by_cases hlast : q % 16 = 0
          · rw [if_neg (not_not.mpr hlast)] at h
            obtain rfl := Except.ok.inj h
            exact .one p q hlast
          · rw [if_pos hlast] at h
            cases h
        | [p, q, r] =>
          obtain rfl : pads = 1 := Nat.add_left_cancel hpads
          dsimp only at h
          by_cases hlast : r % 4 = 0
          · rw [if_neg (not_not.mpr hlast)] at h
            obtain rfl := Except.ok.inj h
            exact .two p q r hlast
          · rw [if_pos hlast] at h
            cases h
        | [p, q, r, s] =>
          obtain rfl : pads = 0 := Nat.add_left_cancel hpads
          obtain rfl := Except.ok.inj h
          exact .whole p q r s
        | _ :: _ :: _ :: _ :: _ :: _ =>
          simp only [List.length_cons] at hpads
          omega

theorem LastGroup.encodeBytes_eq {values : List Nat} {pads : Nat} {bytes : Bytes}
    (h : LastGroup values pads bytes) (hvalues : ∀ v ∈ values, v < 64) :
    values.map symbol ++ List.replicate pads padding = encodeBytes bytes := by
  cases h with
  | absent => rfl
  | whole p q r s =>
    simp only [List.forall_mem_cons] at hvalues
    obtain ⟨hp, hq, hr, hs, -⟩ := hvalues
    have hencode := encodeBytes_ofValues_append hp hq hr hs []
    rw [List.append_nil] at hencode
    rw [hencode]
    rfl
  | two p q r hlast =>
    simp only [List.forall_mem_cons] at hvalues
    obtain ⟨hp, hq, hr, -⟩ := hvalues
    rw [encodeBytes_take_two hp hq hr hlast]
    rfl
  | one p q hlast =>
    simp only [List.forall_mem_cons] at hvalues
    obtain ⟨hp, hq, -⟩ := hvalues
    rw [encodeBytes_take_one hp hq hlast]
    rfl

/-- The last group is written for the bytes that it is read as. -/
theorem eq_encodeBytes_of_decodeTail {offset : Nat} {tail bytes : Bytes} (hshort : tail.length ≤ 4)
    (h : decodeTail offset tail = .ok bytes) : tail = encodeBytes bytes := by
  cases hscan : scanTail offset [] 0 tail with
  | error e =>
    rw [decodeTail, hscan] at h
    cases h
  | ok scanned =>
    obtain ⟨values, pads⟩ := scanned
    obtain ⟨values', pads', hvalues', hpads', -, hvalues, htail⟩ := scanTail_eq_ok hscan
    obtain rfl : values = values' := hvalues'
    obtain rfl : pads = pads' := hpads'.trans (Nat.zero_add _)
    have hlength : tail.length = values.length + pads := by
      rw [htail, List.length_append, List.length_map, List.length_replicate]
    rw [htail]
    exact (lastGroup_of_decodeTail hscan hlength hshort h).encodeBytes_eq hvalues

theorem eq_encodeBytes_of_decodeFrom {offset : Nat} {text bytes : Bytes}
    (h : decodeFrom offset text = .ok bytes) : text = encodeBytes bytes := by
  fun_induction decodeFrom offset text generalizing bytes with
  | case1 offset a b c d e rest ih =>
    obtain ⟨p, ha, h⟩ := exists_of_bind_eq_ok h
    obtain ⟨q, hb, h⟩ := exists_of_bind_eq_ok h
    obtain ⟨r, hc, h⟩ := exists_of_bind_eq_ok h
    obtain ⟨s, hd, h⟩ := exists_of_bind_eq_ok h
    obtain ⟨decoded, hrest, h⟩ := exists_of_bind_eq_ok h
    obtain rfl := Except.ok.inj h
    obtain ⟨hp, rfl⟩ := eq_symbol_of_valueAt ha
    obtain ⟨hq, rfl⟩ := eq_symbol_of_valueAt hb
    obtain ⟨hr, rfl⟩ := eq_symbol_of_valueAt hc
    obtain ⟨hs, rfl⟩ := eq_symbol_of_valueAt hd
    rw [encodeBytes_ofValues_append hp hq hr hs, ← ih hrest]
  | case2 offset tail htail =>
    apply eq_encodeBytes_of_decodeTail _ h
    match tail with
    | [] | [_] | [_, _] | [_, _, _] | [_, _, _, _] => simp
    | a :: b :: c :: d :: e :: rest => exact absurd rfl (htail a b c d e rest)

/-- Symbols that can be read as bytes are the symbols of these bytes. -/
theorem decode_eq_ok_iff {text bytes : Bytes} :
    decode text = .ok bytes ↔ text = encodeBytes bytes := by
  constructor
  · intro h
    unfold decode at h
    split at h
    · rename_i hlast
      obtain rfl := Except.ok.inj h
      exact List.getLast?_eq_none_iff.mp hlast
    · split at h
      · cases h
      · exact eq_encodeBytes_of_decodeFrom h
  · rintro rfl
    exact decode_encodeBytes bytes

/-- A text can be read as bytes if and only if it is the text of these bytes. -/
theorem decode_text_eq_ok_iff {text : String} {bytes : Bytes} :
    decode (Utf8.encode text) = .ok bytes ↔ text = encode bytes := by
  rw [decode_eq_ok_iff, ← encode_encode]
  exact Utf8.encode_injective.eq_iff

end Base64
end Envelope
