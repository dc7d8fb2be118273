import Envelope.Proofs.Carriage

/-!
# What a cipher opens

A cipher opens exactly what it seals.  For a key that an algorithm accepts, a
sealed text is opened to a value if and only if the value is sealed to this very
text, under the nonce that the text begins with (`Cryptor.openWith_eq_some_iff`).
Everything else is refused, whatever its length.
-/

namespace Envelope

open Program

/-- What stands after the first bytes of a text is the rest of it. -/
theorem Bytes.exists_take_append_iff {n : Nat} {bytes : Bytes} {P : Bytes → Prop} :
    (∃ rest, P rest ∧ bytes.take n ++ rest = bytes) ↔ P (bytes.drop n) := by
  have hsplit : bytes.take n ++ bytes.drop n = bytes := List.take_append_drop n bytes
  constructor
  · rintro ⟨rest, hrest, hbytes⟩
    have hdrop : rest = bytes.drop n := List.append_cancel_left (hbytes.trans hsplit.symm)
    rwa [hdrop] at hrest
  · intro hrest
    exact ⟨bytes.drop n, hrest, hsplit⟩

namespace RandomSource

/-- A source whose first bytes are given. -/
def ofBytes (bytes : Bytes) : RandomSource :=
  ⟨fun i => bytes.getD i 0, 0⟩

theorem next_ofBytes {n : Nat} {bytes : Bytes} (h : bytes.length = n) :
    ((ofBytes bytes).next n).1.val = bytes := by
  subst h
  apply List.ext_getElem
  · simp [next]
  · intro i hi hi'
    simp [next, ofBytes, List.getD_eq_getElem?_getD, hi']

end RandomSource

namespace Algorithm

/-- The length of a sealed text, from the length of its plaintext. -/
def sealedLength : Algorithm → Nat → Nat
  | aes256Siv, n => n + 16
  | _, n => Cryptor.nonceLength + (n + 16)

/-- An algorithm takes a value together with its associated data: a randomised
one only up to a certain length. -/
def Admits (a : Algorithm) (plain aad : Bytes) : Prop :=
  a.isDeterministic = false → plain.length ≤ Cipher.maxLength ∧ aad.length ≤ Cipher.maxLength

/-- The nonce that an algorithm draws from a source. -/
def drawnNonce (a : Algorithm) (source : RandomSource) : Bytes :=
  if a.isDeterministic then [] else (source.next Cryptor.nonceLength).1.val

/-- The nonce that a sealed text begins with. -/
def statedNonce (a : Algorithm) (sealed : Bytes) : Bytes :=
  if a.isDeterministic then [] else sealed.take Cryptor.nonceLength

/-- Why an algorithm refuses a text that it does not open. -/
def refusal (a : Algorithm) (sealed : Bytes) : CipherError :=
  if a.isDeterministic = false ∧ sealed.length < Cryptor.nonceLength then .ciphertextTooShort
  else .aeadFailure

theorem eq_siv_of_deterministic {a : Algorithm} (h : a.isDeterministic = true) :
    a = .aes256Siv := by
  cases a with
  | aes256Siv => rfl
  | aes128Gcm => cases h
  | aes256Gcm => cases h

theorem sealedLength_eq (a : Algorithm) (n : Nat) :
    a.sealedLength n = n + if a.isDeterministic then 16 else 28 := by
  cases a with
  | aes256Siv => rfl
  | aes128Gcm => exact Nat.add_comm 12 (n + 16)
  | aes256Gcm => exact Nat.add_comm 12 (n + 16)

end Algorithm

namespace Cryptor

variable {c : Cryptor} {a : Algorithm} {key nonce aad plain sealed : Bytes}

/-! ## Sealing -/

/-- A randomised algorithm puts the nonce before the sealed text. -/
theorem sealWith_randomised (hrandom : a.isDeterministic = false) :
    sealWith a key nonce aad plain =
      (Cipher.Gcm.encrypt (Cipher.Aes.cipher key) nonce aad plain).elim (.error .aeadFailure)
        fun text => .ok (nonce ++ text) := by
  cases a with
  | aes256Siv => cases hrandom
  | _ =>
    unfold sealWith
    cases Cipher.Gcm.encrypt (Cipher.Aes.cipher key) nonce aad plain with
    | none => rfl
    | some text => rfl

theorem sealWith_eq_ok_iff (hrandom : a.isDeterministic = false) :
    sealWith a key nonce aad plain = .ok sealed ↔
      ∃ text, Cipher.Gcm.encrypt (Cipher.Aes.cipher key) nonce aad plain = some text ∧
        nonce ++ text = sealed := by
  rw [sealWith_randomised hrandom]
  cases Cipher.Gcm.encrypt (Cipher.Aes.cipher key) nonce aad plain with
  | none => simp
  | some text => simp

theorem length_of_sealWith (hnonce : a.isDeterministic = false → nonce.length = nonceLength)
    (h : sealWith a key nonce aad plain = .ok sealed) :
    sealed.length = a.sealedLength plain.length := by
  cases hrandom : a.isDeterministic with
  | false =>
    obtain ⟨text, htext, rfl⟩ := (sealWith_eq_ok_iff hrandom).mp h
    rw [List.length_append, hnonce hrandom, Cipher.Gcm.length_of_encrypt htext,
      Algorithm.sealedLength_eq, if_neg (Bool.eq_false_iff.mp hrandom)]
    exact Nat.add_comm 12 (plain.length + 16)
  | true =>
    obtain rfl := Algorithm.eq_siv_of_deterministic hrandom
    obtain rfl := Except.ok.inj h
    rw [Cipher.Siv.encrypt, List.length_append, Cipher.Siv.length_crypt,
      Cipher.Block.length_toBytes]
    exact Nat.add_comm 16 plain.length

/-- A value that an algorithm admits is sealed under every nonce. -/
theorem exists_sealWith (hadmits : a.Admits plain aad) (key nonce : Bytes) :
    ∃ sealed, sealWith a key nonce aad plain = .ok sealed := by
  cases h : sealWith a key nonce aad plain with
  | ok sealed => exact ⟨sealed, rfl⟩
  | error e =>
    obtain ⟨-, hrandom, hlong⟩ := sealWith_error h
    obtain ⟨hplain, haad⟩ := hadmits hrandom
    rcases hlong with hlong | hlong
    · exact absurd hplain (Nat.not_le.mpr hlong)
    · exact absurd haad (Nat.not_le.mpr hlong)

/-- A value that is too long for an algorithm is refused. -/
theorem sealWith_of_not_admits (hlong : ¬ a.Admits plain aad) (key nonce : Bytes) :
    sealWith a key nonce aad plain = .error .aeadFailure := by
  obtain ⟨hrandom, hlong⟩ := Classical.not_imp.mp hlong
  have hlong' : Cipher.maxLength < plain.length ∨ Cipher.maxLength < aad.length := by
    omega
  have hnone : Cipher.Gcm.encrypt (Cipher.Aes.cipher key) nonce aad plain = none :=
    if_pos hlong'
  rw [sealWith_randomised hrandom, hnone]
  rfl

/-! ## Opening -/

/-- What an algorithm opens a sealed text to. -/
def openWith (a : Algorithm) (key aad sealed : Bytes) : Option Bytes :=
  match a with
  | .aes256Siv =>
    Cipher.Siv.decrypt (Cipher.Aes.cipher (key.take 32)) (Cipher.Aes.cipher (key.drop 32)) aad
      sealed
  | .aes128Gcm | .aes256Gcm =>
    if sealed.length < nonceLength then none
    else Cipher.Gcm.decrypt (Cipher.Aes.cipher key) (sealed.take nonceLength) aad
      (sealed.drop nonceLength)

theorem openWith_randomised (hrandom : a.isDeterministic = false) :
    openWith a key aad sealed = if sealed.length < nonceLength then none
      else Cipher.Gcm.decrypt (Cipher.Aes.cipher key) (sealed.take nonceLength) aad
        (sealed.drop nonceLength) := by
  cases a with
  | aes256Siv => cases hrandom
  | aes128Gcm => rfl
  | aes256Gcm => rfl

/-- A text is opened to a value if and only if the value is sealed to it under
the nonce that it begins with. -/
theorem openWith_eq_some_iff :
    openWith a key aad sealed = some plain ↔
      (a.isDeterministic = false → nonceLength ≤ sealed.length) ∧
        sealWith a key (a.statedNonce sealed) aad plain = .ok sealed := by
  cases hrandom : a.isDeterministic with
  | true =>
    obtain rfl := Algorithm.eq_siv_of_deterministic hrandom
    rw [openWith, Cipher.Siv.decrypt_eq_some_iff, sealWith, Except.ok.injEq]
    simp
  | false =>
    have hnonce : a.statedNonce sealed = sealed.take nonceLength := by
      simp [Algorithm.statedNonce, hrandom]
    rw [openWith_randomised hrandom, sealWith_eq_ok_iff hrandom, hnonce,
      Bytes.exists_take_append_iff]
    by_cases hshort : sealed.length < nonceLength
    · simp [hshort, Nat.not_le.mpr hshort]
    · rw [if_neg hshort, Cipher.Gcm.decrypt_eq_some_iff]
      simp [Nat.not_lt.mp hshort]

theorem decrypt_deterministic (h : c.algorithmFor key = .ok .aes256Siv) (sealed aad : Bytes) :
    c.decrypt key sealed aad =
      (openWith .aes256Siv key aad sealed).elim (.error .aeadFailure) .ok := by
  unfold decrypt openWith
  rw [h]
  cases Cipher.Siv.decrypt (Cipher.Aes.cipher (key.take 32)) (Cipher.Aes.cipher (key.drop 32))
      aad sealed with
  | none => rfl
  | some plain => rfl

/-- A randomised algorithm looks for the nonce before it opens a text. -/
theorem decrypt_randomised (h : c.algorithmFor key = .ok a) (hrandom : a.isDeterministic = false)
    (sealed aad : Bytes) :
    c.decrypt key sealed aad = if sealed.length < nonceLength then .error .ciphertextTooShort
      else (Cipher.Gcm.decrypt (Cipher.Aes.cipher key) (sealed.take nonceLength) aad
        (sealed.drop nonceLength)).elim (.error .aeadFailure) .ok := by
  unfold decrypt
  rw [h]
  cases a with
  | aes256Siv => cases hrandom
  | _ =>
    by_cases hshort : sealed.length < nonceLength
    · simp only [bind, Except.bind, if_pos hshort]
      rfl
    · simp only [bind, Except.bind, if_neg hshort, pure, Except.pure]
      cases Cipher.Gcm.decrypt (Cipher.Aes.cipher key) (sealed.take nonceLength) aad
          (sealed.drop nonceLength) with
      | none => rfl
      | some plain => rfl

/-- Decryption under an accepted key opens the text or refuses it. -/
theorem decrypt_eq (h : c.algorithmFor key = .ok a) (sealed aad : Bytes) :
    c.decrypt key sealed aad =
      (openWith a key aad sealed).elim (.error (a.refusal sealed)) .ok := by
  cases hrandom : a.isDeterministic with
  | true =>
    obtain rfl := Algorithm.eq_siv_of_deterministic hrandom
    exact decrypt_deterministic h sealed aad
  | false =>
    rw [decrypt_randomised h hrandom, openWith_randomised hrandom]
    unfold Algorithm.refusal
    by_cases hshort : sealed.length < nonceLength
    · rw [if_pos hshort, if_pos hshort, if_pos ⟨hrandom, hshort⟩]
      rfl
    · rw [if_neg hshort, if_neg hshort, if_neg fun h => hshort h.2]

/-- Decryption under an accepted key gives a value if and only if the value is
sealed to the text under the nonce that it begins with. -/
theorem decrypt_eq_ok_iff (h : c.algorithmFor key = .ok a) :
    c.decrypt key sealed aad = .ok plain ↔
      (a.isDeterministic = false → nonceLength ≤ sealed.length) ∧
        sealWith a key (a.statedNonce sealed) aad plain = .ok sealed := by
  rw [decrypt_eq h, ← openWith_eq_some_iff]
  cases openWith a key aad sealed with
  | none => simp
  | some plain' => simp

/-- A text that is not opened is refused for one reason only. -/
theorem decrypt_refused (h : c.algorithmFor key = .ok a)
    (hclosed : ∀ plain, c.decrypt key sealed aad ≠ .ok plain) :
    c.decrypt key sealed aad = .error (a.refusal sealed) := by
  rw [decrypt_eq h] at hclosed ⊢
  cases hopen : openWith a key aad sealed with
  | none => rfl
  | some plain =>
    rw [hopen] at hclosed
    exact absurd rfl (hclosed plain)

/-! ## Drawing the nonce -/

/-- What a value is encrypted to with the bytes of a source. -/
def encryptFrom (c : Cryptor) (source : RandomSource) (key plain aad : Bytes) :
    Except CipherError Bytes :=
  ((RandomSource.run (c.encrypt key plain aad).run).run source).1

theorem algorithmFor_of_length (halgorithm : c.algorithm? = some a)
    (hkey : key.length = a.keyLength) : c.algorithmFor key = .ok a := by
  refine algorithmFor_eq_ok_iff.mpr ⟨?_, hkey⟩
  rw [algorithm, halgorithm]

/-- Encryption under an accepted key is sealing under the nonce that is drawn. -/
theorem encryptFrom_eq (h : c.algorithmFor key = .ok a) (source : RandomSource)
    (plain aad : Bytes) :
    c.encryptFrom source key plain aad = sealWith a key (a.drawnNonce source) aad plain := by
  unfold encryptFrom encrypt Algorithm.drawnNonce
  rw [h]
  cases a with
  | aes256Siv => rfl
  | aes128Gcm => rfl
  | aes256Gcm => rfl

theorem length_drawnNonce (hrandom : a.isDeterministic = false) (source : RandomSource) :
    (a.drawnNonce source).length = nonceLength := by
  have hdrawn : a.drawnNonce source = (source.next nonceLength).1.val := by
    simp [Algorithm.drawnNonce, hrandom]
  rw [hdrawn]
  exact (source.next nonceLength).1.property

theorem drawnNonce_eq_statedNonce {source : RandomSource}
    (h : a.isDeterministic = false →
      (source.next nonceLength).1.val = sealed.take nonceLength) :
    a.drawnNonce source = a.statedNonce sealed := by
  unfold Algorithm.drawnNonce Algorithm.statedNonce
  cases hrandom : a.isDeterministic with
  | true => rfl
  | false => simpa using h hrandom

/-- A text that is opened to a value is what the value is encrypted to if the
nonce that is drawn is the one that the text begins with. -/
theorem encryptFrom_of_decrypt (h : c.algorithmFor key = .ok a)
    (hopen : c.decrypt key sealed aad = .ok plain) {source : RandomSource}
    (hnonce : a.isDeterministic = false →
      (source.next nonceLength).1.val = sealed.take nonceLength) :
    c.encryptFrom source key plain aad = .ok sealed := by
  obtain ⟨-, hsealed⟩ := (decrypt_eq_ok_iff h).mp hopen
  rw [encryptFrom_eq h, drawnNonce_eq_statedNonce hnonce]
  exact hsealed

/-- Some source gives the nonce that an opened text begins with. -/
theorem exists_encryptFrom (h : c.algorithmFor key = .ok a)
    (hopen : c.decrypt key sealed aad = .ok plain) :
    ∃ source, c.encryptFrom source key plain aad = .ok sealed := by
  obtain ⟨hlong, -⟩ := (decrypt_eq_ok_iff h).mp hopen
  refine ⟨.ofBytes (sealed.take nonceLength), encryptFrom_of_decrypt h hopen ?_⟩
  intro hrandom
  apply RandomSource.next_ofBytes
  exact List.length_take_of_le (hlong hrandom)

theorem length_of_decrypt (h : c.algorithmFor key = .ok a)
    (hopen : c.decrypt key sealed aad = .ok plain) :
    sealed.length = a.sealedLength plain.length := by
  obtain ⟨source, hsealed⟩ := exists_encryptFrom h hopen
  rw [encryptFrom_eq h] at hsealed
  apply length_of_sealWith _ hsealed
  intro hrandom
  exact length_drawnNonce hrandom source

/-- Field ciphers invert exactly.  Under a key of its length an algorithm
encrypts every value that is not too long for it, to a text that is longer by a
fixed number of bytes and is decrypted to the value.  A text that is decrypted
to a value is what this value is encrypted to with the nonce that the text
begins with.  So every other text, whatever its length, is refused. -/
theorem opens_exactly_sealed {c : Cryptor} {a : Algorithm} {key : Bytes}
    (halgorithm : c.algorithm? = some a) (hkey : key.length = a.keyLength) (aad : Bytes) :
    (∀ plain, a.Admits plain aad → ∀ source, ∃ sealed,
      c.encryptFrom source key plain aad = .ok sealed ∧
      sealed.length = plain.length + (if a.isDeterministic then 16 else 28) ∧
      c.decrypt key sealed aad = .ok plain) ∧
    (∀ plain, ¬ a.Admits plain aad → ∀ source,
      c.encryptFrom source key plain aad = .error .aeadFailure) ∧
    (∀ sealed plain, c.decrypt key sealed aad = .ok plain →
      ∀ source : RandomSource,
        (a.isDeterministic = false →
          (source.next nonceLength).1.val = sealed.take nonceLength) →
        c.encryptFrom source key plain aad = .ok sealed) ∧
    (∀ sealed, (∀ plain source, c.encryptFrom source key plain aad ≠ .ok sealed) →
      c.decrypt key sealed aad = .error (a.refusal sealed)) ∧
    ∀ sealed : Bytes, sealed.length < (if a.isDeterministic then 16 else 28) →
      c.decrypt key sealed aad = .error (a.refusal sealed) := by
  have hchosen : c.algorithmFor key = .ok a := algorithmFor_of_length halgorithm hkey
  refine ⟨?_, ?_, ?_, ?_, ?_⟩
  · intro plain hadmits source
    have hnonce : a.isDeterministic = false → (a.drawnNonce source).length = nonceLength :=
      fun hrandom => length_drawnNonce hrandom source
    obtain ⟨sealed, hsealed⟩ := exists_sealWith hadmits key (a.drawnNonce source)
    refine ⟨sealed, ?_, ?_, decrypt_of_sealWith hchosen hnonce hsealed⟩
    · rw [encryptFrom_eq hchosen]
      exact hsealed
    · rw [length_of_sealWith hnonce hsealed, Algorithm.sealedLength_eq]
  · intro plain hlong source
    rw [encryptFrom_eq hchosen]
    exact sealWith_of_not_admits hlong key (a.drawnNonce source)
  · intro sealed plain hopen source hnonce
    exact encryptFrom_of_decrypt hchosen hopen hnonce
  · intro sealed hother
    apply decrypt_refused hchosen
    intro plain hopen
    obtain ⟨source, hsealed⟩ := exists_encryptFrom hchosen hopen
    exact hother plain source hsealed
  · intro sealed hshort
    apply decrypt_refused hchosen
    intro plain hopen
    have hlength := length_of_decrypt hchosen hopen
    rw [Algorithm.sealedLength_eq] at hlength
    omega

/-- A text of the default algorithm that is as short as its nonce. -/
theorem opens_exactly_sealed_short :
    ∃ (c : Cryptor) (a : Algorithm) (key sealed : Bytes), c.algorithm? = some a ∧
      key.length = a.keyLength ∧ a.Admits [1, 2, 3] [] ∧ sealed.length = nonceLength ∧
      (∀ source, ∃ text, c.encryptFrom source key [1, 2, 3] [] = .ok text ∧
        text.length = 31 ∧ c.decrypt key text [] = .ok [1, 2, 3]) ∧
      c.decrypt key sealed [] = .error .aeadFailure := by
  have halgorithm : (Cryptor.choose none).algorithm? = some .aes256Gcm := by decide
  have hkey : (Bytes.zeros 32).length = Algorithm.aes256Gcm.keyLength := by decide
  have hadmits : Algorithm.aes256Gcm.Admits [1, 2, 3] [] := by
    intro _
    decide
  obtain ⟨hseals, -, -, -, hshort⟩ := opens_exactly_sealed halgorithm hkey []
  exact ⟨.choose none, .aes256Gcm, Bytes.zeros 32, Bytes.zeros 12, halgorithm, hkey, hadmits,
    by decide, hseals [1, 2, 3] hadmits, hshort (Bytes.zeros 12) (by decide)⟩

end Cryptor
end Envelope
