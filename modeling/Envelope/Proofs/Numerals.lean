import Envelope.Parameter
import Mathlib.Data.List.Basic
import Mathlib.Data.List.Induction
import Mathlib.Data.Nat.Digits.Defs

/-!
# Decimal numerals

The value of decimal digits is the sum of the digits, each times its power of
ten (`value_eq_ofDigits`), and the digits of a number have this number for their
value (`value_toDigits`).  A word is read digit by digit, and refused as soon as
it leaves the 32 bits; since the value only grows from digit to digit, what is
refused on the way would not fit in the end either, and what is read is the value
of all digits (`foldlM_appendDigit_eq_some_iff`).
-/

namespace Envelope

namespace Digits

/-! ### Values -/

theorem value_append_singleton (digits : List Char) (c : Char) :
    value (digits ++ [c]) = value digits * 10 + (c.toNat - '0'.toNat) := by
  rw [value, List.foldl_append]
  rfl

theorem value_eq_ofDigits (digits : List Char) :
    value digits = Nat.ofDigits 10 (digits.reverse.map fun c => c.toNat - '0'.toNat) := by
  induction digits using List.reverseRecOn with
  | nil => rfl
  | append_singleton digits c ih =>
    rw [value_append_singleton, List.reverse_append, List.reverse_singleton,
      List.singleton_append, List.map_cons, Nat.ofDigits_cons, ← ih, Nat.mul_comm, Nat.add_comm]

theorem value_toDigits (n : Nat) : value (Nat.toDigits 10 n) = n := by
  have hvalue : ∀ digits init, List.foldl (fun n c => n * 10 + (c.toNat - '0'.toNat)) init digits =
      Nat.ofDigitChars 10 digits init := by
    intro digits
    induction digits with
    | nil => exact fun _ => rfl
    | cons c digits ih =>
      intro init
      rw [List.foldl_cons, ih, Nat.ofDigitChars_cons, Nat.mul_comm]
  rw [value, hvalue]
  exact Nat.ofDigitChars_toDigits (by decide) (by decide)

theorem toDigits_injective : Function.Injective (Nat.toDigits 10) :=
  Function.LeftInverse.injective value_toDigits

theorem isDigit_toDigits (n : Nat) : ∀ c ∈ Nat.toDigits 10 n, c.isDigit = true := by
  intro c hc
  exact Nat.isDigit_of_mem_toDigits (by decide) (by decide) hc

/-- Only the number zero is written with a zero in front. -/
theorem head?_toDigits {n : Nat} (h : 0 < n) : (Nat.toDigits 10 n).head? ≠ some '0' := by
  induction n using Nat.strong_induction_on with
  | _ n ih =>
    rw [Nat.toDigits_eq_if (by decide)]
    by_cases hsmall : n < 10
    · rw [if_pos hsmall]
      intro hzero
      have : ∀ m < 10, 0 < m → Nat.digitChar m ≠ '0' := by decide
      exact this n hsmall h (Option.some.inj hzero)
    · rw [if_neg hsmall, List.head?_append_of_ne_nil _ Nat.toDigits_ne_nil]
      exact ih (n / 10) (by omega) (by omega)

/-- The digits of a number are those of another and some more if and only if
cutting off its last digits leaves the other number. -/
theorem toDigits_prefix_iff {m n : Nat} (hm : 0 < m) :
    Nat.toDigits 10 m <+: Nat.toDigits 10 n ↔ ∃ k, n / 10 ^ k = m := by
  induction n using Nat.strong_induction_on with
  | _ n ih =>
    -- either nothing is cut off, or the last digit is
    have hcut : (∃ k, n / 10 ^ k = m) ↔ n = m ∨ ∃ k, n / 10 / 10 ^ k = m := by
      rw [← Nat.or_exists_add_one, pow_zero, Nat.div_one]
      simp only [Nat.pow_succ', Nat.div_div_eq_div_mul]
    have hself : Nat.toDigits 10 m = Nat.toDigits 10 n ↔ n = m :=
      toDigits_injective.eq_iff.trans eq_comm
    rw [hcut, ← hself]
    by_cases hsmall : n < 10
    · have hnone : ¬ ∃ k, n / 10 / 10 ^ k = m := by
        rintro ⟨k, hk⟩
        rw [Nat.div_eq_of_lt hsmall, Nat.zero_div] at hk
        exact hm.ne hk
      rw [or_iff_left hnone, Nat.toDigits_of_lt_base hsmall]
      simp only [List.prefix_cons_iff, List.prefix_nil, Nat.toDigits_ne_nil, false_or,
        exists_eq_right]
    · have hlast : Nat.toDigits 10 n = Nat.toDigits 10 (n / 10) ++ [Nat.digitChar (n % 10)] := by
        rw [Nat.toDigits_eq_if (by decide), if_neg hsmall]
      rw [← ih (n / 10) (by omega), hlast]
      exact List.prefix_concat_iff

/-! ### Words -/

variable {digits : List Char} {word w : UInt32} {c : Char} {text : String} {n : Nat}

theorem toWord?_eq_some_iff : toWord? n = some w ↔ n = w.toNat := by
  unfold toWord?
  rw [Option.ite_none_right_eq_some, Option.some.injEq]
  constructor
  · rintro ⟨hsize, rfl⟩
    exact (UInt32.toNat_ofNat_of_lt' hsize).symm
  · rintro rfl
    exact ⟨w.toNat_lt, UInt32.ofNat_toNat⟩

theorem appendDigit_eq_some_iff :
    appendDigit word c = some w ↔
      c.isDigit = true ∧ word.toNat * 10 + (c.toNat - '0'.toNat) = w.toNat := by
  unfold appendDigit
  by_cases hdigit : c.isDigit = true
  · simp only [hdigit, guard_true, pure_bind, true_and]
    rw [Option.bind_eq_bind, Option.bind_eq_some_iff]
    simp only [toWord?_eq_some_iff]
    constructor
    · rintro ⟨tens, htens, h⟩
      rw [htens, h]
    · intro h
      -- ten times the word is no more than the sum, which is a word
      have hfits : word.toNat * 10 < UInt32.size :=
        (Nat.le_add_right _ _).trans_lt (h ▸ w.toNat_lt)
      refine ⟨UInt32.ofNat (word.toNat * 10), (UInt32.toNat_ofNat_of_lt' hfits).symm, ?_⟩
      rw [UInt32.toNat_ofNat_of_lt' hfits, h]
  · simp [hdigit, guard]

/-- The digits that are read one by one as a word are those whose value is this
word. -/
theorem foldlM_appendDigit_eq_some_iff :
    digits.foldlM appendDigit 0 = some w ↔
      (∀ c ∈ digits, c.isDigit = true) ∧ value digits = w.toNat := by
  induction digits using List.reverseRecOn generalizing w with
  | nil =>
    constructor
    · intro h
      obtain rfl := Option.some.inj h
      exact ⟨List.forall_mem_nil _, UInt32.toNat_zero.symm⟩
    · rintro ⟨-, h⟩
      exact congrArg some (UInt32.toNat_inj.mp h)
  | append_singleton digits c ih =>
    rw [List.foldlM_append, Option.bind_eq_bind, Option.bind_eq_some_iff, value_append_singleton]
    simp only [ih, List.foldlM_cons, List.foldlM_nil, bind_pure, appendDigit_eq_some_iff,
      List.forall_mem_append, List.forall_mem_singleton]
    constructor
    · rintro ⟨word, ⟨hdigits, hvalue⟩, hdigit, h⟩
      rw [hvalue]
      exact ⟨⟨hdigits, hdigit⟩, h⟩
    · rintro ⟨⟨hdigits, hdigit⟩, h⟩
      -- the value up to here is no more than the whole one, which is a word
      have hfits : value digits < UInt32.size := by
        have hw := w.toNat_lt
        simp only [UInt32.size] at *
        omega
      have hword := UInt32.toNat_ofNat_of_lt' hfits
      refine ⟨UInt32.ofNat (value digits), ⟨hdigits, hword.symm⟩, hdigit, ?_⟩
      rw [hword, h]

/-! ### Texts -/

/-- A text writes a number, with at least one digit after at most one plus
sign. -/
def Writes (text : String) (n : Nat) : Prop :=
  ∃ digits, (text.toList = digits ∨ text.toList = '+' :: digits) ∧ digits ≠ [] ∧
    (∀ c ∈ digits, c.isDigit = true) ∧ value digits = n

/-- What stands behind a plus sign is read, or else all of the text. -/
theorem readWord_of_toList
    (htext : text.toList = '+' :: digits ∨ text.toList = digits ∧ digits.head? ≠ some '+') :
    readWord text = if digits = [] then none else digits.foldlM appendDigit 0 := by
  unfold readWord
  obtain htext | ⟨rfl, hhead⟩ := htext
  · rw [htext]
    rfl
  · dsimp only
    split
    · rename_i rest htext
      exact absurd (congrArg List.head? htext) hhead
    · rfl

/-- Digits do not begin with a plus sign. -/
theorem head?_ne_plus (hdigits : ∀ c ∈ digits, c.isDigit = true) : digits.head? ≠ some '+' := by
  intro hplus
  have hdigit := hdigits '+' (List.mem_of_mem_head? hplus)
  exact absurd hdigit (by decide)

/-- The words are the numbers that are written and fit. -/
theorem readWord_eq_some_iff : readWord text = some w ↔ Writes text w.toNat := by
  have hread (digits : List Char) :
      (if digits = [] then none else digits.foldlM appendDigit 0) = some w ↔
        digits ≠ [] ∧ (∀ c ∈ digits, c.isDigit = true) ∧ value digits = w.toNat := by
    rw [Option.ite_none_left_eq_some, foldlM_appendDigit_eq_some_iff]
  constructor
  · intro h
    by_cases hplus : text.toList.head? = some '+'
    · obtain ⟨rest, hrest⟩ := List.head?_eq_some_iff.mp hplus
      rw [readWord_of_toList (.inl hrest), hread] at h
      exact ⟨rest, .inr hrest, h⟩
    · rw [readWord_of_toList (.inr ⟨rfl, hplus⟩), hread] at h
      exact ⟨text.toList, .inl rfl, h⟩
  · rintro ⟨digits, htext | htext, h⟩
    · rw [readWord_of_toList (.inr ⟨htext, head?_ne_plus h.2.1⟩)]
      exact (hread digits).mpr h
    · rw [readWord_of_toList (.inl htext)]
      exact (hread digits).mpr h

/-- A text writes a number if it consists of at most one plus sign and at least
one of the digits from 0 to 9, and the number is the sum of the digits, each times
its power of ten. -/
theorem writes_iff : Writes text n ↔
    ∃ sign digits, text.toList = sign ++ digits ∧ (sign = [] ∨ sign = ['+']) ∧ digits ≠ [] ∧
      (∀ c ∈ digits, '0' ≤ c ∧ c ≤ '9') ∧
      Nat.ofDigits 10 (digits.reverse.map fun c => c.toNat - '0'.toNat) = n := by
  have hdecimal (c : Char) : c.isDigit = true ↔ '0' ≤ c ∧ c ≤ '9' := by
    simp [Char.isDigit, Char.le_def]
  simp only [Writes, hdecimal, value_eq_ofDigits]
  constructor
  · rintro ⟨digits, htext | htext, h⟩
    · exact ⟨[], digits, htext, .inl rfl, h⟩
    · exact ⟨['+'], digits, htext, .inr rfl, h⟩
  · rintro ⟨sign, digits, htext, rfl | rfl, h⟩
    · exact ⟨digits, .inl htext, h⟩
    · exact ⟨digits, .inr htext, h⟩

/-- No text writes two numbers, since the sign is no digit. -/
theorem Writes.unique {m : Nat} (hn : Writes text n) (hm : Writes text m) : n = m := by
  obtain ⟨digits, htext, -, hdigits, rfl⟩ := hn
  obtain ⟨digits', htext', -, hdigits', rfl⟩ := hm
  apply congrArg value
  rcases htext with htext | htext <;> rcases htext' with htext' | htext' <;> rw [htext] at htext'
  · exact htext'
  · exact absurd (congrArg List.head? htext') (head?_ne_plus hdigits)
  · exact absurd (congrArg List.head? htext'.symm) (head?_ne_plus hdigits')
  · exact List.tail_eq_of_cons_eq htext'

theorem readWord_eq_none_iff :
    readWord text = none ↔
      (¬ ∃ n, Writes text n) ∨ ∃ n, Writes text n ∧ UInt32.size ≤ n := by
  rw [Option.eq_none_iff_forall_ne_some]
  simp only [ne_eq, readWord_eq_some_iff]
  constructor
  · intro h
    by_cases hwritten : ∃ n, Writes text n
    · obtain ⟨n, hn⟩ := hwritten
      refine .inr ⟨n, hn, Nat.not_lt.mp fun hsize => h (UInt32.ofNat n) ?_⟩
      rw [UInt32.toNat_ofNat_of_lt' hsize]
      exact hn
    · exact .inl hwritten
  · rintro (hunwritten | ⟨n, hn, hsize⟩) w hw
    · exact hunwritten ⟨_, hw⟩
    · rw [hn.unique hw] at hsize
      exact absurd w.toNat_lt (Nat.not_lt.mpr hsize)

end Digits

/-! ## Numbers of days -/

namespace Parameter

variable {text? : Option String} {text : String} {days : UInt32}

/-- A number of days is what is written, or none at all. -/
theorem readExpiryDays_eq_ok_iff :
    readExpiryDays text? = .ok days ↔
      (text? = none ∧ days = 0) ∨ ∃ text, text? = some text ∧ Digits.Writes text days.toNat := by
  cases text? with
  | none => simp [readExpiryDays, eq_comm]
  | some text =>
    simp only [← Digits.readWord_eq_some_iff, reduceCtorEq, false_and, false_or,
      Option.some.injEq, exists_eq_left']
    unfold readExpiryDays
    dsimp only
    split
    · rename_i days' hread
      rw [hread, Except.ok.injEq, Option.some.injEq]
    · rename_i hread
      rw [hread]
      exact iff_of_false (fun h => nomatch h) fun h => nomatch h

/-- A text that writes no number, or one that is too large, is refused. -/
theorem readExpiryDays_eq_error_iff {cause : ConfigError} :
    readExpiryDays (some text) = .error cause ↔
      Digits.readWord text = none ∧ cause = .invalidExpiry text := by
  unfold readExpiryDays
  dsimp only
  split
  · rename_i days hread
    exact iff_of_false (fun h => nomatch h) fun h => nomatch hread.symm.trans h.1
  · rename_i hread
    rw [hread, eq_self, true_and, Except.error.injEq]
    exact eq_comm

/-- Numbers of days are read exactly as they are written: at most one plus sign,
then at least one of the digits from 0 to 9, with any number of zeros in front.
The number read is the one written, a text can be read if and only if this fits
into 32 bits, and every other text is refused. -/
theorem expiry_days_as_written (text : String) :
    (∀ n, Digits.Writes text n ↔
      ∃ sign digits, text.toList = sign ++ digits ∧ (sign = [] ∨ sign = ['+']) ∧ digits ≠ [] ∧
        (∀ c ∈ digits, '0' ≤ c ∧ c ≤ '9') ∧
        Nat.ofDigits 10 (digits.reverse.map fun c => c.toNat - '0'.toNat) = n) ∧
    (∀ days, readExpiryDays (some text) = .ok days ↔ Digits.Writes text days.toNat) ∧
    ((∃ days, readExpiryDays (some text) = .ok days) ↔
      ∃ n, Digits.Writes text n ∧ n ≤ 2 ^ 32 - 1) ∧
    ∀ cause, readExpiryDays (some text) = .error cause ↔
      cause = .invalidExpiry text ∧
        ((¬ ∃ n, Digits.Writes text n) ∨ ∃ n, Digits.Writes text n ∧ 2 ^ 32 - 1 < n) := by
  have hread : ∀ days, readExpiryDays (some text) = .ok days ↔ Digits.Writes text days.toNat := by
    intro days
    rw [readExpiryDays_eq_ok_iff]
    simp only [reduceCtorEq, false_and, false_or, Option.some.injEq, exists_eq_left']
  refine ⟨fun n => Digits.writes_iff, hread, ?_, ?_⟩
  · simp only [hread]
    constructor
    · rintro ⟨days, hdays⟩
      exact ⟨days.toNat, hdays, Nat.le_pred_of_lt days.toNat_lt⟩
    · rintro ⟨n, hn, hfits⟩
      have hsize : n < UInt32.size := Nat.lt_of_le_pred (by decide) hfits
      refine ⟨UInt32.ofNat n, ?_⟩
      rw [UInt32.toNat_ofNat_of_lt' hsize]
      exact hn
  · intro cause
    rw [readExpiryDays_eq_error_iff, Digits.readWord_eq_none_iff, and_comm]
    rfl

/-- The greatest number of days behind zeros and a sign, and the one after it; a
sign alone, a minus sign, a blank, and a digit of another script. -/
example :
    readExpiryDays (some "+004294967295") = .ok 4294967295 ∧
      readExpiryDays (some "4294967296") = .error (.invalidExpiry "4294967296") ∧
      readExpiryDays (some "+") = .error (.invalidExpiry "+") ∧
      readExpiryDays (some "-0") = .error (.invalidExpiry "-0") ∧
      readExpiryDays (some " 7") = .error (.invalidExpiry " 7") ∧
      readExpiryDays (some "\u0667") = .error (.invalidExpiry "\u0667") := by
  decide

end Parameter

end Envelope
