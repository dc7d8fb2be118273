import Envelope.KeyRing

/-!
# Expiry in whole numbers

A record expires by its age, the time since its registration.  As long as the
age fits into 64 bits, the engine computes it exactly and finds the record
expired if and only if the days of the rule have passed (`isExpired_of_fits`).
Where the age does not fit, the engine of a rotating writer stops
(`isExpired_of_overflow`): it comes to no verdict on a record that is too old
for 64 bits, nor on one from too far ahead.
-/

namespace Envelope
namespace KeyRing

/-- The age of a record at a given time in milliseconds, below 0 if the record
is from ahead of this time. -/
def age (now : Int64) (dek : Dek) : Int :=
  now.toInt - dek.timestamp.toInt

/-- A whole number that fits into 64 bits. -/
def Fits (n : Int) : Prop :=
  Int64.minValue.toInt ≤ n ∧ n ≤ Int64.maxValue.toInt

variable {ring ring' : KeyRing} {mode : Mode} {now later : Int64} {dek : Dek} {n days : Int}
  {cause : Overflow}

theorem fits_iff : Fits n ↔ -9223372036854775808 ≤ n ∧ n ≤ 9223372036854775807 :=
  Iff.rfl

/-- The time between two readings from 0 on always fits. -/
theorem fits_age (hnow : 0 ≤ now) (hstamp : 0 ≤ dek.timestamp) : Fits (age now dek) := by
  have hnow' : 0 ≤ now.toInt := Int64.le_iff_toInt_le.mp hnow
  have hstamp' : 0 ≤ dek.timestamp.toInt := Int64.le_iff_toInt_le.mp hstamp
  have hlarge := now.toInt_lt
  have hlarge' := dek.timestamp.toInt_lt
  rw [fits_iff]
  unfold age
  omega

/-! ## The steps of the computation -/

theorem ssubOverflow_eq_false_iff :
    BitVec.ssubOverflow now.toBitVec dek.timestamp.toBitVec = false ↔ Fits (age now dek) := by
  rw [fits_iff]
  unfold BitVec.ssubOverflow age Int64.toInt
  simp only [Bool.or_eq_false_iff, decide_eq_false_iff_not]
  omega

/-- A difference that fits is computed. -/
theorem elapsed_of_fits (h : Fits (age now dek)) :
    elapsed dek.timestamp now = .ok (now - dek.timestamp) := by
  rw [elapsed, ssubOverflow_eq_false_iff.mpr h]
  rfl

theorem elapsed_of_overflow (h : ¬ Fits (age now dek)) :
    elapsed dek.timestamp now = .error ⟨now, dek.timestamp⟩ := by
  rw [elapsed, if_pos]
  rw [← Bool.not_eq_false, ssubOverflow_eq_false_iff]
  exact h

/-- A difference that fits is exact. -/
theorem toInt_sub_of_fits (h : Fits (age now dek)) :
    (now - dek.timestamp).toInt = age now dek := by
  obtain ⟨hlow, hhigh⟩ := fits_iff.mp h
  have hdifference : (now - dek.timestamp).toInt = (age now dek).bmod 18446744073709551616 :=
    Int64.toInt_sub now dek.timestamp
  rw [hdifference]
  exact Int.bmod_eq_of_le (by omega) (by omega)

/-- Dividing by the milliseconds of a day does not overflow. -/
theorem toInt_div_millisPerDay (passed : Int64) :
    (passed / millisPerDay).toInt = passed.toInt.tdiv 86400000 := by
  rw [Int64.toInt_div_of_ne_right _ _ (by decide)]
  rfl

/-- A number of days always fits. -/
theorem toInt_expiryDays (ring : KeyRing) :
    (Int64.ofNat ring.expiryDays.toNat).toInt = ring.expiryDays.toNat := by
  have hbound := ring.expiryDays.toNat_lt
  exact Int64.toInt_ofNat_of_lt (by omega)

/-- Whole days are counted toward zero, which makes no difference to a positive
number of them. -/
theorem le_tdiv_millisPerDay_iff (hdays : 0 < days) :
    days ≤ n.tdiv 86400000 ↔ days * 86400000 ≤ n := by
  by_cases hn : 0 ≤ n
  · rw [Int.tdiv_eq_ediv_of_nonneg hn]
    omega
  · have hback : n.tdiv 86400000 ≤ 0 := by
      rw [← Int.neg_nonneg, ← Int.neg_tdiv]
      exact Int.tdiv_nonneg (by omega) (by omega)
    omega

theorem rotates_iff : ring.rotates = true ↔ 0 < ring.expiryDays.toNat := by
  rw [rotates, decide_eq_true_iff, UInt32.lt_iff_toNat_lt]
  rfl

/-! ## When a record has expired -/

theorem isExpired_none (ring : KeyRing) (mode : Mode) (now : Int64) :
    ring.isExpired mode now none = .ok false := rfl

theorem isExpired_read (ring : KeyRing) (now : Int64) (dek : Option Dek) :
    ring.isExpired .read now dek = .ok false := by
  cases dek with
  | none => rfl
  | some dek =>
    rw [isExpired, if_neg]
    · rfl
    · rintro ⟨hmode, -⟩
      exact hmode rfl

theorem isExpired_of_fixed (hfixed : ring.rotates = false) (dek : Option Dek) :
    ring.isExpired mode now dek = .ok false := by
  cases dek with
  | none => rfl
  | some dek =>
    rw [isExpired, if_neg]
    · rfl
    · rintro ⟨-, hrotates⟩
      rw [hfixed] at hrotates
      cases hrotates

/-- For a rotating writer, an age that fits decides alone. -/
theorem isExpired_of_fits (hmode : mode ≠ .read) (hrotates : ring.rotates = true)
    (h : Fits (age now dek)) :
    ring.isExpired mode now (some dek) =
      .ok (decide ((ring.expiryDays.toNat : Int) * 86400000 ≤ age now dek)) := by
  have hpositive : (0 : Int) < ring.expiryDays.toNat := by
    have := rotates_iff.mp hrotates
    omega
  have hverdict : Int64.ofNat ring.expiryDays.toNat ≤ (now - dek.timestamp) / millisPerDay ↔
      (ring.expiryDays.toNat : Int) * 86400000 ≤ age now dek := by
    rw [Int64.le_iff_toInt_le, toInt_expiryDays, toInt_div_millisPerDay, toInt_sub_of_fits h]
    exact le_tdiv_millisPerDay_iff hpositive
  rw [isExpired, if_pos ⟨hmode, hrotates⟩, elapsed_of_fits h]
  exact congrArg Except.ok (decide_eq_decide.mpr hverdict)

/-- A rotating writer comes to no verdict on an age that does not fit. -/
theorem isExpired_of_overflow (hmode : mode ≠ .read) (hrotates : ring.rotates = true)
    (h : ¬ Fits (age now dek)) :
    ring.isExpired mode now (some dek) = .error ⟨now, dek.timestamp⟩ := by
  rw [isExpired, if_pos ⟨hmode, hrotates⟩, elapsed_of_overflow h]
  rfl

/-- There are three cases: nothing expires for a reader and where keys do not
rotate; a rotating writer goes by the age, or stops. -/
theorem isExpired_cases (ring : KeyRing) (mode : Mode) (now : Int64) (dek : Dek) :
    ((mode = .read ∨ ring.rotates = false) ∧ ring.isExpired mode now (some dek) = .ok false) ∨
      mode ≠ .read ∧ ring.rotates = true ∧
        ((Fits (age now dek) ∧ ring.isExpired mode now (some dek) =
            .ok (decide ((ring.expiryDays.toNat : Int) * 86400000 ≤ age now dek))) ∨
          ¬ Fits (age now dek) ∧
            ring.isExpired mode now (some dek) = .error ⟨now, dek.timestamp⟩) := by
  by_cases hmode : mode = .read
  · subst hmode
    exact .inl ⟨.inl rfl, isExpired_read ring now _⟩
  cases hrotates : ring.rotates with
  | false => exact .inl ⟨.inr rfl, isExpired_of_fixed hrotates _⟩
  | true =>
    refine .inr ⟨hmode, rfl, ?_⟩
    by_cases hfits : Fits (age now dek)
    · exact .inl ⟨hfits, isExpired_of_fits hmode hrotates hfits⟩
    · exact .inr ⟨hfits, isExpired_of_overflow hmode hrotates hfits⟩

/-- Expired is what a rotating writer finds with an age that fits and is large
enough. -/
theorem isExpired_iff : ring.isExpired mode now (some dek) = .ok true ↔
    mode ≠ .read ∧ 0 < ring.expiryDays.toNat ∧ Fits (age now dek) ∧
      (ring.expiryDays.toNat : Int) * 86400000 ≤ age now dek := by
  constructor
  · intro h
    rcases isExpired_cases ring mode now dek with ⟨-, hnot⟩ | ⟨hmode, hrotates, hcases⟩
    · rw [hnot] at h
      cases h
    · rcases hcases with ⟨hfits, hverdict⟩ | ⟨-, hstops⟩
      · rw [hverdict] at h
        exact ⟨hmode, rotates_iff.mp hrotates, hfits, of_decide_eq_true (Except.ok.inj h)⟩
      · rw [hstops] at h
        cases h
  · rintro ⟨hmode, hpositive, hfits, hage⟩
    rw [isExpired_of_fits hmode (rotates_iff.mpr hpositive) hfits, decide_eq_true hage]

/-- Only the age of a record stops an engine, and only that of a rotating
writer. -/
theorem isExpired_eq_error (h : ring.isExpired mode now (some dek) = .error cause) :
    mode ≠ .read ∧ ring.rotates = true ∧ ¬ Fits (age now dek) ∧ cause = ⟨now, dek.timestamp⟩ := by
  rcases isExpired_cases ring mode now dek with ⟨-, hnot⟩ | ⟨hmode, hrotates, hcases⟩
  · rw [hnot] at h
    cases h
  · rcases hcases with ⟨-, hverdict⟩ | ⟨hlarge, hstops⟩
    · rw [hverdict] at h
      cases h
    · rw [hstops] at h
      exact ⟨hmode, hrotates, hlarge, (Except.error.inj h).symm⟩

/-- A record that has expired stays expired while its age fits. -/
theorem isExpired_later (hlater : Fits (age later dek)) (hle : now ≤ later)
    (h : ring.isExpired mode now (some dek) = .ok true) :
    ring.isExpired mode later (some dek) = .ok true := by
  obtain ⟨hmode, hpositive, -, hage⟩ := isExpired_iff.mp h
  have hgrown : age now dek ≤ age later dek := by
    have htimes := Int64.le_iff_toInt_le.mp hle
    unfold age
    omega
  exact isExpired_iff.mpr ⟨hmode, hpositive, hlater, Int.le_trans hage hgrown⟩

/-- A record that has expired under a rule has expired under every rule with
fewer days, but for none. -/
theorem isExpired_of_fewer_days (hpositive : 0 < ring'.expiryDays.toNat)
    (hfewer : ring'.expiryDays.toNat ≤ ring.expiryDays.toNat)
    (h : ring.isExpired mode now (some dek) = .ok true) :
    ring'.isExpired mode now (some dek) = .ok true := by
  obtain ⟨hmode, -, hfits, hage⟩ := isExpired_iff.mp h
  exact isExpired_iff.mpr ⟨hmode, hpositive, hfits, by omega⟩

/-- The arithmetic of expiry.  Without a record, for readers, and under a rule of
no days, nothing has expired.  Where the age of a record fits into 64 bits, no
step of the computation overflows, the record has expired if and only if the days
of the rule have passed, and it stays expired as long as its age fits.  Where the
age does not fit, the subtraction overflows and there is no verdict.  Whatever has
expired has also expired under fewer days. -/
theorem expiry_exact (ring : KeyRing) (now : Int64) (dek : Dek) :
    (∀ mode, ring.isExpired mode now none = .ok false) ∧
    ring.isExpired .read now (some dek) = .ok false ∧
    ∀ mode, mode ≠ .read →
      (ring.expiryDays.toNat = 0 → ring.isExpired mode now (some dek) = .ok false) ∧
      (Fits (age now dek) →
        elapsed dek.timestamp now = .ok (now - dek.timestamp) ∧
        (now - dek.timestamp).toInt = age now dek ∧
        ((now - dek.timestamp) / millisPerDay).toInt = (age now dek).tdiv 86400000 ∧
        (Int64.ofNat ring.expiryDays.toNat).toInt = ring.expiryDays.toNat ∧
        ring.isExpired mode now (some dek) = .ok (decide (0 < ring.expiryDays.toNat ∧
          (ring.expiryDays.toNat : Int) * 86400000 ≤ age now dek)) ∧
        ∀ later, now ≤ later → Fits (age later dek) →
          ring.isExpired mode now (some dek) = .ok true →
          ring.isExpired mode later (some dek) = .ok true) ∧
      (¬ Fits (age now dek) →
        elapsed dek.timestamp now = .error ⟨now, dek.timestamp⟩ ∧
        (0 < ring.expiryDays.toNat →
          ring.isExpired mode now (some dek) = .error ⟨now, dek.timestamp⟩)) ∧
      ∀ ring' : KeyRing, 0 < ring'.expiryDays.toNat →
        ring'.expiryDays.toNat ≤ ring.expiryDays.toNat →
        ring.isExpired mode now (some dek) = .ok true →
        ring'.isExpired mode now (some dek) = .ok true := by
  refine ⟨fun mode => isExpired_none ring mode now, isExpired_read ring now (some dek), ?_⟩
  intro mode hmode
  have hnever : ring.expiryDays.toNat = 0 → ring.isExpired mode now (some dek) = .ok false := by
    intro hzero
    refine isExpired_of_fixed ?_ (some dek)
    rw [← Bool.not_eq_true, rotates_iff]
    omega
  refine ⟨hnever, ?_, ?_, ?_⟩
  · intro hfits
    have hdifference := toInt_sub_of_fits hfits
    have hdays : ((now - dek.timestamp) / millisPerDay).toInt = (age now dek).tdiv 86400000 := by
      rw [toInt_div_millisPerDay, hdifference]
    refine ⟨elapsed_of_fits hfits, hdifference, hdays, toInt_expiryDays ring, ?_, ?_⟩
    · by_cases hpositive : 0 < ring.expiryDays.toNat
      · rw [isExpired_of_fits hmode (rotates_iff.mpr hpositive) hfits]
        simp only [hpositive, true_and]
      · rw [hnever (by omega)]
        simp only [hpositive, false_and, decide_false]
    · intro later hle hlater hexpired
      exact isExpired_later hlater hle hexpired
  · intro hlarge
    refine ⟨elapsed_of_overflow hlarge, fun hpositive => ?_⟩
    exact isExpired_of_overflow hmode (rotates_iff.mpr hpositive) hlarge
  · intro ring' hpositive hfewer hexpired
    exact isExpired_of_fewer_days hpositive hfewer hexpired

/-- Under a rule of two days, a record from time 0 expires on the millisecond and
stays expired. -/
theorem expiry_exact_two_days :
    let ring : KeyRing := ⟨"k", ⟨"AES256_GCM"⟩, 2, ∅⟩
    let dek := Dek.bare "k" "s" 1 "AES256_GCM"
    ring.isExpired .write 172799999 (some dek) = .ok false ∧
      ring.isExpired .write 172800000 (some dek) = .ok true ∧
      ∀ later : Int64, 172800000 ≤ later → ring.isExpired .write later (some dek) = .ok true := by
  intro ring dek
  have hage : ∀ now : Int64, age now dek = now.toInt := by
    intro now
    exact Int.sub_zero now.toInt
  have hfits : ∀ now : Int64, Fits (age now dek) := by
    intro now
    rw [hage, fits_iff]
    exact ⟨now.le_toInt, Int.le_of_lt_add_one now.toInt_lt⟩
  obtain ⟨-, -, hbefore⟩ := expiry_exact ring 172799999 dek
  obtain ⟨-, -, hafter⟩ := expiry_exact ring 172800000 dek
  obtain ⟨-, -, -, -, hearly, -⟩ := (hbefore .write (by decide)).2.1 (hfits _)
  obtain ⟨-, -, -, -, hdue, hstays⟩ := (hafter .write (by decide)).2.1 (hfits _)
  have hexpired : ring.isExpired .write 172800000 (some dek) = .ok true := by
    rw [hdue, hage, decide_eq_true (by decide)]
  refine ⟨?_, hexpired, ?_⟩
  · rw [hearly, hage, decide_eq_false (by decide)]
  · intro later hle
    exact hstays later hle (hfits later) hexpired

/-- A record has expired and later, when many more days have passed, there is no
verdict on it: the subtraction overflows. -/
theorem expiry_overflows :
    let ring : KeyRing := ⟨"k", ⟨"AES256_GCM"⟩, 1, ∅⟩
    let dek : Dek := { Dek.bare "k" "s" 1 "AES256_GCM" with timestamp := Int64.minValue }
    ring.isExpired .write (-1) (some dek) = .ok true ∧
      (ring.expiryDays.toNat : Int) * 86400000 ≤ age 1700000000000 dek ∧
      ring.isExpired .write 1700000000000 (some dek) =
        .error ⟨1700000000000, Int64.minValue⟩ := by
  intro ring dek
  refine ⟨isExpired_iff.mpr ⟨by decide, by decide, fits_iff.mpr (by decide), by decide⟩,
    by decide, isExpired_of_overflow (by decide) (by decide) ?_⟩
  rw [fits_iff]
  decide

end KeyRing
end Envelope
