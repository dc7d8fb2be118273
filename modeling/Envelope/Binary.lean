import Envelope.Decimal

/-!
# Binary floating point

Magnitudes with a significand of 53 bits.  Every operation is exact arithmetic
on whole numbers followed by one rounding to the nearest magnitude, a tie to
the even significand.
-/

namespace Envelope

/-- The magnitude `significand * 2 ^ exponent`. -/
structure Binary where
  significand : Nat
  exponent : Int
deriving DecidableEq, Repr

namespace Binary

/-- The least exponent. -/
def leastExponent : Int := -1074

/-- The greatest exponent. -/
def greatestExponent : Int := 971

/-- The quotient rounded to the nearest number, a half to the even one. -/
def roundDiv (n d : Nat) : Nat :=
  let q := n / d
  let r := n % d
  if 2 * r < d then q
  else if d < 2 * r then q + 1
  else q + q % 2

/-- The power `base ^ e`, or one for a negative exponent. -/
def power (base : Nat) (e : Int) : Nat :=
  Nat.pow base e.toNat

/-! ### Rounding -/

/-- The quotient `n / d` in units of `2 ^ e`, rounded. -/
def inUnits (n d : Nat) (e : Int) : Nat :=
  roundDiv (n * power 2 (-e)) (d * power 2 e)

/-- The magnitude nearest to `n / d`, as if there were no greatest exponent. -/
def nearest (n d : Nat) : Binary :=
  let guess : Int := (Nat.log2 n : Int) - (Nat.log2 d : Int) - 52
  let low := n * power 2 (-guess) < d * power 2 guess * power 2 52
  let e := max leastExponent (if low then guess - 1 else guess)
  let m := inUnits n d e
  if m = power 2 53 then ⟨power 2 52, e + 1⟩ else ⟨m, e⟩

/-- Whether the exponent of a magnitude is not too large. -/
def isFinite (b : Binary) : Bool :=
  b.exponent ≤ greatestExponent

/-- The product of two magnitudes. -/
def mul (a b : Binary) : Binary :=
  let e := a.exponent + b.exponent
  nearest (a.significand * b.significand * power 2 e) (power 2 (-e))

/-- The quotient of two magnitudes. -/
def div (a b : Binary) : Binary :=
  let e := a.exponent - b.exponent
  nearest (a.significand * power 2 e) (b.significand * power 2 (-e))

/-! ### Reading a decimal -/

/-- The power `10 ^ k`, rounded. -/
def tenPower (k : Nat) : Binary :=
  nearest (Nat.pow 10 k) 1

/-- Divides by `10 ^ k`, by at most `10 ^ 308` at a time.  Two divisions by
`10 ^ 308` leave zero of a number below `2 ^ 64`, so that three steps are
enough. -/
def divTenPower : Nat → Binary → Nat → Binary
  | 0, b, _ => b
  | fuel + 1, b, k =>
    if b.significand = 0 then b
    else if k ≤ 308 then b.div (tenPower k)
    else divTenPower fuel (b.div (tenPower 308)) (k - 308)

/-- The magnitude as which a decimal is read: its digits are rounded, and then
multiplied or divided by a rounded power of ten.  There is none for a decimal
that is too large. -/
def ofDecimal? (x : Decimal) : Option Binary :=
  let b := nearest x.digits 1
  if b.significand = 0 then some b
  else if x.exponent < 0 then some (divTenPower 3 b (-x.exponent).toNat)
  else if 308 < x.exponent then none
  else
    let product := b.mul (tenPower x.exponent.toNat)
    if product.isFinite then some product else none

/-! ### The shortest decimal -/

/-- Whether `n * 10 ^ k` rounds to a magnitude: it lies between the points half
way to the neighbours, which count if the significand is even. -/
def holds (b : Binary) (n : Nat) (k : Int) : Bool :=
  let e := b.exponent - 2
  let middle := 4 * b.significand
  let below := if b.significand = power 2 52 ∧ leastExponent < b.exponent then 1 else 2
  let point := n * power 10 k * power 2 (-e)
  let unit := power 2 e * power 10 (-k)
  let low := (middle - below) * unit
  let high := (middle + 2) * unit
  (decide (low < point) && decide (point < high)) ||
    (b.significand % 2 == 0 && (low == point || point == high))

/-- The number of digits before the point: `10 ^ (m - 1) ≤ b < 10 ^ m`. -/
def magnitude (b : Binary) : Int :=
  let whole := (b.significand * power 2 b.exponent) / power 2 (-b.exponent)
  if 0 < whole then
    (Nat.repr whole).length
  else
    let scaled := b.significand * power 10 400 / power 2 (-b.exponent)
    (Nat.repr scaled).length - 400

/-- The decimal with the given number of digits that rounds to a magnitude, if
there is one: the nearer one of two, and of two equally near ones the even. -/
def withDigits (b : Binary) (count : Nat) : Option Decimal :=
  let k := b.magnitude - count
  let n := b.significand * power 2 b.exponent * power 10 (-k)
  let d := power 2 (-b.exponent) * power 10 k
  let near := roundDiv n d
  let far := if near = n / d then near + 1 else n / d
  ([near, far].find? fun c => b.holds c k).map fun c => ⟨c, k⟩

/-- The shortest decimal that rounds to a nonzero magnitude.  Seventeen digits
are always enough. -/
def shortest (b : Binary) : Decimal :=
  (((List.range 17).findSome? fun i => b.withDigits (i + 1)).getD ⟨0, 0⟩).dropZeros 20

/-- The text of a magnitude. -/
def text (b : Binary) : String :=
  if b.significand = 0 then "0.0" else b.shortest.text

end Binary
end Envelope
