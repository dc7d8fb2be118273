import Envelope.Text.Digits

/-!
# Decimal numbers

Numbers in scientific notation, without a sign: how one is taken from the
digits it is written with, and how one is laid out as text.
-/

namespace Envelope

/-- The number `digits * 10 ^ exponent`. -/
structure Decimal where
  digits : Nat
  exponent : Int
deriving DecidableEq, Repr

namespace Decimal

/-- Appends digits to a number for as long as it stays below `2 ^ 64`, and
returns the digits from the first one that does not fit. -/
def append (n : Nat) : List Char → Nat × List Char
  | [] => (n, [])
  | c :: rest =>
    let m := n * 10 + Digits.value [c]
    if m < UInt64.size then append m rest else (n, c :: rest)

/-- The number written with the digits before and after a point and an
exponent.  Digits that do not fit count as zeros. -/
def ofWritten (whole fraction : List Char) (exponent : Int) : Decimal :=
  let (n, wholeRest) := append 0 whole
  let (n, fractionRest) := append n fraction
  ⟨n, exponent + wholeRest.length + fractionRest.length - fraction.length⟩

/-- The same number without the zeros at the end of its digits. -/
def dropZeros : Nat → Decimal → Decimal
  | 0, x => x
  | fuel + 1, x =>
    if x.digits % 10 = 0 ∧ x.digits ≠ 0 then dropZeros fuel ⟨x.digits / 10, x.exponent + 1⟩ else x

/-- The written form of an exponent, with its sign. -/
def exponentText (e : Int) : String :=
  (if 0 ≤ e then "e+" else "e") ++ toString e

/-- The text of a number: positional for magnitudes from `10 ^ -5` up to
`10 ^ 16`, otherwise with one digit before the point and an exponent. -/
def text (x : Decimal) : String :=
  let digits := Nat.repr x.digits
  let point : Int := digits.length + x.exponent
  let zeros (i : Int) := String.ofList (List.replicate i.toNat '0')
  if 0 ≤ x.exponent ∧ point ≤ 16 then
    digits ++ zeros x.exponent ++ ".0"
  else if 0 < point ∧ point ≤ 16 then
    String.ofList (digits.toList.take point.toNat) ++ "." ++
      String.ofList (digits.toList.drop point.toNat)
  else if -5 < point ∧ point ≤ 0 then
    "0." ++ zeros (-point) ++ digits
  else
    let fraction := digits.toList.drop 1
    String.ofList (digits.toList.take 1) ++
      (if fraction = [] then "" else "." ++ String.ofList fraction) ++ exponentText (point - 1)

end Decimal
end Envelope
