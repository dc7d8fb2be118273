/-!
# Decimal digits

Numbers written with the digits from 0 to 9.
-/

namespace Envelope
namespace Digits

/-- The number written by decimal digits. -/
def value (digits : List Char) : Nat :=
  digits.foldl (fun n c => n * 10 + (c.toNat - '0'.toNat)) 0

/-- A number as a word, if it is below `2 ^ 32`. -/
def toWord? (n : Nat) : Option UInt32 :=
  if n < UInt32.size then some (UInt32.ofNat n) else none

/-- The word with one more digit at its end.  Neither ten times the word nor
its sum with the digit may leave the 32 bits. -/
def appendDigit (word : UInt32) (c : Char) : Option UInt32 := do
  guard c.isDigit
  let tens ← toWord? (word.toNat * 10)
  toWord? (tens.toNat + (c.toNat - '0'.toNat))

/-- The number of 32 bits that a text writes with at least one digit, after at
most one plus sign. -/
def readWord (text : String) : Option UInt32 :=
  let digits :=
    match text.toList with
    | '+' :: rest => rest
    | all => all
  if digits = [] then none else digits.foldlM appendDigit 0

end Digits
end Envelope
