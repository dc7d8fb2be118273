import Envelope.Binary
import Envelope.Dict

/-!
# JSON values

The values of the data format JSON.  Whole numbers from `-2 ^ 63` to
`2 ^ 64 - 1` are told apart from all other numbers, which are binary floating
point.
-/

namespace Envelope

/-- A JSON value; the fields of an object stand in written order. -/
inductive Json where
  | null
  | bool (value : Bool)
  | integer (value : Int)
  | real (negative : Bool) (magnitude : Binary)
  | string (value : String)
  | array (items : List Json)
  | object (fields : List (String × Json))
deriving Inhabited

namespace Json

/-- The value of a number as it is written, if it is not too large. -/
def ofDecimal? (negative : Bool) (x : Decimal) : Option Json :=
  (Binary.ofDecimal? x).map (real negative)

/-- The value of a number written without fraction and exponent.  Minus zero
and numbers out of range are no integers. -/
def ofWhole? (negative : Bool) (digits : List Char) : Option Json :=
  let n := Digits.value digits
  if negative ∧ 0 < n ∧ Int64.minValue.toInt ≤ -n then some (integer (-n))
  else if !negative ∧ n < UInt64.size then some (integer n)
  else ofDecimal? negative (Decimal.ofWritten digits [] 0)

/-- The text of a number that is no integer. -/
def realText (negative : Bool) (magnitude : Binary) : String :=
  (if negative then "-" else "") ++ magnitude.text

/-- The fields of an object by name; of equal names the last one counts. -/
def fields? : Json → Option (Dict Json)
  | object fields => some (Dict.ofList fields)
  | _ => none

end Json
end Envelope
