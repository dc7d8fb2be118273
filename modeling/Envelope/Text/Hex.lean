import Envelope.Bytes

/-!
# Hexadecimal text

Two lower-case digits per byte, the high half first.
-/

namespace Envelope
namespace Hex

/-- The digit of a number below sixteen. -/
def digit (n : Nat) : Char :=
  (Nat.digitChar n)

/-- The value of a digit, in either case. -/
def value? (c : Char) : Option Nat :=
  if '0' ≤ c ∧ c ≤ '9' then some (c.toNat - '0'.toNat)
  else if 'a' ≤ c ∧ c ≤ 'f' then some (c.toNat - 'a'.toNat + 10)
  else if 'A' ≤ c ∧ c ≤ 'F' then some (c.toNat - 'A'.toNat + 10)
  else none

/-- The two digits of a byte. -/
def ofByte (b : UInt8) : List Char :=
  [digit (b.toNat / 16), digit (b.toNat % 16)]

/-- The digits of a byte string. -/
def encode (bytes : Bytes) : String :=
  String.ofList (bytes.flatMap ofByte)

/-- The bytes of pairs of digits. -/
def decodeChars : List Char → Option Bytes
  | [] => some []
  | high :: low :: rest => do
    let h ← value? high
    let l ← value? low
    return UInt8.ofNat (16 * h + l) :: (← decodeChars rest)
  | [_] => none

/-- The byte string written by a text of pairs of digits. -/
def decode (text : String) : Option Bytes :=
  decodeChars text.toList

end Hex
end Envelope
