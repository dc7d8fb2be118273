import Envelope.Bytes

/-!
# Base64

The standard alphabet with mandatory padding.  Decoding is strict: the only
accepted text of a byte string is the one that encoding writes, and every
refusal names the first offending byte.
-/

namespace Envelope
namespace Base64

/-- The padding byte. -/
def padding : UInt8 := 61

/-- The symbol of a number below 64. -/
def symbol (n : Nat) : UInt8 :=
  UInt8.ofNat <|
    if n < 26 then n + 65
    else if n < 52 then n + 71
    else if n < 62 then n - 4
    else if n = 62 then 43
    else 47

/-- The number of a symbol. -/
def value? (b : UInt8) : Option Nat :=
  let n := b.toNat
  if 65 ≤ n ∧ n ≤ 90 then some (n - 65)
  else if 97 ≤ n ∧ n ≤ 122 then some (n - 71)
  else if 48 ≤ n ∧ n ≤ 57 then some (n + 4)
  else if n = 43 then some 62
  else if n = 47 then some 63
  else none

/-- The symbols of a byte string, as bytes. -/
def encodeBytes : Bytes → Bytes
  | a :: b :: c :: rest =>
    let n := (a.toNat * 256 + b.toNat) * 256 + c.toNat
    symbol (n / 262144) :: symbol (n / 4096 % 64) :: symbol (n / 64 % 64) :: symbol (n % 64) ::
      encodeBytes rest
  | [a, b] =>
    let n := a.toNat * 256 + b.toNat
    [symbol (n / 1024), symbol (n / 16 % 64), symbol (n % 16 * 4), padding]
  | [a] => [symbol (a.toNat / 4), symbol (a.toNat % 4 * 16), padding, padding]
  | [] => []

/-- The text of a byte string. -/
def encode (bytes : Bytes) : String :=
  String.ofList ((encodeBytes bytes).map fun b => Char.ofNat b.toNat)

/-- Why a text is not the encoding of any byte string. -/
inductive DecodeError where
  /-- A byte that may not stand at this offset. -/
  | invalidSymbol (byte : UInt8) (offset : Nat)
  /-- The last symbol carries bits beyond the last whole byte. -/
  | invalidLastSymbol (byte : UInt8) (offset : Nat)
  /-- The last group has too few symbols to carry a byte. -/
  | invalidLength (length : Nat)
  /-- The last group is not filled up with the right padding. -/
  | invalidPadding
deriving DecidableEq, Repr

/-- The wording of a refusal. -/
def DecodeError.message : DecodeError → String
  | invalidSymbol byte offset => s!"Invalid symbol {byte}, offset {offset}."
  | invalidLastSymbol byte offset => s!"Invalid last symbol {byte}, offset {offset}."
  | invalidLength length => s!"Invalid input length: {length}"
  | invalidPadding => "Invalid padding"

/-- The number of the symbol at `offset`. -/
def valueAt (offset : Nat) (b : UInt8) : Except DecodeError Nat :=
  match value? b with
  | some v => .ok v
  | none => .error (.invalidSymbol b offset)

/-- The three bytes of four numbers below 64. -/
def ofValues (a b c d : Nat) : Bytes :=
  Bytes.ofNat 3 (((a * 64 + b) * 64 + c) * 64 + d)

/-- Reads the last group, of at most four bytes: `values` are the numbers of
the symbols read so far and `pads` counts the padding bytes read so far. -/
def scanTail (offset : Nat) (values : List Nat) (pads : Nat) :
    Bytes → Except DecodeError (List Nat × Nat)
  | [] => .ok (values, pads)
  | b :: rest =>
    let index := values.length + pads
    if b = padding then
      if index < 2 then .error (.invalidSymbol b (offset + index))
      else scanTail offset values (pads + 1) rest
    else if 0 < pads then
      .error (.invalidSymbol padding (offset + values.length))
    else
      match value? b with
      | some v => scanTail offset (values ++ [v]) pads rest
      | none => .error (.invalidSymbol b (offset + index))

/-- The bytes of the last group, which starts at `offset`. -/
def decodeTail (offset : Nat) (tail : Bytes) : Except DecodeError Bytes := do
  let (values, pads) ← scanTail offset [] 0 tail
  if values.length < 2 ∧ tail ≠ [] then
    throw (.invalidLength (offset + values.length))
  if (values.length + pads) % 4 ≠ 0 then
    throw .invalidPadding
  match values with
  | [a, b, c, d] => return ofValues a b c d
  | [a, b, c] =>
    if c % 4 ≠ 0 then throw (.invalidLastSymbol (tail.getD 2 0) (offset + 2))
    return (ofValues a b c 0).take 2
  | [a, b] =>
    if b % 16 ≠ 0 then throw (.invalidLastSymbol (tail.getD 1 0) (offset + 1))
    return (ofValues a b 0 0).take 1
  | _ => return []

/-- The bytes of a text whose first byte stands at `offset`: groups of four
symbols, of which only the last may be padded. -/
def decodeFrom (offset : Nat) : Bytes → Except DecodeError Bytes
  | a :: b :: c :: d :: e :: rest => do
    let va ← valueAt offset a
    let vb ← valueAt (offset + 1) b
    let vc ← valueAt (offset + 2) c
    let vd ← valueAt (offset + 3) d
    return ofValues va vb vc vd ++ (← decodeFrom (offset + 4) (e :: rest))
  | tail => decodeTail offset tail

/-- The bytes of a text.  A stray last byte is reported before anything else. -/
def decode (text : Bytes) : Except DecodeError Bytes :=
  match text.getLast? with
  | none => .ok []
  | some last =>
    if text.length % 4 = 1 ∧ last ≠ padding ∧ value? last = none then
      .error (.invalidSymbol last (text.length - 1))
    else
      decodeFrom 0 text

end Base64
end Envelope
