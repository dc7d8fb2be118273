import Envelope.Cipher.Block

/-!
# The AES block cipher

The forward direction of AES (FIPS 197) for keys of 16 and 32 bytes.  The
substitution table is computed from its definition, inversion in the field of
256 elements followed by an affine map, and not written out.
-/

namespace Envelope
namespace Cipher
namespace Aes

/-- Multiplication by `x` in the field of 256 elements. -/
def xtime (a : UInt8) : UInt8 :=
  if a &&& 0x80 = 0 then a <<< 1 else (a <<< 1) ^^^ 0x1b

/-- Multiplication in the field of 256 elements, one bit of `b` at a time. -/
def mul (a b : UInt8) : UInt8 :=
  ((List.range 8).foldl
    (fun (sum, power) i =>
      (if (b >>> UInt8.ofNat i) &&& 1 = 0 then sum else sum ^^^ power, xtime power))
    (0, a)).1

/-- `a ^ 254`, which is the inverse of every nonzero `a`. -/
def inverse (a : UInt8) : UInt8 :=
  let squares := (List.range 7).scanl (fun s _ => mul s s) (mul a a)
  (squares.take 7).foldl mul 1

/-- Rotation of a byte to the left. -/
def rotate (a : UInt8) (n : UInt8) : UInt8 :=
  (a <<< n) ||| (a >>> (8 - n))

/-- The substitution of one byte, from its definition. -/
def substituteByte (a : UInt8) : UInt8 :=
  let b := inverse a
  b ^^^ rotate b 1 ^^^ rotate b 2 ^^^ rotate b 3 ^^^ rotate b 4 ^^^ 0x63

/-- The substitutions of all bytes in order. -/
def substitutionTable : Array UInt8 :=
  (Array.range 256).map fun i => substituteByte (UInt8.ofNat i)

/-- The substitution of one byte, by table. -/
def substitute (a : UInt8) : UInt8 :=
  substitutionTable.getD a.toNat 0

/-- A column of the state: four bytes. -/
abbrev Column := Bytes

/-- The round constants `x ^ 0`, `x ^ 1`, and so on. -/
def roundConstant (i : Nat) : UInt8 :=
  (List.range i).foldl (fun c _ => xtime c) 1

/-- The column that follows the columns `previous` (latest first) of a key
schedule whose key has `size` columns. -/
def nextColumn (size : Nat) (previous : List Column) : Column :=
  let index := previous.length
  let last := previous.headD []
  let mixed :=
    if index % size = 0 then
      Bytes.xor ((last.drop 1 ++ last.take 1).map substitute)
        [roundConstant (index / size - 1), 0, 0, 0]
    else if 6 < size ∧ index % size = 4 then
      last.map substitute
    else
      last
  Bytes.xor mixed (previous.getD (size - 1) [])

/-- The round keys of `key`, in order of use. -/
def roundKeys (key : Bytes) : List Block :=
  let columns := key.chunks 4
  let size := columns.length
  let rounds := size + 6
  let all := (List.range (4 * (rounds + 1) - size)).foldl
    (fun previous _ => nextColumn size previous :: previous) columns.reverse
  Block.split all.reverse.flatten

/-- Byte substitution followed by the rotation of the rows. -/
def substituteAndShift (state : Array UInt8) : List UInt8 :=
  [0, 5, 10, 15, 4, 9, 14, 3, 8, 13, 2, 7, 12, 1, 6, 11].map fun i =>
    substitute (state.getD i 0)

/-- Mixes the columns of the state. -/
def mixColumns : List UInt8 → List UInt8
  | a :: b :: c :: d :: rest =>
    let all := a ^^^ b ^^^ c ^^^ d
    (a ^^^ all ^^^ xtime (a ^^^ b)) :: (b ^^^ all ^^^ xtime (b ^^^ c)) ::
      (c ^^^ all ^^^ xtime (c ^^^ d)) :: (d ^^^ all ^^^ xtime (d ^^^ a)) :: mixColumns rest
  | rest => rest

/-- The rounds after the first key addition; the last one does not mix the
columns. -/
def rounds : List Block → Block → Block
  | [], state => state
  | [key], state => Block.ofBytes (substituteAndShift state.toBytes.toArray) ^^^ key
  | key :: keys, state =>
    rounds keys (Block.ofBytes (mixColumns (substituteAndShift state.toBytes.toArray)) ^^^ key)

/-- The block cipher under `key`. -/
def cipher (key : Bytes) : BlockCipher :=
  match roundKeys key with
  | [] => id
  | first :: rest => fun block => rounds rest (block ^^^ first)

end Aes
end Cipher
end Envelope
