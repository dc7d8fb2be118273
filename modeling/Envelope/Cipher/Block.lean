import Envelope.Bytes

/-!
# Cipher blocks

A cipher block is a vector of 128 bits; its most significant byte is the first
byte of its written form.  Beside the two conversions the module holds what
the modes of operation share: the keystream of a sequence of counter blocks,
and doubling in the field of `2 ^ 128` elements.
-/

namespace Envelope
namespace Cipher

/-- A block of 128 bits. -/
abbrev Block := BitVec 128

/-- A keyed permutation of blocks, of which only the forward direction is
needed here. -/
abbrev BlockCipher := Block → Block

namespace Block

/-- The block whose first bytes are `bytes`; missing bytes are zero. -/
def ofBytes (bytes : Bytes) : Block :=
  BitVec.ofNat 128 (Bytes.toNat ((bytes ++ Bytes.zeros 16).take 16))

/-- The sixteen bytes of a block. -/
def toBytes (block : Block) : Bytes :=
  Bytes.ofNat 16 block.toNat

/-- The blocks of `bytes`, the last one filled up with zeros. -/
def split (bytes : Bytes) : List Block :=
  (bytes.chunks 16).map ofBytes

/-- The block read from its last byte to its first. -/
def reverseBytes (block : Block) : Block :=
  ofBytes block.toBytes.reverse

/-- Multiplication by `x` where bit 127 is the coefficient of `x ^ 127`. -/
def double (block : Block) : Block :=
  let shifted := block <<< 1
  if block.msb then shifted ^^^ 0x87#128 else shifted

theorem length_toBytes (block : Block) : block.toBytes.length = 16 :=
  Bytes.length_ofNat 16 _

end Block

/-- The first `n` bytes of the encrypted counter blocks `counter 0`,
`counter 1`, and so on. -/
def keystream (cipher : BlockCipher) (counter : Nat → Block) (n : Nat) : Bytes :=
  ((List.range ((n + 15) / 16)).flatMap fun i => (cipher (counter i)).toBytes).take n

/-- Counter mode: the text added to the keystream. -/
def counterMode (cipher : BlockCipher) (counter : Nat → Block) (text : Bytes) : Bytes :=
  text.xor (keystream cipher counter text.length)

theorem length_keystream (cipher : BlockCipher) (counter : Nat → Block) (n : Nat) :
    (keystream cipher counter n).length = n := by
  have blocks : ∀ l : List Nat,
      (l.flatMap fun i => (cipher (counter i)).toBytes).length = 16 * l.length := by
    intro l
    induction l with
    | nil => rfl
    | cons i l ih => simp [ih, Block.length_toBytes]; omega
  simp only [keystream, List.length_take, blocks, List.length_range]
  omega

theorem length_counterMode (cipher : BlockCipher) (counter : Nat → Block) (text : Bytes) :
    (counterMode cipher counter text).length = text.length := by
  simp [counterMode, Bytes.length_xor, length_keystream]

/-- Counter mode undoes itself. -/
theorem counterMode_counterMode (cipher : BlockCipher) (counter : Nat → Block) (text : Bytes) :
    counterMode cipher counter (counterMode cipher counter text) = text := by
  rw [counterMode, length_counterMode, counterMode]
  exact Bytes.xor_xor_cancel _ _ (by simp [length_keystream])

end Cipher
end Envelope
