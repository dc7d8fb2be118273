/-!
# Byte strings

Byte strings are lists of bytes.  This module holds the operations that every
other part shares: bytewise exclusive or, and the big-endian and little-endian
forms of natural numbers.
-/

namespace Envelope

/-- A byte string. -/
abbrev Bytes := List UInt8

namespace Bytes

/-- Bytewise exclusive or, as long as the shorter argument. -/
def xor (a b : Bytes) : Bytes :=
  List.zipWith (fun x y => x ^^^ y) a b

/-- `n` zero bytes. -/
def zeros (n : Nat) : Bytes :=
  List.replicate n 0

/-- The number whose base-256 digits are `bytes`, most significant first. -/
def toNat (bytes : Bytes) : Nat :=
  bytes.foldl (fun n b => n * 256 + b.toNat) 0

/-- The last `width` base-256 digits of `n`, most significant first. -/
def ofNat : (width n : Nat) → Bytes
  | 0, _ => []
  | width + 1, n => ofNat width (n / 256) ++ [UInt8.ofNat n]

/-- The last `width` base-256 digits of `n`, least significant first. -/
def ofNatLittle (width n : Nat) : Bytes :=
  (ofNat width n).reverse

/-- The number whose base-256 digits are `bytes`, least significant first. -/
def toNatLittle (bytes : Bytes) : Nat :=
  toNat bytes.reverse

/-- Consecutive pieces of `size` bytes; the last piece may be shorter. -/
def chunks (size : Nat) (bytes : Bytes) : List Bytes :=
  (List.range ((bytes.length + size - 1) / size)).map fun i =>
    (bytes.drop (i * size)).take size

theorem length_ofNat (width n : Nat) : (ofNat width n).length = width := by
  induction width generalizing n with
  | zero => rfl
  | succ width ih => simp [ofNat, ih]

theorem length_xor (a b : Bytes) : (xor a b).length = min a.length b.length := by
  simp [xor]

/-- Adding the same bytes twice gives the first argument back. -/
theorem xor_xor_cancel (a k : Bytes) (h : a.length ≤ k.length) :
    xor (xor a k) k = a := by
  induction a generalizing k with
  | nil => rfl
  | cons x a ih =>
    cases k with
    | nil => simp at h
    | cons y k =>
      simp only [xor, List.zipWith_cons_cons, List.cons.injEq] at ih ⊢
      refine ⟨?_, ih k (by simpa using h)⟩
      rw [UInt8.xor_assoc, UInt8.xor_self, UInt8.xor_zero]

end Bytes
end Envelope
