import Mathlib
/-!
# Fixed-width big-endian numbers

A number as exactly `width` octets in network order, truncated to its low
`width` octets, and the number an octet string spells.
-/

namespace TChat.Lib

/-- The low `width` octets of `n`, most significant first. -/
def bigEndian : Nat → Nat → List UInt8
  | 0, _ => []
  | width + 1, n => bigEndian width (n / 256) ++ [UInt8.ofNat (n % 256)]

/-- The number an octet string spells in network order. -/
def readBigEndian (octets : List UInt8) : Nat :=
  octets.foldl (fun acc octet => acc * 256 + octet.toNat) 0

@[simp] theorem length_bigEndian (width n : Nat) :
    (bigEndian width n).length = width := by
  induction width generalizing n with
  | zero => rfl
  | succ width ih => simp [bigEndian, ih]

theorem readBigEndian_concat (octets : List UInt8) (octet : UInt8) :
    readBigEndian (octets ++ [octet]) = readBigEndian octets * 256 + octet.toNat := by
  simp [readBigEndian]

theorem readBigEndian_bigEndian (width n : Nat) :
    readBigEndian (bigEndian width n) = n % 256 ^ width := by
  induction width generalizing n with
  | zero => simp [bigEndian, readBigEndian, Nat.mod_one]
  | succ width ih =>
      have hoctet : (UInt8.ofNat (n % 256)).toNat = n % 256 := by simp
      rw [bigEndian, readBigEndian_concat, ih, hoctet]
      have hsplit : n % 256 ^ (width + 1) = n % 256 + 256 * (n / 256 % 256 ^ width) := by
        rw [Nat.pow_succ', Nat.mod_mul]
      omega

end TChat.Lib
