import Mathlib.Algebra.Ring.Int.Defs
import Mathlib.Algebra.Ring.Nat

/-!
# Little endian numbers

A number of a fixed width as its bytes, the lowest first.
-/

namespace SecureChat.Library.LittleEndian

def split : Nat → Nat → List UInt8
  | 0, _ => []
  | width + 1, n => UInt8.ofNat n :: split width (n / 256)

def join : List UInt8 → Nat
  | [] => 0
  | byte :: rest => byte.toNat + 256 * join rest

@[simp] theorem length_split (width n : Nat) : (split width n).length = width := by
  induction width generalizing n with
  | zero => rfl
  | succ width ih => simp [split, ih]

theorem join_split {width n : Nat} (fits : n < 256 ^ width) : join (split width n) = n := by
  induction width generalizing n with
  | zero =>
      have zero : n = 0 := by simpa using fits
      rw [zero, split, join]
  | succ width ih =>
      have rest : n / 256 < 256 ^ width := by
        apply Nat.div_lt_of_lt_mul
        rwa [Nat.pow_succ, Nat.mul_comm] at fits
      rw [split, join, ih rest, UInt8.toNat_ofNat']
      exact Nat.mod_add_div n 256

end SecureChat.Library.LittleEndian
