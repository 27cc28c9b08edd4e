import Mathlib.Algebra.Ring.Int.Defs
import Mathlib.Algebra.Ring.Nat

/-!
# Counting loops

`for (i = first; test(i); i++) body` over an index of a fixed width. The loop fails when its body
does and when the index cannot be incremented, so a loop that ends has kept its index in range.
-/

namespace SecureChat.Library

section
variable {ι σ : Type} (test : ι → Bool) (next : ι → Option ι) (body : ι → σ → Option σ)

/-- The loop for at most `fuel` rounds. -/
def forLoop : Nat → ι → σ → Option σ
  | 0, i, s => if test i then none else some s
  | fuel + 1, i, s =>
      if test i then do
        let s ← body i s
        let i ← next i
        forLoop fuel i s
      else some s

/-- The index takes the values `index 0`, `index 1`, ... and stops the loop at `index n`. -/
structure Counts (index : Nat → ι) (n : Nat) : Prop where
  goes : ∀ k < n, test (index k) = true
  stops : test (index n) = false
  next : ∀ k < n, next (index k) = some (index (k + 1))

variable {test next body}

theorem Counts.run {index : Nat → ι} {n : Nat} (counts : Counts test next index n) (state : Nat → σ)
    (round : ∀ k < n, body (index k) (state k) = some (state (k + 1))) (spare : Nat) :
    forLoop test next body (n + spare) (index 0) (state 0) = some (state n) := by
  have rounds (left : Nat) : ∀ k, k + left = n →
      forLoop test next body (left + spare) (index k) (state k) = some (state n) := by
    induction left with
    | zero =>
        intro k here
        rw [Nat.add_zero] at here
        rw [Nat.zero_add, here]
        cases spare <;> rw [forLoop, counts.stops] <;> rfl
    | succ left ih =>
        intro k here
        have before : k < n := by omega
        rw [Nat.succ_add, forLoop, if_pos (counts.goes k before), round k before, Option.bind_eq_bind,
          Option.bind_some, counts.next k before]
        exact ih (k + 1) (by omega)
  exact rounds n 0 (Nat.zero_add n)

theorem forLoop_endless (endless : ∀ i, test i = true) (fuel : Nat) (i : ι) (s : σ) :
    forLoop test next body fuel i s = none := by
  induction fuel generalizing i s with
  | zero => rw [forLoop, if_pos (endless i)]
  | succ fuel ih =>
      rw [forLoop, if_pos (endless i)]
      cases body i s with
      | none => rfl
      | some after =>
          cases next i with
          | none => rfl
          | some i => exact ih i after

end

/-! ## Index types -/

def nextInt32 (i : Int32) : Option Int32 :=
  if i = Int32.maxValue then none else some (i + 1)

def nextUInt32 (i : UInt32) : Option UInt32 :=
  if i = UInt32.ofNat (2 ^ 32 - 1) then none else some (i + 1)

/-- An iterator over `n` elements, with `n` for its end. -/
def nextPosition (n i : Nat) : Option Nat :=
  if i < n then some (i + 1) else none

theorem counts_int32 {n : Nat} (fits : n < 2 ^ 31) :
    Counts (fun i : Int32 => decide (i.toInt < n)) nextInt32 Int32.ofNat n where
  goes k before := by
    rw [Int32.toInt_ofNat_of_lt (by omega), decide_eq_true_eq]
    exact_mod_cast before
  stops := by
    rw [Int32.toInt_ofNat_of_lt fits]
    simp
  next k before := by
    have lower : Int32.ofNat k ≠ Int32.maxValue := by
      intro same
      have value := congrArg Int32.toInt same
      rw [Int32.toInt_ofNat_of_lt (by omega), Int32.toInt_maxValue] at value
      omega
    rw [nextInt32, if_neg lower, Int32.ofNat_add]
    rfl

private theorem toNat_ofNat_uint32 {k : Nat} (fits : k < 2 ^ 32) : (UInt32.ofNat k).toNat = k :=
  UInt32.toNat_ofNat_of_lt' fits

theorem counts_uint32 {n : Nat} (fits : n < 2 ^ 32) :
    Counts (fun i : UInt32 => decide (i.toNat < n)) nextUInt32 UInt32.ofNat n where
  goes k before := by
    rw [toNat_ofNat_uint32 (by omega), decide_eq_true_eq]
    exact before
  stops := by
    rw [toNat_ofNat_uint32 (by omega)]
    simp
  next k before := by
    have lower : UInt32.ofNat k ≠ UInt32.ofNat (2 ^ 32 - 1) := by
      intro same
      have value := congrArg UInt32.toNat same
      rw [toNat_ofNat_uint32 (by omega), toNat_ofNat_uint32 (by omega)] at value
      omega
    rw [nextUInt32, if_neg lower, UInt32.ofNat_add]
    rfl

theorem counts_position (n : Nat) : Counts (fun i => decide (i < n)) (nextPosition n) id n where
  goes k before := decide_eq_true before
  stops := by simp
  next k before := if_pos before

end SecureChat.Library
