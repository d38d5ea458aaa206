import Mathlib
/- Arithmetic on 64-bit words that says when it does not fit. -/

namespace Checked

variable {a b c : UInt64}

/-- The product, unless it overflows. -/
def mul (a b : UInt64) : Option UInt64 := if a.toNat * b.toNat < 2 ^ 64 then some (a * b) else none

def saturatingSub (a b : UInt64) : UInt64 := if b ≤ a then a - b else 0

/-- The quotient, rounded up. -/
def divCeil (a b : UInt64) : UInt64 := if 0 < a % b then a / b + 1 else a / b

theorem mul_eq_some : mul a b = some c ↔ c.toNat = a.toNat * b.toNat := by
  rw [mul]
  split
  case isTrue fits =>
    have exact_ : (a * b).toNat = a.toNat * b.toNat := (UInt64.toNat_mul a b).trans (Nat.mod_eq_of_lt fits)
    rw [Option.some.injEq, ← exact_, UInt64.toNat_inj]
    exact eq_comm
  case isFalse beyond =>
    refine iff_of_false (fun same => nomatch same) fun same => beyond ?_
    rw [← same]
    exact c.toNat_lt

theorem mul_isSome : (mul a b).isSome = true ↔ a.toNat * b.toNat < 2 ^ 64 := by
  rw [mul]
  split
  case isTrue fits => exact iff_of_true rfl fits
  case isFalse beyond => exact iff_of_false Bool.false_ne_true beyond

@[simp] theorem toNat_saturatingSub : (saturatingSub a b).toNat = a.toNat - b.toNat := by
  rw [saturatingSub]
  split
  case isTrue below => exact UInt64.toNat_sub_of_le a b below
  case isFalse above =>
    rw [UInt64.le_iff_toNat_le, Nat.not_le] at above
    exact (Nat.sub_eq_zero_of_le (Nat.le_of_lt above)).symm

/-- The rounding up needs no further bit. -/
theorem toNat_divCeil (positive : 0 < b.toNat) : (divCeil a b).toNat = (a.toNat + b.toNat - 1) / b.toNat := by
  have split := Nat.div_add_mod a.toNat b.toNat
  have small := Nat.mod_lt a.toNat positive
  rw [divCeil]
  split
  case isTrue left =>
    have rest : 0 < a.toNat % b.toNat := by
      rw [UInt64.lt_iff_toNat_lt, UInt64.toNat_mod] at left
      exact left
    have whole : a.toNat / b.toNat + 1 < 2 ^ 64 := by
      have below : a.toNat / b.toNat < a.toNat := by
        apply Nat.div_lt_self
        · omega
        · apply Nat.lt_of_not_le
          intro one
          rw [show b.toNat = 1 by omega, Nat.mod_one] at rest
          exact absurd rest (Nat.lt_irrefl 0)
      have bound := a.toNat_lt
      omega
    rw [UInt64.toNat_add, UInt64.toNat_div, UInt64.toNat_one, Nat.mod_eq_of_lt whole]
    symm
    apply Nat.div_eq_of_lt_le
    · rw [Nat.add_mul, Nat.mul_comm]
      omega
    · rw [Nat.add_mul, Nat.add_mul, Nat.mul_comm]
      omega
  case isFalse none_ =>
    have rest : a.toNat % b.toNat = 0 := by
      rw [UInt64.lt_iff_toNat_lt, UInt64.toNat_mod] at none_
      exact Nat.eq_zero_of_not_pos none_
    rw [UInt64.toNat_div]
    symm
    apply Nat.div_eq_of_lt_le
    · rw [Nat.mul_comm]
      omega
    · rw [Nat.add_mul, Nat.mul_comm]
      omega

end Checked
