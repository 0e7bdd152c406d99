import Mathlib.Algebra.Group.Int.Defs
import Mathlib.Algebra.Group.Nat.Defs

/-!
# FatDrive.Lib.MachineInt — fixed-width integer arithmetic of a release build

`usize` and `u64` are naturals below `2 ^ 64`, `u32` below `2 ^ 32`, `i64` integers in
`[-2 ^ 63, 2 ^ 63)`.  Sums, differences and products wrap, casts truncate.  Each operation comes
with the lemma that says when it is the mathematical one.
-/

namespace FatDrive.Lib

def usizeAdd (a b : ℕ) : ℕ := (a + b) % 2 ^ 64

def usizeSub (a b : ℕ) : ℕ := (a + (2 ^ 64 - b % 2 ^ 64)) % 2 ^ 64

def usizeMul (a b : ℕ) : ℕ := a * b % 2 ^ 64

/-- `x as u32`. -/
def asU32 (x : ℕ) : ℕ := x % 2 ^ 32

/-- The wrapping product of two `u32`. -/
def u32Mul (a b : ℕ) : ℕ := a * b % 2 ^ 32

/-- `i64::abs`: the most negative value is its own absolute value. -/
def i64Abs (x : ℤ) : ℤ := if x = -2 ^ 63 then x else x.natAbs

/-- `x as usize` for an `i64`. -/
def i64AsUsize (x : ℤ) : ℕ := (x % 2 ^ 64).toNat

/-- `x as i64` for a `u64`. -/
def asI64 (x : ℕ) : ℤ := if x < 2 ^ 63 then x else x - 2 ^ 64

theorem usizeAdd_of_lt {a b : ℕ} (h : a + b < 2 ^ 64) : usizeAdd a b = a + b :=
  Nat.mod_eq_of_lt h

theorem usizeSub_of_le {a b : ℕ} (ha : a < 2 ^ 64) (h : b ≤ a) : usizeSub a b = a - b := by
  unfold usizeSub
  omega

theorem usizeMul_of_lt {a b : ℕ} (h : a * b < 2 ^ 64) : usizeMul a b = a * b :=
  Nat.mod_eq_of_lt h

theorem asU32_of_lt {x : ℕ} (h : x < 2 ^ 32) : asU32 x = x := Nat.mod_eq_of_lt h

theorem asU32_lt (x : ℕ) : asU32 x < 2 ^ 32 := Nat.mod_lt _ (by decide)

theorem asI64_of_lt {x : ℕ} (h : x < 2 ^ 63) : asI64 x = x := if_pos h

theorem i64AsUsize_of_nonneg {x : ℤ} (h : 0 ≤ x) (h' : x < 2 ^ 64) : (i64AsUsize x : ℤ) = x := by
  unfold i64AsUsize
  omega

theorem i64AsUsize_of_neg {x : ℤ} (h : -2 ^ 64 ≤ x) (h' : x < 0) : (i64AsUsize x : ℤ) = 2 ^ 64 + x := by
  unfold i64AsUsize
  omega

/-- Taking the absolute value and casting it gives the magnitude, also for the most negative
`i64`. -/
theorem i64AsUsize_i64Abs {x : ℤ} (h : x.natAbs < 2 ^ 64) : i64AsUsize (i64Abs x) = x.natAbs := by
  unfold i64AsUsize i64Abs
  split <;> omega

end FatDrive.Lib
