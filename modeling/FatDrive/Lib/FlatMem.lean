import Mathlib.Data.List.GetD
import Mathlib.Logic.Function.Basic

/-!
# FatDrive.Lib.FlatMem — flat memories, slices and patches

A flat memory is a function `f : ℕ → β` from addresses to cells.  `slice f a n` lists its `n` cells
from `a` on; `patch f a l` is `f` with the cells of `l` laid over it from `a` on.  Reading back what
was laid down, laying down what is already there, and setting one cell of a patch are the facts a
block cache over a flat medium needs.
-/

namespace FatDrive.Lib

variable {β : Type*}

/-- The `n` cells of `f` from address `a` on. -/
def slice (f : ℕ → β) (a : ℕ) : ℕ → List β
  | 0 => []
  | n + 1 => f a :: slice f (a + 1) n

/-- `f` with the cells of `l` laid over it from address `a` on. -/
def patch (f : ℕ → β) (a : ℕ) (l : List β) (x : ℕ) : β :=
  if x < a then f x else l.getD (x - a) (f x)

@[simp] theorem slice_zero (f : ℕ → β) (a : ℕ) : slice f a 0 = [] := rfl

theorem slice_succ (f : ℕ → β) (a n : ℕ) : slice f a (n + 1) = f a :: slice f (a + 1) n := rfl

@[simp] theorem length_slice (f : ℕ → β) (a n : ℕ) : (slice f a n).length = n := by
  induction n generalizing a with
  | zero => rfl
  | succ n ih => simp [slice_succ, ih]

theorem getElem?_slice (f : ℕ → β) (a : ℕ) {n i : ℕ} (h : i < n) :
    (slice f a n)[i]? = some (f (a + i)) := by
  induction n generalizing a i with
  | zero => omega
  | succ n ih =>
    cases i with
    | zero => simp [slice_succ]
    | succ i =>
      rw [slice_succ, List.getElem?_cons_succ, ih (a + 1) (by omega)]
      congr 2
      omega

theorem eq_of_getElem?_slice {f : ℕ → β} {a n i : ℕ} {b : β} (h : (slice f a n)[i]? = some b) :
    b = f (a + i) := by
  have hi : i < n := by
    have := (List.getElem?_eq_some_iff.mp h).1
    rwa [length_slice] at this
  rw [getElem?_slice f a hi] at h
  exact (Option.some.inj h).symm

theorem drop_slice (f : ℕ → β) (a n k : ℕ) : (slice f a n).drop k = slice f (a + k) (n - k) := by
  induction k generalizing a n with
  | zero => simp
  | succ k ih =>
    cases n with
    | zero => simp
    | succ n =>
      rw [slice_succ, List.drop_succ_cons, ih]
      congr 1 <;> omega

theorem slice_add (f : ℕ → β) (a n k : ℕ) : slice f a (n + k) = slice f a n ++ slice f (a + n) k := by
  induction n generalizing a with
  | zero => rw [Nat.zero_add, slice_zero, List.nil_append, Nat.add_zero]
  | succ n ih =>
    rw [Nat.succ_add, slice_succ, slice_succ, ih, List.cons_append, Nat.add_assoc, Nat.add_comm 1 n]

theorem slice_congr {f g : ℕ → β} {a n : ℕ} (h : ∀ x, a ≤ x → x < a + n → f x = g x) :
    slice f a n = slice g a n := by
  induction n generalizing a with
  | zero => rfl
  | succ n ih =>
    rw [slice_succ, slice_succ, h a (Nat.le_refl a) (by omega),
      ih (fun x h₁ h₂ => h x (by omega) (by omega))]

@[simp] theorem patch_nil (f : ℕ → β) (a : ℕ) : patch f a [] = f := by
  funext x
  simp [patch]

theorem patch_of_lt {f : ℕ → β} {a x : ℕ} {l : List β} (h : x < a) : patch f a l x = f x :=
  if_pos h

theorem patch_of_ge {f : ℕ → β} {a x : ℕ} {l : List β} (h : a + l.length ≤ x) :
    patch f a l x = f x := by
  unfold patch
  rw [if_neg (by omega), List.getD_eq_default _ _ (by omega)]

theorem patch_of_mem {f : ℕ → β} {a x : ℕ} {l : List β} {b : β} (ha : a ≤ x)
    (hb : l[x - a]? = some b) : patch f a l x = b := by
  unfold patch
  rw [if_neg (by omega), List.getD_eq_getElem?_getD, hb, Option.getD_some]

/-- Laying down what is there already changes nothing. -/
@[simp] theorem patch_slice_self (f : ℕ → β) (a n : ℕ) : patch f a (slice f a n) = f := by
  funext x
  rcases Nat.lt_or_ge x a with h | h
  · exact patch_of_lt h
  · rcases Nat.lt_or_ge x (a + n) with h' | h'
    · refine patch_of_mem h ?_
      rw [getElem?_slice f a (by omega)]
      congr 2
      omega
    · exact patch_of_ge (by simpa using h')

/-- Reading back what was laid down. -/
theorem slice_patch_self (f : ℕ → β) (a : ℕ) (l : List β) : slice (patch f a l) a l.length = l := by
  apply List.ext_getElem?
  intro i
  rcases Nat.lt_or_ge i l.length with h | h
  · rw [getElem?_slice _ _ h, List.getElem?_eq_getElem h]
    congr 1
    exact patch_of_mem (by omega) (by simp [List.getElem?_eq_getElem h])
  · rw [List.getElem?_eq_none (by simpa using h), List.getElem?_eq_none h]

/-- Reading a part of what was laid down. -/
theorem slice_patch_part (f : ℕ → β) (a : ℕ) {l : List β} {k n : ℕ} (h : k + n ≤ l.length) :
    slice (patch f a l) (a + k) n = (l.drop k).take n := by
  apply List.ext_getElem?
  intro i
  rcases Nat.lt_or_ge i n with hi | hi
  · rw [getElem?_slice _ _ hi, List.getElem?_take_of_lt hi, List.getElem?_drop,
      List.getElem?_eq_getElem (by omega)]
    congr 1
    refine patch_of_mem (by omega) ?_
    rw [show a + k + i - a = k + i by omega, List.getElem?_eq_getElem (by omega)]
  · rw [List.getElem?_eq_none (by simpa using hi), List.getElem?_eq_none]
    simp only [List.length_take, List.length_drop]
    omega

/-- Reading beside what was laid down. -/
theorem slice_patch_beside (f : ℕ → β) {a x n : ℕ} {l : List β}
    (h : x + n ≤ a ∨ a + l.length ≤ x) : slice (patch f a l) x n = slice f x n := by
  refine slice_congr fun y h₁ h₂ => ?_
  rcases h with h | h
  · exact patch_of_lt (by omega)
  · exact patch_of_ge (by omega)

/-- The `n`-th run of `size` cells of `f` from address `a` on. -/
def chunk (f : ℕ → β) (a size n : ℕ) : List β := slice f (a + n * size) size

@[simp] theorem length_chunk (f : ℕ → β) (a size n : ℕ) : (chunk f a size n).length = size :=
  length_slice ..

theorem slice_chunks (f : ℕ → β) (a size s c : ℕ) :
    slice f (a + s * size) (c * size) = (List.range c).flatMap fun k => chunk f a size (s + k) := by
  induction c with
  | zero => rw [Nat.zero_mul, slice_zero, List.range_zero, List.flatMap_nil]
  | succ c ih =>
    rw [Nat.succ_mul, slice_add, ih, List.range_succ, List.flatMap_append, List.flatMap_singleton,
      chunk, Nat.add_mul s c, Nat.add_assoc]

/-- Laying whole chunks down replaces these chunks. -/
theorem chunk_patch (f : ℕ → β) (a size s n : ℕ) {c : ℕ} {l : List β} (hl : l.length = c * size) :
    chunk (patch f (a + s * size) l) a size n =
      if s ≤ n ∧ n < s + c then (l.drop ((n - s) * size)).take size else chunk f a size n := by
  unfold chunk
  split
  · next h =>
    obtain ⟨k, rfl⟩ : ∃ k, n = s + k := ⟨n - s, by omega⟩
    have hk : (k + 1) * size ≤ c * size := Nat.mul_le_mul_right size (by omega)
    rw [Nat.succ_mul] at hk
    rw [Nat.add_mul, ← Nat.add_assoc, slice_patch_part f _ (by omega), Nat.add_sub_cancel_left]
  · next h =>
    refine slice_patch_beside f ?_
    rcases Nat.lt_or_ge n s with hn | hn
    · have := Nat.mul_le_mul_right size hn
      rw [Nat.succ_mul] at this
      omega
    · have := Nat.mul_le_mul_right size (show s + c ≤ n by omega)
      rw [Nat.add_mul] at this
      omega

/-- Setting one cell of the overlay sets that cell of the memory. -/
theorem patch_set (f : ℕ → β) (a : ℕ) (l : List β) {i : ℕ} (b : β) (h : i < l.length) :
    patch f a (l.set i b) = Function.update (patch f a l) (a + i) b := by
  funext x
  rcases Nat.lt_or_ge x a with hx | hx
  · rw [Function.update_of_ne (by omega), patch_of_lt hx, patch_of_lt hx]
  · by_cases hi : x = a + i
    · subst hi
      rw [Function.update_self]
      exact patch_of_mem hx (by simp [h])
    · rw [Function.update_of_ne hi]
      have hne : i ≠ x - a := by omega
      unfold patch
      rw [if_neg (by omega), if_neg (by omega), List.getD_eq_getElem?_getD,
        List.getD_eq_getElem?_getD, List.getElem?_set_ne hne]

/-- Laying down a list cell by cell. -/
theorem patch_cons (f : ℕ → β) (a : ℕ) (b : β) (l : List β) :
    patch f a (b :: l) = patch (Function.update f a b) (a + 1) l := by
  funext x
  rcases Nat.lt_trichotomy x a with hx | rfl | hx
  · rw [patch_of_lt hx, patch_of_lt (by omega), Function.update_of_ne (by omega)]
  · rw [patch_of_lt (Nat.lt_succ_self x), Function.update_self]
    exact patch_of_mem (Nat.le_refl x) (by simp)
  · obtain ⟨k, rfl⟩ : ∃ k, x = a + 1 + k := ⟨x - (a + 1), by omega⟩
    unfold patch
    rw [if_neg (by omega), if_neg (by omega), Function.update_of_ne (by omega),
      show a + 1 + k - a = k + 1 by omega, List.getD_cons_succ, show a + 1 + k - (a + 1) = k by omega]

end FatDrive.Lib
