import FatDrive.Err

/-!
# FatDrive.VecWrapper — `VecNewtype`, the byte buffer handed to the SCSI layer

A vector of bytes with a capacity of its own.  Bytes are pushed at the back and pulled from the
front; `pushByte` refuses at the capacity, `pullByte` refuses when empty.
-/

namespace FatDrive

open Lib

structure VecNewtype where
  inner : List UInt8
  fakeSize : ℕ
  deriving DecidableEq, Repr

namespace VecNewtype

def withFakeCapacity (sz : ℕ) : VecNewtype := { inner := [], fakeSize := sz }

def new : VecNewtype := withFakeCapacity 512

/-- `From<Vec<u8>>`. -/
def ofVec (inner : List UInt8) : VecNewtype :=
  { inner, fakeSize := 2 * max inner.length 256 }

/-! ### `scsi::Buffer` for `VecNewtype` -/

def size (b : VecNewtype) : ℕ := b.inner.length

def capacity (b : VecNewtype) : ℕ := b.fakeSize

def pushByte (b : VecNewtype) (byte : UInt8) : Outcome ScsiError VecNewtype ℕ :=
  if b.inner.length ≥ b.fakeSize then
    .err ⟨.bufferTooSmallError (b.fakeSize + 1) b.fakeSize⟩ b
  else
    .ok 1 { b with inner := b.inner ++ [byte] }

def pullByte (b : VecNewtype) : Outcome ScsiError VecNewtype UInt8 :=
  match b.inner with
  | byte :: rest => .ok byte { b with inner := rest }
  | [] => .err ⟨.bufferTooSmallError 1 0⟩ b

/-- The buffer once everything has been pulled out of it. -/
def drained (b : VecNewtype) : VecNewtype := { b with inner := [] }

@[simp] theorem drained_inner (b : VecNewtype) : b.drained.inner = [] := rfl
@[simp] theorem drained_fakeSize (b : VecNewtype) : b.drained.fakeSize = b.fakeSize := rfl

theorem drained_eq_self {b : VecNewtype} (h : b.inner = []) : b.drained = b := by
  obtain ⟨inner, fakeSize⟩ := b
  subst h
  rfl

theorem pushByte_of_lt {b : VecNewtype} (h : b.size < b.capacity) (byte : UInt8) :
    b.pushByte byte = .ok 1 { b with inner := b.inner ++ [byte] } :=
  if_neg (Nat.not_le.mpr h)

end VecNewtype

end FatDrive
