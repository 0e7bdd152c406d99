import FatDrive.FlatMedium
import FatDrive.UsbComm

/-!
# FatDrive.ScriptedDisk — a disk that fails where a script says

The laws of `FatDrive.FlatMedium` have models: `scriptedDisk bs` is a flat disk with blocks of `bs`
bytes, each transfer of which takes the next entry of a script and succeeds, fails before any byte
has moved, or fails after the data phase.  Its write hands the buffer to `UsbClient.outTransfer`.
-/

namespace FatDrive

open Lib

/-- How one transfer goes: well, wrong in the command phase, wrong after the data phase. -/
inductive Fault where
  | none | early | late
  deriving DecidableEq, Repr

structure ScriptedDisk where
  bytes : ℕ → UInt8
  script : List Fault

namespace ScriptedDisk

/-- The fault of the next transfer; none once the script is used up. -/
def fault (st : ScriptedDisk) : Fault := st.script.headD .none

def next (st : ScriptedDisk) : ScriptedDisk := { st with script := st.script.tail }

@[simp] theorem bytes_next (st : ScriptedDisk) : st.next.bytes = st.bytes := rfl

/-- An endpoint that takes all it is given unless the transfer is to fail. -/
def host : UsbHost Fault where
  read := fun f n => (if f = .none then .ok (List.replicate n 0) else .error ⟨none, ""⟩, f)
  write := fun f data => (if f = .none then .ok data.length else .error ⟨none, ""⟩, f)
  allocZeroed := fun _ _ _ => true

def read (st : ScriptedDisk) (a : ℕ) (b : VecNewtype) :
    Except ScsiError ℕ × VecNewtype × ScriptedDisk :=
  let filled : VecNewtype := { b with inner := b.inner ++ slice st.bytes a (b.capacity - b.size) }
  match st.fault with
  | .none => (.ok (b.capacity - b.size), filled, st.next)
  | .early => (.error ⟨.parseError⟩, b, st.next)
  | .late => (.error ⟨.parseError⟩, filled, st.next)

def write (st : ScriptedDisk) (a : ℕ) (b : VecNewtype) :
    Except ScsiError ℕ × VecNewtype × ScriptedDisk :=
  if st.fault = .early then (.error ⟨.parseError⟩, b, st.next)
  else
    match UsbClient.outTransfer host st.fault b with
    | (.ok n, b', _) => (.ok n, b', { st.next with bytes := patch st.bytes a b.inner })
    | (.error e, b', _) => (.error e, b', st.next)

end ScriptedDisk

/-- A scripted disk with blocks of `bs` bytes. -/
def scriptedDisk (bs : ℕ) : ScsiCrate ScriptedDisk where
  blockSize := bs
  read := ScriptedDisk.read
  write := ScriptedDisk.write
  isEmpty := fun b => b.inner.isEmpty
  clear := fun b => (.ok b.size, b.drained)

theorem scriptedDisk_flatMedium {bs M : ℕ} (h0 : 0 < bs) (hd : bs ∣ M) (hM : M ≤ 2 ^ 32) :
    FlatMedium (scriptedDisk bs) M ScriptedDisk.bytes where
  blockSize_pos := h0
  blockSize_dvd := hd
  size_le := hM
  isEmpty_eq := fun _ => rfl
  clear_eq := fun b => ⟨b.size, rfl⟩
  read_ok := by
    intro st a b n b' st' _ _ hb hc h
    have hroom : b.capacity - b.size = bs := by simp [VecNewtype.size, VecNewtype.capacity, hb, hc,
      scriptedDisk]
    simp only [scriptedDisk, ScriptedDisk.read, hroom, hb, List.nil_append] at h ⊢
    split at h
    · simp only [Prod.mk.injEq] at h
      obtain ⟨-, rfl, rfl⟩ := h
      exact ⟨rfl, rfl⟩
    · simp at h
    · simp at h
  write_ok := by
    intro st a b n b' st' _ _ h
    simp only [scriptedDisk, ScriptedDisk.write] at h
    split at h
    · simp at h
    · split at h
      · next k b₁ f ht =>
        simp only [Prod.mk.injEq] at h
        obtain ⟨-, rfl, rfl⟩ := h
        refine ⟨?_, rfl⟩
        rcases UsbClient.outTransfer_buffer ScriptedDisk.host st.fault b with ⟨-, e, he⟩ | hdr
        · rw [ht] at he
          cases he
        · rw [ht] at hdr
          exact hdr
      · simp at h

theorem scriptedDisk_faultyMedium {bs M : ℕ} (h0 : 0 < bs) (hd : bs ∣ M) (hM : M ≤ 2 ^ 32) :
    FaultyMedium (scriptedDisk bs) M ScriptedDisk.bytes where
  toFlatMedium := scriptedDisk_flatMedium h0 hd hM
  read_err := by
    intro st a b e b' st' _ _ hb hc h
    have hroom : b.capacity - b.size = bs := by simp [VecNewtype.size, VecNewtype.capacity, hb, hc,
      scriptedDisk]
    simp only [scriptedDisk, ScriptedDisk.read, hroom, hb, List.nil_append] at h ⊢
    split at h
    · simp at h
    · simp only [Prod.mk.injEq] at h
      obtain ⟨-, rfl, rfl⟩ := h
      exact ⟨Or.inl rfl, rfl⟩
    · simp only [Prod.mk.injEq] at h
      obtain ⟨-, rfl, rfl⟩ := h
      exact ⟨Or.inr rfl, rfl⟩
  write_err := by
    intro st a b e b' st' h
    simp only [scriptedDisk, ScriptedDisk.write] at h
    split at h
    · simp only [Prod.mk.injEq] at h
      obtain ⟨-, rfl, rfl⟩ := h
      exact ⟨Or.inl rfl, rfl⟩
    · split at h
      · simp at h
      · next e₁ b₁ f ht =>
        simp only [Prod.mk.injEq] at h
        obtain ⟨-, rfl, rfl⟩ := h
        refine ⟨?_, rfl⟩
        rcases UsbClient.outTransfer_buffer ScriptedDisk.host st.fault b with ⟨hb, -⟩ | hdr
        · rw [ht] at hb
          exact Or.inl hb
        · rw [ht] at hdr
          exact Or.inr hdr

end FatDrive
