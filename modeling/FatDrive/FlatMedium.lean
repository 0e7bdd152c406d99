import FatDrive.BufScsi
import FatDrive.Lib.FlatMem

/-!
# FatDrive.FlatMedium — what the `scsi` crate does over a flat medium

`medium st` is the content of the device in state `st`, byte by byte.  `FlatMedium` is what a
successful transfer does; `FaultyMedium` adds what a failing one may do: a failed read has appended
the block or nothing, a failed write has drained the buffer or not, and neither changes the medium.

`ScsiCrate.recorded` logs the transfers of a device, so that "all transfers of this run succeeded"
and "the address passed to `device.read`" can be said.
-/

namespace FatDrive

open Lib

variable {σ : Type}

/-- The methods `scsi::Buffer` provides, on a `VecNewtype`. -/
structure BufferLaws (m : ScsiCrate σ) : Prop where
  isEmpty_eq : ∀ b, m.isEmpty b = b.inner.isEmpty
  clear_eq : ∀ b, ∃ n, m.clear b = (.ok n, b.drained)

/-- The device is a flat medium of `M` bytes: successful transfers move whole blocks. -/
structure FlatMedium (m : ScsiCrate σ) (M : ℕ) (medium : σ → ℕ → UInt8) : Prop extends
    BufferLaws m where
  blockSize_pos : 0 < m.blockSize
  blockSize_dvd : m.blockSize ∣ M
  size_le : M ≤ 2 ^ 32
  read_ok : ∀ {st a b n b' st'}, m.blockSize ∣ a → a + m.blockSize ≤ M → b.inner = [] →
    b.fakeSize = m.blockSize → m.read st a b = (.ok n, b', st') →
    b' = { b with inner := slice (medium st) a m.blockSize } ∧ medium st' = medium st
  write_ok : ∀ {st a b n b' st'}, m.blockSize ∣ a → a + b.inner.length ≤ M →
    m.write st a b = (.ok n, b', st') →
    b' = b.drained ∧ medium st' = patch (medium st) a b.inner

/-- A flat medium whose transfers may fail at any stage. -/
structure FaultyMedium (m : ScsiCrate σ) (M : ℕ) (medium : σ → ℕ → UInt8) : Prop extends
    FlatMedium m M medium where
  read_err : ∀ {st a b e b' st'}, m.blockSize ∣ a → a + m.blockSize ≤ M → b.inner = [] →
    b.fakeSize = m.blockSize → m.read st a b = (.error e, b', st') →
    (b' = b ∨ b' = { b with inner := slice (medium st) a m.blockSize }) ∧ medium st' = medium st
  write_err : ∀ {st a b e b' st'}, m.write st a b = (.error e, b', st') →
    (b' = b ∨ b' = b.drained) ∧ medium st' = medium st

/-! ## Recording the transfers -/

/-- A transfer the device was asked for: its byte address and whether it succeeded. -/
inductive Transfer where
  | read (addr : ℕ) (ok : Bool)
  | write (addr : ℕ) (ok : Bool)
  deriving DecidableEq, Repr

def Transfer.ok : Transfer → Bool
  | read _ ok => ok
  | write _ ok => ok

namespace ScsiCrate

/-- The same device, logging every transfer. -/
def recorded (m : ScsiCrate σ) : ScsiCrate (σ × List Transfer) where
  blockSize := m.blockSize
  read := fun st a b =>
    let r := m.read st.1 a b
    (r.1, r.2.1, r.2.2, st.2 ++ [.read a r.1.isOk])
  write := fun st a b =>
    let r := m.write st.1 a b
    (r.1, r.2.1, r.2.2, st.2 ++ [.write a r.1.isOk])
  isEmpty := m.isEmpty
  clear := m.clear

@[simp] theorem recorded_blockSize (m : ScsiCrate σ) : m.recorded.blockSize = m.blockSize := rfl

end ScsiCrate

/-- The device with a recorder that has logged nothing yet. -/
def OffsetScsiDevice.startRecording (d : OffsetScsiDevice σ) :
    OffsetScsiDevice (σ × List Transfer) :=
  { d with device := (d.device, []) }

theorem BufferLaws.recorded {m : ScsiCrate σ} (hb : BufferLaws m) : BufferLaws m.recorded :=
  ⟨hb.isEmpty_eq, hb.clear_eq⟩

theorem FlatMedium.recorded {m : ScsiCrate σ} {M : ℕ} {medium : σ → ℕ → UInt8}
    (hm : FlatMedium m M medium) : FlatMedium m.recorded M (fun st => medium st.1) where
  toBufferLaws := hm.toBufferLaws.recorded
  blockSize_pos := hm.blockSize_pos
  blockSize_dvd := hm.blockSize_dvd
  size_le := hm.size_le
  read_ok := by
    intro st a b n b' st' ha hM hb hc h
    simp only [ScsiCrate.recorded, Prod.mk.injEq] at h
    obtain ⟨h1, rfl, rfl⟩ := h
    exact hm.read_ok ha hM hb hc (Prod.ext h1 rfl)
  write_ok := by
    intro st a b n b' st' ha hM h
    simp only [ScsiCrate.recorded, Prod.mk.injEq] at h
    obtain ⟨h1, rfl, rfl⟩ := h
    exact hm.write_ok ha hM (Prod.ext h1 rfl)

theorem FaultyMedium.recorded {m : ScsiCrate σ} {M : ℕ} {medium : σ → ℕ → UInt8}
    (hm : FaultyMedium m M medium) : FaultyMedium m.recorded M (fun st => medium st.1) where
  toFlatMedium := hm.toFlatMedium.recorded
  read_err := by
    intro st a b e b' st' ha hM hb hc h
    simp only [ScsiCrate.recorded, Prod.mk.injEq] at h
    obtain ⟨h1, rfl, rfl⟩ := h
    exact hm.read_err ha hM hb hc (Prod.ext h1 rfl)
  write_err := by
    intro st a b e b' st' h
    simp only [ScsiCrate.recorded, Prod.mk.injEq] at h
    obtain ⟨h1, rfl, rfl⟩ := h
    exact hm.write_err (Prod.ext h1 rfl)

end FatDrive
