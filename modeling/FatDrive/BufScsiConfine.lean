import FatDrive.Partition

/-!
# FatDrive.BufScsiConfine — a device that touches no block but those allowed

`LocalMedium` says of a device, faulty or not, that a read changes nothing and a write only the bytes
it is for.  `Confined A` is an invariant of the cache over such a device: every transfer so far was at
an address in `A`, no byte outside these blocks has changed, and what waits to be written back will
go to such an address.

* `flush_confined`, `fillBuf_confined`: kept as long as the block under the cursor is in `A`;
* `confined_kept`: so every call keeps it whose bytes are in blocks of `A`.
-/

namespace FatDrive

open Lib

variable {σ : Type}

/-- Reads change nothing, writes only the bytes they are for, whether they succeed or fail. -/
structure LocalMedium (m : ScsiCrate σ) (medium : σ → ℕ → UInt8) : Prop extends BufferLaws m where
  blockSize_pos : 0 < m.blockSize
  read_medium : ∀ st a b, medium (m.read st a b).2.2 = medium st
  read_buffer : ∀ st a b, b.inner.length ≤ b.fakeSize →
    (m.read st a b).2.1.fakeSize = b.fakeSize ∧ (m.read st a b).2.1.inner.length ≤ b.fakeSize
  write_medium : ∀ st a b, m.blockSize ∣ a → ∀ x, x < a ∨ a + b.inner.length ≤ x →
    medium (m.write st a b).2.2 x = medium st x
  write_buffer : ∀ st a b, (m.write st a b).2.1.fakeSize = b.fakeSize ∧
    (m.write st a b).2.1.inner.length ≤ b.inner.length

/-- The byte address of a transfer. -/
def Transfer.addr : Transfer → ℕ
  | read addr _ => addr
  | write addr _ => addr

namespace OffsetScsiDevice

/-- The device has touched blocks at the addresses of `A` only, and no other byte has changed. -/
structure Confined (m : ScsiCrate σ) (medium : σ → ℕ → UInt8) (A : ℕ → Prop) (start : ℕ)
    (orig : ℕ → UInt8) (d : OffsetScsiDevice (σ × List Transfer)) : Prop where
  start_eq : d.partitionStart = start
  cap : d.blockBuffer.fakeSize = m.blockSize
  length_le : d.blockBuffer.inner.length ≤ m.blockSize
  pending : d.needsFlush = true → A (asU32 (d.bufferedBlockRawIdx m.recorded))
  transfers : ∀ t ∈ d.device.2, A t.addr
  outside : ∀ x, (∀ a, A a → x < a ∨ a + m.blockSize ≤ x) → medium d.device.1 x = orig x

variable {m : ScsiCrate σ} {medium : σ → ℕ → UInt8} {A : ℕ → Prop} {start : ℕ}
  {orig : ℕ → UInt8} {d : OffsetScsiDevice (σ × List Transfer)}

theorem confined_new (st : σ) (start : ℕ) :
    Confined m medium A start (medium st) (new m.recorded (st, []) start) where
  start_eq := rfl
  cap := rfl
  length_le := Nat.zero_le _
  pending := nofun
  transfers := nofun
  outside := fun _ _ => rfl

theorem Confined.moved (h : Confined m medium A start orig d) (n : ℕ) :
    Confined m medium A start orig { d with partitionIdx := n } :=
  ⟨h.start_eq, h.cap, h.length_le, h.pending, h.transfers, h.outside⟩

/-- The buffer emptied. -/
theorem Confined.cleared (h : Confined m medium A start orig d) :
    Confined m medium A start orig { d with blockBuffer := d.blockBuffer.drained } :=
  ⟨h.start_eq, h.cap, Nat.zero_le _, h.pending, h.transfers, h.outside⟩

section Kept

variable (hm : LocalMedium m medium)
include hm

/-- The number of the block under the cursor leads to its address. -/
theorem buffered_of_loaded (h : d.loadedBlockNumber = d.curBlockNumber m.recorded) :
    d.bufferedBlockRawIdx m.recorded = d.curBlockRawIdx m.recorded := by
  unfold bufferedBlockRawIdx
  rw [h]
  exact mul_curBlockNumber (m := m.recorded) d hm.blockSize_pos

theorem load_confined (h : Confined m medium A start orig d)
    (hcur : A (asU32 (d.curBlockRawIdx m.recorded))) :
    Confined m medium A start orig (d.load m.recorded).state := by
  unfold load
  dsimp only
  split
  · obtain ⟨hcap, hlen⟩ := hm.read_buffer d.device.1 (asU32 (d.curBlockRawIdx m.recorded))
      d.blockBuffer (by rw [h.cap]; exact h.length_le)
    rw [h.cap] at hcap hlen
    have hmed := hm.read_medium d.device.1 (asU32 (d.curBlockRawIdx m.recorded)) d.blockBuffer
    have hlog : ∀ ok, ∀ t ∈ d.device.2 ++ [.read (asU32 (d.curBlockRawIdx m.recorded)) ok],
        A t.addr := by
      intro ok t ht
      rcases List.mem_append.mp ht with ht | ht
      · exact h.transfers t ht
      · cases List.mem_singleton.mp ht
        exact hcur
    have hout : ∀ x, (∀ a, A a → x < a ∨ a + m.blockSize ≤ x) →
        medium (m.read d.device.1 (asU32 (d.curBlockRawIdx m.recorded)) d.blockBuffer).2.2 x =
          orig x := by
      intro x hx
      rw [hmed]
      exact h.outside x hx
    split
    · next r buf st hr =>
      simp only [ScsiCrate.recorded, Prod.mk.injEq] at hr
      obtain ⟨-, rfl, rfl⟩ := hr
      refine ⟨h.start_eq, hcap, hlen, fun _ => ?_, hlog _, hout⟩
      -- what waits to be written back now goes to the block just read
      have hnum := mul_curBlockNumber (m := m.recorded) d hm.blockSize_pos
      exact hnum.symm ▸ hcur
    · next r buf st hr =>
      simp only [ScsiCrate.recorded, Prod.mk.injEq] at hr
      obtain ⟨-, rfl, rfl⟩ := hr
      exact ⟨h.start_eq, hcap, hlen, h.pending, hlog _, hout⟩
  · exact h

/-- A store into the block under the cursor, which is the buffered one. -/
theorem storeByte_confined {d' : OffsetScsiDevice (σ × List Transfer)} {byte : UInt8}
    (h : Confined m medium A start orig d) (hcur : A (asU32 (d.curBlockRawIdx m.recorded)))
    (hnum : d.loadedBlockNumber = d.curBlockNumber m.recorded)
    (hs : d.storeByte m.recorded byte = some d') : Confined m medium A start orig d' := by
  rcases storeByte_cases hs with rfl | ⟨old, -, -, rfl⟩
  · exact h
  · refine ⟨h.start_eq, h.cap, ?_, fun _ => ?_, h.transfers, h.outside⟩
    · rw [List.length_set]
      exact h.length_le
    · have hbuf := buffered_of_loaded hm hnum
      exact hbuf.symm ▸ hcur

variable (hA : ∀ a, A a → m.blockSize ∣ a)
include hA

theorem flush_confined (h : Confined m medium A start orig d) :
    Confined m medium A start orig (d.flush m.recorded).state := by
  unfold flush
  split
  · next hn =>
    have hat := h.pending hn
    obtain ⟨hcap, hlen⟩ := hm.write_buffer d.device.1 (asU32 (d.bufferedBlockRawIdx m.recorded))
      d.blockBuffer
    have hlog : ∀ ok, ∀ t ∈ d.device.2 ++
        [.write (asU32 (d.bufferedBlockRawIdx m.recorded)) ok], A t.addr := by
      intro ok t ht
      rcases List.mem_append.mp ht with ht | ht
      · exact h.transfers t ht
      · cases List.mem_singleton.mp ht
        exact hat
    have hout : ∀ x, (∀ a, A a → x < a ∨ a + m.blockSize ≤ x) →
        medium (m.write d.device.1 (asU32 (d.bufferedBlockRawIdx m.recorded)) d.blockBuffer).2.2 x =
          orig x := by
      intro x hx
      rw [hm.write_medium _ _ _ (hA _ hat) x ?_]
      · exact h.outside x hx
      · have := h.length_le
        rcases hx _ hat with hx | hx
        · exact Or.inl hx
        · exact Or.inr (by omega)
    have hle := Nat.le_trans hlen h.length_le
    split
    · next r buf st hw =>
      simp only [ScsiCrate.recorded, Prod.mk.injEq] at hw
      obtain ⟨-, rfl, rfl⟩ := hw
      exact ⟨h.start_eq, hcap.trans h.cap, hle, fun hdirty => absurd hdirty Bool.false_ne_true,
        hlog _, hout⟩
    · next r buf st hw =>
      simp only [ScsiCrate.recorded, Prod.mk.injEq] at hw
      obtain ⟨-, rfl, rfl⟩ := hw
      exact ⟨h.start_eq, hcap.trans h.cap, hle, h.pending, hlog _, hout⟩
  · exact h

theorem evict_confined (h : Confined m medium A start orig d) :
    Confined m medium A start orig (d.evict m.recorded).state := by
  unfold evict
  split
  · refine Outcome.andThen_state (I := Confined m medium A start orig) (flush_confined hm hA h)
      (fun _ d₁ hf => ?_)
    have h₁ := flush_confined hm hA h
    rw [hf] at h₁
    rw [clearBuffer_eq hm.toBufferLaws.recorded]
    exact h₁.cleared
  · exact h

theorem fillBuf_confined (h : Confined m medium A start orig d)
    (hcur : A (asU32 (d.curBlockRawIdx m.recorded))) :
    Confined m medium A start orig (d.fillBuf m.recorded).state := by
  refine Outcome.andThen_state (I := Confined m medium A start orig) (evict_confined hm hA h)
    (fun _ d₁ he => ?_)
  have h₁ := evict_confined hm hA h
  have hc₁ := evict_cursor (m := m.recorded) d
  rw [he, Outcome.state_ok] at h₁ hc₁
  have hcur₁ : A (asU32 (d₁.curBlockRawIdx m.recorded)) := by
    rw [show d₁.curBlockRawIdx m.recorded = d.curBlockRawIdx m.recorded from hc₁.curBlockRawIdx_eq]
    exact hcur
  refine Outcome.andThen_state (I := Confined m medium A start orig) (load_confined hm h₁ hcur₁)
    (fun _ d₂ hl => ?_)
  have h₂ := load_confined hm h₁ hcur₁
  rw [hl] at h₂
  rw [rest_state]
  exact h₂

/-- **Every call stays in `A`** whose bytes are in blocks of `A`. -/
theorem confined_kept (M : ℕ) (B : ℕ → UInt8 → Prop) :
    Kept m.recorded M (fun d => A (asU32 (d.curBlockRawIdx m.recorded))) B
      (Confined m medium A start orig) where
  fill := fun _ h _ hcur => fillBuf_confined hm hA h hcur
  store := by
    intro d bytes d₁ byte d₂ h _ hcur hf _ hs
    have h₁ := fillBuf_confined hm hA h hcur
    have hc₁ := fillBuf_cursor (m := m.recorded) d
    have hnum := fillBuf_loaded hm.toBufferLaws.recorded (d := d) (by rw [hf]; rfl)
    rw [hf, Outcome.state_ok] at h₁ hc₁ hnum
    have hraw : d₁.curBlockRawIdx m.recorded = d.curBlockRawIdx m.recorded := hc₁.curBlockRawIdx_eq
    refine storeByte_confined hm h₁ (by rw [hraw]; exact hcur) ?_ hs
    exact hnum.trans (SameCursor.curBlockNumber_eq (m := m.recorded) hc₁).symm
  moved := fun _ n _ h => h.moved n
  flush := fun _ h => flush_confined hm hA h

end Kept

end OffsetScsiDevice

end FatDrive
