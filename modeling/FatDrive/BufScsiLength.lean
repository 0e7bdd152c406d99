import FatDrive.BufScsiInvariant
import FatDrive.FatfsRaw
import FatDrive.ScriptedDisk
import FatDrive.UsbCommTransfers

/-!
# FatDrive.BufScsiLength — the block buffer holds a whole block or nothing

The indices into the buffer are in range as long as its length is.  `WholeTransfers` is all that
the length depends on: a transfer, whether it fails or not, moves a whole block or nothing.  Neither
the addresses nor the contents nor the dirty flag matter, which may stay set on an empty buffer.

* `dataPhase_whole`: the transfers of `UsbClient` are whole;
* `fillBuf_ends`: `fillBuf` fails, or returns a slice of a full buffer that is not empty;
* `readLoop_ends`, `writeLoop_ends`: the loops fail, or process all they were given;
* `blockBuffer_whole`: so does every call after every run.
-/

namespace FatDrive

open Lib

variable {σ : Type}

/-! ### Whole blocks -/

namespace VecNewtype

/-- As many bytes as the block has, with room for no more. -/
structure Full (bs : ℕ) (b : VecNewtype) : Prop where
  capacity_eq : b.capacity = bs
  size_eq : b.size = bs

/-- A whole block or nothing. -/
structure Whole (bs : ℕ) (b : VecNewtype) : Prop where
  capacity_eq : b.capacity = bs
  size_eq : b.size = 0 ∨ b.size = bs

variable {bs : ℕ} {b : VecNewtype}

theorem Full.whole (h : b.Full bs) : b.Whole bs := ⟨h.capacity_eq, Or.inr h.size_eq⟩

theorem Whole.full (h : b.Whole bs) (hne : b.inner ≠ []) : b.Full bs := by
  refine ⟨h.capacity_eq, h.size_eq.resolve_left fun h0 => hne ?_⟩
  exact List.eq_nil_of_length_eq_zero h0

theorem Whole.drained (h : b.Whole bs) : b.drained.Whole bs := ⟨h.capacity_eq, Or.inl rfl⟩

theorem Full.set (h : b.Full bs) (i : ℕ) (byte : UInt8) :
    Full bs { b with inner := b.inner.set i byte } := by
  refine ⟨h.capacity_eq, ?_⟩
  show (b.inner.set i byte).length = bs
  rw [List.length_set]
  exact h.size_eq

theorem whole_withFakeCapacity (bs : ℕ) : (withFakeCapacity bs).Whole bs := ⟨rfl, Or.inl rfl⟩

end VecNewtype

/-- A read into an empty buffer fills it, or fails and has filled it or not; a write drains the
buffer or not, however it ends. -/
structure WholeTransfers (m : ScsiCrate σ) : Prop extends BufferLaws m where
  read_ok : ∀ {st a b n b' st'}, b.inner = [] → b.capacity = m.blockSize →
    m.read st a b = (.ok n, b', st') → b'.Full m.blockSize
  read_err : ∀ {st a b e b' st'}, b.inner = [] → b.capacity = m.blockSize →
    m.read st a b = (.error e, b', st') → b' = b ∨ b'.Full m.blockSize
  write_whole : ∀ {st a b r b' st'}, m.write st a b = (r, b', st') → b' = b ∨ b' = b.drained

/-! ### Transfers that are whole -/

/-- `outTransfer` drains the buffer or leaves it. -/
theorem UsbClient.outTransfer_whole {ε : Type} (h : UsbHost ε) (st : ε) (b : VecNewtype) :
    (outTransfer h st b).2.1 = b ∨ (outTransfer h st b).2.1 = b.drained := by
  rcases outTransfer_buffer h st b with ⟨hb, -⟩ | hb
  · exact Or.inl hb
  · exact Or.inr hb

/-- A read into an empty buffer fills it, or fails and leaves it empty. -/
theorem UsbClient.inTransfer_empty {ε : Type} (h : UsbHost ε) (st : ε) {b : VecNewtype}
    (hb : b.inner = []) (hcap : b.capacity < 2 ^ 64) :
    (∃ n, (inTransfer h st b).1 = .ok n ∧ (inTransfer h st b).2.1.Full b.capacity) ∨
      ∃ e, (inTransfer h st b).1 = .error e ∧ (inTransfer h st b).2.1 = b := by
  have hroom : b.size + b.capacity = b.capacity := by simp [VecNewtype.size, hb]
  rcases inTransfer_fills hroom hcap h st with ⟨n, bytes, st', heq, hlen⟩ | ⟨e, st', heq⟩
  · rw [heq]
    refine Or.inl ⟨n, rfl, rfl, ?_⟩
    show (b.inner ++ bytes).length = b.capacity
    rw [hb, List.nil_append, hlen]
  · rw [heq]
    exact Or.inr ⟨e, rfl, rfl⟩

/-- A device that transfers the data of a block and nothing else. -/
def UsbClient.dataPhase {ε : Type} (h : UsbHost ε) (bs : ℕ) : ScsiCrate ε where
  blockSize := bs
  read := fun st _ b => inTransfer h st b
  write := fun st _ b => outTransfer h st b
  isEmpty := fun b => b.inner.isEmpty
  clear := fun b => (.ok b.size, b.drained)

/-- **The transfers of the client are whole**, whatever its endpoints answer. -/
theorem UsbClient.dataPhase_whole {ε : Type} (h : UsbHost ε) {bs : ℕ} (hbs : bs < 2 ^ 64) :
    WholeTransfers (dataPhase h bs) where
  isEmpty_eq := fun _ => rfl
  clear_eq := fun b => ⟨b.size, rfl⟩
  read_ok := by
    intro st a b n b' st' hb hcap hr
    dsimp only [dataPhase] at hcap hr ⊢
    rcases inTransfer_empty h st hb (by omega) with ⟨k, hk⟩ | ⟨e, he⟩
    · rw [hr, hcap] at hk
      exact hk.2
    · rw [hr] at he
      cases he.1
  read_err := by
    intro st a b e b' st' hb hcap hr
    dsimp only [dataPhase] at hcap hr ⊢
    rcases inTransfer_empty h st hb (by omega) with ⟨k, hk, hfull⟩ | ⟨e, -, he⟩
    · rw [hr] at hk
      cases hk
    · rw [hr] at he
      exact Or.inl he
  write_whole := by
    intro st a b r b' st' ht
    have hout := outTransfer_whole h st b
    dsimp only [dataPhase] at ht
    rwa [ht] at hout

/-- So are those of a scripted disk, whose failing reads may have filled the buffer. -/
theorem scriptedDisk_whole (bs : ℕ) : WholeTransfers (scriptedDisk bs) where
  isEmpty_eq := fun _ => rfl
  clear_eq := fun b => ⟨b.size, rfl⟩
  read_ok := by
    intro st a b n b' st' hb hcap h
    simp only [scriptedDisk, ScriptedDisk.read] at h hcap
    split at h
    · simp only [Prod.mk.injEq] at h
      obtain ⟨-, rfl, -⟩ := h
      refine ⟨hcap, ?_⟩
      simp [VecNewtype.size, hb, hcap, scriptedDisk]
    · simp at h
    · simp at h
  read_err := by
    intro st a b e b' st' hb hcap h
    simp only [scriptedDisk, ScriptedDisk.read] at h hcap
    split at h
    · simp at h
    · simp only [Prod.mk.injEq] at h
      exact Or.inl h.2.1.symm
    · simp only [Prod.mk.injEq] at h
      obtain ⟨-, rfl, -⟩ := h
      refine Or.inr ⟨hcap, ?_⟩
      simp [VecNewtype.size, hb, hcap, scriptedDisk]
  write_whole := by
    intro st a b r b' st' h
    simp only [scriptedDisk, ScriptedDisk.write] at h
    split at h
    · simp only [Prod.mk.injEq] at h
      exact Or.inl h.2.1.symm
    · have hout := UsbClient.outTransfer_whole ScriptedDisk.host st.fault b
      split at h
      · next ht =>
        simp only [Prod.mk.injEq] at h
        rw [ht, h.2.1] at hout
        exact hout
      · next ht =>
        simp only [Prod.mk.injEq] at h
        rw [ht, h.2.1] at hout
        exact hout

namespace OffsetScsiDevice

variable {m : ScsiCrate σ} {d d₁ d' : OffsetScsiDevice σ}

/-- The buffer of the device holds a whole block or nothing. -/
def WholeBuffer (m : ScsiCrate σ) (d : OffsetScsiDevice σ) : Prop :=
  d.blockBuffer.Whole m.blockSize

/-- The buffer of the device holds a whole block. -/
def FullBuffer (m : ScsiCrate σ) (d : OffsetScsiDevice σ) : Prop :=
  d.blockBuffer.Full m.blockSize

theorem FullBuffer.whole (h : FullBuffer m d) : WholeBuffer m d := VecNewtype.Full.whole h

theorem wholeBuffer_new (st : σ) (start : ℕ) : WholeBuffer m (new m st start) :=
  VecNewtype.whole_withFakeCapacity m.blockSize

/-! ### `fill_buf` -/

section Parts

variable (hw : WholeTransfers m)
include hw

theorem flush_ends (h : WholeBuffer m d) :
    (d.flush m).Ends (fun _ => WholeBuffer m) (WholeBuffer m) := by
  -- drained or not, and the flag may stay set on an empty buffer
  have hwrite : ∀ {r buf st}, m.write d.device (asU32 (d.bufferedBlockRawIdx m)) d.blockBuffer =
      (r, buf, st) → buf.Whole m.blockSize := by
    intro r buf st ht
    rcases hw.write_whole ht with rfl | rfl
    · exact h
    · exact VecNewtype.Whole.drained h
  unfold flush
  split
  · split
    · next ht => exact hwrite ht
    · next ht => exact hwrite ht
  · exact h

theorem evict_ends (h : WholeBuffer m d) :
    (d.evict m).Ends (fun _ => WholeBuffer m) (WholeBuffer m) := by
  unfold evict
  split
  · refine (flush_ends hw h).andThen fun _ d₁ h₁ => ?_
    rw [clearBuffer_eq hw.toBufferLaws]
    exact VecNewtype.Whole.drained h₁
  · exact h

theorem load_ends (h : WholeBuffer m d) :
    (d.load m).Ends (fun _ => FullBuffer m) (WholeBuffer m) := by
  unfold load
  dsimp only
  rw [hw.isEmpty_eq]
  split
  · next h0 =>
    have hnil : d.blockBuffer.inner = [] := List.isEmpty_iff.mp h0
    split
    · next hr => exact hw.read_ok hnil h.capacity_eq hr
    · next hr =>
      rcases hw.read_err hnil h.capacity_eq hr with rfl | hfull
      · exact h
      · exact hfull.whole
  · next h0 => exact h.full fun hnil => h0 (List.isEmpty_iff.mpr hnil)

variable (h0 : 0 < m.blockSize)
include h0

omit hw in
/-- The slice from the cursor on is in range, and has the byte under the cursor. -/
theorem rest_ends (h : FullBuffer m d) :
    (d.rest m).Ends (fun bytes d' => FullBuffer m d' ∧ bytes ≠ []) (WholeBuffer m) := by
  have hlen : d.blockBuffer.inner.length = m.blockSize := h.size_eq
  have hlt := offsetFromCurBlock_lt h0 d
  rw [rest_eq h0 hlen]
  refine ⟨h, fun hnil => ?_⟩
  rw [List.drop_eq_nil_iff] at hnil
  omega

/-- **`fillBuf`** fails, or the buffer is full and the slice is not empty. -/
theorem fillBuf_ends (h : WholeBuffer m d) :
    (d.fillBuf m).Ends (fun bytes d' => FullBuffer m d' ∧ bytes ≠ []) (WholeBuffer m) := by
  unfold fillBuf
  refine (evict_ends hw h).andThen fun _ d₁ h₁ => ?_
  refine (load_ends hw h₁).andThen fun _ d₂ h₂ => ?_
  exact rest_ends h0 h₂

omit hw in
/-- The store is in range. -/
theorem storeByte_full (h : FullBuffer m d) (byte : UInt8) :
    ∃ d', d.storeByte m byte = some d' ∧ FullBuffer m d' := by
  have hlt : d.offsetFromCurBlock m < d.blockBuffer.inner.length := by
    rw [show d.blockBuffer.inner.length = m.blockSize from h.size_eq]
    exact offsetFromCurBlock_lt h0 d
  unfold storeByte
  simp only [List.getElem?_eq_getElem hlt]
  split
  · exact ⟨_, rfl, VecNewtype.Full.set h _ byte⟩
  · exact ⟨d, rfl, h⟩

/-! ### The loops -/

theorem readLoop_ends : ∀ (cells : List UInt8) (i : ℕ) (d : OffsetScsiDevice σ), WholeBuffer m d →
    (readLoop m cells i d).2.Ends (fun n d' => WholeBuffer m d' ∧ n = i + cells.length)
      (WholeBuffer m)
  | [], i, d, h => ⟨h, rfl⟩
  | cell :: cells, i, d, h => by
    have hfill := fillBuf_ends hw h0 h
    rw [readLoop]
    rcases hf : d.fillBuf m with ⟨bytes, d₁⟩ | ⟨e, d₁⟩ | d₁
    · rw [hf] at hfill
      obtain ⟨hfull, hne⟩ := hfill
      obtain ⟨byte, bytes, rfl⟩ := List.exists_cons_of_ne_nil hne
      -- the cursor moves, the buffer does not
      have hcons : WholeBuffer m (d₁.consume 1) := hfull.whole
      refine (readLoop_ends cells (i + 1) (d₁.consume 1) hcons).mono ?_
      rintro n d' ⟨hd', rfl⟩
      exact ⟨hd', by rw [List.length_cons]; omega⟩
    · rw [hf] at hfill
      exact hfill
    · rw [hf] at hfill
      exact hfill

theorem writeLoop_ends : ∀ (bytes : List UInt8) (i : ℕ) (d : OffsetScsiDevice σ), WholeBuffer m d →
    (writeLoop m bytes i d).Ends (fun n d' => WholeBuffer m d' ∧ n = i + bytes.length)
      (WholeBuffer m)
  | [], i, d, h => ⟨h, rfl⟩
  | byte :: bytes, i, d, h => by
    rw [writeLoop]
    refine (fillBuf_ends hw h0 h).andThen ?_
    rintro slc d₁ ⟨hfull, -⟩
    have hne : m.isEmpty d₁.blockBuffer = false := by
      rw [hw.isEmpty_eq, List.isEmpty_eq_false_iff]
      intro hnil
      have hlen : d₁.blockBuffer.inner.length = m.blockSize := hfull.size_eq
      rw [hnil, List.length_nil] at hlen
      omega
    obtain ⟨d₂, hs, hfull₂⟩ := storeByte_full h0 hfull byte
    have hcons : WholeBuffer m (d₂.consume 1) := hfull₂.whole
    rw [if_neg (by simp [hne]), hs]
    refine (writeLoop_ends bytes (i + 1) (d₂.consume 1) hcons).mono ?_
    rintro n d' ⟨hd', rfl⟩
    exact ⟨hd', by rw [List.length_cons]; omega⟩

/-- A read that returns `Ok` has filled the output buffer. -/
theorem read_count (h : WholeBuffer m d) {outputBuf : List UInt8} {n : ℕ}
    (hr : (d.read m outputBuf).2 = .ok n d') : n = outputBuf.length := by
  have hends := readLoop_ends hw h0 outputBuf 0 d h
  unfold read at hr
  rw [hr] at hends
  exact hends.2.trans (Nat.zero_add _)

/-- A write that returns `Ok` has written all bytes. -/
theorem write_count (h : WholeBuffer m d) {toWrite : List UInt8} {n : ℕ}
    (hr : d.write m toWrite = .ok n d') : n = toWrite.length := by
  have hends := writeLoop_ends hw h0 toWrite 0 d h
  unfold write at hr
  rw [hr] at hends
  exact hends.2.trans (Nat.zero_add _)

theorem readFills_whole : ∀ (cells : List UInt8) (d : OffsetScsiDevice σ), WholeBuffer m d →
    ∀ d₁ ∈ readFills m cells d, WholeBuffer m d₁
  | [], _, _, _, h₁ => nomatch h₁
  | cell :: cells, d, h, d₁, h₁ => by
    have hfill := fillBuf_ends hw h0 h
    rw [readFills] at h₁
    rcases List.mem_cons.mp h₁ with rfl | h₁
    · exact h
    · split at h₁
      · next d' hf =>
        rw [hf] at hfill
        exact readFills_whole cells (d'.consume 1) hfill.1.whole d₁ h₁
      · cases h₁

theorem writeFills_whole : ∀ (bytes : List UInt8) (d : OffsetScsiDevice σ), WholeBuffer m d →
    ∀ d₁ ∈ writeFills m bytes d, WholeBuffer m d₁
  | [], _, _, _, h₁ => nomatch h₁
  | byte :: bytes, d, h, d₁, h₁ => by
    have hfill := fillBuf_ends hw h0 h
    rw [writeFills] at h₁
    rcases List.mem_cons.mp h₁ with rfl | h₁
    · exact h
    · split at h₁
      · next d' hf =>
        rw [hf] at hfill
        obtain ⟨d₂, hs, hfull₂⟩ := storeByte_full h0 hfill.1 byte
        rw [hs] at h₁
        split at h₁
        · cases h₁
        · exact writeFills_whole bytes (d₂.consume 1) hfull₂.whole d₁ h₁
      · cases h₁

/-! ### The calls -/

theorem fills_whole (h : WholeBuffer m d) (op : Op) : ∀ d₁ ∈ fills m d op, WholeBuffer m d₁ := by
  intro d₁ h₁
  cases op with
  | fillBuf =>
    rw [List.mem_singleton.mp h₁]
    exact h
  | read outputBuf => exact readFills_whole hw h0 outputBuf d h d₁ h₁
  | write toWrite => exact writeFills_whole hw h0 toWrite d h d₁ h₁
  | seek pos => cases h₁
  | consume amt => cases h₁
  | flush => cases h₁

/-- **One call.**  Only a seek from the end panics. -/
theorem exec_ends (h : WholeBuffer m d) {op : Op} (hop : ∀ off, op ≠ .seek (.fromEnd off)) :
    (d.exec m op).Ends (fun _ => WholeBuffer m) (WholeBuffer m) := by
  cases op with
  | seek pos =>
    cases pos with
    | start n => exact h
    | current off => exact h
    | fromEnd off => exact absurd rfl (hop off)
  | fillBuf => exact (fillBuf_ends hw h0 h).andThen fun _ _ h₁ => h₁.1.whole
  | consume amt => exact h
  | read outputBuf => exact (readLoop_ends hw h0 outputBuf 0 d h).andThen fun _ _ h₁ => h₁.1
  | write toWrite => exact (writeLoop_ends hw h0 toWrite 0 d h).andThen fun _ _ h₁ => h₁.1
  | flush => exact (flush_ends hw h).andThen fun _ _ h₁ => h₁

theorem exec_whole (h : WholeBuffer m d) (op : Op) : WholeBuffer m (d.exec m op).state := by
  by_cases hop : ∀ off, op ≠ .seek (.fromEnd off)
  · exact (exec_ends hw h0 h hop).state fun _ _ h₁ => h₁
  · -- the call that is not implemented leaves the device as it is
    obtain ⟨off, rfl⟩ : ∃ off, op = .seek (.fromEnd off) := by simpa using hop
    exact h

theorem run_whole {st : σ} {start : ℕ} {ls : List Label}
    (hrun : Run (Step m) (new m st start) ls d) : WholeBuffer m d := by
  refine hrun.invariant (fun d l d' hd hstep => ?_) (wholeBuffer_new st start)
  rw [← hstep.2]
  exact exec_whole hw h0 hd l.1

end Parts

end OffsetScsiDevice

/-! ### The disk functions -/

namespace FatfsSysContext

variable {dev dev' : DeviceHandle σ} {bufPtr buff : List UInt8} {sector count : UInt32}

/-- The device with its cursor where a request starts. -/
def sought (dev : DeviceHandle σ) (sector : UInt32) : OffsetScsiDevice σ :=
  (dev.device.seek (.start (byteOffset dev sector))).state

/-- `disk_read` drops the count it gets. -/
theorem readHandle_resOk (h : readHandle dev bufPtr sector count = some ((.resOk, buff), dev')) :
    ∃ n d, ((sought dev sector).read dev.scsi (bufPtr.take (byteCount dev count))).2 = .ok n d ∧
      dev' = dev.withDevice d := by
  unfold readHandle OffsetScsiDevice.seek at h
  dsimp only at h
  split at h
  · cases h
  · simp at h
  · next n d hr =>
    simp only [Option.some.injEq, Prod.mk.injEq] at h
    exact ⟨n, d, hr, h.2.symm⟩

/-- So does `disk_write`. -/
theorem writeHandle_resOk (h : writeHandle dev bufPtr sector count = some (.resOk, dev')) :
    ∃ n d, (sought dev sector).write dev.scsi (bufPtr.take (byteCount dev count)) = .ok n d ∧
      dev' = dev.withDevice d := by
  unfold writeHandle OffsetScsiDevice.seek at h
  dsimp only at h
  split at h
  · cases h
  · simp at h
  · next n d hw =>
    simp only [Option.some.injEq, Prod.mk.injEq] at h
    exact ⟨n, d, hw, h.2.symm⟩

end FatfsSysContext

namespace OffsetScsiDevice

variable {m : ScsiCrate σ} {d : OffsetScsiDevice σ}

open FatfsSysContext in
/-- **Whole blocks.**  Over any run, whatever the transfers answer: the buffer holds a whole block or
nothing; a `fillBuf` that returns `Ok`, in the state or inside a call, leaves it full and returns a
slice that is not empty; no call panics but the seek that is not implemented; and a read or a write
that returns `Ok` has processed all it was given, which `disk_read` and `disk_write` do not check. -/
theorem blockBuffer_whole (hw : WholeTransfers m) (h0 : 0 < m.blockSize) {st : σ} {start : ℕ}
    {ls : List Label} (hrun : Run (Step m) (new m st start) ls d) :
    (d.blockBuffer.size = 0 ∨ d.blockBuffer.size = m.blockSize) ∧
    (∀ op, ∀ d₁ ∈ fills m d op,
      (d₁.blockBuffer.size = 0 ∨ d₁.blockBuffer.size = m.blockSize) ∧
      ∀ bytes d₂, d₁.fillBuf m = .ok bytes d₂ → d₂.blockBuffer.size = m.blockSize ∧ bytes ≠ []) ∧
    (∀ op, (d.exec m op).result = none → ∃ off, op = .seek (.fromEnd off)) ∧
    (∀ outputBuf n d', (d.read m outputBuf).2 = .ok n d' → n = outputBuf.length) ∧
    (∀ toWrite n d', d.write m toWrite = .ok n d' → n = toWrite.length) ∧
    (∀ dev : DeviceHandle σ, dev.scsi = m → dev.device = d → ∀ bufPtr sector count,
      (∀ buff dev', readHandle dev bufPtr sector count = some ((.resOk, buff), dev') →
        ∃ d', ((sought dev sector).read m (bufPtr.take (byteCount dev count))).2 =
          .ok (bufPtr.take (byteCount dev count)).length d') ∧
      ∀ dev', writeHandle dev bufPtr sector count = some (.resOk, dev') →
        ∃ d', (sought dev sector).write m (bufPtr.take (byteCount dev count)) =
          .ok (bufPtr.take (byteCount dev count)).length d') := by
  have hd := run_whole hw h0 hrun
  refine ⟨hd.size_eq, fun op d₁ h₁ => ?_, fun op hnone => ?_, fun _ _ _ => read_count hw h0 hd,
    fun _ _ _ => write_count hw h0 hd, ?_⟩
  · have hwhole := fills_whole hw h0 hd op d₁ h₁
    refine ⟨hwhole.size_eq, fun bytes d₂ hf => ?_⟩
    have hends := fillBuf_ends hw h0 hwhole
    rw [hf] at hends
    exact ⟨hends.1.size_eq, hends.2⟩
  · by_contra hop
    exact (exec_ends hw h0 hd fun off heq => hop ⟨off, heq⟩).result_ne_none hnone
  · rintro dev rfl rfl bufPtr sector count
    -- the seek moves the cursor only
    have hsought : WholeBuffer dev.scsi (sought dev sector) := hd
    refine ⟨fun buff dev' h => ?_, fun dev' h => ?_⟩
    · obtain ⟨n, d', hr, -⟩ := readHandle_resOk h
      rw [← read_count hw h0 hsought hr]
      exact ⟨d', hr⟩
    · obtain ⟨n, d', hr, -⟩ := writeHandle_resOk h
      rw [← write_count hw h0 hsought hr]
      exact ⟨d', hr⟩

/-- A byte is changed, the block cannot be written back, and the cursor returns to it. -/
def unwritten : List Op := [.write [7], .seek (.start 2), .fillBuf, .seek (.start 0), .flush]

/-- A disk with blocks of two bytes whose second transfer fails late and whose third fails early. -/
def lateDisk : OffsetScsiDevice ScriptedDisk :=
  new (scriptedDisk 2) ⟨fun x => x.toUInt8, [.none, .late, .early]⟩ 0

/-- The buffer is empty and still to be flushed. -/
example : (execAll (scriptedDisk 2) lateDisk unwritten).blockBuffer = ⟨[], 2⟩ ∧
    (execAll (scriptedDisk 2) lateDisk unwritten).needsFlush = true := by decide

theorem blockBuffer_whole_unwritten :
    ((execAll (scriptedDisk 2) lateDisk unwritten).blockBuffer.size = 0 ∨
      (execAll (scriptedDisk 2) lateDisk unwritten).blockBuffer.size = 2) ∧
    ∀ toWrite n d', (execAll (scriptedDisk 2) lateDisk unwritten).write (scriptedDisk 2) toWrite =
      .ok n d' → n = toWrite.length := by
  have hrun : Run (Step (scriptedDisk 2)) lateDisk (trace (scriptedDisk 2) lateDisk unwritten)
      (execAll (scriptedDisk 2) lateDisk unwritten) :=
    (run_trace _ (along_true _ _)).mono fun _ _ _ h => h.2
  obtain ⟨hsize, -, -, -, hwrite, -⟩ := blockBuffer_whole (scriptedDisk_whole 2) (by decide) hrun
  exact ⟨hsize, hwrite⟩

end OffsetScsiDevice

end FatDrive
