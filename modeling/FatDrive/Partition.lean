import FatDrive.BufScsiInvariant
import FatDrive.Err

/-!
# FatDrive.Partition — opening a partition, and the addresses its device is asked for

`openPartition` reads the boot record of the disk, takes one entry of its partition table and wraps
the disk in an `OffsetScsiDevice` that starts at `rawOffset`, a product of two `u32`.  The
`mbr_nostd` crate is a parameter.  `NewlibContext.openPartition` does the same behind a state that
remembers what the context holds.

* `readMbr_isSome`: on a device whose reads make progress, 512 rounds read the boot record;
* `openPartition_eq_ok`, `NewlibContext.openPartition_eq_ok`: what is opened starts at `rawOffset`;
* `addressed_iff`: `device.read` and `device.write` are asked for the block under the cursor exactly
  if its byte address fits in 32 bits;
* `wrapped_partition`: a partition whose first byte is read at address 0.
-/

namespace FatDrive

open Lib

/-- `mbr_nostd::PartitionTableEntry`, as far as it is used. -/
structure PartitionTableEntry where
  logicalBlockAddress : UInt32
  deriving DecidableEq, Repr

/-- `mbr_nostd::MasterBootRecord::from_bytes`, with the table of the record. -/
structure MbrCrate where
  fromBytes : List UInt8 → Except MbrError (List PartitionTableEntry)

/-- Where a partition starts, in bytes: a product of `u32`, widened after it has wrapped. -/
def rawOffset (ent : PartitionTableEntry) (blockSize : ℕ) : ℕ :=
  u32Mul ent.logicalBlockAddress.toNat blockSize

variable {σ : Type} (m : ScsiCrate σ) (mbr : MbrCrate)

/-- `while mbr_buff.inner.len() < 512`: `none` if that many rounds were not enough. -/
def readMbr : ℕ → σ → VecNewtype → Option (Outcome ScsiError σ VecNewtype)
  | rounds, st, mbrBuff =>
    if mbrBuff.inner.length < 512 then
      match rounds with
      | 0 => none
      | rounds + 1 =>
        match m.read st (asU32 mbrBuff.inner.length) mbrBuff with
        | (.ok _, mbrBuff, st) => readMbr rounds st mbrBuff
        | (.error e, _, st) => some (.err e st)
    else some (.ok mbrBuff st)

/-- The buffer for the boot record. -/
def mbrBuffer : VecNewtype := VecNewtype.withFakeCapacity (max 512 m.blockSize)

/-- `open_partition` of `usbfs.rs`. -/
def openPartition (rounds : ℕ) (st : σ) (idx : ℕ) :
    Option (Outcome LibnxError σ (OffsetScsiDevice σ)) :=
  (readMbr m rounds st (mbrBuffer m)).map fun r =>
    (r.mapErr fun e => .fromRaw (LibnxErrMapper.map e)).andThen fun mbrBuff st =>
      match mbr.fromBytes mbrBuff.inner with
      | .error e => .err (.fromRaw (LibnxErrMapper.map e)) st
      | .ok entries =>
        match entries[idx]? with
        | none => .panicked st
        | some ent => .ok (.new m st (rawOffset ent m.blockSize)) st

/-! ### The context of the newlib device -/

/-- What a `NewlibContext` holds; `ι` stands for `Interface`, `φ` for `FileSystem`. -/
inductive ClientState (σ ι φ : Type) where
  | uninitialized
  | acquired (iface : ι) (client : σ)
  | opened (iface : ι) (fs : φ) (partitionInUse : PartitionTableEntry)

structure NewlibContext (σ ι φ : Type) where
  clientState : ClientState σ ι φ

namespace NewlibContext

variable {ι φ : Type}

def getPartitions (rounds : ℕ) (ctx : NewlibContext σ ι φ) :
    Option (Outcome ℕ (NewlibContext σ ι φ) (List PartitionTableEntry)) :=
  match ctx.clientState with
  | .opened .. => some (.err nxFatdriveErrUnknown ctx)
  | .uninitialized => some (.err nxFatdriveErrNotInitialized ctx)
  | .acquired iface client =>
    (readMbr m rounds client (mbrBuffer m)).map fun r =>
      match r with
      | .ok mbrBuff client =>
        match mbr.fromBytes mbrBuff.inner with
        | .error e => .err (LibnxErrMapper.map e) ⟨.acquired iface client⟩
        | .ok entries => .ok entries ⟨.acquired iface client⟩
      | .err e client => .err (LibnxErrMapper.map e) ⟨.acquired iface client⟩
      | .panicked client => .panicked ⟨.acquired iface client⟩

/-- `newFs` is `fatfs::FileSystem::new`. -/
def openPartition (newFs : OffsetScsiDevice σ → Except IoError φ) (rounds : ℕ)
    (ctx : NewlibContext σ ι φ) (idx : ℕ) : Option (Outcome ℕ (NewlibContext σ ι φ) Unit) :=
  (ctx.getPartitions m mbr rounds).map fun r => r.andThen fun partitionList ctx =>
    match ctx.clientState with
    | .acquired iface client =>
      match partitionList[idx]? with
      | none => .err nxFatdriveErrUnknown ⟨.uninitialized⟩
      | some ent =>
        match newFs (.new m client (rawOffset ent m.blockSize)) with
        | .error e => .err (LibnxErrMapper.map e) ⟨.uninitialized⟩
        | .ok fs => .ok () ⟨.opened iface fs ent⟩
    | _ => .err nxFatdriveErrUnknown ⟨.uninitialized⟩

end NewlibContext

/-! ### What is opened -/

variable {m mbr}

/-- A boot record that is read and has the entry. -/
theorem openPartition_of_read {rounds idx : ℕ} {st st' : σ} {buf : VecNewtype}
    {entries : List PartitionTableEntry} {ent : PartitionTableEntry}
    (hread : readMbr m rounds st (mbrBuffer m) = some (.ok buf st'))
    (hmbr : mbr.fromBytes buf.inner = .ok entries) (hent : entries[idx]? = some ent) :
    openPartition m mbr rounds st idx = some (.ok (.new m st' (rawOffset ent m.blockSize)) st') := by
  simp only [openPartition, hread, Option.map_some, Outcome.mapErr, Outcome.andThen_ok, hmbr, hent]

theorem NewlibContext.getPartitions_of_read {ι φ : Type} {rounds : ℕ} {iface : ι} {st st' : σ}
    {buf : VecNewtype} {entries : List PartitionTableEntry}
    (hread : readMbr m rounds st (mbrBuffer m) = some (.ok buf st'))
    (hmbr : mbr.fromBytes buf.inner = .ok entries) :
    (⟨.acquired iface st⟩ : NewlibContext σ ι φ).getPartitions m mbr rounds =
      some (.ok entries ⟨.acquired iface st'⟩) := by
  simp only [getPartitions, hread, Option.map_some, hmbr]

/-- Reads that make progress finish the boot record within 512 rounds. -/
theorem readMbr_isSome
    (hgrow : ∀ st a b n b' st', b.inner.length < 512 → m.read st a b = (.ok n, b', st') →
      b.inner.length < b'.inner.length) :
    ∀ (rounds : ℕ) (st : σ) (buf : VecNewtype), 512 ≤ buf.inner.length + rounds →
      (readMbr m rounds st buf).isSome
  | 0, st, buf, h => by
    rw [readMbr, if_neg (by omega)]
    rfl
  | rounds + 1, st, buf, h => by
    rw [readMbr]
    by_cases hlt : buf.inner.length < 512
    · rw [if_pos hlt]
      rcases hr : m.read st (asU32 buf.inner.length) buf with ⟨res, buf', st'⟩
      cases res with
      | error e => rfl
      | ok n =>
        have := hgrow _ _ _ _ _ _ hlt hr
        exact readMbr_isSome hgrow rounds st' buf' (by omega)
    · rw [if_neg hlt]
      rfl

/-- What `openPartition` returns starts at the offset of the entry it was asked for. -/
theorem openPartition_eq_ok {rounds idx : ℕ} {st st' : σ} {d : OffsetScsiDevice σ}
    (h : openPartition m mbr rounds st idx = some (.ok d st')) :
    ∃ bytes entries ent, mbr.fromBytes bytes = .ok entries ∧ entries[idx]? = some ent ∧
      d = .new m st' (rawOffset ent m.blockSize) := by
  obtain ⟨r, -, h⟩ := Option.map_eq_some_iff.mp h
  obtain ⟨mbrBuff, st₁, -, h⟩ := Outcome.andThen_eq_ok.mp h
  split at h
  · cases h
  · next entries hentries =>
    split at h
    · cases h
    · next ent hent =>
      cases h
      exact ⟨mbrBuff.inner, entries, ent, hentries, hent, rfl⟩

theorem NewlibContext.openPartition_eq_ok {ι φ : Type} {rounds idx : ℕ}
    {newFs : OffsetScsiDevice σ → Except IoError φ} {ctx ctx' : NewlibContext σ ι φ}
    (h : ctx.openPartition m mbr newFs rounds idx = some (.ok () ctx')) :
    ∃ iface client ent fs, newFs (.new m client (rawOffset ent m.blockSize)) = .ok fs ∧
      ctx' = ⟨.opened iface fs ent⟩ := by
  obtain ⟨r, -, h⟩ := Option.map_eq_some_iff.mp h
  obtain ⟨entries, ctx₁, -, h⟩ := Outcome.andThen_eq_ok.mp h
  split at h
  · next iface client _ =>
    split at h
    · cases h
    · next ent _ =>
      split at h
      · cases h
      · next fs hfs =>
        cases h
        exact ⟨iface, client, ent, fs, hfs, rfl⟩
  · cases h

/-! ### Addresses passed to the device -/

namespace OffsetScsiDevice

variable {d d' : OffsetScsiDevice σ}

/-- The transfers a call has asked a freshly recorded device for. -/
def issued {ε α : Type} (r : Outcome ε (OffsetScsiDevice (σ × List Transfer)) α) : List Transfer :=
  r.state.device.2

/-- `fillBuf`, called in `d`, reads at address `a` only; and unless it fails, the block it leaves in
the buffer is written back to `a` only, by whatever flush finds it there. -/
structure Addressed (m : ScsiCrate σ) (a : ℕ) (d : OffsetScsiDevice σ) : Prop where
  read : ∀ addr ok, .read addr ok ∈ issued (d.startRecording.fillBuf m.recorded) → addr = a
  write : (d.startRecording.fillBuf m.recorded).isErr = false → ∀ d' : OffsetScsiDevice σ,
    d'.loadedBlockNumber = (d.startRecording.fillBuf m.recorded).state.loadedBlockNumber →
    ∀ addr ok, .write addr ok ∈ issued (d'.startRecording.flush m.recorded) → addr = a

/-! The partition start never changes. -/

theorem readLoop_start : ∀ (cells : List UInt8) (i : ℕ) (d : OffsetScsiDevice σ),
    (readLoop m cells i d).2.state.partitionStart = d.partitionStart
  | [], _, _ => rfl
  | cell :: cells, i, d => by
    have hf := (fillBuf_cursor (m := m) d).1
    rw [readLoop]
    cases h : d.fillBuf m with
    | err e d₁ => rw [h] at hf; exact hf
    | panicked d₁ => rw [h] at hf; exact hf
    | ok bytes d₁ =>
      rw [h] at hf
      cases bytes with
      | nil => exact hf
      | cons byte bytes => exact (readLoop_start cells (i + 1) (d₁.consume 1)).trans hf

theorem writeLoop_start : ∀ (bytes : List UInt8) (i : ℕ) (d : OffsetScsiDevice σ),
    (writeLoop m bytes i d).state.partitionStart = d.partitionStart
  | [], _, _ => rfl
  | byte :: bytes, i, d => by
    rw [writeLoop]
    have hf := (fillBuf_cursor (m := m) d).1
    cases h : d.fillBuf m with
    | err e d₁ => rw [h] at hf; exact hf
    | panicked d₁ => rw [h] at hf; exact hf
    | ok slc d₁ =>
      rw [h] at hf
      rw [Outcome.andThen_ok]
      split
      · exact hf
      · cases hs : d₁.storeByte m byte with
        | none => exact hf
        | some d₂ =>
          have hd₂ := writeLoop_start bytes (i + 1) (d₂.consume 1)
          exact hd₂.trans ((storeByte_cursor hs).1.trans hf)

theorem exec_start (d : OffsetScsiDevice σ) (op : Op) :
    (d.exec m op).state.partitionStart = d.partitionStart := by
  cases op with
  | seek pos => cases pos <;> rfl
  | consume amt => rfl
  | fillBuf =>
    have h := (fillBuf_cursor (m := m) d).1
    rw [exec]
    cases hf : d.fillBuf m <;> rw [hf] at h <;> exact h
  | read buf =>
    have h := readLoop_start (m := m) buf 0 d
    rw [exec, read]
    cases hr : (readLoop m buf 0 d).2 <;> rw [hr] at h <;> exact h
  | write toWrite =>
    have h := writeLoop_start (m := m) toWrite 0 d
    rw [exec, write]
    cases hw : writeLoop m toWrite 0 d <;> rw [hw] at h <;> exact h
  | flush =>
    have h := (flush_cursor (m := m) d).1
    rw [exec]
    cases hf : d.flush m <;> rw [hf] at h <;> exact h

/-! What the parts of `fillBuf` ask for. -/

section Asked

variable {d d' : OffsetScsiDevice (σ × List Transfer)}

theorem flush_asks (hn : d.needsFlush = true) : ∃ ok, (d.flush m.recorded).state.device.2 =
    d.device.2 ++ [.write (asU32 (d.bufferedBlockRawIdx m.recorded)) ok] := by
  unfold flush
  rw [if_pos hn]
  split <;> next hw =>
    simp only [ScsiCrate.recorded, Prod.mk.injEq] at hw
    obtain ⟨-, -, rfl⟩ := hw
    exact ⟨_, rfl⟩

theorem load_asks (he : m.recorded.isEmpty d.blockBuffer = true) :
    ∃ ok, (d.load m.recorded).state.device.2 =
      d.device.2 ++ [.read (asU32 (d.curBlockRawIdx m.recorded)) ok] := by
  unfold load
  dsimp only
  rw [if_pos he]
  split <;> next hr =>
    simp only [ScsiCrate.recorded, Prod.mk.injEq] at hr
    obtain ⟨-, -, rfl⟩ := hr
    exact ⟨_, rfl⟩

theorem clearBuffer_device (d : OffsetScsiDevice σ) :
    (d.clearBuffer m).state.device = d.device := by
  unfold clearBuffer
  split <;> rfl

/-- A flush asks for a write of the block of the buffer only. -/
theorem flush_asks_write {t : Transfer} (ht : t ∈ (d.flush m.recorded).state.device.2) :
    t ∈ d.device.2 ∨ ∃ ok, t = .write (asU32 (d.bufferedBlockRawIdx m.recorded)) ok := by
  by_cases hn : d.needsFlush = true
  · obtain ⟨ok, hlog⟩ := flush_asks (m := m) hn
    rw [hlog] at ht
    rcases List.mem_append.mp ht with h | h
    · exact Or.inl h
    · exact Or.inr ⟨ok, List.mem_singleton.mp h⟩
  · unfold flush at ht
    rw [if_neg hn] at ht
    exact Or.inl ht

theorem evict_asks_write {t : Transfer} (ht : t ∈ (d.evict m.recorded).state.device.2) :
    t ∈ d.device.2 ∨ ∃ addr ok, t = .write addr ok := by
  unfold evict at ht
  split at ht
  · have hfl : t ∈ (d.flush m.recorded).state.device.2 →
        t ∈ d.device.2 ∨ ∃ addr ok, t = .write addr ok := fun h =>
      (flush_asks_write h).imp_right fun ⟨ok, h⟩ => ⟨_, ok, h⟩
    cases hf : d.flush m.recorded with
    | err e d₁ => rw [hf] at ht hfl; exact hfl ht
    | panicked d₁ => rw [hf] at ht hfl; exact hfl ht
    | ok u d₁ =>
      rw [hf] at ht hfl
      rw [Outcome.andThen_ok, clearBuffer_device] at ht
      exact hfl ht
  · exact Or.inl ht

end Asked

/-- The last part of `fillBuf` asks for nothing. -/
theorem andThen_rest_state (r : Outcome IoError (OffsetScsiDevice σ) Unit) :
    (r.andThen fun _ d => d.rest m).state = r.state := by
  cases r with
  | ok u d => exact rest_state d
  | err e d => rfl
  | panicked d => rfl

/-- A `fillBuf` that does not fail has not failed in its first part. -/
theorem evict_isErr_of_fillBuf (h : (d.fillBuf m).isErr = false) : (d.evict m).isErr = false := by
  unfold fillBuf at h
  cases he : d.evict m with
  | err e d₁ => rw [he] at h; cases h
  | ok u d₁ => rfl
  | panicked d₁ => rfl

section Buffer

variable (hb : BufferLaws m)
include hb

/-- The first part of `fillBuf` fails, or leaves an empty buffer or that of the block under the
cursor. -/
theorem evict_outcome (d : OffsetScsiDevice σ) :
    (∃ e d', d.evict m = .err e d') ∨
    ∃ d', d.evict m = .ok () d' ∧
      (d'.blockBuffer.inner = [] ∨ d'.loadedBlockNumber = d'.curBlockNumber m) := by
  unfold evict
  split
  · cases hf : d.flush m with
    | err e d₁ => exact Or.inl ⟨e, d₁, rfl⟩
    | panicked d₁ =>
      unfold flush at hf
      split at hf
      · split at hf <;> cases hf
      · cases hf
    | ok u d₁ =>
      rw [Outcome.andThen_ok, clearBuffer_eq hb]
      exact Or.inr ⟨_, rfl, Or.inl rfl⟩
  · next heq => exact Or.inr ⟨d, rfl, Or.inr (not_not.mp heq).symm⟩

/-- A `fillBuf` that does not fail leaves the number of the block under the cursor. -/
theorem fillBuf_loaded (h : (d.fillBuf m).isErr = false) :
    (d.fillBuf m).state.loadedBlockNumber = d.curBlockNumber m := by
  have hcur := evict_cursor (m := m) d
  unfold fillBuf at h ⊢
  rcases evict_outcome hb d with ⟨e, d₁, he⟩ | ⟨d₁, he, hnum⟩
  · rw [he] at h
    cases h
  · rw [he] at h hcur
    rw [he, Outcome.andThen_ok]
    rw [Outcome.andThen_ok] at h
    have hnumber : d₁.curBlockNumber m = d.curBlockNumber m := hcur.curBlockNumber_eq
    unfold load at h ⊢
    dsimp only at h ⊢
    by_cases hemp : m.isEmpty d₁.blockBuffer = true
    · rw [if_pos hemp] at h ⊢
      split
      · rw [Outcome.andThen_ok, rest_state]
        exact hnumber
      · next hr =>
        rw [hr] at h
        cases h
    · rw [if_neg hemp, Outcome.andThen_ok, rest_state]
      rcases hnum with h0 | hnum
      · rw [hb.isEmpty_eq, h0] at hemp
        exact absurd rfl hemp
      · rw [hnum, hnumber]

/-- `fillBuf` reads nowhere but at the block under the cursor, and not at all if it fails before. -/
theorem fillBuf_asks_read {addr : ℕ} {ok : Bool}
    (h : .read addr ok ∈ issued (d.startRecording.fillBuf m.recorded)) :
    addr = asU32 (d.curBlockRawIdx m) ∧ (d.startRecording.evict m.recorded).isErr = false := by
  have hcur := evict_cursor (m := m.recorded) d.startRecording
  have hwrites := evict_asks_write (m := m) (d := d.startRecording) (t := .read addr ok)
  have hno : ¬ (.read addr ok ∈ d.startRecording.device.2 ∨
      ∃ a k, Transfer.read addr ok = .write a k) := by
    rintro (h | ⟨a, k, h⟩) <;> cases h
  unfold issued fillBuf at h
  rcases evict_outcome hb.recorded d.startRecording with ⟨e, d₁, he⟩ | ⟨d₁, he, -⟩
  · rw [he] at h hwrites
    exact absurd (hwrites h) hno
  · rw [he] at h hwrites hcur ⊢
    have haddr : asU32 (d₁.curBlockRawIdx m.recorded) = asU32 (d.curBlockRawIdx m) :=
      congrArg asU32 (SameCursor.curBlockRawIdx_eq (m := m.recorded) hcur)
    refine ⟨?_, rfl⟩
    rw [Outcome.andThen_ok, andThen_rest_state] at h
    by_cases hemp : m.recorded.isEmpty d₁.blockBuffer = true
    · obtain ⟨k, hlog⟩ := load_asks hemp
      rw [hlog] at h
      rcases List.mem_append.mp h with h | h
      · exact absurd (hwrites h) hno
      · cases List.mem_singleton.mp h
        exact haddr
    · unfold load at h
      dsimp only at h
      rw [if_neg hemp] at h
      exact absurd (hwrites h) hno

/-- Unless it fails before, `fillBuf` reads there, or has nothing to read and does not fail. -/
theorem fillBuf_reads_or_keeps (h : (d.startRecording.evict m.recorded).isErr = false) :
    (∃ ok, .read (asU32 (d.curBlockRawIdx m)) ok ∈ issued (d.startRecording.fillBuf m.recorded)) ∨
      (d.startRecording.fillBuf m.recorded).isErr = false := by
  have hcur := evict_cursor (m := m.recorded) d.startRecording
  unfold issued fillBuf
  rcases evict_outcome hb.recorded d.startRecording with ⟨e, d₁, he⟩ | ⟨d₁, he, -⟩
  · rw [he] at h
    cases h
  · rw [he] at hcur ⊢
    have haddr : asU32 (d₁.curBlockRawIdx m.recorded) = asU32 (d.curBlockRawIdx m) :=
      congrArg asU32 (SameCursor.curBlockRawIdx_eq (m := m.recorded) hcur)
    rw [Outcome.andThen_ok, andThen_rest_state]
    by_cases hemp : m.recorded.isEmpty d₁.blockBuffer = true
    · obtain ⟨ok, hlog⟩ := load_asks hemp
      refine Or.inl ⟨ok, ?_⟩
      rw [hlog, haddr]
      exact List.mem_append_right _ (List.mem_singleton_self _)
    · right
      unfold load
      dsimp only
      rw [if_neg hemp, Outcome.andThen_ok]
      unfold rest
      split <;> rfl

end Buffer

/-! Where that is. -/

theorem curBlockRawIdx_eq_block (d : OffsetScsiDevice σ) :
    d.curBlockRawIdx m = d.rawIdx / m.blockSize * m.blockSize := by
  have hlt : d.rawIdx < 2 ^ 64 := Nat.mod_lt _ (by decide)
  have hdm := Nat.div_add_mod d.rawIdx m.blockSize
  unfold curBlockRawIdx
  rw [usizeSub_of_le hlt (Nat.mod_le _ _), Nat.mul_comm]
  omega

/-- The number of the block under the cursor leads back to its address. -/
theorem mul_curBlockNumber (d : OffsetScsiDevice σ) (h0 : 0 < m.blockSize) :
    usizeMul m.blockSize (d.curBlockNumber m) = d.curBlockRawIdx m := by
  have hlt : d.rawIdx < 2 ^ 64 := Nat.mod_lt _ (by decide)
  have hle := Nat.div_mul_le_self d.rawIdx m.blockSize
  unfold curBlockNumber
  rw [curBlockRawIdx_eq_block, Nat.mul_div_cancel _ h0, usizeMul_of_lt, Nat.mul_comm]
  rw [Nat.mul_comm]
  omega

/-- The block of the buffer, if its number is that of the block under the cursor. -/
theorem bufferedBlockRawIdx_eq (h0 : 0 < m.blockSize) {d' : OffsetScsiDevice σ}
    (h : d'.loadedBlockNumber = d.curBlockNumber m) :
    asU32 (d'.startRecording.bufferedBlockRawIdx m.recorded) = asU32 (d.curBlockRawIdx m) := by
  show asU32 (usizeMul m.blockSize d'.loadedBlockNumber) = _
  rw [h, mul_curBlockNumber d h0]

/-- What `fillBuf` passes to `device.read` is the block of the wanted byte exactly if its address
fits in 32 bits. -/
theorem passed_eq_iff {ent : PartitionTableEntry} (h0 : 0 < m.blockSize) (hbs : m.blockSize < 2 ^ 32)
    (hstart : d.partitionStart = rawOffset ent m.blockSize) :
    asU32 (d.curBlockRawIdx m) =
        (ent.logicalBlockAddress.toNat * m.blockSize + d.partitionIdx) / m.blockSize *
          m.blockSize ↔
      (ent.logicalBlockAddress.toNat * m.blockSize + d.partitionIdx) / m.blockSize *
        m.blockSize < 2 ^ 32 := by
  constructor
  · intro h
    rw [← h]
    exact asU32_lt _
  · intro h
    -- the partition starts below the block, so neither the product nor the sum wraps
    have hprod : ent.logicalBlockAddress.toNat * m.blockSize ≤
        (ent.logicalBlockAddress.toNat * m.blockSize + d.partitionIdx) / m.blockSize *
          m.blockSize := by
      rw [Nat.mul_comm ent.logicalBlockAddress.toNat, Nat.mul_add_div h0, Nat.mul_comm]
      exact Nat.mul_le_mul_right _ (Nat.le_add_right _ _)
    have hsum := Nat.div_add_mod (ent.logicalBlockAddress.toNat * m.blockSize + d.partitionIdx)
      m.blockSize
    have hmod := Nat.mod_lt (ent.logicalBlockAddress.toNat * m.blockSize + d.partitionIdx) h0
    rw [Nat.mul_comm m.blockSize] at hsum
    have hraw : d.rawIdx = ent.logicalBlockAddress.toNat * m.blockSize + d.partitionIdx := by
      unfold rawIdx rawOffset at *
      rw [hstart, u32Mul, Nat.mod_eq_of_lt (by omega)]
      exact usizeAdd_of_lt (by omega)
    rw [curBlockRawIdx_eq_block, hraw, asU32_of_lt h]

/-- **Addresses.**  In every state of a device opened on a partition: `fillBuf` reads at, and the
block it leaves is written back to, the address of the block that holds the byte under the cursor,
exactly if that address fits in 32 bits or `fillBuf` fails before it reads. -/
theorem addressed_iff (hb : BufferLaws m) (h0 : 0 < m.blockSize) (hbs : m.blockSize < 2 ^ 32)
    {ent : PartitionTableEntry} {st : σ} {ls : List Label}
    (hrun : Run (Step m) (new m st (rawOffset ent m.blockSize)) ls d) :
    Addressed m ((ent.logicalBlockAddress.toNat * m.blockSize + d.partitionIdx) / m.blockSize *
        m.blockSize) d ↔
      (ent.logicalBlockAddress.toNat * m.blockSize + d.partitionIdx) / m.blockSize *
          m.blockSize < 2 ^ 32 ∨
        (d.startRecording.evict m.recorded).isErr = true := by
  have hstart : d.partitionStart = rawOffset ent m.blockSize := by
    refine hrun.invariant (I := fun d => d.partitionStart = rawOffset ent m.blockSize)
      (fun d l d' h hs => ?_) rfl
    obtain ⟨-, rfl⟩ := hs
    exact (exec_start d l.1).trans h
  have hpass := passed_eq_iff h0 hbs hstart
  constructor
  · intro ha
    by_contra hnot
    obtain ⟨hbig, hev⟩ := not_or.mp hnot
    refine hbig (hpass.mp ?_)
    rcases fillBuf_reads_or_keeps hb (by simpa using hev) with ⟨ok, hread⟩ | hkeep
    · exact ha.read _ ok hread
    · -- nothing to read: the block found in the buffer would be written back there
      have hloaded := fillBuf_loaded hb.recorded hkeep
      let d' : OffsetScsiDevice σ :=
        { d with loadedBlockNumber := d.curBlockNumber m, needsFlush := true }
      obtain ⟨ok, hwrite⟩ := flush_asks (m := m) (d := d'.startRecording) rfl
      have hnum : d'.loadedBlockNumber = d.curBlockNumber m := rfl
      rw [← bufferedBlockRawIdx_eq h0 hnum]
      refine ha.write hkeep d' hloaded.symm _ ok ?_
      unfold issued
      rw [hwrite]
      exact List.mem_append_right _ (List.mem_singleton_self _)
  · intro hcond
    refine ⟨fun addr ok hread => ?_, fun hkeep d' hd' addr ok hwrite => ?_⟩
    · obtain ⟨rfl, hev⟩ := fillBuf_asks_read hb hread
      refine hpass.mpr (hcond.resolve_right ?_)
      rw [hev]
      exact Bool.false_ne_true
    · have hev := evict_isErr_of_fillBuf hkeep
      have hbig := hcond.resolve_right (by rw [hev]; exact Bool.false_ne_true)
      have hnum := hd'.trans (fillBuf_loaded hb.recorded hkeep)
      rw [← hpass.mpr hbig, ← bufferedBlockRawIdx_eq h0 hnum]
      rcases flush_asks_write hwrite with h | ⟨ok', h⟩
      · cases h
      · cases h
        rfl

/-- A disk with blocks of 512 bytes, seen from the start of a partition on. -/
def partitionDisk (ent : PartitionTableEntry) : OffsetScsiDevice ScriptedDisk :=
  new (scriptedDisk 512) ⟨fun x => x.toUInt8, []⟩ (rawOffset ent 512)

theorem scriptedDisk_bufferLaws (bs : ℕ) : BufferLaws (scriptedDisk bs) :=
  ⟨fun _ => rfl, fun b => ⟨b.size, rfl⟩⟩

theorem addressed_iff_third :
    Addressed (scriptedDisk 512) 2048
      (execAll (scriptedDisk 512) (partitionDisk ⟨3⟩) [.seek (.start 1000)]) := by
  have hrun : Run (Step (scriptedDisk 512)) (partitionDisk ⟨3⟩)
      [(.seek (.start 1000), some (.ok (.position 1000)))]
      (execAll (scriptedDisk 512) (partitionDisk ⟨3⟩) [.seek (.start 1000)]) := .single ⟨rfl, rfl⟩
  exact (addressed_iff (scriptedDisk_bufferLaws 512) (by decide) (by decide) hrun).mpr
    (Or.inl (by decide))

/-- **A wrapped partition.**  The partition starts at block `2 ^ 23`, byte `2 ^ 32`; what `fillBuf`
reads for its first byte is block 0, without an error. -/
theorem wrapped_partition :
    (0x800000 * 512 + (partitionDisk ⟨0x800000⟩).partitionIdx) / 512 * 512 = 2 ^ 32 ∧
    issued ((partitionDisk ⟨0x800000⟩).startRecording.fillBuf (scriptedDisk 512).recorded) =
      [.read 0 true] ∧
    ((partitionDisk ⟨0x800000⟩).startRecording.fillBuf (scriptedDisk 512).recorded).isErr = false ∧
    ¬ Addressed (scriptedDisk 512) (2 ^ 32) (partitionDisk ⟨0x800000⟩) := by
  have hread : issued ((partitionDisk ⟨0x800000⟩).startRecording.fillBuf
      (scriptedDisk 512).recorded) = [.read 0 true] := by decide +kernel
  refine ⟨by decide, hread, by decide +kernel, fun h => ?_⟩
  have := h.read 0 true (by rw [hread]; exact List.mem_singleton_self _)
  exact absurd this (by decide)

end OffsetScsiDevice

end FatDrive
