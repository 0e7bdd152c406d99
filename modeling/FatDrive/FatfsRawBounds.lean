import FatDrive.BufScsiConfine
import FatDrive.FatfsRawSectors

/-!
# FatDrive.FatfsRawBounds — which requests stay inside their partition

`sector_count` is stored with a device, but `disk_read` and `disk_write` do not look at it.  The
transfers of a drive stay inside its partition as long as its requests do (`stays_inside`), over any
device and in any interleaving with requests to other drives; a request that does not is served like
any other (`contained_iff`, `past_the_end`).
-/

namespace FatDrive

open Lib

variable {σ : Type}

namespace PartitionInfo

variable (info : PartitionInfo) (blockSize : ℕ)

/-- A sector of the entry starts at byte `a` of the disk. -/
def HasSector (a : ℕ) : Prop :=
  ∃ k, info.logicalBlockAddress.toNat ≤ k ∧
    k < info.logicalBlockAddress.toNat + info.sectorCount.toNat ∧ a = k * blockSize

/-- Byte `x` of the disk is in no sector of the entry. -/
def Outside (x : ℕ) : Prop :=
  x < info.logicalBlockAddress.toNat * blockSize ∨
    (info.logicalBlockAddress.toNat + info.sectorCount.toNat) * blockSize ≤ x

/-- The sectors asked for go past the last one. -/
def Exceeded (sector count : UInt32) : Prop :=
  0 < count.toNat ∧ info.sectorCount.toNat < sector.toNat + count.toNat

/-- Nothing is asked for, or sectors of the entry whose bytes have addresses of 32 bits. -/
def Serves (sector count : UInt32) : Prop :=
  count.toNat = 0 ∨ sector.toNat + count.toNat ≤ info.sectorCount.toNat ∧
    (info.logicalBlockAddress.toNat + sector.toNat + count.toNat) * blockSize ≤ 2 ^ 32

variable {info blockSize}

theorem Serves.not_exceeded {sector count : UInt32} (h : info.Serves blockSize sector count) :
    ¬ info.Exceeded sector count := by
  rintro ⟨h0, hlt⟩
  rcases h with h | ⟨hle, -⟩ <;> omega

theorem HasSector.dvd {a : ℕ} (h : info.HasSector blockSize a) : blockSize ∣ a := by
  obtain ⟨k, -, -, rfl⟩ := h
  exact Nat.dvd_mul_left ..

theorem Outside.beside {x a : ℕ} (h : info.Outside blockSize x) (ha : info.HasSector blockSize a) :
    x < a ∨ a + blockSize ≤ x := by
  obtain ⟨k, hle, hlt, rfl⟩ := ha
  have hlo := Nat.mul_le_mul_right blockSize hle
  have hhi := Nat.mul_le_mul_right blockSize hlt
  rw [Nat.succ_mul] at hhi
  rcases h with h | h
  · exact Or.inl (by omega)
  · exact Or.inr (by omega)

end PartitionInfo

namespace FatfsSysContext

/-- The sector and the count of a read or a write. -/
def Call.span : Call σ → Option (UInt32 × UInt32)
  | .diskRead _ _ sector count => some (sector, count)
  | .diskWrite _ _ sector count => some (sector, count)
  | _ => none

/-- The call goes past the last sector of the entry. -/
def Call.Exceeds (info : PartitionInfo) (c : Call σ) : Prop :=
  ∃ s, c.span = some s ∧ info.Exceeded s.1 s.2

/-- The call stays in the entry. -/
def Call.StaysIn (info : PartitionInfo) (blockSize : ℕ) (c : Call σ) : Prop :=
  ∀ s, c.span = some s → info.Serves blockSize s.1 s.2

/-- The answer is an error code. -/
def Answer.isError : Answer σ → Bool
  | .status s => s ≠ 0
  | .read r _ => r ≠ .resOk
  | .write r => r ≠ .resOk
  | .ioctl r _ => r ≠ .resOk

theorem SectorStep.served {size : ℕ} {s s' : ℕ → List UInt8} {l : Call σ × Answer σ}
    (h : SectorStep size s l s') : l.2.isError = false := by
  cases h <;> rfl

end FatfsSysContext

/-- The handle of an entry's partition, just opened: nothing has been transferred yet. -/
def DeviceHandle.opened (m : ScsiCrate σ) (st : σ) (info : PartitionInfo) :
    DeviceHandle (σ × List Transfer) where
  scsi := m.recorded
  device := .new m.recorded (st, []) (rawOffset info.toPartitionTableEntry m.blockSize)
  partitionInfo := info

/-! ### The states a request leaves -/

namespace FatfsSysContext

section States

variable {dev dev' : DeviceHandle σ} {bufPtr : List UInt8} {sector count : UInt32}

theorem readHandle_state {r : DResult × List UInt8}
    (h : readHandle dev bufPtr sector count = some (r, dev')) :
    dev' = dev.withDevice (OffsetScsiDevice.readLoop dev.scsi (bufPtr.take (byteCount dev count)) 0
      { dev.device with partitionIdx := byteOffset dev sector }).2.state := by
  unfold readHandle OffsetScsiDevice.seek OffsetScsiDevice.read at h
  dsimp only at h
  split at h
  · cases h
  · next hr =>
    cases h
    rw [hr]
    rfl
  · next hr =>
    cases h
    rw [hr]
    rfl

theorem writeHandle_state {r : DResult}
    (h : writeHandle dev bufPtr sector count = some (r, dev')) :
    dev' = dev.withDevice (OffsetScsiDevice.writeLoop dev.scsi (bufPtr.take (byteCount dev count)) 0
      { dev.device with partitionIdx := byteOffset dev sector }).state := by
  unfold writeHandle OffsetScsiDevice.seek OffsetScsiDevice.write at h
  dsimp only at h
  split at h
  · cases h
  · next hr =>
    cases h
    rw [hr]
    rfl
  · next hr =>
    cases h
    rw [hr]
    rfl

theorem syncHandle_state {r : DResult} (h : syncHandle dev = some (r, dev')) :
    dev' = dev.withDevice (dev.device.flush dev.scsi).state := by
  unfold syncHandle DeviceHandle.sync at h
  split at h
  · cases h
  · next hr =>
    cases h
    rw [hr]
    rfl
  · next hr =>
    cases h
    rw [hr]
    rfl

end States

/-! ### Where a request goes -/

section Request

open OffsetScsiDevice

variable {m : ScsiCrate σ} {medium : σ → ℕ → UInt8} {info : PartitionInfo} {orig : ℕ → UInt8}

/-- A cursor at a byte of the sectors from `lo` on, `n` of the entry's, is in a sector of the entry,
and the address passed to the device is that of the sector. -/
theorem hasSector_cursor {d : OffsetScsiDevice (σ × List Transfer)} (lo : ℕ) {n : ℕ}
    (h0 : 0 < m.blockSize) (hlo : lo * m.blockSize ≤ d.pos)
    (hhi : d.pos < (lo + n) * m.blockSize) (h32 : (lo + n) * m.blockSize ≤ 2 ^ 32)
    (hfirst : info.logicalBlockAddress.toNat ≤ lo)
    (hlast : lo + n ≤ info.logicalBlockAddress.toNat + info.sectorCount.toNat) :
    info.HasSector m.blockSize (asU32 (d.curBlockRawIdx m.recorded)) := by
  have hle : lo ≤ d.pos / m.blockSize := (Nat.le_div_iff_mul_le h0).mpr hlo
  have hlt : d.pos / m.blockSize < lo + n := (Nat.div_lt_iff_lt_mul h0).mpr hhi
  have hraw : d.rawIdx = d.pos := usizeAdd_of_lt (by unfold pos at hhi; omega)
  have hmul := Nat.div_mul_le_self d.pos m.blockSize
  refine ⟨d.pos / m.blockSize, by omega, by omega, ?_⟩
  rw [curBlockRawIdx_eq_block, hraw]
  exact asU32_of_lt (show d.pos / m.blockSize * m.blockSize < 2 ^ 32 by omega)

/-- Neither the start of the partition nor the offset of a request in it wraps. -/
theorem pos_request {d : OffsetScsiDevice (σ × List Transfer)} {sector count : UInt32}
    (h0 : 0 < m.blockSize)
    (hstart : d.partitionStart = rawOffset info.toPartitionTableEntry m.blockSize)
    (hidx : d.partitionIdx = usizeMul m.blockSize sector.toNat) (hcount : 0 < count.toNat)
    (h32 : (info.logicalBlockAddress.toNat + sector.toNat + count.toNat) * m.blockSize ≤ 2 ^ 32) :
    d.pos = (info.logicalBlockAddress.toNat + sector.toNat) * m.blockSize := by
  have hblock := Nat.mul_le_mul_right m.blockSize hcount
  rw [Nat.succ_mul, Nat.zero_mul] at hblock
  rw [Nat.add_mul, Nat.add_mul] at h32
  unfold pos rawOffset u32Mul at *
  rw [hstart, hidx, usizeMul_of_lt (by rw [Nat.mul_comm]; omega), Nat.mod_eq_of_lt (by omega),
    Nat.add_mul, Nat.mul_comm sector.toNat]

/-- What every state of the handle has: its device has stayed in the entry's sectors. -/
structure Inside (m : ScsiCrate σ) (medium : σ → ℕ → UInt8) (info : PartitionInfo)
    (orig : ℕ → UInt8) (dev : DeviceHandle (σ × List Transfer)) : Prop where
  scsi_eq : dev.scsi = m.recorded
  info_eq : dev.partitionInfo = info
  confined : Confined m medium (info.HasSector m.blockSize)
    (rawOffset info.toPartitionTableEntry m.blockSize) orig dev.device

theorem inside_opened (st : σ) : Inside m medium info (medium st) (.opened m st info) :=
  ⟨rfl, rfl, confined_new st _⟩

section Kept

variable (hm : LocalMedium m medium)
include hm

/-- The two loops over the bytes of a request that stays in the entry. -/
theorem loops_confined {d : OffsetScsiDevice (σ × List Transfer)} {sector count : UInt32}
    {bytes : List UInt8} (hd : Confined m medium (info.HasSector m.blockSize)
      (rawOffset info.toPartitionTableEntry m.blockSize) orig d)
    (hidx : d.partitionIdx = usizeMul m.blockSize sector.toNat)
    (hn : bytes.length ≤ m.blockSize * count.toNat) (hs : info.Serves m.blockSize sector count) :
    Confined m medium (info.HasSector m.blockSize)
        (rawOffset info.toPartitionTableEntry m.blockSize) orig
        (readLoop m.recorded bytes 0 d).2.state ∧
      Confined m medium (info.HasSector m.blockSize)
        (rawOffset info.toPartitionTableEntry m.blockSize) orig
        (writeLoop m.recorded bytes 0 d).state := by
  rcases Nat.eq_zero_or_pos count.toNat with hz | hcount
  · -- nothing is asked for
    rw [hz, Nat.mul_zero] at hn
    obtain rfl : bytes = [] := List.eq_nil_of_length_eq_zero (Nat.le_zero.mp hn)
    exact ⟨hd, hd⟩
  · obtain ⟨hlast, h32⟩ := hs.resolve_left (by omega)
    have h0 := hm.blockSize_pos
    have hp := pos_request h0 hd.start_eq hidx hcount h32
    have hend : d.pos + bytes.length ≤
        (info.logicalBlockAddress.toNat + sector.toNat + count.toNat) * m.blockSize := by
      rw [hp, Nat.add_mul _ count.toNat, Nat.mul_comm count.toNat]
      omega
    have hfill : ∀ d₁, Fills d bytes.length d₁ →
        info.HasSector m.blockSize (asU32 (d₁.curBlockRawIdx m.recorded)) := by
      rintro d₁ ⟨-, hle, hlt⟩
      exact hasSector_cursor (info.logicalBlockAddress.toNat + sector.toNat) h0
        (by omega) (by omega) h32 (by omega) (by omega)
    have hkept : Kept m.recorded (2 ^ 32)
        (fun d => info.HasSector m.blockSize (asU32 (d.curBlockRawIdx m.recorded)))
        (fun _ _ => True) (Confined m medium (info.HasSector m.blockSize)
          (rawOffset info.toPartitionTableEntry m.blockSize) orig) :=
      confined_kept hm (fun a ha => PartitionInfo.HasSector.dvd ha) _ _
    constructor
    · exact readLoop_kept (by decide) hkept bytes 0 d hd (by omega)
        fun d₁ h₁ => hfill d₁ (readFills_pos bytes d (by omega) d₁ h₁)
    · exact writeLoop_kept (by decide) hkept bytes 0 d hd (by omega)
        (fun d₁ h₁ => hfill d₁ (writeFills_pos bytes d (by omega) d₁ h₁)) fun _ _ _ => trivial

/-- **A request that stays in the entry** keeps the device in the entry's sectors. -/
theorem onHandle_inside {dev dev' : DeviceHandle (σ × List Transfer)}
    {c : Call (σ × List Transfer)} {a : Answer (σ × List Transfer)}
    (hdev : Inside m medium info orig dev) (hs : c.StaysIn info m.blockSize)
    (h : c.onHandle dev = some (a, dev')) : Inside m medium info orig dev' := by
  obtain ⟨hscsi, hinfo, hconf⟩ := hdev
  have hsize : dev.sectorSize = m.blockSize := by
    unfold DeviceHandle.sectorSize
    rw [hscsi]
    rfl
  have hlen : ∀ (bufPtr : List UInt8) (count : UInt32),
      (bufPtr.take (byteCount dev count)).length ≤ m.blockSize * count.toNat := by
    intro bufPtr count
    rw [List.length_take, byteCount, hsize]
    exact Nat.le_trans (Nat.min_le_left _ _) (Nat.mod_le _ _)
  cases c with
  | diskStatus isConnected p => cases h
  | diskInitialize isConnected p => cases h
  | diskRead p bufPtr sector count =>
    obtain ⟨⟨r, dev₁⟩, hr, he⟩ := Option.map_eq_some_iff.mp h
    cases he
    obtain rfl := readHandle_state hr
    refine ⟨hscsi, hinfo, ?_⟩
    dsimp only [DeviceHandle.withDevice]
    rw [hscsi]
    exact (loops_confined hm (hconf.moved _) (by rw [byteOffset, hsize]) (hlen bufPtr count)
      (hs _ rfl)).1
  | diskWrite p bufPtr sector count =>
    obtain ⟨⟨r, dev₁⟩, hr, he⟩ := Option.map_eq_some_iff.mp h
    cases he
    obtain rfl := writeHandle_state hr
    refine ⟨hscsi, hinfo, ?_⟩
    dsimp only [DeviceHandle.withDevice]
    rw [hscsi]
    exact (loops_confined hm (hconf.moved _) (by rw [byteOffset, hsize]) (hlen bufPtr count)
      (hs _ rfl)).2
  | diskIoctl isConnected p cmd buf =>
    obtain ⟨⟨r, dev₁⟩, hr, he⟩ := Option.map_eq_some_iff.mp h
    cases he
    obtain rfl := syncHandle_state hr
    refine ⟨hscsi, hinfo, ?_⟩
    dsimp only [DeviceHandle.withDevice]
    rw [hscsi]
    exact flush_confined hm (fun a ha => PartitionInfo.HasSector.dvd ha) hconf

end Kept

end Request

/-! ### Runs -/

/-- One request at a handle. -/
def HandleStep (dev : DeviceHandle σ) (l : Call σ × Answer σ) (dev' : DeviceHandle σ) : Prop :=
  l.1.onHandle dev = some (l.2, dev')

/-- A request that is served inside the partition, or refused where it goes past the last sector. -/
structure Contained (m : ScsiCrate σ) (medium : σ → ℕ → UInt8) (info : PartitionInfo)
    (dev : DeviceHandle (σ × List Transfer))
    (l : Call (σ × List Transfer) × Answer (σ × List Transfer))
    (dev' : DeviceHandle (σ × List Transfer)) : Prop where
  step : HandleStep dev l dev'
  transfers : ∀ t ∈ dev'.device.device.2, info.HasSector m.blockSize t.addr
  outside : ∀ x, info.Outside m.blockSize x →
    medium dev'.device.device.1 x = medium dev.device.device.1 x
  past : l.1.Exceeds info →
    l.2.isError = true ∧ medium dev'.device.device.1 = medium dev.device.device.1

section Runs

variable {m : ScsiCrate σ} {medium : σ → ℕ → UInt8} {info : PartitionInfo}
  {ctx ctx' : FatfsSysContext (σ × List Transfer)} {i : Fin 15}

/-- A request to any drive, one to drive `i` staying in the entry. -/
def RequestIn (m : ScsiCrate σ) (info : PartitionInfo) (i : Fin 15)
    (ctx : FatfsSysContext (σ × List Transfer))
    (l : Call (σ × List Transfer) × Answer (σ × List Transfer)) : Prop :=
  l.1.isRequest = true ∧ (ctx.reached l.1 = some i → l.1.StaysIn info m.blockSize)

/-- The table `s`, reached from `ctx`, holds `dev` in slot `i`, and `dev` has stayed inside. -/
structure Holds (m : ScsiCrate σ) (medium : σ → ℕ → UInt8) (info : PartitionInfo)
    (orig : ℕ → UInt8) (ctx : FatfsSysContext (σ × List Transfer)) (i : Fin 15)
    (s : FatfsSysContext (σ × List Transfer)) (dev : DeviceHandle (σ × List Transfer)) : Prop where
  default_eq : s.defaultDisk = ctx.defaultDisk
  device : s.drives i = some dev
  inside : Inside m medium info orig dev

theorem contained_of_inside {orig : ℕ → UInt8} {dev dev' : DeviceHandle (σ × List Transfer)}
    {l : Call (σ × List Transfer) × Answer (σ × List Transfer)}
    (hdev : Inside m medium info orig dev) (hdev' : Inside m medium info orig dev')
    (hs : l.1.StaysIn info m.blockSize) (h : HandleStep dev l dev') :
    Contained m medium info dev l dev' where
  step := h
  transfers := hdev'.confined.transfers
  outside := fun x hx => by
    rw [hdev'.confined.outside x fun a ha => hx.beside ha,
      hdev.confined.outside x fun a ha => hx.beside ha]
  past := by
    rintro ⟨s, hspan, hexc⟩
    exact absurd hexc (hs s hspan).not_exceeded

theorem Holds.step (hm : LocalMedium m medium) {orig : ℕ → UInt8}
    {s s' : FatfsSysContext (σ × List Transfer)} {dev : DeviceHandle (σ × List Transfer)}
    {l : Call (σ × List Transfer) × Answer (σ × List Transfer)}
    (h : Holds m medium info orig ctx i s dev) (hs : Guard Step (RequestIn m info i) s l s')
    (hi : ctx.reached l.1 = some i) :
    ∃ dev', Contained m medium info dev l dev' ∧ Holds m medium info orig ctx i s' dev' := by
  obtain ⟨⟨hreq, hstay⟩, hstep⟩ := hs
  have hreach : s.reached l.1 = some i := (reached_congr h.default_eq l.1).trans hi
  obtain ⟨dev', ha, rfl⟩ := (step_request hreq hreach h.device).mp hstep
  have hin := onHandle_inside hm h.inside (hstay hreach) ha
  exact ⟨dev', contained_of_inside h.inside hin (hstay hreach) ha, h.default_eq,
    drives_setSlot_self .., hin⟩

theorem Holds.other {orig : ℕ → UInt8} {s s' : FatfsSysContext (σ × List Transfer)}
    {dev : DeviceHandle (σ × List Transfer)}
    {l : Call (σ × List Transfer) × Answer (σ × List Transfer)}
    (h : Holds m medium info orig ctx i s dev) (hs : Guard Step (RequestIn m info i) s l s')
    (hi : ctx.reached l.1 ≠ some i) : Holds m medium info orig ctx i s' dev := by
  obtain ⟨⟨hreq, -⟩, hstep⟩ := hs
  refine ⟨(defaultDisk_request hreq hstep).trans h.default_eq, ?_, h.inside⟩
  rw [← h.device]
  rcases (exec_effect hstep).drives with hsame | ⟨pdrv, dev₁, j, hl, hidx, rfl, -⟩
  · rw [hsame]
  · refine drives_setSlot_of_ne ?_ _
    rintro rfl
    refine hi ?_
    rw [← reached_congr h.default_eq, reached, hl]
    exact slot?_eq_some.mpr hidx

/-- **A partition's transfers stay inside it**, in every run of requests to any drives of which those
to its own drive stay in the entry, whatever the device answers. -/
theorem stays_inside (hm : LocalMedium m medium) {st : σ}
    (hdev : ctx.drives i = some (.opened m st info))
    {ls : List (Call (σ × List Transfer) × Answer (σ × List Transfer))}
    (h : Run (Guard Step (RequestIn m info i)) ctx ls ctx') :
    ∃ dev', ctx'.drives i = some dev' ∧
      Run (Contained m medium info) (.opened m st info) (ctx.ofSlot i ls) dev' := by
  have hmine : ∀ s l s' dev, Holds m medium info (medium st) ctx i s dev →
      Guard Step (RequestIn m info i) s l s' → decide (ctx.reached l.1 = some i) = true →
      ∃ dev', Contained m medium info dev l dev' ∧ Holds m medium info (medium st) ctx i s' dev' :=
    fun _ _ _ _ hR hs hm' => hR.step hm hs (of_decide_eq_true hm')
  have hother : ∀ s l s' dev, Holds m medium info (medium st) ctx i s dev →
      Guard Step (RequestIn m info i) s l s' → decide (ctx.reached l.1 = some i) = false →
      Holds m medium info (medium st) ctx i s' dev :=
    fun _ _ _ _ hR hs hm' => hR.other hs (of_decide_eq_false hm')
  obtain ⟨dev', hrun, hholds⟩ := Run.filtered hmine hother h _ ⟨rfl, hdev, inside_opened st⟩
  exact ⟨dev', hholds.device, hrun⟩

/-- Over a disk that has no faults, a request inside the disk is contained exactly if it stays in the
entry: any other is served. -/
theorem contained_iff (hm : LocalMedium m medium) {M : ℕ} {orig : ℕ → UInt8}
    {dev dev' : DeviceHandle (σ × List Transfer)} {c : Call (σ × List Transfer)}
    {a : Answer (σ × List Transfer)} (hin : Inside m medium info orig dev)
    (hready : dev.Ready M fun st => medium st.1) (hfits : c.Fits M dev)
    (hstart : info.logicalBlockAddress.toNat * m.blockSize < 2 ^ 32)
    (h : HandleStep dev (c, a) dev') :
    Contained m medium info dev (c, a) dev' ↔ c.StaysIn info m.blockSize := by
  constructor
  · intro hc
    obtain ⟨a', dev₁, ha, -, -, hstep, -⟩ := onHandle_fits hready hfits
    obtain ⟨rfl, rfl⟩ := Prod.mk.inj (Option.some.inj (ha.symm.trans h))
    have hserved : a'.isError = false := hstep.served
    have hsize : dev.sectorSize = m.blockSize := by
      unfold DeviceHandle.sectorSize
      rw [hin.scsi_eq]
      rfl
    have hbase : dev.device.partitionStart = info.logicalBlockAddress.toNat * m.blockSize := by
      rw [hin.confined.start_eq]
      exact Nat.mod_eq_of_lt hstart
    have hM := hready.faultFree.size_le
    -- a request inside the disk is not refused, so it does not go past the last sector
    have hstays : ∀ {bufPtr : List UInt8} {sector count : UInt32},
        dev.RequestFits M bufPtr sector count → c.span = some (sector, count) →
        info.Serves m.blockSize sector count := by
      intro bufPtr sector count hreq hspan
      have hnot : ¬ info.Exceeded sector count := by
        intro he
        have herr := (hc.past ⟨_, hspan, he⟩).1
        dsimp only at herr
        rw [hserved] at herr
        cases herr
      have hinside := hreq.inside
      rw [hbase, hsize, ← Nat.add_mul, ← Nat.add_assoc] at hinside
      unfold PartitionInfo.Exceeded at hnot
      by_cases h0 : count.toNat = 0
      · exact Or.inl h0
      · exact Or.inr ⟨by omega, by omega⟩
    intro s hs
    cases c with
    | diskStatus isConnected p => cases hs
    | diskInitialize isConnected p => cases hs
    | diskRead p bufPtr sector count =>
      cases hs
      exact hstays hfits rfl
    | diskWrite p bufPtr sector count =>
      cases hs
      exact hstays hfits rfl
    | diskIoctl isConnected p cmd buf => cases hs
  · intro hs
    exact contained_of_inside hin (onHandle_inside hm hin hs h) hs h

end Runs

/-! ### A disk of four sectors -/

theorem flatDisk_local {bs : ℕ} (h0 : 0 < bs) : LocalMedium (flatDisk bs) id where
  blockSize_pos := h0
  isEmpty_eq := fun _ => rfl
  clear_eq := fun b => ⟨b.size, rfl⟩
  read_medium := fun _ _ _ => rfl
  read_buffer := by
    intro st a b hb
    refine ⟨rfl, ?_⟩
    simp only [flatDisk, VecNewtype.capacity, VecNewtype.size, List.length_append, length_slice]
    omega
  write_medium := fun st a b _ x hx => by
    rcases hx with hx | hx
    · exact patch_of_lt hx
    · exact patch_of_ge hx
  write_buffer := fun _ _ b => ⟨rfl, Nat.zero_le _⟩

/-- An entry of one sector, the second of the disk. -/
def oneSector : PartitionInfo := ⟨⟨1⟩, .fat32 0x0C, 1⟩

/-- Its drive, on a disk of sectors of 4 bytes whose bytes are their addresses. -/
def oneDrive : FatfsSysContext ((ℕ → UInt8) × List Transfer) where
  drives := fun i => if i.val = 2 then some (.opened (flatDisk 4) UInt8.ofNat oneSector) else none
  defaultDisk := 0

theorem stays_inside_first :
    ∃ ctx' dev', Run (Guard Step (RequestIn (flatDisk 4) oneSector 2)) oneDrive
        [(.diskRead 2 [0, 0, 0, 0] 0 1, .read .resOk [4, 5, 6, 7])] ctx' ∧
      ctx'.drives 2 = some dev' ∧
      Run (Contained (flatDisk 4) id oneSector) (.opened (flatDisk 4) UInt8.ofNat oneSector)
        (oneDrive.ofSlot 2 [(.diskRead 2 [0, 0, 0, 0] 0 1, .read .resOk [4, 5, 6, 7])]) dev' := by
  have hrun : ∃ ctx', Run (Guard Step (RequestIn (flatDisk 4) oneSector 2)) oneDrive
      [(.diskRead 2 [0, 0, 0, 0] 0 1, .read .resOk [4, 5, 6, 7])] ctx' := by
    refine ⟨_, .cons ⟨⟨rfl, fun _ => ?_⟩, rfl⟩ (.nil _)⟩
    rintro s ⟨⟩
    exact Or.inr ⟨by decide, by decide⟩
  obtain ⟨ctx', hrun⟩ := hrun
  obtain ⟨dev', hdev', hc⟩ := stays_inside (flatDisk_local (by decide)) rfl hrun
  exact ⟨ctx', dev', hrun, hdev', hc⟩

/-- **Requests past the last sector are served**: one returns bytes of the sector behind the
partition, another overwrites it. -/
theorem past_the_end :
    (∃ ctx', Run Step oneDrive [(.diskRead 2 [0, 0, 0, 0] 1 1, .read .resOk [8, 9, 10, 11])] ctx' ∧
      ¬ ∃ dev', Run (Contained (flatDisk 4) id oneSector)
        (.opened (flatDisk 4) UInt8.ofNat oneSector)
        (oneDrive.ofSlot 2 [(.diskRead 2 [0, 0, 0, 0] 1 1, .read .resOk [8, 9, 10, 11])]) dev') ∧
    ∃ ctx' dev', Run Step oneDrive [(.diskWrite 2 [1, 1, 1, 1] 1 1, .write .resOk),
        (.diskIoctl (fun _ => true) 2 ctrlSync .null, .ioctl .resOk .null)] ctx' ∧
      ctx'.drives 2 = some dev' ∧ oneSector.Outside 4 8 ∧ dev'.device.device.1 8 = 1 := by
  refine ⟨⟨_, .single rfl, ?_⟩, _, _, .cons rfl (.single rfl), rfl, Or.inr (by decide), rfl⟩
  rintro ⟨dev', h⟩
  cases h with
  | cons hc _ =>
    have hexc : Call.Exceeds oneSector
        (.diskRead 2 [0, 0, 0, 0] 1 1 : Call ((ℕ → UInt8) × List Transfer)) :=
      ⟨(1, 1), rfl, by decide, by decide⟩
    cases (hc.past hexc).1

end FatfsSysContext

end FatDrive
