import FatDrive.BufScsiFaultFree
import FatDrive.FatfsRawRequests

/-!
# FatDrive.FatfsRawSectors — drives as independent sector stores

A sector store keeps the bytes of each sector: a write replaces sectors, a read returns them.  Over
devices that have no faults, the requests a slot gets in any interleaving are a run of such a store
from the sectors its device shows at first (`SectorStep`), they are answered as if the other slots'
requests had not been made, and after a sync the medium holds the sectors (`drives_independent`).

* `read_sectors`, `write_sectors`, `sync_sectors`: one request at its handle;
* `onHandle_fits`: a request inside its device succeeds and is a step of the store;
* `step_ready`: a step of the table is one at its slot.
-/

namespace FatDrive

open Lib

variable {σ : Type}

namespace DeviceHandle

variable {M : ℕ} {medium : σ → ℕ → UInt8} {dev dev' : DeviceHandle σ}

/-- A fault-free device of `M` bytes, with a healthy cache. -/
structure Ready (M : ℕ) (medium : σ → ℕ → UInt8) (dev : DeviceHandle σ) : Prop where
  faultFree : FaultFreeMedium dev.scsi M medium
  healthy : OffsetScsiDevice.Healthy dev.scsi M medium dev.device

/-- The sectors of the partition as the device shows them, the buffered block included. -/
def shown (medium : σ → ℕ → UInt8) (dev : DeviceHandle σ) : ℕ → List UInt8 :=
  chunk (dev.device.view dev.scsi medium) dev.device.partitionStart dev.sectorSize

/-- The sectors of the partition as the medium holds them. -/
def held (medium : σ → ℕ → UInt8) (dev : DeviceHandle σ) : ℕ → List UInt8 :=
  chunk (medium dev.device.device) dev.device.partitionStart dev.sectorSize

/-- The same device and partition, in another state. -/
structure SameDevice (dev dev' : DeviceHandle σ) : Prop where
  scsi_eq : dev'.scsi = dev.scsi
  start_eq : dev'.device.partitionStart = dev.device.partitionStart

theorem SameDevice.refl (dev : DeviceHandle σ) : SameDevice dev dev := ⟨rfl, rfl⟩

theorem SameDevice.trans {dev₁ : DeviceHandle σ} (h₁ : SameDevice dev dev₁)
    (h₂ : SameDevice dev₁ dev') : SameDevice dev dev' :=
  ⟨h₂.scsi_eq.trans h₁.scsi_eq, h₂.start_eq.trans h₁.start_eq⟩

/-- The sectors asked for are inside the device, and the caller's buffer is large enough. -/
structure RequestFits (M : ℕ) (dev : DeviceHandle σ) (bufPtr : List UInt8)
    (sector count : UInt32) : Prop where
  inside : dev.device.partitionStart + (sector.toNat + count.toNat) * dev.sectorSize ≤ M
  room : count.toNat * dev.sectorSize ≤ bufPtr.length

end DeviceHandle

namespace FatfsSysContext

/-- A request that fits the device it goes to. -/
def Call.Fits (M : ℕ) (dev : DeviceHandle σ) : Call σ → Prop
  | .diskRead _ bufPtr sector count => dev.RequestFits M bufPtr sector count
  | .diskWrite _ bufPtr sector count => dev.RequestFits M bufPtr sector count
  | .diskIoctl _ _ cmd _ => cmd = ctrlSync
  | _ => False

theorem Call.Fits.isRequest {M : ℕ} {dev : DeviceHandle σ} {c : Call σ} (h : c.Fits M dev) :
    c.isRequest = true := by
  cases c with
  | diskStatus isConnected p => exact h.elim
  | diskInitialize isConnected p => exact h.elim
  | diskRead p bufPtr sector count => rfl
  | diskWrite p bufPtr sector count => rfl
  | diskIoctl isConnected p cmd buf => exact decide_eq_true h

def Call.isSync : Call σ → Bool
  | .diskIoctl _ _ cmd _ => cmd = ctrlSync
  | _ => false

/-- A store of sectors of `size` bytes: what a successful request does to it and returns. -/
inductive SectorStep (size : ℕ) :
    (ℕ → List UInt8) → Call σ × Answer σ → (ℕ → List UInt8) → Prop
  | read {pdrv : UInt8} {bufPtr : List UInt8} {sector count : UInt32} {s : ℕ → List UInt8} :
    SectorStep size s (.diskRead pdrv bufPtr sector count,
      .read .resOk (((List.range count.toNat).flatMap fun k => s (sector.toNat + k)) ++
        bufPtr.drop (count.toNat * size))) s
  | write {pdrv : UInt8} {bufPtr : List UInt8} {sector count : UInt32} {s : ℕ → List UInt8} :
    SectorStep size s (.diskWrite pdrv bufPtr sector count, .write .resOk) fun n =>
      if sector.toNat ≤ n ∧ n < sector.toNat + count.toNat then
        (bufPtr.drop ((n - sector.toNat) * size)).take size
      else s n
  | sync {isConnected : σ → Bool} {pdrv : UInt8} {buf : IoctlBuffer σ} {s : ℕ → List UInt8} :
    SectorStep size s (.diskIoctl isConnected pdrv ctrlSync buf, .ioctl .resOk buf) s

/-! ### One request at its handle -/

section Handle

open DeviceHandle

variable {M : ℕ} {medium : σ → ℕ → UInt8} {dev : DeviceHandle σ} {bufPtr : List UInt8}
  {sector count : UInt32}

/-- Byte offset and byte count of a request that fits do not overflow. -/
theorem offsets_eq (hdev : dev.Ready M medium) (h : dev.RequestFits M bufPtr sector count) :
    byteOffset dev sector = sector.toNat * dev.sectorSize ∧
      byteCount dev count = count.toNat * dev.sectorSize := by
  have hM := hdev.faultFree.size_le
  have hin := h.inside
  rw [Nat.add_mul] at hin
  unfold byteOffset byteCount
  rw [Nat.mul_comm sector.toNat, Nat.mul_comm count.toNat] at hin ⊢
  exact ⟨usizeMul_of_lt (by omega), usizeMul_of_lt (by omega)⟩

theorem read_sectors (hdev : dev.Ready M medium) (h : dev.RequestFits M bufPtr sector count) :
    ∃ dev', readHandle dev bufPtr sector count =
        some ((.resOk, ((List.range count.toNat).flatMap fun k =>
          dev.shown medium (sector.toNat + k)) ++ bufPtr.drop (count.toNat * dev.sectorSize)), dev') ∧
      dev'.Ready M medium ∧ SameDevice dev dev' ∧ dev'.shown medium = dev.shown medium := by
  obtain ⟨hoff, hcount⟩ := offsets_eq hdev h
  have hin := h.inside
  rw [Nat.add_mul] at hin
  have hlen : (bufPtr.take (count.toNat * dev.sectorSize)).length = count.toNat * dev.sectorSize :=
    List.length_take_of_le h.room
  let moved := { dev.device with partitionIdx := sector.toNat * dev.sectorSize }
  have hroom : moved.pos + (bufPtr.take (count.toNat * dev.sectorSize)).length ≤ M := by
    simp only [hlen, OffsetScsiDevice.pos, moved]
    omega
  obtain ⟨d', hread, hh, hview, hstart⟩ := OffsetScsiDevice.read_faultFree hdev.faultFree
    (hdev.healthy.moved (sector.toNat * dev.sectorSize)) hroom
  refine ⟨dev.withDevice d', ?_, ⟨hdev.faultFree, hh⟩, ⟨rfl, hstart⟩, ?_⟩
  · unfold readHandle
    rw [hoff, hcount]
    simp only [OffsetScsiDevice.seek, hread, hlen]
    have hslice := slice_chunks (dev.device.view dev.scsi medium) dev.device.partitionStart
      dev.sectorSize sector.toNat count.toNat
    exact congrArg (fun bytes => some ((DResult.resOk, bytes ++
      bufPtr.drop (count.toNat * dev.sectorSize)), dev.withDevice d')) hslice
  · unfold DeviceHandle.shown DeviceHandle.withDevice
    dsimp only
    rw [hview, hstart]
    rfl

theorem write_sectors (hdev : dev.Ready M medium) (h : dev.RequestFits M bufPtr sector count) :
    ∃ dev', writeHandle dev bufPtr sector count = some (.resOk, dev') ∧
      dev'.Ready M medium ∧ SameDevice dev dev' ∧
      dev'.shown medium = fun n =>
        if sector.toNat ≤ n ∧ n < sector.toNat + count.toNat then
          (bufPtr.drop ((n - sector.toNat) * dev.sectorSize)).take dev.sectorSize
        else dev.shown medium n := by
  obtain ⟨hoff, hcount⟩ := offsets_eq hdev h
  have hin := h.inside
  rw [Nat.add_mul] at hin
  have hlen : (bufPtr.take (count.toNat * dev.sectorSize)).length = count.toNat * dev.sectorSize :=
    List.length_take_of_le h.room
  let moved := { dev.device with partitionIdx := sector.toNat * dev.sectorSize }
  have hroom : moved.pos + (bufPtr.take (count.toNat * dev.sectorSize)).length ≤ M := by
    simp only [hlen, OffsetScsiDevice.pos, moved]
    omega
  obtain ⟨d', hwrite, hh, hview, hstart⟩ := OffsetScsiDevice.write_faultFree hdev.faultFree
    (hdev.healthy.moved (sector.toNat * dev.sectorSize)) hroom
  refine ⟨dev.withDevice d', ?_, ⟨hdev.faultFree, hh⟩, ⟨rfl, hstart⟩, ?_⟩
  · unfold writeHandle
    rw [hoff, hcount]
    simp only [OffsetScsiDevice.seek, hwrite]
  · funext n
    have hpatch := chunk_patch (dev.device.view dev.scsi medium) dev.device.partitionStart
      dev.sectorSize sector.toNat n hlen
    unfold DeviceHandle.shown DeviceHandle.withDevice
    dsimp only
    rw [hview, hstart]
    refine hpatch.trans ?_
    split
    · next hn =>
      -- the sector is inside the bytes taken from the buffer
      have hk := Nat.mul_le_mul_right dev.sectorSize
        (show n - sector.toNat + 1 ≤ count.toNat by omega)
      rw [Nat.succ_mul] at hk
      rw [List.drop_take, List.take_take, Nat.min_eq_left (by omega)]
    · rfl

theorem sync_sectors (hdev : dev.Ready M medium) :
    ∃ dev', syncHandle dev = some (.resOk, dev') ∧ dev'.Ready M medium ∧ SameDevice dev dev' ∧
      dev'.shown medium = dev.shown medium ∧ dev'.held medium = dev'.shown medium := by
  obtain ⟨d', hflush, hh, hview, hmed, hstart⟩ :=
    OffsetScsiDevice.flush_faultFree hdev.faultFree hdev.healthy
  refine ⟨dev.withDevice d', ?_, ⟨hdev.faultFree, hh⟩, ⟨rfl, hstart⟩, ?_, ?_⟩
  · unfold syncHandle DeviceHandle.sync
    rw [hflush]
  · unfold DeviceHandle.shown DeviceHandle.withDevice
    dsimp only
    rw [hview, hstart]
    rfl
  · unfold DeviceHandle.held DeviceHandle.shown DeviceHandle.withDevice
    dsimp only
    rw [hmed, hview]

/-- **A request that fits** is answered by one step of the store of its drive. -/
theorem onHandle_fits {c : Call σ} (hdev : dev.Ready M medium) (h : c.Fits M dev) :
    ∃ a dev', c.onHandle dev = some (a, dev') ∧ dev'.Ready M medium ∧ SameDevice dev dev' ∧
      SectorStep dev.sectorSize (dev.shown medium) (c, a) (dev'.shown medium) ∧
      (c.isSync = true → dev'.held medium = dev'.shown medium) := by
  cases c with
  | diskStatus isConnected p => exact h.elim
  | diskInitialize isConnected p => exact h.elim
  | diskRead p bufPtr sector count =>
    obtain ⟨dev', hr, hready, hsame, hshown⟩ := read_sectors hdev h
    refine ⟨_, dev', by rw [Call.onHandle, hr, Option.map_some], hready, hsame, ?_, fun h => by cases h⟩
    rw [hshown]
    exact .read
  | diskWrite p bufPtr sector count =>
    obtain ⟨dev', hw, hready, hsame, hshown⟩ := write_sectors hdev h
    refine ⟨_, dev', by rw [Call.onHandle, hw, Option.map_some], hready, hsame, ?_, fun h => by cases h⟩
    rw [hshown]
    exact .write
  | diskIoctl isConnected p cmd buf =>
    obtain rfl : cmd = ctrlSync := h
    obtain ⟨dev', hs, hready, hsame, hshown, hheld⟩ := sync_sectors hdev
    refine ⟨_, dev', by rw [Call.onHandle, hs, Option.map_some], hready, hsame, ?_, fun _ => hheld⟩
    rw [hshown]
    exact .sync

end Handle

/-! ### The table -/

section Table

open DeviceHandle

variable {M : Fin 15 → ℕ} {medium : Fin 15 → σ → ℕ → UInt8} {ctx ctx' : FatfsSysContext σ}

/-- Every device of the table is fault free, with a healthy cache. -/
def AllReady (M : Fin 15 → ℕ) (medium : Fin 15 → σ → ℕ → UInt8) (ctx : FatfsSysContext σ) : Prop :=
  ∀ i dev, ctx.drives i = some dev → dev.Ready (M i) (medium i)

/-- A request to a connected drive, inside its device. -/
def Allowed (M : Fin 15 → ℕ) (ctx : FatfsSysContext σ) (c : Call σ) : Prop :=
  ∃ i dev, ctx.reached c = some i ∧ ctx.drives i = some dev ∧ c.Fits (M i) dev

/-- A step of an allowed request. -/
def AllowedStep (M : Fin 15 → ℕ) : FatfsSysContext σ → Call σ × Answer σ → FatfsSysContext σ → Prop :=
  Guard Step fun ctx l => ctx.Allowed M l.1

theorem AllReady.setSlot (h : ctx.AllReady M medium) {i : Fin 15} {dev : DeviceHandle σ}
    (hdev : dev.Ready (M i) (medium i)) : (ctx.setSlot i (some dev)).AllReady M medium := by
  intro j dev' hj
  by_cases hij : j = i
  · subst hij
    rw [drives_setSlot_self] at hj
    cases hj
    exact hdev
  · rw [drives_setSlot_of_ne hij] at hj
    exact h j dev' hj

/-- An allowed request is answered, at its slot. -/
theorem exec_allowed (h0 : ctx.AllReady M medium) {c : Call σ} (hc : ctx.Allowed M c) :
    ∃ a ctx', ctx.exec c = some (a, ctx') := by
  obtain ⟨i, dev, hi, hdev, hfits⟩ := hc
  obtain ⟨a, dev', ha, -⟩ := onHandle_fits (h0 i dev hdev) hfits
  exact ⟨a, _, by rw [exec_request hfits.isRequest hi hdev, ha, Option.map_some]⟩

/-- What an allowed step does: one step of the store in its slot. -/
theorem step_allowed (h0 : ctx.AllReady M medium) {c : Call σ} {a : Answer σ}
    (hc : ctx.Allowed M c) (h : Step ctx (c, a) ctx') :
    ∃ i dev dev', ctx.reached c = some i ∧ ctx.drives i = some dev ∧ c.Fits (M i) dev ∧
      c.onHandle dev = some (a, dev') ∧ ctx' = ctx.setSlot i (some dev') ∧
      ctx'.AllReady M medium ∧ SameDevice dev dev' ∧
      SectorStep dev.sectorSize (dev.shown (medium i)) (c, a) (dev'.shown (medium i)) ∧
      (c.isSync = true → dev'.held (medium i) = dev'.shown (medium i)) := by
  obtain ⟨i, dev, hi, hdev, hfits⟩ := hc
  obtain ⟨a', dev', ha, hready, hsame, hstep, hsync⟩ := onHandle_fits (h0 i dev hdev) hfits
  obtain ⟨dev₁, ha₁, rfl⟩ := (step_request hfits.isRequest hi hdev).mp h
  obtain ⟨rfl, rfl⟩ := Prod.mk.inj (Option.some.inj (ha.symm.trans ha₁))
  exact ⟨i, dev, dev', hi, hdev, hfits, ha, rfl, h0.setSlot hready, hsame, hstep, hsync⟩

theorem defaultDisk_allowed {c : Call σ} {a : Answer σ} (hc : ctx.Allowed M c)
    (h : Step ctx (c, a) ctx') : ctx'.defaultDisk = ctx.defaultDisk := by
  obtain ⟨i, dev, -, -, hfits⟩ := hc
  exact defaultDisk_request hfits.isRequest h

/-- The table `s`, reached from `ctx`, holds in slot `i` the device `dev`, now showing `t`. -/
structure Shows (M : Fin 15 → ℕ) (medium : Fin 15 → σ → ℕ → UInt8) (ctx : FatfsSysContext σ)
    (i : Fin 15) (dev : DeviceHandle σ) (s : FatfsSysContext σ) (t : ℕ → List UInt8) : Prop where
  ready : s.AllReady M medium
  default_eq : s.defaultDisk = ctx.defaultDisk
  device : ∃ dev', s.drives i = some dev' ∧ SameDevice dev dev' ∧ dev'.shown (medium i) = t

/-- The tables `s` and `t`, reached from `ctx`, hold the same device in slot `i`. -/
structure Agrees (M : Fin 15 → ℕ) (medium : Fin 15 → σ → ℕ → UInt8) (ctx : FatfsSysContext σ)
    (i : Fin 15) (s t : FatfsSysContext σ) : Prop where
  ready : s.AllReady M medium
  ready_alone : t.AllReady M medium
  default_eq : s.defaultDisk = ctx.defaultDisk
  default_alone : t.defaultDisk = ctx.defaultDisk
  device : t.drives i = s.drives i

section Projection

variable {i : Fin 15} {dev : DeviceHandle σ} {s s' t : FatfsSysContext σ} {l : Call σ × Answer σ}
  {sectors : ℕ → List UInt8}

/-- A step at another slot leaves slot `i` alone. -/
theorem drives_of_ne (h0 : s.AllReady M medium) (hd : s.defaultDisk = ctx.defaultDisk)
    (hs : AllowedStep M s l s') (hi : ctx.reached l.1 ≠ some i) :
    s'.AllReady M medium ∧ s'.defaultDisk = ctx.defaultDisk ∧ s'.drives i = s.drives i := by
  obtain ⟨hc, hstep⟩ := hs
  obtain ⟨j, -, dev', hj, -, -, -, rfl, hready, -⟩ := step_allowed h0 hc hstep
  refine ⟨hready, hd, drives_setSlot_of_ne ?_ _⟩
  rintro rfl
  rw [reached_congr hd] at hj
  exact hi hj

/-- A step at slot `i` is one step of the store there. -/
theorem Shows.step (h : Shows M medium ctx i dev s sectors)
    (hs : AllowedStep M s l s') (hi : ctx.reached l.1 = some i) :
    ∃ sectors', SectorStep dev.sectorSize sectors l sectors' ∧
      Shows M medium ctx i dev s' sectors' := by
  obtain ⟨hc, hstep⟩ := hs
  obtain ⟨dev₀, hdev₀, hsame₀, rfl⟩ := h.device
  obtain ⟨j, dev₁, dev', hj, hdev₁, -, -, hs', hready, hsame, hsec, -⟩ := step_allowed h.ready hc hstep
  have hij : j = i := by
    rw [reached_congr h.default_eq, hi] at hj
    exact (Option.some.inj hj).symm
  subst hij
  obtain rfl : dev₀ = dev₁ := Option.some.inj (hdev₀.symm.trans hdev₁)
  have hsize : dev₀.sectorSize = dev.sectorSize := by
    unfold DeviceHandle.sectorSize
    rw [hsame₀.scsi_eq]
  refine ⟨dev'.shown (medium j), by rwa [hsize] at hsec, hready, ?_, dev', ?_, hsame₀.trans hsame, rfl⟩
  · exact (defaultDisk_allowed hc hstep).trans h.default_eq
  · rw [hs', drives_setSlot_self]

theorem Shows.other (h : Shows M medium ctx i dev s sectors)
    (hs : AllowedStep M s l s') (hi : ctx.reached l.1 ≠ some i) :
    Shows M medium ctx i dev s' sectors := by
  obtain ⟨hready, hd, hdrive⟩ := drives_of_ne h.ready h.default_eq hs hi
  obtain ⟨dev', hdev', hrest⟩ := h.device
  exact ⟨hready, hd, dev', hdrive.trans hdev', hrest⟩

/-- A step at slot `i` can be made in any table with the same device there. -/
theorem Agrees.step (h : Agrees M medium ctx i s t)
    (hs : AllowedStep M s l s') (hi : ctx.reached l.1 = some i) :
    ∃ t', AllowedStep M t l t' ∧ Agrees M medium ctx i s' t' := by
  obtain ⟨hc, hstep⟩ := hs
  obtain ⟨j, dev, dev', hj, hdev, hfits, ha, rfl, hready, -⟩ := step_allowed h.ready hc hstep
  have hij : j = i := by
    rw [reached_congr h.default_eq, hi] at hj
    exact (Option.some.inj hj).symm
  subst hij
  have hit : t.reached l.1 = some j := (reached_congr h.default_alone l.1).trans hi
  have hdevt : t.drives j = some dev := h.device.trans hdev
  have hready' : dev'.Ready (M j) (medium j) := hready j dev' (drives_setSlot_self ..)
  refine ⟨t.setSlot j (some dev'), ⟨⟨j, dev, hit, hdevt, hfits⟩, ?_⟩, hready,
    h.ready_alone.setSlot hready', h.default_eq, h.default_alone, ?_⟩
  · exact (step_request hfits.isRequest hit hdevt).mpr ⟨dev', ha, rfl⟩
  · rw [drives_setSlot_self, drives_setSlot_self]

theorem Agrees.other (h : Agrees M medium ctx i s t)
    (hs : AllowedStep M s l s') (hi : ctx.reached l.1 ≠ some i) :
    Agrees M medium ctx i s' t := by
  obtain ⟨hready, hd, hdrive⟩ := drives_of_ne h.ready h.default_eq hs hi
  exact ⟨hready, h.ready_alone, hd, h.default_alone, h.device.trans hdrive.symm⟩

end Projection

theorem run_allowed {ls : List (Call σ × Answer σ)} (h0 : ctx.AllReady M medium)
    (h : Run (AllowedStep M) ctx ls ctx') :
    ctx'.AllReady M medium ∧ ctx'.defaultDisk = ctx.defaultDisk := by
  refine h.invariant (I := fun s => s.AllReady M medium ∧ s.defaultDisk = ctx.defaultDisk)
    (fun s l s' hs hl => ?_) ⟨h0, rfl⟩
  obtain ⟨-, -, -, -, -, -, -, -, hready, -⟩ := step_allowed hs.1 hl.1 hl.2
  exact ⟨hready, (defaultDisk_allowed hl.1 hl.2).trans hs.2⟩

/-- What slot `i` gets is a run of its store. -/
theorem run_sectors {ls : List (Call σ × Answer σ)} {i : Fin 15} {dev : DeviceHandle σ}
    (h0 : ctx.AllReady M medium) (h : Run (AllowedStep M) ctx ls ctx')
    (hdev : ctx.drives i = some dev) :
    ∃ sectors, Run (SectorStep dev.sectorSize) (dev.shown (medium i)) (ctx.ofSlot i ls) sectors ∧
      Shows M medium ctx i dev ctx' sectors := by
  have hmine : ∀ s l s' t, Shows M medium ctx i dev s t → AllowedStep M s l s' →
      decide (ctx.reached l.1 = some i) = true →
      ∃ t', SectorStep dev.sectorSize t l t' ∧ Shows M medium ctx i dev s' t' :=
    fun _ _ _ _ hR hs hm => hR.step hs (of_decide_eq_true hm)
  have hother : ∀ s l s' t, Shows M medium ctx i dev s t → AllowedStep M s l s' →
      decide (ctx.reached l.1 = some i) = false → Shows M medium ctx i dev s' t :=
    fun _ _ _ _ hR hs hm => hR.other hs (of_decide_eq_false hm)
  exact Run.filtered hmine hother h _ ⟨h0, rfl, dev, hdev, .refl dev, rfl⟩

/-- The requests of slot `i` alone are answered the same. -/
theorem run_alone {ls : List (Call σ × Answer σ)} (h0 : ctx.AllReady M medium)
    (h : Run (AllowedStep M) ctx ls ctx') (i : Fin 15) :
    ∃ alone, Run (AllowedStep M) ctx (ctx.ofSlot i ls) alone ∧ Agrees M medium ctx i ctx' alone := by
  have hmine : ∀ s l s' t, Agrees M medium ctx i s t → AllowedStep M s l s' →
      decide (ctx.reached l.1 = some i) = true →
      ∃ t', AllowedStep M t l t' ∧ Agrees M medium ctx i s' t' :=
    fun _ _ _ _ hR hs hm => hR.step hs (of_decide_eq_true hm)
  have hother : ∀ s l s' t, Agrees M medium ctx i s t → AllowedStep M s l s' →
      decide (ctx.reached l.1 = some i) = false → Agrees M medium ctx i s' t :=
    fun _ _ _ _ hR hs hm => hR.other hs (of_decide_eq_false hm)
  exact Run.filtered hmine hother h ctx ⟨h0, h0, rfl, rfl, rfl⟩

/-- After a sync the medium of the slot it reaches holds the sectors. -/
theorem run_sync {ls : List (Call σ × Answer σ)} {c : Call σ} {a : Answer σ} {i : Fin 15}
    (h0 : ctx.AllReady M medium)
    (h : Run (AllowedStep M) ctx (ls ++ [(c, a)]) ctx')
    (hi : ctx.reached c = some i) (hsync : c.isSync = true) :
    ∃ dev, ctx'.drives i = some dev ∧ dev.held (medium i) = dev.shown (medium i) := by
  obtain ⟨s, hrun, hc, hstep⟩ := h.last
  obtain ⟨hready, hd⟩ := run_allowed h0 hrun
  obtain ⟨j, dev, dev', hj, -, -, -, rfl, -, -, -, hheld⟩ := step_allowed hready hc hstep
  rw [reached_congr hd, hi] at hj
  obtain rfl := Option.some.inj hj
  exact ⟨dev', drives_setSlot_self .., hheld hsync⟩

/-- The trace ends with a sync. -/
def EndsInSync (ls : List (Call σ × Answer σ)) : Prop :=
  ∃ ls₀ c a, ls = ls₀ ++ [(c, a)] ∧ c.isSync = true

/-- **Drives are independent sector stores**, along every interleaving of requests inside the
devices.  What slot `i` gets is a run of its sector store; the same requests alone are answered the
same and leave the same device; after a sync the medium holds the sectors; and the next request is
answered. -/
theorem drives_independent {ls : List (Call σ × Answer σ)} (h0 : ctx.AllReady M medium)
    (h : Run (AllowedStep M) ctx ls ctx') :
    (∀ i dev, ctx.drives i = some dev → ∃ dev', ctx'.drives i = some dev' ∧
      Run (SectorStep dev.sectorSize) (dev.shown (medium i)) (ctx.ofSlot i ls)
        (dev'.shown (medium i)) ∧
      (∃ alone, Run (AllowedStep M) ctx (ctx.ofSlot i ls) alone ∧
        alone.drives i = some dev') ∧
      (EndsInSync (ctx.ofSlot i ls) → dev'.held (medium i) = dev'.shown (medium i))) ∧
    ∀ c, ctx'.Allowed M c → ∃ a ctx'', ctx'.exec c = some (a, ctx'') := by
  refine ⟨fun i dev hdev => ?_, fun c hc => exec_allowed (run_allowed h0 h).1 hc⟩
  obtain ⟨sectors, hrun, hshows⟩ := run_sectors h0 h hdev
  obtain ⟨alone, hrun', hagrees⟩ := run_alone h0 h i
  obtain ⟨dev', hdev', -, rfl⟩ := hshows.device
  have halone : alone.drives i = some dev' := hagrees.device.trans hdev'
  refine ⟨dev', hdev', hrun, ⟨alone, hrun', halone⟩, ?_⟩
  rintro ⟨ls₀, c, a, hls, hsync⟩
  have hmem : (c, a) ∈ ctx.ofSlot i ls := by
    rw [hls]
    exact List.mem_append_right _ (List.mem_singleton_self _)
  have hi : ctx.reached c = some i := of_decide_eq_true (List.mem_filter.mp hmem).2
  -- the last step of the run alone is the sync
  rw [hls] at hrun'
  obtain ⟨dev₁, hdev₁, hheld⟩ := run_sync h0 hrun' hi hsync
  obtain rfl : dev' = dev₁ := Option.some.inj (halone.symm.trans hdev₁)
  exact hheld

end Table

/-- The partition from byte 4 * `lba` on of a blank disk with blocks of 4 bytes. -/
def blankHandle (lba : UInt32) : DeviceHandle (ℕ → UInt8) where
  scsi := flatDisk 4
  device := .new (flatDisk 4) (fun _ => 0) (4 * lba.toNat)
  partitionInfo := ⟨⟨lba⟩, .fat32 0x0C, 4⟩

/-- Blank disks in slots 0 and 2. -/
def twoDrives : FatfsSysContext (ℕ → UInt8) where
  drives := fun i =>
    if i.val = 0 then some (blankHandle 1) else if i.val = 2 then some (blankHandle 2) else none
  defaultDisk := 0

theorem ready_twoDrives : twoDrives.AllReady (fun _ => 32) fun _ => id := by
  have hblank : ∀ lba, (blankHandle lba).Ready 32 id := fun lba =>
    ⟨flatDisk_faultFree (by decide) (by decide) (by decide), OffsetScsiDevice.healthy_new _ _⟩
  intro i dev h
  unfold twoDrives at h
  dsimp only at h
  split at h
  · cases h
    exact hblank 1
  · split at h
    · cases h
      exact hblank 2
    · cases h

theorem drives_independent_two :
    ∃ ctx' dev', Run (AllowedStep fun _ => 32) twoDrives
        [(.diskWrite 2 [1, 2, 3, 4, 5, 6, 7, 8] 0 2, .write .resOk),
          (.diskRead 0 [9, 9, 9, 9] 1 1, .read .resOk [0, 0, 0, 0]),
          (.diskIoctl (fun _ => true) 2 ctrlSync .null, .ioctl .resOk .null)] ctx' ∧
      ctx'.drives 2 = some dev' ∧ dev'.held id = dev'.shown id := by
  have hrun : ∃ ctx', Run (AllowedStep fun _ => 32) twoDrives
      [(.diskWrite 2 [1, 2, 3, 4, 5, 6, 7, 8] 0 2, .write .resOk),
        (.diskRead 0 [9, 9, 9, 9] 1 1, .read .resOk [0, 0, 0, 0]),
        (.diskIoctl (fun _ => true) 2 ctrlSync .null, .ioctl .resOk .null)] ctx' := by
    refine ⟨_, .cons ⟨⟨2, _, rfl, rfl, ?_⟩, rfl⟩ <| .cons ⟨⟨0, _, rfl, rfl, ?_⟩, rfl⟩ <|
      .cons ⟨⟨2, _, rfl, rfl, rfl⟩, rfl⟩ (.nil _)⟩
    · exact ⟨by decide, by decide⟩
    · exact ⟨by decide, by decide⟩
  obtain ⟨ctx', hrun⟩ := hrun
  obtain ⟨dev', hdev', -, -, hsync⟩ := (drives_independent ready_twoDrives hrun).1 2 (blankHandle 2) rfl
  have hends : EndsInSync (twoDrives.ofSlot 2
      [(.diskWrite 2 [1, 2, 3, 4, 5, 6, 7, 8] 0 2, .write .resOk),
        (.diskRead 0 [9, 9, 9, 9] 1 1, .read .resOk [0, 0, 0, 0]),
        (.diskIoctl (fun _ => true) 2 ctrlSync .null, .ioctl .resOk .null)]) :=
    ⟨[(.diskWrite 2 [1, 2, 3, 4, 5, 6, 7, 8] 0 2, .write .resOk)],
      .diskIoctl (fun _ => true) 2 ctrlSync .null, .ioctl .resOk .null, rfl, rfl⟩
  exact ⟨ctx', dev', hrun, hdev', hsync hends⟩

end FatfsSysContext

end FatDrive
