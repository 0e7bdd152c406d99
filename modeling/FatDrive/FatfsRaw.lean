import FatDrive.BufScsi
import FatDrive.Partition

/-!
# FatDrive.FatfsRaw — `FatfsSysContext`, the drive table behind FatFs

The C library FatFs reads and writes disks through the five `disk_*` functions of a registered
handler.  Here the handler is a table of fifteen slots, each empty or holding a partition's device,
and the number of a default drive, which physical drive 0 stands for.

A `Call` is one of the five functions with its arguments; `exec` answers it, or gives `none` where
the program panics: at a slot number out of range, or in the device.  `fromDevice` registers a
device through `disk_ioctl`.
-/

namespace FatDrive

open Lib

/-- `mbr_nostd::PartitionType`, as far as it is told apart here. -/
inductive PartitionType where
  | fat12 (tag : UInt8)
  | fat16 (tag : UInt8)
  | fat32 (tag : UInt8)
  | ntfsExfat (tag : UInt8)
  | unlisted
  deriving DecidableEq, Repr

/-- A whole `PartitionTableEntry`. -/
structure PartitionInfo extends PartitionTableEntry where
  partitionType : PartitionType
  sectorCount : UInt32
  deriving DecidableEq, Repr

/-! `DSTATUS`; 0 is a drive that can be used. -/

def staNoinit : UInt8 := 1
def staNodisk : UInt8 := 2

/-- `DRESULT`, as far as it is returned here. -/
inductive DResult where
  | resOk | resError | resNotrdy | resParerr
  deriving DecidableEq, Repr

/-! The commands of `disk_ioctl`: FatFs's own, and two of this program. -/

def ctrlSync : UInt8 := 0
def getSectorCount : UInt8 := 1
def getSectorSize : UInt8 := 2
def getBlockSize : UInt8 := 3
def ctrlTrim : UInt8 := 4
def ioctlSetDefaultDisk : UInt8 := 0xD0
def ioctlAddFilesystem : UInt8 := 0xAD

variable {σ : Type}

/-- `scsi` are the methods of the handle's own SCSI device. -/
structure DeviceHandle (σ : Type) where
  scsi : ScsiCrate σ
  device : OffsetScsiDevice σ
  partitionInfo : PartitionInfo

namespace DeviceHandle

def sync (dev : DeviceHandle σ) : Outcome IoError (OffsetScsiDevice σ) Unit :=
  dev.device.flush dev.scsi

def sectorSize (dev : DeviceHandle σ) : ℕ := dev.scsi.blockSize

def sectorCount (dev : DeviceHandle σ) : ℕ := dev.partitionInfo.sectorCount.toNat

def withDevice (dev : DeviceHandle σ) (d : OffsetScsiDevice σ) : DeviceHandle σ :=
  { dev with device := d }

end DeviceHandle

inductive AddFsBuffer (σ : Type) where
  | input (handle : DeviceHandle σ)
  | output (idx : UInt8)

/-- What the pointer handed to `disk_ioctl` points to. -/
inductive IoctlBuffer (σ : Type) where
  | null
  | dword (value : UInt32)
  | addFs (buffer : AddFsBuffer σ)

structure FatfsSysContext (σ : Type) where
  drives : Fin 15 → Option (DeviceHandle σ)
  defaultDisk : UInt8

namespace FatfsSysContext

/-- `initialize`. -/
def new : FatfsSysContext σ := ⟨fun _ => none, 0⟩

def getIdx (ctx : FatfsSysContext σ) (pdrv : UInt8) : ℕ :=
  if pdrv > 0 then min 15 pdrv.toNat else ctx.defaultDisk.toNat

/-- `drives[idx]`: there are fifteen slots. -/
def slot? (idx : ℕ) : Option (Fin 15) := if h : idx < 15 then some ⟨idx, h⟩ else none

/-- `drives[idx] = dev`. -/
def setSlot (ctx : FatfsSysContext σ) (i : Fin 15) (dev : Option (DeviceHandle σ)) :
    FatfsSysContext σ :=
  { ctx with drives := Function.update ctx.drives i dev }

/-- `get_filesystem`: the slot of a drive number, with what it holds. -/
def getFilesystem (ctx : FatfsSysContext σ) (pdrv : UInt8) :
    Option (Fin 15 × Option (DeviceHandle σ)) :=
  (slot? (ctx.getIdx pdrv)).map fun i => (i, ctx.drives i)

def resetFilesystem (ctx : FatfsSysContext σ) (pdrv : UInt8) : Option (FatfsSysContext σ) :=
  (slot? (ctx.getIdx pdrv)).map fun i => ctx.setSlot i none

/-- The slot is empty, or the device in it is gone. -/
def isEmpty (isConnected : σ → Bool) : Option (DeviceHandle σ) → Bool
  | none => true
  | some dev => !isConnected dev.device.device

/-- The loop of `add_fs`, for at most that many rounds.  It stops or is out of range within 15. -/
def addFsLoop (isConnected : σ → Bool) (newFs : DeviceHandle σ) (ctx : FatfsSysContext σ) :
    ℕ → ℕ → Option (UInt8 × FatfsSysContext σ)
  | 0, _ => some (0xFF, ctx)
  | rounds + 1, idx =>
    if (idx + 1) % 15 ≠ ctx.defaultDisk.toNat then
      match slot? idx with
      | none => none
      | some i =>
        if isEmpty isConnected (ctx.drives i) then
          some (UInt8.ofNat idx, ctx.setSlot i (some newFs))
        else addFsLoop isConnected newFs ctx rounds (idx + 1)
    else some (0xFF, ctx)

def addFs (ctx : FatfsSysContext σ) (isConnected : σ → Bool) (newFs : DeviceHandle σ) :
    Option (UInt8 × FatfsSysContext σ) :=
  addFsLoop isConnected newFs ctx 15 ctx.defaultDisk.toNat

/-! ### The disk functions -/

/-- Operate on the device of a drive; `absent` is the answer where its slot is empty. -/
def onDrive {α : Type} (ctx : FatfsSysContext σ) (pdrv : UInt8) (absent : α)
    (f : DeviceHandle σ → Option (α × DeviceHandle σ)) : Option (α × FatfsSysContext σ) :=
  match ctx.getFilesystem pdrv with
  | none => none
  | some (_, none) => some (absent, ctx)
  | some (i, some dev) => (f dev).map fun r => (r.1, ctx.setSlot i (some r.2))

/-- The status of what a slot holds. -/
def slotStatus (isConnected : σ → Bool) : Option (DeviceHandle σ) → UInt8
  | none => staNoinit
  | some dev => if !isConnected dev.device.device then staNodisk else 0

/-- A device is dropped with its handle, which flushes it. -/
def diskStatus (ctx : FatfsSysContext σ) (isConnected : σ → Bool) (pdrv : UInt8) :
    Option (UInt8 × FatfsSysContext σ) :=
  match ctx.getFilesystem pdrv with
  | none => none
  | some (_, dev) =>
    let retval := slotStatus isConnected dev
    if retval ≠ 0 then (ctx.resetFilesystem pdrv).map fun ctx => (retval, ctx)
    else some (retval, ctx)

def diskInitialize (ctx : FatfsSysContext σ) (isConnected : σ → Bool) (pdrv : UInt8) :
    Option (UInt8 × FatfsSysContext σ) :=
  (ctx.diskStatus isConnected pdrv).map fun r => (if r.1 = 0 then 0 else 255, r.2)

/-- Where a request starts in its partition, and how many bytes it moves. -/
def byteOffset (dev : DeviceHandle σ) (sector : UInt32) : ℕ :=
  usizeMul dev.sectorSize sector.toNat

def byteCount (dev : DeviceHandle σ) (count : UInt32) : ℕ := usizeMul dev.sectorSize count.toNat

/-- The bytes at `bufPtr` are overwritten from the front, as many as the request has. -/
def readHandle (dev : DeviceHandle σ) (bufPtr : List UInt8) (sector count : UInt32) :
    Option ((DResult × List UInt8) × DeviceHandle σ) :=
  match dev.device.seek (.start (byteOffset dev sector)) with
  | .panicked _ => none
  | .err _ d => some ((.resError, bufPtr), dev.withDevice d)
  | .ok _ d =>
    let r := d.read dev.scsi (bufPtr.take (byteCount dev count))
    let buff := r.1 ++ bufPtr.drop (byteCount dev count)
    match r.2 with
    | .panicked _ => none
    | .err _ d => some ((.resError, buff), dev.withDevice d)
    | .ok _ d => some ((.resOk, buff), dev.withDevice d)

def diskRead (ctx : FatfsSysContext σ) (pdrv : UInt8) (bufPtr : List UInt8)
    (sector count : UInt32) : Option ((DResult × List UInt8) × FatfsSysContext σ) :=
  ctx.onDrive pdrv (.resNotrdy, bufPtr) fun dev => readHandle dev bufPtr sector count

def writeHandle (dev : DeviceHandle σ) (bufPtr : List UInt8) (sector count : UInt32) :
    Option (DResult × DeviceHandle σ) :=
  match dev.device.seek (.start (byteOffset dev sector)) with
  | .panicked _ => none
  | .err _ d => some (.resError, dev.withDevice d)
  | .ok _ d =>
    match d.write dev.scsi (bufPtr.take (byteCount dev count)) with
    | .panicked _ => none
    | .err _ d => some (.resError, dev.withDevice d)
    | .ok _ d => some (.resOk, dev.withDevice d)

def diskWrite (ctx : FatfsSysContext σ) (pdrv : UInt8) (bufPtr : List UInt8)
    (sector count : UInt32) : Option (DResult × FatfsSysContext σ) :=
  ctx.onDrive pdrv .resNotrdy fun dev => writeHandle dev bufPtr sector count

def syncHandle (dev : DeviceHandle σ) : Option (DResult × DeviceHandle σ) :=
  match dev.sync with
  | .panicked _ => none
  | .err _ d => some (.resError, dev.withDevice d)
  | .ok _ d => some (.resOk, dev.withDevice d)

/-- The branch of `IOCTL_ADD_FILESYSTEM`. -/
def ioctlAdd (ctx : FatfsSysContext σ) (isConnected : σ → Bool) (buf : IoctlBuffer σ) :
    Option ((DResult × IoctlBuffer σ) × FatfsSysContext σ) :=
  match buf with
  | .addFs (.input h) =>
    (ctx.addFs isConnected h).map fun r =>
      ((if r.1 = 0xFF then .resError else .resOk, .addFs (.output r.1)), r.2)
  | .addFs (.output _) => some ((.resParerr, .addFs (.output 0xFF)), ctx)
  | buf => some ((.resParerr, buf), ctx)

/-- The bit mask for "set default disk" is tested before the command is matched. -/
def diskIoctl (ctx : FatfsSysContext σ) (isConnected : σ → Bool) (pdrv cmd : UInt8)
    (buf : IoctlBuffer σ) : Option ((DResult × IoctlBuffer σ) × FatfsSysContext σ) :=
  if cmd &&& ioctlSetDefaultDisk ≠ 0 then
    some ((.resOk, buf), { ctx with defaultDisk := cmd &&& 0xF })
  else if cmd = ctrlSync then
    (ctx.onDrive pdrv .resNotrdy syncHandle).map fun r => ((r.1, buf), r.2)
  else if cmd = getSectorSize then
    ctx.onDrive pdrv (.resNotrdy, buf) fun dev =>
      some ((.resOk, .dword (UInt32.ofNat dev.sectorSize)), dev)
  else if cmd = getBlockSize then some ((.resParerr, buf), ctx)
  else if cmd = getSectorCount then
    ctx.onDrive pdrv (.resNotrdy, buf) fun dev =>
      some ((.resOk, .dword (UInt32.ofNat dev.sectorCount)), dev)
  else if cmd = ioctlAddFilesystem then ctx.ioctlAdd isConnected buf
  else if cmd = ctrlTrim then some ((.resOk, buf), ctx)
  else some ((.resParerr, buf), ctx)

/-! ### Calls -/

/-- A call of the handler.  `isConnected` is what the USB layer says of a device at that time. -/
inductive Call (σ : Type) where
  | diskStatus (isConnected : σ → Bool) (pdrv : UInt8)
  | diskInitialize (isConnected : σ → Bool) (pdrv : UInt8)
  | diskRead (pdrv : UInt8) (bufPtr : List UInt8) (sector count : UInt32)
  | diskWrite (pdrv : UInt8) (bufPtr : List UInt8) (sector count : UInt32)
  | diskIoctl (isConnected : σ → Bool) (pdrv cmd : UInt8) (buf : IoctlBuffer σ)

inductive Answer (σ : Type) where
  | status (s : UInt8)
  | read (r : DResult) (bufPtr : List UInt8)
  | write (r : DResult)
  | ioctl (r : DResult) (buf : IoctlBuffer σ)

def exec (ctx : FatfsSysContext σ) : Call σ → Option (Answer σ × FatfsSysContext σ)
  | .diskStatus isConnected pdrv =>
    (ctx.diskStatus isConnected pdrv).map fun r => (.status r.1, r.2)
  | .diskInitialize isConnected pdrv =>
    (ctx.diskInitialize isConnected pdrv).map fun r => (.status r.1, r.2)
  | .diskRead pdrv bufPtr sector count =>
    (ctx.diskRead pdrv bufPtr sector count).map fun r => (.read r.1.1 r.1.2, r.2)
  | .diskWrite pdrv bufPtr sector count =>
    (ctx.diskWrite pdrv bufPtr sector count).map fun r => (.write r.1, r.2)
  | .diskIoctl isConnected pdrv cmd buf =>
    (ctx.diskIoctl isConnected pdrv cmd buf).map fun r => (.ioctl r.1.1 r.1.2, r.2)

/-- A call that is answered. -/
def Step (ctx : FatfsSysContext σ) (l : Call σ × Answer σ) (ctx' : FatfsSysContext σ) : Prop :=
  ctx.exec l.1 = some (l.2, ctx')

end FatfsSysContext

/-! ### Registering a device -/

/-- `path` is a C string. -/
structure FatfsSysFileSystem where
  path : Option String
  idx : UInt8
  deriving DecidableEq, Repr

/-- A partition type FatFs can mount. -/
def PartitionType.supported : PartitionType → Bool
  | .fat32 _ => true
  | .fat16 _ => true
  | .fat12 _ => true
  | .ntfsExfat _ => true
  | .unlisted => false

open FatfsSysContext in
/-- `from_device`; the global `disk_ioctl` is that of the registered handler. -/
def FatfsSysFileSystem.fromDevice (ctx : FatfsSysContext σ) (isConnected : σ → Bool)
    (handle : DeviceHandle σ) :
    Option (Except IoError FatfsSysFileSystem × FatfsSysContext σ) :=
  if handle.partitionInfo.partitionType.supported then
    (ctx.diskIoctl isConnected 0 ioctlAddFilesystem (.addFs (.input handle))).map fun r =>
      match r.1 with
      | (.resOk, .addFs (.output nidx)) => (.ok ⟨none, nidx⟩, r.2)
      | _ => (.error ⟨.other, none⟩, r.2)
  else some (.error ⟨.invalidData, none⟩, ctx)

end FatDrive
