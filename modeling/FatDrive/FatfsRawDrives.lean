import FatDrive.BufScsiFaultFree
import FatDrive.FatfsRawRequests
import FatDrive.Lib.Programs

/-!
# FatDrive.FatfsRawDrives — which drive `root` and `stats` act on

FatFs is a parameter: for each path it has the physical drive of the volume the path names, and a
function of FatFs is a program that makes requests of that drive.  `root` passes the path "/" and
`stats` the path of the file system, which is null; the drive of both is physical drive 0, and that
is the default drive (`own_drive_iff`, `shared_root`).
-/

namespace FatDrive

open Lib

variable {σ : Type}

/-! ### FatFs -/

/-- `FRESULT`, as far as it is told apart here. -/
inductive FResult where
  | frOk | frWriteProtected | frTooManyOpenFiles
  | frFailed (code : UInt8)
  deriving DecidableEq, Repr

def wrapErrors {α : Type} (possible : α) : FResult → Except IoError α
  | .frOk => .ok possible
  | .frWriteProtected => .error ⟨.permissionDenied, none⟩
  | .frTooManyOpenFiles => .error ⟨.addrInUse, none⟩
  | .frFailed _ => .error ⟨.other, none⟩

/-- `FATFS`, as far as it is read here. -/
structure Fatfs where
  csize : UInt16
  nFatent : UInt32
  deriving DecidableEq, Repr

/-- What FatFs can ask of the drive of a volume. -/
inductive DiskRequest (σ : Type) where
  | status
  | init
  | read (bufPtr : List UInt8) (sector count : UInt32)
  | write (bufPtr : List UInt8) (sector count : UInt32)
  | sync (buf : IoctlBuffer σ)
  | sectorCount (buf : IoctlBuffer σ)
  | sectorSize (buf : IoctlBuffer σ)

open FatfsSysContext in
/-- The call of the disk handler a request is. -/
def DiskRequest.toCall (isConnected : σ → Bool) (pdrv : UInt8) : DiskRequest σ → Call σ
  | .status => .diskStatus isConnected pdrv
  | .init => .diskInitialize isConnected pdrv
  | .read bufPtr sector count => .diskRead pdrv bufPtr sector count
  | .write bufPtr sector count => .diskWrite pdrv bufPtr sector count
  | .sync buf => .diskIoctl isConnected pdrv ctrlSync buf
  | .sectorCount buf => .diskIoctl isConnected pdrv getSectorCount buf
  | .sectorSize buf => .diskIoctl isConnected pdrv getSectorSize buf

open FatfsSysContext in
/-- What the program uses of FatFs; `φ` are its work areas and `δ` is its `DIR`. -/
structure FatFs (σ φ δ : Type) where
  /-- The drive of the volume a path names.  A null pointer is a path too. -/
  physicalDrive : Option String → UInt8
  fOpendir : φ → Option String → Program (DiskRequest σ) (Answer σ) (φ × FResult × δ)
  fGetfree : φ → Option String →
    Program (DiskRequest σ) (Answer σ) (φ × FResult × UInt32 × Option Fatfs)

/-- A path without a drive prefix, and no path at all, name the volume of physical drive 0. -/
def FatFs.NoPrefix {φ δ : Type} (ff : FatFs σ φ δ) : Prop :=
  ff.physicalDrive none = 0 ∧ ∀ path, ':' ∉ path.toList → ff.physicalDrive (some path) = 0

namespace FatfsSysFileSystem

variable {φ δ : Type}

/-- `FsStats`. -/
structure FsStats where
  clusterSize : ℕ
  freeClusters : ℕ
  totalClusters : ℕ
  deriving DecidableEq, Repr

def sectorSize : ℕ := 512

/-- Let the disk handler answer what FatFs asks of the drive of a path. -/
def perform {α : Type} (ff : FatFs σ φ δ) (isConnected : σ → Bool) (path : Option String)
    (program : Program (DiskRequest σ) (FatfsSysContext.Answer σ) α) (ctx : FatfsSysContext σ) :
    Option (α × FatfsSysContext σ) :=
  program.run (fun ctx r => ctx.exec (r.toCall isConnected (ff.physicalDrive path))) ctx

/-- The path `root` opens. -/
def rootPath : Option String := some "/"

def root (ff : FatFs σ φ δ) (isConnected : σ → Bool) (_self : FatfsSysFileSystem) (work : φ)
    (ctx : FatfsSysContext σ) : Option ((Except IoError δ × φ) × FatfsSysContext σ) :=
  (perform ff isConnected rootPath (ff.fOpendir work rootPath) ctx).map fun r =>
    ((wrapErrors r.1.2.2 r.1.2.1, r.1.1), r.2)

/-- The statistics of a mounted volume. -/
def fsStats (nclst : UInt32) (fs : Fatfs) : FsStats where
  clusterSize := fs.csize.toNat * sectorSize
  freeClusters := nclst.toNat
  totalClusters := (fs.nFatent - 2).toNat

/-- What `stats` makes of the answer of `f_getfree`. -/
def statsOf (res : FResult) (nclst : UInt32) (raw : Option Fatfs) : Except IoError FsStats :=
  match wrapErrors raw res with
  | .error e => .error e
  | .ok none => .error ⟨.notFound, none⟩
  | .ok (some fs) => .ok (fsStats nclst fs)

def stats (ff : FatFs σ φ δ) (isConnected : σ → Bool) (self : FatfsSysFileSystem) (work : φ)
    (ctx : FatfsSysContext σ) : Option ((Except IoError FsStats × φ) × FatfsSysContext σ) :=
  (perform ff isConnected self.path (ff.fGetfree work self.path) ctx).map fun r =>
    ((statsOf r.1.2.1 r.1.2.2.1 r.1.2.2.2, r.1.1), r.2)

end FatfsSysFileSystem

/-! ### A request is served by its slot alone -/

namespace FatfsSysContext

variable {d : UInt8} {i : Fin 15} {s t s' : FatfsSysContext σ} {pdrv : UInt8}

/-- Two tables with default drive `d` and the same device in slot `i`. -/
structure SameSlot (d : UInt8) (i : Fin 15) (s t : FatfsSysContext σ) : Prop where
  left_eq : s.defaultDisk = d
  right_eq : t.defaultDisk = d
  device_eq : s.drives i = t.drives i

/-- Two tables with the same default drive that differ in slot `i` at most. -/
def SameBut (i : Fin 15) (s t : FatfsSysContext σ) : Prop :=
  s.defaultDisk = t.defaultDisk ∧ ∀ j, j ≠ i → s.drives j = t.drives j

theorem getIdx_congr (h : s.defaultDisk = t.defaultDisk) (pdrv : UInt8) :
    s.getIdx pdrv = t.getIdx pdrv := by
  unfold getIdx
  rw [h]

theorem SameSlot.getIdx_eq (h : SameSlot d i s t) (pdrv : UInt8) : s.getIdx pdrv = t.getIdx pdrv :=
  getIdx_congr (h.left_eq.trans h.right_eq.symm) pdrv

theorem SameSlot.setSlot (h : SameSlot d i s t) (dev : Option (DeviceHandle σ)) :
    SameSlot d i (s.setSlot i dev) (t.setSlot i dev) :=
  ⟨h.left_eq, h.right_eq, by rw [drives_setSlot_self, drives_setSlot_self]⟩

theorem SameSlot.getFilesystem_eq (h : SameSlot d i s t) (hi : slot? (s.getIdx pdrv) = some i) :
    s.getFilesystem pdrv = some (i, s.drives i) ∧ t.getFilesystem pdrv = some (i, s.drives i) := by
  unfold getFilesystem
  rw [← h.getIdx_eq, hi, Option.map_some, Option.map_some, h.device_eq]
  exact ⟨rfl, rfl⟩

theorem onDrive_alike {α : Type} (h : SameSlot d i s t) (hi : slot? (s.getIdx pdrv) = some i)
    (absent : α) (f : DeviceHandle σ → Option (α × DeviceHandle σ)) :
    Program.Alike (SameSlot d i) (s.onDrive pdrv absent f) (t.onDrive pdrv absent f) := by
  obtain ⟨hs, ht⟩ := h.getFilesystem_eq hi
  unfold onDrive
  rw [hs, ht]
  cases s.drives i with
  | none => exact .some ⟨rfl, h⟩
  | some dev =>
    dsimp only
    cases f dev with
    | none => exact .none
    | some r => exact .some ⟨rfl, h.setSlot _⟩

theorem diskStatus_alike (h : SameSlot d i s t) (hi : slot? (s.getIdx pdrv) = some i)
    (isConnected : σ → Bool) :
    Program.Alike (SameSlot d i) (s.diskStatus isConnected pdrv) (t.diskStatus isConnected pdrv) := by
  obtain ⟨hs, ht⟩ := h.getFilesystem_eq hi
  have hreset : s.resetFilesystem pdrv = some (s.setSlot i none) ∧
      t.resetFilesystem pdrv = some (t.setSlot i none) := by
    unfold resetFilesystem
    rw [← h.getIdx_eq, hi]
    exact ⟨rfl, rfl⟩
  unfold diskStatus
  rw [hs, ht]
  dsimp only
  split
  · rw [hreset.1, hreset.2]
    exact .some ⟨rfl, h.setSlot none⟩
  · exact .some ⟨rfl, h⟩

/-- What the commands FatFs uses are. -/
theorem diskIoctl_sync (isConnected : σ → Bool) (buf : IoctlBuffer σ) :
    s.diskIoctl isConnected pdrv ctrlSync buf =
      (s.onDrive pdrv .resNotrdy syncHandle).map fun r => ((r.1, buf), r.2) := by
  rw [diskIoctl, if_neg (by decide), if_pos rfl]

theorem diskIoctl_sectorCount (isConnected : σ → Bool) (buf : IoctlBuffer σ) :
    s.diskIoctl isConnected pdrv getSectorCount buf =
      s.onDrive pdrv (.resNotrdy, buf) fun dev =>
        some ((.resOk, .dword (UInt32.ofNat dev.sectorCount)), dev) := by
  rw [diskIoctl, if_neg (by decide), if_neg (by decide), if_neg (by decide), if_neg (by decide),
    if_pos rfl]

theorem diskIoctl_sectorSize (isConnected : σ → Bool) (buf : IoctlBuffer σ) :
    s.diskIoctl isConnected pdrv getSectorSize buf =
      s.onDrive pdrv (.resNotrdy, buf) fun dev =>
        some ((.resOk, .dword (UInt32.ofNat dev.sectorSize)), dev) := by
  rw [diskIoctl, if_neg (by decide), if_neg (by decide), if_pos rfl]

/-- **A request is answered by its slot**, whatever the rest of the table holds. -/
theorem request_alike (h : SameSlot d i s t) (hi : slot? (s.getIdx pdrv) = some i)
    (isConnected : σ → Bool) (r : DiskRequest σ) :
    Program.Alike (SameSlot d i) (s.exec (r.toCall isConnected pdrv))
      (t.exec (r.toCall isConnected pdrv)) := by
  cases r with
  | status => exact (diskStatus_alike h hi isConnected).map Answer.status
  | init =>
    exact ((diskStatus_alike h hi isConnected).map fun st : UInt8 =>
      (if st = 0 then 0 else 255 : UInt8)).map Answer.status
  | read bufPtr sector count =>
    exact (onDrive_alike h hi _ _).map fun r : DResult × List UInt8 => Answer.read r.1 r.2
  | write bufPtr sector count => exact (onDrive_alike h hi _ _).map Answer.write
  | sync buf =>
    simp only [DiskRequest.toCall, exec, diskIoctl_sync]
    exact ((onDrive_alike h hi _ _).map fun r => (r, buf)).map fun r : DResult × IoctlBuffer σ =>
      Answer.ioctl r.1 r.2
  | sectorCount buf =>
    simp only [DiskRequest.toCall, exec, diskIoctl_sectorCount]
    exact (onDrive_alike h hi _ _).map fun r : DResult × IoctlBuffer σ => Answer.ioctl r.1 r.2
  | sectorSize buf =>
    simp only [DiskRequest.toCall, exec, diskIoctl_sectorSize]
    exact (onDrive_alike h hi _ _).map fun r : DResult × IoctlBuffer σ => Answer.ioctl r.1 r.2

@[simp] theorem looksUp_toCall (isConnected : σ → Bool) (r : DiskRequest σ) :
    (r.toCall isConnected pdrv).looksUp = some pdrv := by
  cases r <;> rfl

theorem setsDefault_toCall (isConnected : σ → Bool) (r : DiskRequest σ) :
    (r.toCall isConnected pdrv).setsDefault = none := by
  cases r <;> rfl

theorem reached_toCall (isConnected : σ → Bool) (r : DiskRequest σ) :
    s.reached (r.toCall isConnected pdrv) = slot? (s.getIdx pdrv) := by
  unfold reached
  rw [looksUp_toCall, Option.bind_some]

/-- **A request changes its slot only.** -/
theorem request_frame (hi : slot? (s.getIdx pdrv) = some i) {isConnected : σ → Bool}
    {r : DiskRequest σ} {a : Answer σ} (h : s.exec (r.toCall isConnected pdrv) = some (a, s')) :
    SameBut i s' s := by
  have heff := exec_effect h
  refine ⟨?_, fun j hj => ?_⟩
  · rw [heff.defaultDisk, setsDefault_toCall]
    rfl
  · rcases heff.drives with hsame | ⟨p, dev, k, hl, hk, rfl, -⟩
    · rw [hsame]
    · rw [looksUp_toCall] at hl
      cases hl
      have hki : k = i := Fin.ext (hk.symm.trans (slot?_eq_some.mp hi))
      exact drives_setSlot_of_ne (hki.symm ▸ hj) _

end FatfsSysContext

/-! ### The drive of a file system -/

namespace FatfsSysFileSystem

open FatfsSysContext

variable {φ δ : Type} {ff : FatFs σ φ δ} {isConnected : σ → Bool} {fs : FatfsSysFileSystem}
  {ctx ctx' : FatfsSysContext σ} {path : Option String} {i : Fin 15}

/-- Whatever FatFs asks for a path is asked of slot `i`. -/
def AsksSlot (ff : FatFs σ φ δ) (ctx : FatfsSysContext σ) (path : Option String) (i : Fin 15) :
    Prop :=
  ∀ isConnected r, ctx.reached (DiskRequest.toCall isConnected (ff.physicalDrive path) r) = some i

theorem asksSlot_iff : AsksSlot ff ctx path i ↔ ctx.getIdx (ff.physicalDrive path) = i.val := by
  unfold AsksSlot
  constructor
  · intro h
    have hr := h (fun _ => true) .status
    rw [reached_toCall] at hr
    exact slot?_eq_some.mp hr
  · intro h isConnected r
    rw [reached_toCall]
    exact slot?_eq_some.mpr h

/-- A function of FatFs that asks slot `i` returns the same whatever the other slots hold. -/
theorem perform_alike {α : Type} (h : AsksSlot ff ctx path i)
    (program : Program (DiskRequest σ) (Answer σ) α) {t : FatfsSysContext σ}
    (ht : SameSlot ctx.defaultDisk i ctx t) :
    Program.Alike (SameSlot ctx.defaultDisk i) (perform ff isConnected path program ctx)
      (perform ff isConnected path program t) := by
  refine Program.run_related (fun s t r hst => ?_) program ht
  refine request_alike hst ?_ isConnected r
  rw [getIdx_congr hst.left_eq]
  exact slot?_eq_some.mpr (asksSlot_iff.mp h)

/-- It leaves the other slots as they are. -/
theorem perform_frame {α : Type} (h : AsksSlot ff ctx path i)
    {program : Program (DiskRequest σ) (Answer σ) α} {a : α}
    (hp : perform ff isConnected path program ctx = some (a, ctx')) : SameBut i ctx' ctx := by
  refine Program.run_invariant (I := fun s => SameBut i s ctx) (fun s r b s' hs hr => ?_) program
    ⟨rfl, fun _ _ => rfl⟩ hp
  have hi : slot? (s.getIdx (ff.physicalDrive path)) = some i := by
    rw [getIdx_congr hs.1]
    exact slot?_eq_some.mpr (asksSlot_iff.mp h)
  have hframe := request_frame hi hr
  exact ⟨hframe.1.trans hs.1, fun j hj => (hframe.2 j hj).trans (hs.2 j hj)⟩

/-- `root` and `stats` act on drive `i`, and on no other. -/
structure ActsOn (ff : FatFs σ φ δ) (ctx : FatfsSysContext σ) (fs : FatfsSysFileSystem)
    (i : Fin 15) : Prop where
  root : AsksSlot ff ctx rootPath i
  stats : AsksSlot ff ctx fs.path i

/-- What `root` and `stats` return depends on slot `i` of the table only, and they change no other. -/
structure Owns (ff : FatFs σ φ δ) (ctx : FatfsSysContext σ) (fs : FatfsSysFileSystem)
    (i : Fin 15) : Prop where
  root_alike : ∀ isConnected work t, SameSlot ctx.defaultDisk i ctx t →
    Program.Alike (SameSlot ctx.defaultDisk i) (fs.root ff isConnected work ctx)
      (fs.root ff isConnected work t)
  stats_alike : ∀ isConnected work t, SameSlot ctx.defaultDisk i ctx t →
    Program.Alike (SameSlot ctx.defaultDisk i) (fs.stats ff isConnected work ctx)
      (fs.stats ff isConnected work t)
  root_frame : ∀ isConnected work r ctx', fs.root ff isConnected work ctx = some (r, ctx') →
    SameBut i ctx' ctx
  stats_frame : ∀ isConnected work r ctx', fs.stats ff isConnected work ctx = some (r, ctx') →
    SameBut i ctx' ctx

theorem ActsOn.own (h : ActsOn ff ctx fs i) : Owns ff ctx fs i := by
  refine ⟨fun _ _ t ht => ?_, fun _ _ t ht => ?_, fun _ _ r ctx' hr => ?_, fun _ _ r ctx' hr => ?_⟩
  · exact (perform_alike h.root _ ht).map fun r : φ × FResult × δ => (wrapErrors r.2.2 r.2.1, r.1)
  · exact (perform_alike h.stats _ ht).map fun r : φ × FResult × UInt32 × Option Fatfs =>
      (statsOf r.2.1 r.2.2.1 r.2.2.2, r.1)
  · obtain ⟨⟨a, ctx₁⟩, hp, he⟩ := Option.map_eq_some_iff.mp hr
    cases he
    exact perform_frame h.root hp
  · obtain ⟨⟨a, ctx₁⟩, hp, he⟩ := Option.map_eq_some_iff.mp hr
    cases he
    exact perform_frame h.stats hp

theorem getIdx_zero : ctx.getIdx 0 = ctx.defaultDisk.toNat := rfl

/-- **A file system acts on its own drive** exactly if that is the default one; a path of its own,
which `from_device` gives none, would have to name it too.  It then shows and changes no other. -/
theorem own_drive_iff (hff : ff.NoPrefix) (hidx : fs.idx.toNat = i.val) :
    (ActsOn ff ctx fs i ↔ ctx.defaultDisk = fs.idx ∧
      ∀ path, fs.path = some path → ctx.getIdx (ff.physicalDrive (some path)) = fs.idx.toNat) ∧
    (ActsOn ff ctx fs i → Owns ff ctx fs i) := by
  have hroot : ff.physicalDrive rootPath = 0 := hff.2 "/" (by decide)
  refine ⟨?_, ActsOn.own⟩
  constructor
  · rintro ⟨h₁, h₂⟩
    have hd := asksSlot_iff.mp h₁
    rw [hroot, getIdx_zero, ← hidx] at hd
    refine ⟨UInt8.toNat_inj.mp hd, fun path hp => ?_⟩
    rw [hp] at h₂
    rw [hidx]
    exact asksSlot_iff.mp h₂
  · rintro ⟨hd, hpath⟩
    have hzero : ctx.getIdx 0 = i.val := by rw [getIdx_zero, hd, hidx]
    refine ⟨asksSlot_iff.mpr (by rw [hroot]; exact hzero), asksSlot_iff.mpr ?_⟩
    cases hp : fs.path with
    | none =>
      rw [hff.1]
      exact hzero
    | some path => exact (hpath path hp).trans hidx

/-! ### Two file systems mounted at once -/

/-- The drive a prefix such as "1:" names. -/
def prefixDrive : List Char → UInt8
  | c :: ':' :: _ => UInt8.ofNat (c.toNat - '0'.toNat)
  | _ => 0

/-- A FatFs whose `DIR` is the first sector of the volume. -/
def firstSector : FatFs σ Unit (List UInt8) where
  physicalDrive := fun path => path.elim 0 fun path => prefixDrive path.toList
  fOpendir := fun _ _ => .ask (.read [0, 0, 0, 0] 0 1) fun
    | .read .resOk bufPtr => .done ((), .frOk, bufPtr)
    | _ => .done ((), .frFailed 1, [])
  fGetfree := fun _ _ => .ask .status fun
    | .status 0 => .done ((), .frOk, 1, some ⟨1, 3⟩)
    | _ => .done ((), .frFailed 3, 0, none)

theorem firstSector_noPrefix : (firstSector : FatFs σ Unit (List UInt8)).NoPrefix := by
  refine ⟨rfl, fun path hpath => ?_⟩
  show prefixDrive path.toList = 0
  unfold prefixDrive
  split
  · next c rest hlist =>
    rw [hlist] at hpath
    simp at hpath
  · rfl

/-- A disk all of whose bytes are the same. -/
def uniform (byte : UInt8) : DeviceHandle (ℕ → UInt8) where
  scsi := flatDisk 4
  device := .new (flatDisk 4) (fun _ => byte) 0
  partitionInfo := ⟨⟨0⟩, .fat32 0x0C, 4⟩

/-- Drives 1 and 2, the first of them the default one. -/
def twoMounted : FatfsSysContext (ℕ → UInt8) where
  drives := fun i => if i = 1 then some (uniform 11) else if i = 2 then some (uniform 22) else none
  defaultDisk := 1

theorem own_drive_default :
    (firstSector : FatFs (ℕ → UInt8) Unit (List UInt8)).NoPrefix ∧
      ActsOn firstSector twoMounted ⟨none, 1⟩ 1 ∧ Owns firstSector twoMounted ⟨none, 1⟩ 1 := by
  have hacts : ActsOn firstSector twoMounted ⟨none, 1⟩ 1 :=
    (own_drive_iff firstSector_noPrefix rfl).1.mpr ⟨rfl, nofun⟩
  exact ⟨firstSector_noPrefix, hacts, (own_drive_iff firstSector_noPrefix rfl).2 hacts⟩

/-- **Two file systems show one root**: that of drive 2 lists what drive 1 holds. -/
theorem shared_root :
    (firstSector : FatFs (ℕ → UInt8) Unit (List UInt8)).NoPrefix ∧
      ¬ ActsOn firstSector twoMounted ⟨none, 2⟩ 2 ∧
      ((root firstSector (fun _ => true) ⟨none, 2⟩ () twoMounted).map fun r => r.1.1.toOption) =
        some (some [11, 11, 11, 11]) ∧
      ((root firstSector (fun _ => true) ⟨none, 1⟩ () twoMounted).map fun r => r.1.1.toOption) =
        some (some [11, 11, 11, 11]) := by
  refine ⟨firstSector_noPrefix, fun h => ?_, rfl, rfl⟩
  have hroot := asksSlot_iff.mp h.root
  exact absurd hroot (by decide)

end FatfsSysFileSystem

end FatDrive
