import FatDrive.NewlibDir
import FatDrive.StatPath
import FatDrive.UsbFsFiles

/-!
# FatDrive.UsbFsApi — the whole C interface of `usbfs.rs`

The entry points that the other modules leave out, and `ApiCall`, which has all of them.  Sixteen work
under the mutex of the store (`StoreCall`); `exec` is one call, without a result if a set-up never gets
to the end of the boot record.
-/

namespace FatDrive

open Lib

/-! ### The rest of the entry points -/

/-- `fatfs::FileSystemStats`. -/
structure FileSystemStats where
  clusterSize : UInt32
  totalClusters : UInt32
  freeClusters : UInt32
  deriving DecidableEq, Repr

/-- All that the entry points use of the `fatfs` crate. -/
structure FatfsApi (φ T F D : Type) where
  dirs : FatfsCrate φ F D
  files : FatfsFileOps φ T F
  /-- `FileSystem::stats`. -/
  stats : φ → Outcome IoError φ FileSystemStats

/-- `UsbHsContext::query_acquired_interfaces`. -/
abbrev QueryInterfaces (U : Type) := U → Except LibnxError (List Interface)

namespace Globals

variable {U S σ φ T F D : Type}

/-- `get_service_ctx`: the address behind the pointer. -/
def getServiceCtx (g : Globals U φ F D) : Except ℕ ℕ :=
  g.usbHsCtxPtr.lockedPtr (LibnxErrMapper.map (⟨⟩ : PoisonError)) nxFatdriveErrNotInitialized

def usbFsIsReady (g : Globals U φ F D) (query : QueryInterfaces U) :
    Outcome ℕ (Globals U φ F D) Unit :=
  if g.usbFsIsInitialized ≠ success then .err g.usbFsIsInitialized g
  else
    match g.getServiceCtx with
    | .error code => .err code g
    | .ok a =>
      match g.contexts.get? a with
      | none => .panicked g
      | some ctx =>
        match query ctx.usbHsCtx with
        | .error e => .err (LibnxErrMapper.map e) g
        | .ok ifaces =>
          if ifaces.any fun iface => iface.info == ctx.deviceInfo then .ok () g
          else .err nxFatdriveErrDriveDisconnected g

def usbFsDeviceUpdate (g : Globals U φ F D) (query : QueryInterfaces U) :
    Outcome ℕ (Globals U φ F D) Unit := g.usbFsIsReady query

/-- It tells a code that is not 0, not an error: `libnx` may report an error with code 0. -/
def usbFsDeviceGetMountStatus (g : Globals U φ F D) (query : QueryInterfaces U) :
    Outcome ℕ (Globals U φ F D) ℕ :=
  match g.usbFsIsReady query with
  | .ok _ g => .ok 1 g
  | .err code g => .ok (if code ≠ 0 then 0 else 1) g
  | .panicked g => .panicked g

def usbFsGetMountStatus (g : Globals U φ F D) : Outcome ℕ (Globals U φ F D) Unit :=
  .err nxFatdriveErrNotImplemented g

def usbFsReadRaw (g : Globals U φ F D) (_sector _sectorcount : ℕ) :
    Outcome ℕ (Globals U φ F D) Unit := .err nxFatdriveErrNotImplemented g

def usbFsDeviceRegister (g : Globals U φ F D) : Globals U φ F D := g

/-- The total and the free size in bytes. -/
def usbFsStatFilesystem (api : FatfsApi φ T F D) (g : Globals U φ F D) :
    Outcome ℕ (Globals U φ F D) (UInt64 × UInt64) :=
  (g.mounted.withFilesystem api.stats).bimap
    (fun fsinfo =>
      (fsinfo.obj.clusterSize.toUInt64 * fsinfo.obj.totalClusters.toUInt64,
        fsinfo.obj.clusterSize.toUInt64 * fsinfo.obj.freeClusters.toUInt64))
    fun w => { g with mounted := w }

end Globals

/-! ### Calls -/

/-- What a call stores through the pointers it is given. -/
inductive Reply where
  | nothing
  | id (n : ℕ)
  | count (n : ℕ)
  | data (retsize : ℕ) (buffer : List UInt8)
  | stat (size mode : ℕ)
  | sizes (total free : UInt64)
  | entry (typeVal size : ℕ) (name : ℕ → UInt8)
  /-- The status that is returned in place of a code. -/
  | status (n : ℕ)

/-- The calls that work under the mutex of the store. -/
inductive StoreCall where
  | openFile (filepath : Option String)
  | closeFile (fileid : ℕ)
  | readFile (fileid : ℕ) (buffer : List UInt8)
  | writeFile (fileid : ℕ) (buffer : List UInt8)
  | seekFile (fileid pos whence : ℕ)
  | syncFile (fileid : ℕ)
  | truncateFile (fileid size : ℕ)
  | deleteFile (filepath : Option String)
  | statFile (fileid : ℕ)
  | statPath (path : Option String)
  | openDir (dirpath : Option String)
  | readDir (dirid : ℕ) (name : ℕ → UInt8) (namemax : ℕ)
  | closeDir (dirid : ℕ)
  | createDir (dirpath : Option String)
  | deleteDir (dirpath : Option String)
  | createFile (filepath : Option String)

/-- The path that the call is given is no text. -/
def StoreCall.badPath : StoreCall → Bool
  | openFile none => true
  | deleteFile none => true
  | statPath none => true
  | openDir none => true
  | createDir none => true
  | deleteDir none => true
  | createFile none => true
  | _ => false

/-- The calls, with what they meet outside the program. -/
inductive ApiCall (U S σ φ : Type) where
  | isInitialized
  | init (su : SetUp U S σ φ)
  | exit (logOpens : Bool)
  | isReady (query : QueryInterfaces U)
  | deviceUpdate (query : QueryInterfaces U)
  | deviceGetMountStatus (query : QueryInterfaces U)
  | getMountStatus
  | readRaw (sector sectorcount : ℕ)
  | deviceRegister
  | statFilesystem
  | store (c : StoreCall)

section Exec

variable {U S σ φ T F D : Type} (api : FatfsApi φ T F D) (g : Globals U φ F D)

open Globals

def StoreCall.exec : StoreCall → Outcome ℕ (Globals U φ F D) Reply
  | openFile filepath => (usbFsOpenFile api.dirs g filepath).bimap .id fun g => g
  | closeFile fileid => (usbFsCloseFile api.dirs g fileid).bimap (fun _ => .nothing) fun g => g
  | readFile fileid buffer =>
    (usbFsReadFile api.files g fileid buffer).bimap (fun r => .data r.1 r.2) fun g => g
  | writeFile fileid buffer => (usbFsWriteFile api.files g fileid buffer).bimap .count fun g => g
  | seekFile fileid pos whence => (usbFsSeekFile api.files g fileid pos whence).bimap .count fun g => g
  | syncFile fileid => (usbFsSyncFile api.files g fileid).bimap (fun _ => .nothing) fun g => g
  | truncateFile fileid size =>
    (usbFsTruncateFile api.files g fileid size).bimap (fun _ => .nothing) fun g => g
  | deleteFile filepath => (usbFsDeleteFile api.dirs g filepath).bimap (fun _ => .nothing) fun g => g
  | statFile fileid => (usbFsStatFile api.dirs g fileid).bimap (fun r => .stat r.1 r.2) fun g => g
  | statPath path => (usbFsStatPath api.dirs g path).bimap (fun r => .stat r.1 r.2) fun g => g
  | openDir dirpath => (usbFsOpenDir api.dirs g dirpath).bimap .id fun g => g
  | readDir dirid name namemax =>
    (usbFsReadDir api.dirs g dirid name namemax).bimap (fun r => .entry r.1 r.2.1 r.2.2) fun g => g
  | closeDir dirid => (usbFsCloseDir api.dirs g dirid).bimap (fun _ => .nothing) fun g => g
  | createDir dirpath => (usbFsCreateDir api.dirs g dirpath).bimap (fun _ => .nothing) fun g => g
  | deleteDir dirpath => (usbFsDeleteDir api.dirs g dirpath).bimap (fun _ => .nothing) fun g => g
  | createFile filepath => (usbFsCreateFile api.dirs g filepath).bimap (fun _ => .nothing) fun g => g

def ApiCall.exec : ApiCall U S σ φ → Option (Outcome ℕ (Globals U φ F D) Reply)
  | isInitialized => some
    (if g.usbFsIsInitialized = success then .ok .nothing g else .err g.usbFsIsInitialized g)
  | init su => (g.usbFsInitialize su).map fun r => r.bimap (fun _ => .nothing) fun g => g
  | exit logOpens => some (.ok .nothing ((usbFsExit api.dirs logOpens g).getLastD g))
  | isReady query => some ((g.usbFsIsReady query).bimap (fun _ => .nothing) fun g => g)
  | deviceUpdate query => some ((g.usbFsDeviceUpdate query).bimap (fun _ => .nothing) fun g => g)
  | deviceGetMountStatus query => some ((g.usbFsDeviceGetMountStatus query).bimap .status fun g => g)
  | getMountStatus => some (g.usbFsGetMountStatus.bimap (fun _ => .nothing) fun g => g)
  | readRaw sector sectorcount => some
    ((g.usbFsReadRaw sector sectorcount).bimap (fun _ => .nothing) fun g => g)
  | deviceRegister => some (.ok .nothing g.usbFsDeviceRegister)
  | statFilesystem => some
    ((usbFsStatFilesystem api g).bimap (fun r => .sizes r.1 r.2) fun g => g)
  | store c => some (c.exec api g)

end Exec

end FatDrive
