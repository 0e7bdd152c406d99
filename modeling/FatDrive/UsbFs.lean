import FatDrive.IdStore
import FatDrive.Partition

/-!
# FatDrive.UsbFs — the globals of `usbfs.rs` and the entry points of the C interface

`Globals` are the three pointers behind their mutexes, with what is boxed behind them.  An entry
point is a function of the globals: it returns a code (0 is `ok`, anything else `err`) or panics,
and a panic poisons the mutexes whose guards it drops.  A C string is given as what `CStr::to_str`
makes of it.

`SetUp` is what one call of `usbFsInitialize` meets outside the program; the call may never return,
if the boot record is never read in full.  `usbFsExit` gives the states it passes through.
-/

namespace FatDrive

open Lib

/-! ### Setting up a drive -/

/-- What one call of `usbFsInitialize` meets in `libnx_rs`, on the drive and in the `scsi`,
`mbr_nostd` and `fatfs` crates.  `U` stands for `UsbHsContext`, `S` for `ClientInterfaceSession`. -/
structure SetUp (U S σ φ : Type) where
  /-- `UsbHsContext::initialize`. -/
  usbHsInitialize : Except LibnxError U
  /-- `InterfaceAvailableEvent::create`. -/
  create : Except LibnxError Unit
  wait : Except LibnxError Unit
  queryAvailableInterfaces : Except LibnxError (List Interface)
  acquireInterface : Interface → Except LibnxError S
  interface : S → Interface
  openEndpoint : S → UsbEndpointDescriptor → Except LibnxError Unit
  /-- `ScsiBlockDevice::new` on the client of a session. -/
  newBlockDevice : S → Except ScsiError σ
  scsi : ScsiCrate σ
  mbr : MbrCrate
  /-- How many rounds the loop that reads the boot record is followed for. -/
  rounds : ℕ
  /-- `FileSystem::new`. -/
  newFs : OffsetScsiDevice σ → Outcome IoError Unit φ

structure UsbFsServiceContext (U : Type) where
  usbHsCtx : U
  deviceInfo : InterfaceInfo

namespace SetUp

variable {U S σ φ : Type} (su : SetUp U S σ φ)

def waitForUsbDrive : Except LibnxError S := do
  su.create
  su.wait
  let interfaces ← su.queryAvailableInterfaces
  match interfaces.getLast? with
  | none => .error (.fromRaw nxFatdriveErrDriveNotFound)
  | some iface => su.acquireInterface iface

/-- `parse_drive`; `UsbClient::new` opens the two endpoints. -/
def parseDrive (session : S) : Except LibnxError σ := do
  let (readEp, writeEp) ← UsbClient.retrieveIfaceEndpoints (su.interface session)
  su.openEndpoint session readEp
  su.openEndpoint session writeEp
  match su.newBlockDevice session with
  | .error e => .error (.fromRaw (LibnxErrMapper.map e))
  | .ok innerDevice => .ok innerDevice

/-- The steps of `usbFsInitialize` before it touches a global. -/
def prepare : Except LibnxError (UsbFsServiceContext U × σ) := do
  let usbHsCtx ← su.usbHsInitialize
  let session ← su.waitForUsbDrive
  let innerDevice ← su.parseDrive session
  .ok (⟨usbHsCtx, (su.interface session).info⟩, innerDevice)

/-- Open the partition and mount the file system on it. -/
def mount (innerDevice : σ) : Option (Outcome ℕ Unit φ) :=
  (openPartition su.scsi su.mbr su.rounds innerDevice 0).map fun r =>
    ((r.mapErr fun e => LibnxErrMapper.map e).bimap (fun partition => partition) fun _ => ()).andThen
      fun partition _ => (su.newFs partition).mapErr fun e => LibnxErrMapper.map e

end SetUp

/-! ### The globals -/

structure Globals (U φ F D : Type) where
  usbHsCtxPtr : Mutex ℕ
  idStorePtr : Mutex ℕ
  /-- `fs_ptr` and the file systems. -/
  mounted : Mounted φ
  contexts : Heap (UsbFsServiceContext U)
  stores : Heap (IdStore F D)

namespace Globals

variable {U S σ φ F D α : Type}

/-- Before the first call. -/
def initial : Globals U φ F D where
  usbHsCtxPtr := { value := 0 }
  idStorePtr := { value := 0 }
  mounted := { fsPtr := { value := 0 }, fileSystems := .empty }
  contexts := .empty
  stores := .empty

/-- The store behind `id_store_ptr`. -/
def store? (g : Globals U φ F D) : Option (IdStore F D) := g.stores.get? g.idStorePtr.value

/-- `get_id_store`: the address behind the pointer. -/
def getIdStore (g : Globals U φ F D) : Except ℕ ℕ :=
  g.idStorePtr.lockedPtr (LibnxErrMapper.map (⟨⟩ : PoisonError)) nxFatdriveErrNotInitialized

/-- The store at an address, and what is mounted, change. -/
def put (g : Globals U φ F D) (a : ℕ) (x : IdStore F D × Mounted φ) : Globals U φ F D :=
  { g with stores := g.stores.set a x.1, mounted := x.2 }

/-- Get the store and operate on it. -/
def withIdStore (g : Globals U φ F D)
    (f : IdStore F D → Mounted φ → Outcome ℕ (IdStore F D × Mounted φ) α) :
    Outcome ℕ (Globals U φ F D) α :=
  match g.getIdStore with
  | .error code => .err code g
  | .ok a =>
    match g.stores.get? a with
    | none => .panicked g
    | some s =>
      match f s g.mounted with
      | .ok r x => .ok r (g.put a x)
      | .err code x => .err code (g.put a x)
      | .panicked x => .panicked { g.put a x with idStorePtr := g.idStorePtr.poison }

/-- The same for an entry point that takes a path. -/
def withPath (g : Globals U φ F D) (filepath : Option String)
    (f : String → IdStore F D → Mounted φ → Outcome ℕ (IdStore F D × Mounted φ) α) :
    Outcome ℕ (Globals U φ F D) α :=
  match filepath with
  | none => .err nxFatdriveErrUnknown g
  | some path => g.withIdStore (f path)

def usbFsIsInitialized (g : Globals U φ F D) : ℕ :=
  match g.idStorePtr.lock with
  | none => LibnxErrMapper.map (⟨⟩ : PoisonError)
  | some idStore =>
    match g.usbHsCtxPtr.lock with
    | none => LibnxErrMapper.map (⟨⟩ : PoisonError)
    | some usbHs =>
      match g.mounted.fsPtr.lock with
      | none => LibnxErrMapper.map (⟨⟩ : PoisonError)
      | some fs => if idStore ≠ 0 ∧ usbHs ≠ 0 ∧ fs ≠ 0 then success else nxFatdriveErrNotInitialized

/-! Each global is set in the same way: the object is boxed, then the pointer is locked. -/

def setCtx (g : Globals U φ F D) (ctx : UsbFsServiceContext U) : Globals U φ F D :=
  { g with
    contexts := (g.contexts.alloc ctx).2
    usbHsCtxPtr := g.usbHsCtxPtr.store (g.contexts.alloc ctx).1 }

def setFs (g : Globals U φ F D) (fs : φ) : Globals U φ F D :=
  { g with mounted :=
    { fileSystems := (g.mounted.fileSystems.alloc fs).2
      fsPtr := g.mounted.fsPtr.store (g.mounted.fileSystems.alloc fs).1 } }

def setIdStore (g : Globals U φ F D) (store : IdStore F D) : Globals U φ F D :=
  { g with
    stores := (g.stores.alloc store).2
    idStorePtr := g.idStorePtr.store (g.stores.alloc store).1 }

/-- The box is leaked if the mutex is poisoned. -/
def publishCtx (g : Globals U φ F D) (ctx : UsbFsServiceContext U) :
    Outcome ℕ (Globals U φ F D) Unit :=
  match g.usbHsCtxPtr.lock with
  | none =>
    .err (LibnxErrMapper.map (⟨⟩ : PoisonError)) { g with contexts := (g.contexts.alloc ctx).2 }
  | some _ => .ok () (g.setCtx ctx)

def publishFs (g : Globals U φ F D) (fs : φ) : Outcome ℕ (Globals U φ F D) Unit :=
  match g.mounted.fsPtr.lock with
  | none => .err (LibnxErrMapper.map (⟨⟩ : PoisonError))
      { g with mounted := ⟨g.mounted.fsPtr, (g.mounted.fileSystems.alloc fs).2⟩ }
  | some _ => .ok () (g.setFs fs)

def publishIdStore (g : Globals U φ F D) (store : IdStore F D) :
    Outcome ℕ (Globals U φ F D) Unit :=
  match g.idStorePtr.lock with
  | none =>
    .err (LibnxErrMapper.map (⟨⟩ : PoisonError)) { g with stores := (g.stores.alloc store).2 }
  | some _ => .ok () (g.setIdStore store)

/-- The end of `usbFsInitialize`: the guard of the context is held while the file system is mounted
and published. -/
def publishMounted (g : Globals U φ F D) :
    Option (Outcome ℕ Unit φ) → Option (Outcome ℕ (Globals U φ F D) Unit)
  | none => none
  | some (.err code _) => some (.err code g)
  | some (.panicked _) => some (.panicked { g with usbHsCtxPtr := g.usbHsCtxPtr.poison })
  | some (.ok fs _) => some ((g.publishFs fs).andThen fun _ g => g.publishIdStore .new)

def usbFsInitialize (su : SetUp U S σ φ) (g : Globals U φ F D) :
    Option (Outcome ℕ (Globals U φ F D) Unit) :=
  if g.usbFsIsInitialized = success then some (.ok () g)
  else
    match su.prepare with
    | .error e => some (.err (LibnxErrMapper.map e) g)
    | .ok (ctx, innerDevice) =>
      match g.publishCtx ctx with
      | .err code g => some (.err code g)
      | .panicked g => some (.panicked g)
      | .ok _ g => g.publishMounted (su.mount innerDevice)

variable (crate : FatfsCrate φ F D)

/-! The parts of `usbFsExit`, after the log file is open; `none` where it returns early. -/

def exitIdStore (g : Globals U φ F D) : Option (Globals U φ F D) :=
  match g.idStorePtr.lock with
  | none => none
  | some 0 => some g
  | some a => some
    { g with
      idStorePtr := g.idStorePtr.store 0
      stores := g.stores.free a
      mounted := (g.stores.get? a).elim g.mounted fun s => IdStore.dropStore crate s g.mounted }

def exitFs (g : Globals U φ F D) : Option (Globals U φ F D) :=
  match g.mounted.fsPtr.lock with
  | none => none
  | some 0 => some g
  | some a => some { g with mounted := ⟨g.mounted.fsPtr.store 0, g.mounted.fileSystems.free a⟩ }

def exitCtx (g : Globals U φ F D) : Option (Globals U φ F D) :=
  match g.usbHsCtxPtr.lock with
  | none => none
  | some 0 => some g
  | some a => some { g with usbHsCtxPtr := g.usbHsCtxPtr.store 0, contexts := g.contexts.free a }

/-- The states after each part, up to the one that returns early. -/
def inTurn : List (Globals U φ F D → Option (Globals U φ F D)) → Globals U φ F D →
    List (Globals U φ F D)
  | [], _ => []
  | part :: parts, g =>
    match part g with
    | none => []
    | some g' => g' :: inTurn parts g'

/-- The states `usbFsExit` passes through. -/
def usbFsExit (logOpens : Bool) (g : Globals U φ F D) : List (Globals U φ F D) :=
  if logOpens then inTurn [exitIdStore crate, exitFs, exitCtx] g else []

def usbFsOpenFile (g : Globals U φ F D) (filepath : Option String) :
    Outcome ℕ (Globals U φ F D) ℕ :=
  g.withPath filepath fun path s w => IdStore.openFile crate s w path

def usbFsCloseFile (g : Globals U φ F D) (fileid : ℕ) : Outcome ℕ (Globals U φ F D) Unit :=
  g.withIdStore fun s w => IdStore.closeFile crate s w fileid

def usbFsOpenDir (g : Globals U φ F D) (dirpath : Option String) :
    Outcome ℕ (Globals U φ F D) ℕ :=
  g.withPath dirpath fun path s w => IdStore.openDir crate s w path

def usbFsCloseDir (g : Globals U φ F D) (dirid : ℕ) : Outcome ℕ (Globals U φ F D) Unit :=
  g.withIdStore fun s w => IdStore.closeDir crate s w dirid

/-- Operate on the file system with the store locked. -/
def onRoot (s : IdStore F D) (w : Mounted φ) (f : φ → Outcome IoError φ Unit) :
    Outcome ℕ (IdStore F D × Mounted φ) Unit :=
  (w.withFilesystem f).bimap (fun _ => ()) fun w => (s, w)

/-- An open file of that name is closed first. -/
def usbFsDeleteFile (g : Globals U φ F D) (filepath : Option String) :
    Outcome ℕ (Globals U φ F D) Unit :=
  g.withPath filepath fun path s w =>
    match s.hasFile path with
    | some oldId => (IdStore.closeFile crate s w oldId).andThen fun _ x =>
        onRoot x.1 x.2 fun st => crate.remove st path
    | none => onRoot s w fun st => crate.remove st path

def usbFsDeleteDir (g : Globals U φ F D) (dirpath : Option String) :
    Outcome ℕ (Globals U φ F D) Unit :=
  g.withPath dirpath fun path s w =>
    match s.hasDir path with
    | some oldId => (IdStore.closeDir crate s w oldId).andThen fun _ x =>
        onRoot x.1 x.2 fun st => crate.remove st path
    | none => onRoot s w fun st => crate.remove st path

/-- An open directory of that name is there already. -/
def usbFsCreateDir (g : Globals U φ F D) (dirpath : Option String) :
    Outcome ℕ (Globals U φ F D) Unit :=
  g.withPath dirpath fun path s w =>
    match s.hasDir path with
    | some _ => .ok () (s, w)
    | none => onRoot s w fun st =>
        (crate.createDir st path).andThen fun dir st => .ok () (crate.dropDir st dir)

def usbFsCreateFile (g : Globals U φ F D) (filepath : Option String) :
    Outcome ℕ (Globals U φ F D) Unit :=
  g.withPath filepath fun path s w =>
    match s.hasFile path with
    | some _ => .ok () (s, w)
    | none => onRoot s w fun st =>
        (crate.createFile st path).andThen fun file st => .ok () (crate.dropFile st file)

end Globals

end FatDrive
