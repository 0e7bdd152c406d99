import FatDrive.Err
import FatDrive.Lib.Memory
import FatDrive.Lib.Runs

/-!
# FatDrive.IdStore — open files and directories by id

`FatfsCrate` stands for the `fatfs` crate over the state `φ` of one mounted `FileSystem`, with `F`
for its `File` and `D` for its `Dir`.  `Mounted` is what the store shares with the rest of the
program: the pointer to the current file system and the file systems that are boxed.  A handle
keeps the address of the file system it borrows.

`IdStore` is the store with its five maps, `exec` one call on it, `Step` the labelled transition.
The other threads and entry points may have changed what is mounted between two calls, so a label
carries what the call finds there.
-/

namespace FatDrive

open Lib

/-- `fatfs::DirEntry`, as far as it is used. -/
structure DirEntry where
  fileName : String
  isFile : Bool
  len : ℕ
  /-- `attributes().bits()`. -/
  attributes : ℕ
  deriving DecidableEq, Repr

/-- What the program uses of the `fatfs` crate.  Paths are taken from the root directory. -/
structure FatfsCrate (φ F D : Type) where
  rootDir : φ → D
  openFile : φ → String → Outcome IoError φ F
  openDir : φ → String → Outcome IoError φ D
  createFile : φ → String → Outcome IoError φ F
  createDir : φ → String → Outcome IoError φ D
  remove : φ → String → Outcome IoError φ Unit
  /-- `File::flush`. -/
  flush : φ → F → Outcome IoError φ Unit
  dropFile : φ → F → φ
  dropDir : φ → D → φ
  /-- What `Dir::iter` yields, in order. -/
  iter : φ → D → List (Except IoError DirEntry)

/-- A `File` or a `Dir`, with the address of the `FileSystem` it borrows. -/
structure Handle (α : Type) where
  fs : ℕ
  obj : α
  deriving DecidableEq, Repr

/-- The file system pointer and the boxed file systems. -/
structure Mounted (φ : Type) where
  fsPtr : Mutex ℕ
  fileSystems : Heap φ

namespace Mounted

variable {φ α : Type}

/-- `get_filesystem`: the address behind the pointer. -/
def getFilesystem (w : Mounted φ) : Except ℕ ℕ :=
  w.fsPtr.lockedPtr (LibnxErrMapper.map (⟨⟩ : PoisonError)) nxFatdriveErrNotInitialized

/-- Operate on the file system at an address.  No file system there: a use after free, which may do
anything; here the program stops. -/
def onFs (w : Mounted φ) (fs : ℕ) (f : φ → Outcome IoError φ α) : Outcome IoError (Mounted φ) α :=
  match w.fileSystems.get? fs with
  | none => .panicked w
  | some st =>
    match f st with
    | .ok a st => .ok a { w with fileSystems := w.fileSystems.set fs st }
    | .err e st => .err e { w with fileSystems := w.fileSystems.set fs st }
    | .panicked st => .panicked { w with fileSystems := w.fileSystems.set fs st }

/-- Drop an object that borrows the file system at an address. -/
def dropOn (w : Mounted φ) (fs : ℕ) (drop : φ → φ) : Mounted φ :=
  match w.fileSystems.get? fs with
  | none => w
  | some st => { w with fileSystems := w.fileSystems.set fs (drop st) }

/-- The guard of `get_filesystem` is dropped by a panic. -/
def poisonFs (w : Mounted φ) : Mounted φ := { w with fsPtr := w.fsPtr.poison }

/-- Get the file system and operate on it: the result, with the address it comes from. -/
def withFilesystem (w : Mounted φ) (f : φ → Outcome IoError φ α) : Outcome ℕ (Mounted φ) (Handle α) :=
  match w.getFilesystem with
  | .error code => .err code w
  | .ok fs =>
    match w.onFs fs f with
    | .ok a w => .ok ⟨fs, a⟩ w
    | .err e w => .err (LibnxErrMapper.map e) w
    | .panicked w => .panicked w.poisonFs

end Mounted

structure DirEntryData where
  name : String
  typeVal : ℕ
  size : ℕ
  deriving DecidableEq, Repr

structure IdStore (F D : Type) where
  nextId : ℕ
  dirHandleMap : AList fun _ : ℕ => Handle D
  dirNameMap : AList fun _ : ℕ => String
  dirIterMap : AList fun _ : ℕ => ℕ
  fileHandleMap : AList fun _ : ℕ => Handle F
  fileNameMap : AList fun _ : ℕ => String

namespace IdStore

variable {φ F D : Type}

def dtDir : ℕ := 0x4
def dtReg : ℕ := 0x1

def new : IdStore F D := ⟨0, ∅, ∅, ∅, ∅, ∅⟩

/-- The search of a `HashMap` in its own order; at most one id is found (`NoTwice`). -/
def hasFile (s : IdStore F D) (path : String) : Option ℕ := findKey? s.fileNameMap path

def hasDir (s : IdStore F D) (path : String) : Option ℕ := findKey? s.dirNameMap path

/-- The id after `id`, back to 0 after `u64::max_value()`. -/
def idAfter (id : ℕ) : ℕ := if id = 2 ^ 64 - 1 then 0 else id + 1

def insertFile (s : IdStore F D) (path : String) (fl : Handle F) : ℕ × IdStore F D :=
  (s.nextId, { s with
    nextId := idAfter s.nextId
    fileHandleMap := s.fileHandleMap.insert s.nextId fl
    fileNameMap := s.fileNameMap.insert s.nextId path })

def insertDir (s : IdStore F D) (path : String) (dir : Handle D) : ℕ × IdStore F D :=
  (s.nextId, { s with
    nextId := idAfter s.nextId
    dirHandleMap := s.dirHandleMap.insert s.nextId dir
    dirNameMap := s.dirNameMap.insert s.nextId path
    dirIterMap := s.dirIterMap.insert s.nextId 0 })

variable (crate : FatfsCrate φ F D)

/-- The fallible part of `open_file`: get the file system, open the file on it. -/
def openNewFile (w : Mounted φ) (path : String) : Outcome ℕ (Mounted φ) (Handle F) :=
  w.withFilesystem fun st => crate.openFile st path

def openFile (s : IdStore F D) (w : Mounted φ) (path : String) :
    Outcome ℕ (IdStore F D × Mounted φ) ℕ :=
  match s.hasFile path with
  | some existing => .ok existing (s, w)
  | none =>
    match openNewFile crate w path with
    | .ok newFl w => .ok (s.insertFile path newFl).1 ((s.insertFile path newFl).2, w)
    | .err code w => .err code (s, w)
    | .panicked w => .panicked (s, w)

/-- The fallible part of `open_dir`; the root directory needs no opening. -/
def openNewDir (w : Mounted φ) (path : String) : Outcome ℕ (Mounted φ) (Handle D) :=
  w.withFilesystem fun st =>
    if path = "/" ∨ path = "" then .ok (crate.rootDir st) st else crate.openDir st path

def openDir (s : IdStore F D) (w : Mounted φ) (path : String) :
    Outcome ℕ (IdStore F D × Mounted φ) ℕ :=
  match s.hasDir path with
  | some existing => .ok existing (s, w)
  | none =>
    match openNewDir crate w path with
    | .ok newFl w => .ok (s.insertDir path newFl).1 ((s.insertDir path newFl).2, w)
    | .err code w => .err code (s, w)
    | .panicked w => .panicked (s, w)

/-- A file goes out of scope. -/
def dropHandle (w : Mounted φ) (f : Handle F) : Mounted φ :=
  w.dropOn f.fs fun st => crate.dropFile st f.obj

/-- The handles of a store go out of scope with it. -/
def dropStore (s : IdStore F D) (w : Mounted φ) : Mounted φ :=
  s.fileHandleMap.entries.foldl (fun w e => dropHandle crate w e.2)
    (s.dirHandleMap.entries.foldl (fun w e => w.dropOn e.2.fs fun st => crate.dropDir st e.2.obj) w)

/-- The handle is removed first; a flush that fails leaves the name behind. -/
def closeFile (s : IdStore F D) (w : Mounted φ) (id : ℕ) :
    Outcome ℕ (IdStore F D × Mounted φ) Unit :=
  match s.fileHandleMap.lookup id with
  | none => .err nxFatdriveErrFileNotFound (s, w)
  | some f =>
    let s := { s with fileHandleMap := s.fileHandleMap.erase id }
    match w.onFs f.fs fun st => crate.flush st f.obj with
    | .ok _ w => .ok () ({ s with fileNameMap := s.fileNameMap.erase id }, dropHandle crate w f)
    | .err e w => .err (LibnxErrMapper.map e) (s, dropHandle crate w f)
    | .panicked w => .panicked (s, dropHandle crate w f)

def closeDir (s : IdStore F D) (w : Mounted φ) (id : ℕ) :
    Outcome ℕ (IdStore F D × Mounted φ) Unit :=
  match s.dirHandleMap.lookup id with
  | none => .err nxFatdriveErrFileNotFound (s, w)
  | some f =>
    .ok () ({ s with
      dirHandleMap := s.dirHandleMap.erase id
      dirNameMap := s.dirNameMap.erase id
      dirIterMap := s.dirIterMap.erase id }, w.dropOn f.fs fun st => crate.dropDir st f.obj)

def getFileHandle (s : IdStore F D) (id : ℕ) : Except ℕ (Handle F) :=
  match s.fileHandleMap.lookup id with
  | some f => .ok f
  | none => .error nxFatdriveErrFileNotFound

/-- What the caller of `get_file_handle` makes of the file it may change. -/
def useFile (s : IdStore F D) (id : ℕ) (use : F → F) : Outcome ℕ (IdStore F D) Unit :=
  match s.getFileHandle id with
  | .ok f => .ok () { s with fileHandleMap := s.fileHandleMap.replace id ⟨f.fs, use f.obj⟩ }
  | .error code => .err code s

/-- `read_next_dirent`: the index moves on before the entry is read. -/
def readNextDirent (s : IdStore F D) (w : Mounted φ) (id : ℕ) :
    Outcome ℕ (IdStore F D) (Option DirEntryData) :=
  match s.dirHandleMap.lookup id with
  | none => .err nxFatdriveErrFileNotFound s
  | some dir =>
    match s.dirIterMap.lookup id with
    | none => .err nxFatdriveErrUnknown s
    | some idx =>
      let s := { s with dirIterMap := s.dirIterMap.replace id ((idx + 1) % 2 ^ 64) }
      match w.fileSystems.get? dir.fs with
      | none => .panicked s
      | some st =>
        match (crate.iter st dir.obj)[idx]? with
        | some (.ok r) => .ok (some ⟨r.fileName, if r.isFile then dtReg else dtDir, r.len⟩) s
        | some (.error e) => .err (LibnxErrMapper.map e) s
        | none => .ok none s

def getPathForId (s : IdStore F D) (id : ℕ) : Except ℕ String :=
  match s.fileNameMap.lookup id with
  | some p => .ok p
  | none =>
    match s.dirNameMap.lookup id with
    | some p => .ok p
    | none => .error nxFatdriveErrFileNotFound

/-! ### Calls and transitions -/

/-- The calls on an `IdStore`. -/
inductive Op (F D : Type) where
  | openFile (path : String)
  | openDir (path : String)
  | closeFile (id : ℕ)
  | closeDir (id : ℕ)
  | useFile (id : ℕ) (use : F → F)
  | readNextDirent (id : ℕ)
  | getPathForId (id : ℕ)
  | insertFile (path : String) (fl : Handle F)
  | insertDir (path : String) (dir : Handle D)

/-- What a call returns when it does not fail. -/
inductive Resp where
  | id (n : ℕ)
  | entry (ent : Option DirEntryData)
  | path (p : String)
  | unit
  deriving DecidableEq, Repr

/-- One call, where `w` is what it finds mounted. -/
def exec (s : IdStore F D) (w : Mounted φ) : Op F D → Outcome ℕ (IdStore F D) Resp
  | .openFile path => (openFile crate s w path).bimap .id Prod.fst
  | .openDir path => (openDir crate s w path).bimap .id Prod.fst
  | .closeFile id => (closeFile crate s w id).bimap (fun _ => .unit) Prod.fst
  | .closeDir id => (closeDir crate s w id).bimap (fun _ => .unit) Prod.fst
  | .useFile id use => (s.useFile id use).bimap (fun _ => .unit) fun s => s
  | .readNextDirent id => (readNextDirent crate s w id).bimap .entry fun s => s
  | .getPathForId id =>
    match s.getPathForId id with
    | .ok p => .ok (.path p) s
    | .error code => .err code s
  | .insertFile path fl => .ok (.id (s.insertFile path fl).1) (s.insertFile path fl).2
  | .insertDir path dir => .ok (.id (s.insertDir path dir).1) (s.insertDir path dir).2

/-- A call, with what it finds mounted. -/
abbrev Call (φ F D : Type) := Mounted φ × Op F D

/-- A call with what it returned (nothing, if it panicked). -/
abbrev Label (φ F D : Type) := Call φ F D × Option (Except ℕ Resp)

/-- One call. -/
def Step (s : IdStore F D) (l : Label φ F D) (s' : IdStore F D) : Prop :=
  (exec crate s l.1.1 l.1.2).result = l.2 ∧ (exec crate s l.1.1 l.1.2).state = s'

end IdStore

end FatDrive
