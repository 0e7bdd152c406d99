import FatDrive.UsbFsHealth

/-!
# FatDrive.UsbFsService — the C interface as a service on one file system

A service is down, or up with a context, a file system and what is open on it.  It has no pointers, no
mutexes and no handles that borrow: `FsInUse` is the file system beside a table of `File`s and `Dir`s by id,
`Allows` says what a call returns and makes of the two, by what the crate does on that file system, and
`ServiceStep` the same of the whole service.

* `Implements`: a store is such a table; its three maps of directories are one;
* `storeCall_yields`: a call under the mutex of the store does what the service allows;
* `service_step`: one call is a step of the service;
* `run_serves`: every run of calls is a run of the service, with the same answers.
-/

namespace FatDrive

open Lib

/-! ### What is open -/

/-- A directory that is open: its name, and the place of the entry that is read next. -/
structure NamedDir (D : Type) where
  name : String
  obj : D
  next : ℕ

structure IdTable (F D : Type) where
  nextId : ℕ
  /-- A name stays behind when closing its file fails. -/
  fileNames : ℕ → Option String
  files : ℕ → Option F
  dirs : ℕ → Option (NamedDir D)

namespace IdTable

variable {F D : Type} (t : IdTable F D)

def blank : IdTable F D := ⟨0, fun _ => none, fun _ => none, fun _ => none⟩

def dirNames (id : ℕ) : Option String := (t.dirs id).map NamedDir.name

/-- `get_path_for_id`: a file comes before a directory. -/
def nameOf (id : ℕ) : Option String := (t.fileNames id).orElse fun _ => t.dirNames id

def addFile (path : String) (f : F) : IdTable F D := { t with
  nextId := IdStore.idAfter t.nextId
  fileNames := Function.update t.fileNames t.nextId (some path)
  files := Function.update t.files t.nextId (some f) }

def addDir (path : String) (dir : D) : IdTable F D := { t with
  nextId := IdStore.idAfter t.nextId
  dirs := Function.update t.dirs t.nextId (some ⟨path, dir, 0⟩) }

def setFile (id : ℕ) (f : F) : IdTable F D := { t with files := Function.update t.files id (some f) }

def dropFile (id : ℕ) : IdTable F D := { t with files := Function.update t.files id none }

def dropName (id : ℕ) : IdTable F D := { t with fileNames := Function.update t.fileNames id none }

def dropDir (id : ℕ) : IdTable F D := { t with dirs := Function.update t.dirs id none }

/-- The next entry of the directory is read. -/
def advance (id : ℕ) (dir : NamedDir D) : IdTable F D :=
  { t with dirs := Function.update t.dirs id (some { dir with next := (dir.next + 1) % 2 ^ 64 }) }

end IdTable

/-- A file system, and what is open on it. -/
structure FsInUse (φ F D : Type) where
  fs : φ
  ids : IdTable F D

/-- What a call may return, and leave. -/
abbrev CallSpec (φ F D α : Type) := Except ℕ α → FsInUse φ F D → Prop

/-- The same for a caller who is given a reply. -/
def CallSpec.reply {φ F D α β : Type} (f : α → β) (P : CallSpec φ F D α) : CallSpec φ F D β :=
  fun b v' => ∃ a, P a v' ∧ b = a.map f

/-- What the crate returns is returned, an error as its code; `ok` and `err` say what is left. -/
def Gives {φ F D S α β : Type} (r : Outcome IoError S α) (reply : α → β) (ok : α → S → FsInUse φ F D)
    (err : S → FsInUse φ F D) : CallSpec φ F D β :=
  fun b v' => r.Returns (fun a s => b = .ok (reply a) ∧ v' = ok a s)
    fun e s => b = .error (LibnxErrMapper.map e) ∧ v' = err s

/-- The root directory has two names. -/
def FatfsCrate.openAny {φ F D : Type} (crate : FatfsCrate φ F D) (fs : φ) (path : String) :
    Outcome IoError φ D :=
  if path = "/" ∨ path = "" then .ok (crate.rootDir fs) fs else crate.openDir fs path

/-- The directory that is searched for an entry. -/
def FatfsCrate.openParent {φ F D : Type} (crate : FatfsCrate φ F D) (fs : φ) :
    Option String → Outcome IoError φ D
  | some name => if name = "" then .ok (crate.rootDir fs) fs else crate.openDir fs name
  | none => .ok (crate.rootDir fs) fs

theorem FatfsApi.NoPanics.openParent {φ T F D : Type} {api : FatfsApi φ T F D} (h : api.NoPanics) (fs : φ)
    (name : Option String) : (api.dirs.openParent fs name).result ≠ none := by
  unfold FatfsCrate.openParent
  split
  · split
    · exact Option.some_ne_none _
    · exact h.openDir fs _
  · exact Option.some_ne_none _

/-- What is found at a place of a listing. -/
def entryAnswer : Option (Except IoError DirEntry) → Except ℕ (Option DirEntryData)
  | some (.ok r) => .ok (some ⟨r.fileName, if r.isFile then IdStore.dtReg else IdStore.dtDir, r.len⟩)
  | some (.error e) => .error (LibnxErrMapper.map e)
  | none => .ok none

/-- What `usbFsReadDir` stores. -/
def entryReply (name : ℕ → UInt8) (namemax : ℕ) : Option DirEntryData → Reply
  | some ent => .entry ent.typeVal ent.size (patch name 0 (readDirName (asBytes ent.name) namemax))
  | none => .entry 0xF 0 (patch name 0 [0])

/-- What `usbFsStatFilesystem` stores. -/
def sizesReply (info : FileSystemStats) : Reply :=
  .sizes (info.clusterSize.toUInt64 * info.totalClusters.toUInt64)
    (info.clusterSize.toUInt64 * info.freeClusters.toUInt64)

namespace FsInUse

variable {φ T F D α : Type} (v : FsInUse φ F D)

/-- The call does nothing but answer. -/
def Answers (a₀ : Except ℕ α) : CallSpec φ F D α := fun a v' => a = a₀ ∧ v' = v

/-- An operation of the crate that leaves what is open. -/
def OnFs (r : Outcome IoError φ α) : CallSpec φ F D α :=
  Gives r (fun a => a) (fun _ fs => ⟨fs, v.ids⟩) fun fs => ⟨fs, v.ids⟩

/-- An id that is not in use is refused; with another, the crate operates on its `File`. -/
def OnFile (id : ℕ) (op : F × φ → Outcome IoError (F × φ) α) : CallSpec φ F D α := fun a v' =>
  v.ids.files id = none ∧ v.Answers (.error nxFatdriveErrFileNotFound) a v' ∨
  ∃ f, v.ids.files id = some f ∧ Gives (op (f, v.fs)) (fun a => a)
    (fun _ x => ⟨x.2, v.ids.setFile id x.1⟩) (fun x => ⟨x.2, v.ids.setFile id x.1⟩) a v'

/-- A `whence` that is none of the three. -/
def Refuses (id : ℕ) : CallSpec φ F D α := fun a v' =>
  v.ids.files id = none ∧ v.Answers (.error nxFatdriveErrFileNotFound) a v' ∨
  v.ids.files id ≠ none ∧
    v.Answers (.error (nxFatdriveErrNotImplemented * 2 ^ 8 + nxFatdriveErrModule)) a v'

section

variable (api : FatfsApi φ T F D)

/-- A path that is known has its id; another is opened under the next one. -/
def OpensFile (path : String) : CallSpec φ F D ℕ := fun a v' =>
  (∃ id, v.ids.fileNames id = some path ∧ v.Answers (.ok id) a v') ∨
  (∀ id, v.ids.fileNames id ≠ some path) ∧ Gives (api.dirs.openFile v.fs path)
    (fun _ => v.ids.nextId) (fun f fs => ⟨fs, v.ids.addFile path f⟩) (fun fs => ⟨fs, v.ids⟩) a v'

def OpensDir (path : String) : CallSpec φ F D ℕ := fun a v' =>
  (∃ id, v.ids.dirNames id = some path ∧ v.Answers (.ok id) a v') ∨
  (∀ id, v.ids.dirNames id ≠ some path) ∧ Gives (api.dirs.openAny v.fs path)
    (fun _ => v.ids.nextId) (fun dir fs => ⟨fs, v.ids.addDir path dir⟩) (fun fs => ⟨fs, v.ids⟩) a v'

/-- The `File` is flushed and dropped; its name stays behind if the flush fails. -/
def ClosesFile (id : ℕ) : CallSpec φ F D Unit := fun a v' =>
  v.ids.files id = none ∧ v.Answers (.error nxFatdriveErrFileNotFound) a v' ∨
  ∃ f, v.ids.files id = some f ∧ Gives (api.dirs.flush v.fs f) (fun u => u)
    (fun _ fs => ⟨api.dirs.dropFile fs f, (v.ids.dropFile id).dropName id⟩)
    (fun fs => ⟨api.dirs.dropFile fs f, v.ids.dropFile id⟩) a v'

def ClosesDir (id : ℕ) : CallSpec φ F D Unit := fun a v' =>
  v.ids.dirs id = none ∧ v.Answers (.error nxFatdriveErrFileNotFound) a v' ∨
  ∃ dir, v.ids.dirs id = some dir ∧ a = .ok () ∧
    v' = ⟨api.dirs.dropDir v.fs dir.obj, v.ids.dropDir id⟩

/-- What is known by the path is closed; if that fails, nothing is removed. -/
def Deletes (names : ℕ → Option String) (closes : ℕ → CallSpec φ F D Unit) (path : String) :
    CallSpec φ F D Unit := fun a v' =>
  (∀ id, names id ≠ some path) ∧ v.OnFs (api.dirs.remove v.fs path) a v' ∨
  ∃ id, names id = some path ∧
    ((∃ v₁ : FsInUse φ F D, closes id (.ok ()) v₁ ∧ v₁.OnFs (api.dirs.remove v₁.fs path) a v') ∨
      ∃ code, closes id (.error code) v' ∧ a = .error code)

/-- What is known by the path is there already. -/
def Creates (names : ℕ → Option String) (path : String) (r : Outcome IoError φ Unit) :
    CallSpec φ F D Unit := fun a v' =>
  (∃ id, names id = some path) ∧ v.Answers (.ok ()) a v' ∨
  (∀ id, names id ≠ some path) ∧ v.OnFs r a v'

def ReadsDir (id : ℕ) : CallSpec φ F D (Option DirEntryData) := fun a v' =>
  v.ids.dirs id = none ∧ v.Answers (.error nxFatdriveErrFileNotFound) a v' ∨
  ∃ dir, v.ids.dirs id = some dir ∧ a = entryAnswer (api.dirs.iter v.fs dir.obj)[dir.next]? ∧
    v' = ⟨v.fs, v.ids.advance id dir⟩

/-- The entry is looked for in a directory that is known by the name of the parent, or else in the parent,
which is opened and dropped for it. -/
def Stats (path : String) : CallSpec φ F D (ℕ × ℕ) := fun a v' =>
  (∃ id dir, v.ids.dirs id = some dir ∧ parentName path = some dir.name ∧
    v.Answers (IdStore.findEntry (entName path) (api.dirs.iter v.fs dir.obj)) a v') ∨
  (∀ id dir, v.ids.dirs id = some dir → parentName path ≠ some dir.name) ∧
    (api.dirs.openParent v.fs (parentName path)).Returns
      (fun dir fs => a = IdStore.findEntry (entName path) (api.dirs.iter (api.dirs.dropDir fs dir) dir) ∧
        v' = ⟨api.dirs.dropDir fs dir, v.ids⟩)
      fun e fs => a = .error (LibnxErrMapper.map e) ∧ v' = ⟨fs, v.ids⟩

/-- The same of the path of an id. -/
def StatsId (id : ℕ) : CallSpec φ F D (ℕ × ℕ) := fun a v' =>
  v.ids.nameOf id = none ∧ v.Answers (.error nxFatdriveErrFileNotFound) a v' ∨
  ∃ path, v.ids.nameOf id = some path ∧ v.Stats api path a v'

/-- What a call returns and leaves. -/
def Allows : StoreCall → CallSpec φ F D Reply
  | .openFile (some path) => (v.OpensFile api path).reply .id
  | .closeFile id => (v.ClosesFile api id).reply fun _ => .nothing
  | .readFile id buffer => (v.OnFile id (api.files.read buffer.length)).reply fun data =>
      .data data.length (data ++ buffer.drop data.length)
  | .writeFile id buffer => (v.OnFile id (api.files.write buffer)).reply .count
  | .seekFile id pos whence =>
    match seekFromOf pos whence with
    | some sf => (v.OnFile id (api.files.seekTo sf)).reply .count
    | none => (v.Refuses id).reply .count
  | .syncFile id => (v.OnFile id api.files.flush).reply fun _ => .nothing
  | .truncateFile id _ => (v.OnFile id api.files.truncate).reply fun _ => .nothing
  | .deleteFile (some path) =>
    (v.Deletes api v.ids.fileNames (v.ClosesFile api) path).reply fun _ => .nothing
  | .statFile id => (v.StatsId api id).reply fun r => .stat r.1 r.2
  | .statPath (some path) => (v.Stats api path).reply fun r => .stat r.1 r.2
  | .openDir (some path) => (v.OpensDir api path).reply .id
  | .readDir id name namemax => (v.ReadsDir api id).reply (entryReply name namemax)
  | .closeDir id => (v.ClosesDir api id).reply fun _ => .nothing
  | .createDir (some path) => (v.Creates v.ids.dirNames path
      ((api.dirs.createDir v.fs path).andThen fun dir fs => .ok () (api.dirs.dropDir fs dir))).reply
        fun _ => .nothing
  | .deleteDir (some path) =>
    (v.Deletes api v.ids.dirNames (v.ClosesDir api) path).reply fun _ => .nothing
  | .createFile (some path) => (v.Creates v.ids.fileNames path
      ((api.dirs.createFile v.fs path).andThen fun f fs => .ok () (api.dirs.dropFile fs f))).reply
        fun _ => .nothing
  | _ => v.Answers (.error nxFatdriveErrUnknown)

end

end FsInUse

/-! ### What is mounted -/

namespace Mounted

variable {φ α : Type} {w w' : Mounted φ} {st st' : φ}

theorem Current.set (h : w.Current st) (st' : φ) :
    Current { w with fileSystems := w.fileSystems.set w.fsPtr.value st' } st' :=
  ⟨h.ptr, Heap.get?_set_self h.cell st'⟩

/-- What is mounted now is that, but for the state of the current file system. -/
def SetTo (w : Mounted φ) (st' : φ) (w' : Mounted φ) : Prop := w'.fsPtr = w.fsPtr ∧ w'.Current st'

theorem SetTo.trans {st'' : φ} {w'' : Mounted φ} (h : w.SetTo st' w') (h' : w'.SetTo st'' w'') :
    w.SetTo st'' w'' := ⟨h'.1.trans h.1, h'.2⟩

theorem Current.setTo_self (h : w.Current st) : w.SetTo st w := ⟨rfl, h⟩

/-- An operation on the current file system. -/
theorem Current.onFs_returns (h : w.Current st) {f : φ → Outcome IoError φ α}
    (hf : (f st).result ≠ none) :
    (w.onFs w.fsPtr.value f).Returns (fun a w' => ∃ st', f st = .ok a st' ∧ w.SetTo st' w')
      fun e w' => ∃ st', f st = .err e st' ∧ w.SetTo st' w' := by
  unfold onFs
  rw [h.cell]
  dsimp only
  cases hr : f st with
  | ok a st' => exact ⟨st', rfl, rfl, h.set st'⟩
  | err e st' => exact ⟨st', rfl, rfl, h.set st'⟩
  | panicked st' =>
    rw [hr] at hf
    exact hf rfl

theorem Current.withFilesystem_returns (h : w.Current st) {f : φ → Outcome IoError φ α}
    (hf : (f st).result ≠ none) :
    (w.withFilesystem f).Returns
      (fun x w' => x.fs = w.fsPtr.value ∧ ∃ st', f st = .ok x.obj st' ∧ w.SetTo st' w')
      fun code w' => ∃ e st', code = LibnxErrMapper.map e ∧ f st = .err e st' ∧ w.SetTo st' w' := by
  have hon := h.onFs_returns hf
  simp only [withFilesystem, h.ptr]
  cases hr : w.onFs w.fsPtr.value f with
  | ok a w' =>
    rw [hr] at hon
    exact ⟨rfl, hon⟩
  | err e w' =>
    rw [hr] at hon
    obtain ⟨st', hst', hset⟩ := hon
    exact ⟨e, st', rfl, hst', hset⟩
  | panicked w' =>
    rw [hr] at hon
    exact hon

theorem Current.dropOn (h : w.Current st) (drop : φ → φ) :
    w.SetTo (drop st) (w.dropOn w.fsPtr.value drop) := by
  unfold Mounted.dropOn
  rw [h.cell]
  exact ⟨rfl, h.set (drop st)⟩

/-- The same after an operation. -/
theorem SetTo.dropOn (h : w.SetTo st w') {fs : ℕ} (hfs : fs = w.fsPtr.value) (drop : φ → φ) :
    w.SetTo (drop st) (w'.dropOn fs drop) := by
  obtain ⟨hptr, hcur⟩ := h
  rw [hfs, ← hptr]
  exact SetTo.trans ⟨hptr, hcur⟩ (hcur.dropOn drop)

end Mounted

/-! ### A store is a table -/

namespace IdStore

variable {φ T F D α β : Type} {s s' : IdStore F D} {w w' : Mounted φ} {t : IdTable F D} {id : ℕ}

structure Implements (s : IdStore F D) (t : IdTable F D) : Prop where
  nextId : s.nextId = t.nextId
  fileNames : ∀ id, s.fileNameMap.lookup id = t.fileNames id
  files : ∀ id, (s.fileHandleMap.lookup id).map Handle.obj = t.files id
  dirNames : ∀ id, s.dirNameMap.lookup id = t.dirNames id
  dirs : ∀ id, (s.dirHandleMap.lookup id).map Handle.obj = (t.dirs id).map NamedDir.obj
  iters : ∀ id, s.dirIterMap.lookup id = (t.dirs id).map NamedDir.next

theorem implements_new : (new : IdStore F D).Implements .blank := by
  have hnone {β γ : Type} (f : β → γ) (id : ℕ) :
      ((∅ : AList fun _ : ℕ => β).lookup id).map f = none := by
    rw [AList.lookup_empty]
    rfl
  exact ⟨rfl, fun id => AList.lookup_empty id, hnone _, fun id => AList.lookup_empty id, hnone _,
    fun id => AList.lookup_empty id⟩

namespace Implements

variable (h : s.Implements t)
include h

theorem hasFile_eq_some {path : String} (hf : s.hasFile path = some id) : t.fileNames id = some path := by
  rw [← h.fileNames]
  exact lookup_of_findKey? hf

theorem hasFile_eq_none {path : String} (hf : s.hasFile path = none) (id : ℕ) :
    t.fileNames id ≠ some path := by
  rw [← h.fileNames]
  exact findKey?_eq_none.mp hf id

theorem hasDir_eq_some {path : String} (hf : s.hasDir path = some id) : t.dirNames id = some path := by
  rw [← h.dirNames]
  exact lookup_of_findKey? hf

theorem hasDir_eq_none {path : String} (hf : s.hasDir path = none) (id : ℕ) :
    t.dirNames id ≠ some path := by
  rw [← h.dirNames]
  exact findKey?_eq_none.mp hf id

theorem nameOf_eq : s.getPathForId id =
    (t.nameOf id).elim (.error nxFatdriveErrFileNotFound) .ok := by
  unfold getPathForId IdTable.nameOf
  rw [← h.fileNames, ← h.dirNames]
  cases s.fileNameMap.lookup id with
  | some p => rfl
  | none => cases s.dirNameMap.lookup id <;> rfl

theorem file_none (hf : s.fileHandleMap.lookup id = none) : t.files id = none := by
  rw [← h.files, hf]
  rfl

theorem file_some {f : Handle F} (hf : s.fileHandleMap.lookup id = some f) : t.files id = some f.obj := by
  rw [← h.files, hf]
  rfl

theorem dir_none (hd : s.dirHandleMap.lookup id = none) : t.dirs id = none := by
  have := h.dirs id
  rw [hd] at this
  exact Option.map_eq_none_iff.mp this.symm

theorem dir_some {dir : Handle D} (hd : s.dirHandleMap.lookup id = some dir) :
    ∃ x, t.dirs id = some x ∧ x.obj = dir.obj ∧ s.dirIterMap.lookup id = some x.next ∧
      s.dirNameMap.lookup id = some x.name := by
  have := h.dirs id
  rw [hd] at this
  obtain ⟨x, hx, hobj⟩ := Option.map_eq_some_iff.mp this.symm
  refine ⟨x, hx, hobj, ?_, ?_⟩
  · rw [h.iters, hx]
    rfl
  · rw [h.dirNames, IdTable.dirNames, hx]
    rfl

theorem addFile (path : String) (fl : Handle F) :
    (s.insertFile path fl).2.Implements (t.addFile path fl.obj) := by
  refine ⟨congrArg idAfter h.nextId, fun id => ?_, fun id => ?_, h.dirNames, h.dirs, h.iters⟩
  · show (s.fileNameMap.insert s.nextId path).lookup id = Function.update t.fileNames t.nextId _ id
    rw [lookup_insert_apply, Function.update_apply, h.nextId, h.fileNames]
  · show ((s.fileHandleMap.insert s.nextId fl).lookup id).map _ = Function.update t.files t.nextId _ id
    rw [lookup_insert_apply, Function.update_apply, h.nextId]
    split
    · rfl
    · exact h.files id

theorem addDir (path : String) (dir : Handle D) :
    (s.insertDir path dir).2.Implements (t.addDir path dir.obj) := by
  refine ⟨congrArg idAfter h.nextId, h.fileNames, h.files, fun id => ?_, fun id => ?_, fun id => ?_⟩
  · show (s.dirNameMap.insert s.nextId path).lookup id = (Function.update t.dirs t.nextId _ id).map _
    rw [lookup_insert_apply, Function.update_apply, h.nextId]
    split
    · rfl
    · exact h.dirNames id
  · show ((s.dirHandleMap.insert s.nextId dir).lookup id).map _ =
      (Function.update t.dirs t.nextId _ id).map _
    rw [lookup_insert_apply, Function.update_apply, h.nextId]
    split
    · rfl
    · exact h.dirs id
  · show (s.dirIterMap.insert s.nextId 0).lookup id = (Function.update t.dirs t.nextId _ id).map _
    rw [lookup_insert_apply, Function.update_apply, h.nextId]
    split
    · rfl
    · exact h.iters id

theorem setFile {f : Handle F} (hf : s.fileHandleMap.lookup id = some f) (fl : Handle F) :
    Implements { s with fileHandleMap := s.fileHandleMap.replace id fl } (t.setFile id fl.obj) := by
  refine ⟨h.nextId, h.fileNames, fun id' => ?_, h.dirNames, h.dirs, h.iters⟩
  show ((s.fileHandleMap.replace id fl).lookup id').map _ = Function.update t.files id _ id'
  rw [lookup_replace, Function.update_apply, hf]
  split
  · rfl
  · exact h.files id'

theorem dropFile (id : ℕ) :
    Implements { s with fileHandleMap := s.fileHandleMap.erase id } (t.dropFile id) := by
  refine ⟨h.nextId, h.fileNames, fun id' => ?_, h.dirNames, h.dirs, h.iters⟩
  show ((s.fileHandleMap.erase id).lookup id').map _ = Function.update t.files id _ id'
  rw [lookup_erase_apply, Function.update_apply]
  split
  · rfl
  · exact h.files id'

theorem dropName (id : ℕ) :
    Implements { s with fileNameMap := s.fileNameMap.erase id } (t.dropName id) := by
  refine ⟨h.nextId, fun id' => ?_, h.files, h.dirNames, h.dirs, h.iters⟩
  show (s.fileNameMap.erase id).lookup id' = Function.update t.fileNames id none id'
  rw [lookup_erase_apply, Function.update_apply, h.fileNames]

theorem dropDir (id : ℕ) : Implements { s with
    dirHandleMap := s.dirHandleMap.erase id
    dirNameMap := s.dirNameMap.erase id
    dirIterMap := s.dirIterMap.erase id } (t.dropDir id) := by
  refine ⟨h.nextId, h.fileNames, h.files, fun id' => ?_, fun id' => ?_, fun id' => ?_⟩
  · show (s.dirNameMap.erase id).lookup id' = (Function.update t.dirs id none id').map _
    rw [lookup_erase_apply, Function.update_apply]
    split
    · rfl
    · exact h.dirNames id'
  · show ((s.dirHandleMap.erase id).lookup id').map _ = (Function.update t.dirs id none id').map _
    rw [lookup_erase_apply, Function.update_apply]
    split
    · rfl
    · exact h.dirs id'
  · show (s.dirIterMap.erase id).lookup id' = (Function.update t.dirs id none id').map _
    rw [lookup_erase_apply, Function.update_apply]
    split
    · rfl
    · exact h.iters id'

theorem advance {x : NamedDir D} (hx : t.dirs id = some x) :
    Implements { s with dirIterMap := s.dirIterMap.replace id ((x.next + 1) % 2 ^ 64) }
      (t.advance id x) := by
  have hsame {γ : Type} (p : NamedDir D → γ) (hp : ∀ n, p { x with next := n } = p x) (id' : ℕ) :
      ((t.advance id x).dirs id').map p = (t.dirs id').map p := by
    show (Function.update t.dirs id _ id').map p = _
    by_cases hid : id' = id
    · subst hid
      rw [Function.update_self, hx]
      exact congrArg some (hp _)
    · rw [Function.update_of_ne hid]
  refine ⟨h.nextId, h.fileNames, h.files, fun id' => (h.dirNames id').trans ?_,
    fun id' => (h.dirs id').trans ?_, fun id' => ?_⟩
  · exact (hsame NamedDir.name (fun _ => rfl) id').symm
  · exact (hsame NamedDir.obj (fun _ => rfl) id').symm
  · show (s.dirIterMap.replace id _).lookup id' = (Function.update t.dirs id _ id').map _
    rw [lookup_replace]
    by_cases hid : id' = id
    · subst hid
      simp [h.iters, hx]
    · rw [if_neg hid, Function.update_of_ne hid]
      exact h.iters id'

end Implements

/-! ### Operations on the store -/

/-- The store, with what is mounted, is in use as `v`; the pointer is that of `w`. -/
structure Holds (w : Mounted φ) (x : IdStore F D × Mounted φ) (v : FsInUse φ F D) : Prop where
  setTo : w.SetTo v.fs x.2
  borrows : x.1.Borrows w.fsPtr.value
  ids : x.1.Implements v.ids

/-- What the operation returns and leaves is as `P` says. -/
def Makes (w : Mounted φ) (r : Outcome ℕ (IdStore F D × Mounted φ) α) (P : CallSpec φ F D α) : Prop :=
  r.Returns (fun a x => ∃ v', P (.ok a) v' ∧ Holds w x v')
    fun code x => ∃ v', P (.error code) v' ∧ Holds w x v'

theorem Makes.reply {r : Outcome ℕ (IdStore F D × Mounted φ) α} {P : CallSpec φ F D α} (h : Makes w r P)
    (f : α → β) : Makes w (r.bimap f fun x => x) (P.reply f) :=
  Outcome.Returns.bimap h (fun a _ ⟨v', hP, hx⟩ => ⟨v', ⟨.ok a, hP, rfl⟩, hx⟩)
    fun code _ ⟨v', hP, hx⟩ => ⟨v', ⟨.error code, hP, rfl⟩, hx⟩

theorem Makes.mono {r : Outcome ℕ (IdStore F D × Mounted φ) α} {P Q : CallSpec φ F D α} (h : Makes w r P)
    (hQ : ∀ a v', P a v' → Q a v') : Makes w r Q :=
  Outcome.Returns.mono h (fun a _ ⟨v', hP, hx⟩ => ⟨v', hQ (.ok a) v' hP, hx⟩)
    fun code _ ⟨v', hP, hx⟩ => ⟨v', hQ (.error code) v' hP, hx⟩

section Operations

variable {api : FatfsApi φ T F D} {v : FsInUse φ F D} {file : Handle F} {dir : Handle D}

theorem onFile_bimap (s : IdStore F D) (w : Mounted φ) (id : ℕ) (op : F × φ → Outcome ℕ (F × φ) α)
    (f : α → β) : s.onFile w id (fun x => (op x).bimap f fun x => x) =
      (s.onFile w id op).bimap f fun x => x := by
  unfold onFile
  cases s.getFileHandle id with
  | error code => rfl
  | ok file =>
    dsimp only
    cases w.fileSystems.get? file.fs with
    | none => rfl
    | some st =>
      dsimp only
      rw [Outcome.bimap_bimap, Outcome.bimap_bimap]

/-- The search of a directory. -/
theorem searchDir_eq {st : φ} (hw : w.Current st) (hfs : dir.fs = w.fsPtr.value) (name : List Char) :
    searchDir api.dirs w dir name =
      match findEntry name (api.dirs.iter st dir.obj) with
      | .ok found => .ok found w
      | .error code => .err code w := by
  unfold searchDir listing
  rw [hfs, hw.cell]
  rfl

/-- The parent is opened and dropped again. -/
theorem openParent_eq (crate : FatfsCrate φ F D) (w : Mounted φ) (name : Option String) :
    openParent crate w name = (w.withFilesystem fun st => crate.openParent st name).andThen
      fun dir w => .ok dir (w.dropOn dir.fs fun st => crate.dropDir st dir.obj) := by
  cases name <;> rfl

namespace Holds

variable (h : Holds w (s, w) v)
include h

theorem ptr_file (hf : s.fileHandleMap.lookup id = some file) : file.fs = w.fsPtr.value :=
  h.borrows.files id file hf

theorem ptr_dir (hd : s.dirHandleMap.lookup id = some dir) : dir.fs = w.fsPtr.value :=
  h.borrows.dirs id dir hd

/-- The same store, when the crate has operated on the file system. -/
theorem set {st' : φ} (hset : w.SetTo st' w') : Holds w (s, w') ⟨st', v.ids⟩ := ⟨hset, h.borrows, h.ids⟩

theorem openFile_makes (hapi : api.NoPanics) (path : String) :
    Makes w (openFile api.dirs s w path) (v.OpensFile api path) := by
  have hborrows : (openFile api.dirs s w path).state.1.Borrows w.fsPtr.value :=
    openFile_borrows h.borrows path
  unfold openFile at hborrows ⊢
  cases hf : s.hasFile path with
  | some id => exact ⟨v, Or.inl ⟨id, h.ids.hasFile_eq_some hf, rfl, rfl⟩, h⟩
  | none =>
    have hret : (openNewFile api.dirs w path).Returns _ _ :=
      h.setTo.2.withFilesystem_returns (hapi.openFile v.fs path)
    rw [hf] at hborrows
    dsimp only at hborrows ⊢
    cases hr : openNewFile api.dirs w path with
    | ok fl w' =>
      rw [hr] at hborrows hret
      obtain ⟨-, st', hopen, hset⟩ := hret
      refine ⟨⟨st', v.ids.addFile path fl.obj⟩, Or.inr ⟨h.ids.hasFile_eq_none hf, ?_⟩,
        hset, hborrows, h.ids.addFile path fl⟩
      rw [hopen]
      exact ⟨congrArg Except.ok h.ids.nextId, rfl⟩
    | err code w' =>
      rw [hr] at hret
      obtain ⟨e, st', rfl, hopen, hset⟩ := hret
      refine ⟨⟨st', v.ids⟩, Or.inr ⟨h.ids.hasFile_eq_none hf, ?_⟩, h.set hset⟩
      rw [hopen]
      exact ⟨rfl, rfl⟩
    | panicked w' =>
      rw [hr] at hret
      exact hret

theorem openDir_makes (hapi : api.NoPanics) (path : String) :
    Makes w (openDir api.dirs s w path) (v.OpensDir api path) := by
  have hborrows : (openDir api.dirs s w path).state.1.Borrows w.fsPtr.value :=
    openDir_borrows h.borrows path
  have hany : (api.dirs.openAny v.fs path).result ≠ none := by
    unfold FatfsCrate.openAny
    split
    · simp [Outcome.result]
    · exact hapi.openDir v.fs path
  unfold openDir at hborrows ⊢
  cases hf : s.hasDir path with
  | some id => exact ⟨v, Or.inl ⟨id, h.ids.hasDir_eq_some hf, rfl, rfl⟩, h⟩
  | none =>
    have hret : (openNewDir api.dirs w path).Returns _ _ := h.setTo.2.withFilesystem_returns hany
    rw [hf] at hborrows
    dsimp only at hborrows ⊢
    cases hr : openNewDir api.dirs w path with
    | ok dir w' =>
      rw [hr] at hborrows hret
      obtain ⟨-, st', hopen, hset⟩ := hret
      refine ⟨⟨st', v.ids.addDir path dir.obj⟩, Or.inr ⟨h.ids.hasDir_eq_none hf, ?_⟩,
        hset, hborrows, h.ids.addDir path dir⟩
      rw [FatfsCrate.openAny, hopen]
      exact ⟨congrArg Except.ok h.ids.nextId, rfl⟩
    | err code w' =>
      rw [hr] at hret
      obtain ⟨e, st', rfl, hopen, hset⟩ := hret
      refine ⟨⟨st', v.ids⟩, Or.inr ⟨h.ids.hasDir_eq_none hf, ?_⟩, h.set hset⟩
      rw [FatfsCrate.openAny, hopen]
      exact ⟨rfl, rfl⟩
    | panicked w' =>
      rw [hr] at hret
      exact hret

theorem closeFile_makes (hapi : api.NoPanics) (id : ℕ) :
    Makes w (closeFile api.dirs s w id) (v.ClosesFile api id) := by
  have hborrows : (closeFile api.dirs s w id).state.1.Borrows w.fsPtr.value :=
    closeFile_borrows h.borrows id
  unfold closeFile at hborrows ⊢
  cases hf : s.fileHandleMap.lookup id with
  | none => exact ⟨v, Or.inl ⟨h.ids.file_none hf, rfl, rfl⟩, h⟩
  | some file =>
    have hfs := h.ptr_file hf
    have hret := h.setTo.2.onFs_returns (f := fun st => api.dirs.flush st file.obj)
      (hapi.flush v.fs file.obj)
    rw [← hfs] at hret
    rw [hf] at hborrows
    dsimp only at hborrows ⊢
    cases hr : w.onFs file.fs fun st => api.dirs.flush st file.obj with
    | ok u w' =>
      rw [hr] at hborrows hret
      obtain ⟨st', hflush, hset⟩ := hret
      refine ⟨⟨api.dirs.dropFile st' file.obj, (v.ids.dropFile id).dropName id⟩,
        Or.inr ⟨file.obj, h.ids.file_some hf, ?_⟩, hset.dropOn hfs _, hborrows,
        (h.ids.dropFile id).dropName id⟩
      rw [hflush]
      exact ⟨rfl, rfl⟩
    | err e w' =>
      rw [hr] at hborrows hret
      obtain ⟨st', hflush, hset⟩ := hret
      refine ⟨⟨api.dirs.dropFile st' file.obj, v.ids.dropFile id⟩,
        Or.inr ⟨file.obj, h.ids.file_some hf, ?_⟩, hset.dropOn hfs _, hborrows, h.ids.dropFile id⟩
      rw [hflush]
      exact ⟨rfl, rfl⟩
    | panicked w' =>
      rw [hr] at hret
      exact hret

theorem closeDir_makes (id : ℕ) : Makes w (closeDir api.dirs s w id) (v.ClosesDir api id) := by
  have hborrows : (closeDir api.dirs s w id).state.1.Borrows w.fsPtr.value :=
    closeDir_borrows h.borrows id
  unfold closeDir at hborrows ⊢
  cases hd : s.dirHandleMap.lookup id with
  | none => exact ⟨v, Or.inl ⟨h.ids.dir_none hd, rfl, rfl⟩, h⟩
  | some dir =>
    rw [hd] at hborrows
    obtain ⟨x, hx, hobj, -, -⟩ := h.ids.dir_some hd
    exact ⟨⟨api.dirs.dropDir v.fs dir.obj, v.ids.dropDir id⟩, Or.inr ⟨x, hx, rfl, by rw [hobj]⟩,
      h.setTo.dropOn (h.ptr_dir hd) _, hborrows, h.ids.dropDir id⟩

/-- An operation on the root directory. -/
theorem onRoot_makes {f : φ → Outcome IoError φ Unit} (hf : (f v.fs).result ≠ none) :
    Makes w (Globals.onRoot s w f) (v.OnFs (f v.fs)) := by
  refine Outcome.Returns.bimap (h.setTo.2.withFilesystem_returns hf) (fun x w' hx => ?_)
    fun code w' hx => ?_
  · obtain ⟨-, st', hst', hset⟩ := hx
    refine ⟨⟨st', v.ids⟩, ?_, h.set hset⟩
    rw [hst']
    exact ⟨rfl, rfl⟩
  · obtain ⟨e, st', rfl, hst', hset⟩ := hx
    refine ⟨⟨st', v.ids⟩, ?_, h.set hset⟩
    rw [hst']
    exact ⟨rfl, rfl⟩

theorem onFile_makes {op : F × φ → Outcome IoError (F × φ) α} (hop : ∀ x, (op x).result ≠ none)
    (id : ℕ) :
    Makes w (s.onFile w id fun x => (op x).mapErr LibnxErrMapper.map) (v.OnFile id op) := by
  cases hf : s.fileHandleMap.lookup id with
  | none =>
    simp only [onFile, getFileHandle, hf]
    exact ⟨v, Or.inl ⟨h.ids.file_none hf, rfl, rfl⟩, h⟩
  | some file =>
    obtain ⟨fs, fl⟩ := file
    obtain rfl : fs = w.fsPtr.value := h.ptr_file hf
    have hput : ∀ y : F × φ, Holds w
        ({ s with fileHandleMap := s.fileHandleMap.replace id ⟨w.fsPtr.value, y.1⟩ },
          { w with fileSystems := w.fileSystems.set w.fsPtr.value y.2 })
        ⟨y.2, v.ids.setFile id y.1⟩ := by
      intro y
      refine ⟨⟨rfl, h.setTo.2.set y.2⟩, ⟨fun id' f hf' => ?_, h.borrows.dirs⟩,
        h.ids.setFile hf ⟨w.fsPtr.value, y.1⟩⟩
      rw [lookup_replace] at hf'
      split at hf'
      · obtain ⟨_, -, rfl⟩ := Option.map_eq_some_iff.mp hf'
        rfl
      · exact h.borrows.files id' f hf'
    have hno := hop (fl, v.fs)
    rw [onFile_eq (x := (fl, v.fs)) hf h.setTo.2.cell]
    cases hr : op (fl, v.fs) with
    | ok a y =>
      refine ⟨⟨y.2, v.ids.setFile id y.1⟩, Or.inr ⟨fl, h.ids.file_some hf, ?_⟩, hput y⟩
      rw [hr]
      exact ⟨rfl, rfl⟩
    | err e y =>
      refine ⟨⟨y.2, v.ids.setFile id y.1⟩, Or.inr ⟨fl, h.ids.file_some hf, ?_⟩, hput y⟩
      rw [hr]
      exact ⟨rfl, rfl⟩
    | panicked y =>
      rw [hr] at hno
      exact absurd rfl hno

theorem refuses_makes (id : ℕ) : Makes w (match s.getFileHandle id with
      | .error code => .err code (s, w)
      | .ok _ => .err (nxFatdriveErrNotImplemented * 2 ^ 8 + nxFatdriveErrModule) (s, w) :
        Outcome ℕ (IdStore F D × Mounted φ) α) (v.Refuses id) := by
  unfold getFileHandle
  cases hf : s.fileHandleMap.lookup id with
  | none => exact ⟨v, Or.inl ⟨h.ids.file_none hf, rfl, rfl⟩, h⟩
  | some file =>
    have hfile := h.ids.file_some hf
    exact ⟨v, Or.inr ⟨by simp [hfile], rfl, rfl⟩, h⟩

theorem readNextDirent_makes (id : ℕ) :
    Makes w ((readNextDirent api.dirs s w id).bimap (fun current => current) fun s => (s, w))
      (v.ReadsDir api id) := by
  unfold readNextDirent
  cases hd : s.dirHandleMap.lookup id with
  | none => exact ⟨v, Or.inl ⟨h.ids.dir_none hd, rfl, rfl⟩, h⟩
  | some dir =>
    obtain ⟨x, hx, hobj, hnext, -⟩ := h.ids.dir_some hd
    have hcell : w.fileSystems.get? dir.fs = some v.fs := by
      rw [h.ptr_dir hd]
      exact h.setTo.2.cell
    have hread : ∀ {a : Except ℕ (Option DirEntryData)},
        a = entryAnswer (api.dirs.iter v.fs dir.obj)[x.next]? → ∃ v', v.ReadsDir api id a v' ∧
          Holds w ({ s with dirIterMap := s.dirIterMap.replace id ((x.next + 1) % 2 ^ 64) }, w) v' := by
      rintro a rfl
      refine ⟨⟨v.fs, v.ids.advance id x⟩, Or.inr ⟨x, hx, by rw [hobj], rfl⟩, h.setTo,
        ⟨h.borrows.files, h.borrows.dirs⟩, h.ids.advance hx⟩
    rw [hnext]
    dsimp only
    rw [hcell]
    dsimp only
    cases hent : (api.dirs.iter v.fs dir.obj)[x.next]? with
    | none =>
      rw [hent] at hread
      exact hread rfl
    | some ent =>
      rw [hent] at hread
      cases ent with
      | ok r => exact hread rfl
      | error e => exact hread rfl

omit h in
/-- The answer is what the search of the directory ends at. -/
theorem searchDir_makes {v' : FsInUse φ F D} {name : List Char} {P : CallSpec φ F D (ℕ × ℕ)}
    (hh : Holds w (s, w') v') (hfs : dir.fs = w.fsPtr.value)
    (hP : P (findEntry name (api.dirs.iter v'.fs dir.obj)) v') :
    Makes w ((searchDir api.dirs w' dir name).bimap (fun found => found) fun w => (s, w)) P := by
  rw [searchDir_eq hh.setTo.2 (hfs.trans (congrArg Mutex.value hh.setTo.1).symm)]
  cases hf : findEntry name (api.dirs.iter v'.fs dir.obj) with
  | ok found =>
    rw [hf] at hP
    exact ⟨v', hP, hh⟩
  | error code =>
    rw [hf] at hP
    exact ⟨v', hP, hh⟩

theorem statPath_makes (hapi : api.NoPanics) (path : String) :
    Makes w ((statPath api.dirs s w path).bimap (fun found => found) fun w => (s, w))
      (v.Stats api path) := by
  unfold statPath findParent
  cases hp : (parentName path).bind s.hasDir with
  | some id =>
    obtain ⟨name, hname, hid⟩ := Option.bind_eq_some_iff.mp hp
    obtain ⟨x, hx, hxname⟩ := Option.map_eq_some_iff.mp (h.ids.hasDir_eq_some hid)
    dsimp only
    cases hd : s.dirHandleMap.lookup id with
    | none =>
      rw [h.ids.dir_none hd] at hx
      cases hx
    | some dir =>
      obtain ⟨y, hy, hobj, -, -⟩ := h.ids.dir_some hd
      rw [hx] at hy
      cases hy
      refine searchDir_makes h (h.ptr_dir hd) (Or.inl ⟨id, x, hx, ?_, ?_, rfl⟩)
      · rw [hname, hxname]
      · rw [hobj]
  | none =>
    have hnew : ∀ id dir, v.ids.dirs id = some dir → parentName path ≠ some dir.name := by
      intro id dir hdir hname
      rw [hname] at hp
      refine h.ids.hasDir_eq_none hp id ?_
      rw [IdTable.dirNames, hdir]
      rfl
    have hret := h.setTo.2.withFilesystem_returns
      (f := fun st => api.dirs.openParent st (parentName path)) (hapi.openParent v.fs _)
    dsimp only
    rw [openParent_eq]
    cases hr : w.withFilesystem fun st => api.dirs.openParent st (parentName path) with
    | ok dir w' =>
      rw [hr] at hret
      obtain ⟨hfs, st', hst', hset⟩ := hret
      rw [Outcome.andThen_ok, Outcome.andThen_ok]
      refine searchDir_makes (h.set (hset.dropOn hfs _)) hfs (Or.inr ⟨hnew, ?_⟩)
      rw [hst']
      exact ⟨rfl, rfl⟩
    | err code w' =>
      rw [hr] at hret
      obtain ⟨e, st', rfl, hst', hset⟩ := hret
      refine ⟨⟨st', v.ids⟩, Or.inr ⟨hnew, ?_⟩, h.set hset⟩
      rw [hst']
      exact ⟨rfl, rfl⟩
    | panicked w' =>
      rw [hr] at hret
      exact hret

theorem creates_makes {names : ℕ → Option String} {path : String} {f : φ → Outcome IoError φ Unit}
    (hnew : ∀ id, names id ≠ some path) (hf : (f v.fs).result ≠ none) :
    Makes w (Globals.onRoot s w f) (v.Creates names path (f v.fs)) :=
  (h.onRoot_makes hf).mono fun _ _ hP => Or.inr ⟨hnew, hP⟩

end Holds

/-- What holds after one operation, and then another, holds after both. -/
theorem Holds.after {x y : IdStore F D × Mounted φ} {v₁ v' : FsInUse φ F D} (hx : Holds w x v₁)
    (hy : Holds x.2 y v') : Holds w y v' := by
  refine ⟨⟨hy.setTo.1.trans hx.setTo.1, hy.setTo.2⟩, ?_, hy.ids⟩
  rw [← hx.setTo.1]
  exact hy.borrows

/-- What is known by the path is closed, and the path removed. -/
theorem deletes_makes (hapi : api.NoPanics) {names : ℕ → Option String} {path : String}
    {closes : ℕ → CallSpec φ F D Unit} {r : Outcome ℕ (IdStore F D × Mounted φ) Unit}
    (hname : names id = some path) (hr : Makes w r (closes id)) :
    Makes w (r.andThen fun _ x => Globals.onRoot x.1 x.2 fun st => api.dirs.remove st path)
      (v.Deletes api names closes path) := by
  cases r with
  | ok u x =>
    obtain ⟨v₁, hclosed, hx⟩ := hr
    have hx' : Holds x.2 (x.1, x.2) v₁ := by
      refine ⟨hx.setTo.2.setTo_self, ?_, hx.ids⟩
      rw [hx.setTo.1]
      exact hx.borrows
    have hremove := hx'.onRoot_makes (f := fun st => api.dirs.remove st path) (hapi.remove v₁.fs path)
    exact Outcome.Returns.mono hremove
      (fun a y ⟨v', hP, hy⟩ => ⟨v', Or.inr ⟨id, hname, Or.inl ⟨v₁, hclosed, hP⟩⟩, hx.after hy⟩)
      fun code y ⟨v', hP, hy⟩ => ⟨v', Or.inr ⟨id, hname, Or.inl ⟨v₁, hclosed, hP⟩⟩, hx.after hy⟩
  | err code x =>
    obtain ⟨v', hclosed, hx⟩ := hr
    exact ⟨v', Or.inr ⟨id, hname, Or.inr ⟨code, hclosed, rfl⟩⟩, hx⟩
  | panicked x => exact hr

end Operations

end IdStore

/-! ### Calls -/

namespace Globals

variable {U S σ φ T F D α β : Type} {api : FatfsApi φ T F D} {g g' : Globals U φ F D} {s : IdStore F D}
  {v : FsInUse φ F D}

/-- What is behind the pointers is in use as `v`. -/
def HoldsUse (g : Globals U φ F D) (v : FsInUse φ F D) : Prop :=
  ∃ s, g.store? = some s ∧ g.mounted.Current v.fs ∧ s.Implements v.ids

/-- What a call returns and leaves is as `P` says. -/
def Yields (r : Outcome ℕ (Globals U φ F D) α) (P : CallSpec φ F D α) : Prop :=
  r.Returns (fun a g' => ∃ v', P (.ok a) v' ∧ g'.HoldsUse v')
    fun code g' => ∃ v', P (.error code) v' ∧ g'.HoldsUse v'

/-- A call that operates on the store does what the operation does. -/
theorem withIdStore_yields (hs : g.store? = some s) (hp : g.idStorePtr.poisoned = false)
    {f : IdStore F D → Mounted φ → Outcome ℕ (IdStore F D × Mounted φ) α} {toReply : α → β}
    {P : CallSpec φ F D β} (hf : IdStore.Makes g.mounted ((f s g.mounted).bimap toReply fun x => x) P) :
    Yields ((g.withIdStore f).bimap toReply fun g => g) P := by
  have hcell : g.stores.get? g.idStorePtr.value = some s := hs
  rw [withIdStore_bimap, Globals.withIdStore, getIdStore_eq hp hs]
  simp only [hcell]
  cases hr : (f s g.mounted).bimap toReply fun x => x with
  | ok a x =>
    rw [hr] at hf
    obtain ⟨v', hP, hx⟩ := hf
    exact ⟨v', hP, x.1, store?_put hs x, hx.setTo.2, hx.ids⟩
  | err code x =>
    rw [hr] at hf
    obtain ⟨v', hP, hx⟩ := hf
    exact ⟨v', hP, x.1, store?_put hs x, hx.setTo.2, hx.ids⟩
  | panicked x =>
    rw [hr] at hf
    exact hf

/-- **A call under the mutex of the store** does what the service allows. -/
theorem Healthy.storeCall_yields (hapi : api.NoPanics) (h : Healthy g) (hv : g.HoldsUse v)
    {c : StoreCall} (hc : c.badPath = false) : Yields (c.exec api g) (v.Allows api c) := by
  obtain ⟨s, hs, hcur, hids⟩ := hv
  have hp := h.storeUnpoisoned
  have hh : IdStore.Holds g.mounted (s, g.mounted) v := ⟨hcur.setTo_self, h.borrows s hs, hids⟩
  cases c with
  | openFile filepath =>
    cases filepath with
    | none => cases hc
    | some path =>
      simp only [StoreCall.exec, usbFsOpenFile, withPath]
      exact withIdStore_yields hs hp ((hh.openFile_makes hapi path).reply _)
  | closeFile fileid =>
    simp only [StoreCall.exec, usbFsCloseFile]
    exact withIdStore_yields hs hp ((hh.closeFile_makes hapi fileid).reply _)
  | readFile fileid buffer =>
    simp only [StoreCall.exec, usbFsReadFile, Globals.onFile]
    refine withIdStore_yields hs hp ?_
    rw [IdStore.onFile_bimap, Outcome.bimap_bimap]
    exact (hh.onFile_makes (hapi.read buffer.length) fileid).reply _
  | writeFile fileid buffer =>
    simp only [StoreCall.exec, usbFsWriteFile, Globals.onFile]
    exact withIdStore_yields hs hp ((hh.onFile_makes (hapi.write buffer) fileid).reply _)
  | seekFile fileid pos whence =>
    simp only [StoreCall.exec, usbFsSeekFile, FsInUse.Allows]
    cases seekFromOf pos whence with
    | some sf =>
      simp only [Globals.onFile]
      exact withIdStore_yields hs hp ((hh.onFile_makes (hapi.seekTo sf) fileid).reply _)
    | none => exact withIdStore_yields hs hp ((hh.refuses_makes fileid).reply _)
  | syncFile fileid =>
    simp only [StoreCall.exec, usbFsSyncFile, Globals.onFile]
    exact withIdStore_yields hs hp ((hh.onFile_makes hapi.sync fileid).reply _)
  | truncateFile fileid size =>
    simp only [StoreCall.exec, usbFsTruncateFile, Globals.onFile]
    exact withIdStore_yields hs hp ((hh.onFile_makes hapi.truncate fileid).reply _)
  | deleteFile filepath =>
    cases filepath with
    | none => cases hc
    | some path =>
      simp only [StoreCall.exec, usbFsDeleteFile, withPath]
      refine withIdStore_yields hs hp (IdStore.Makes.reply ?_ _)
      cases hf : s.hasFile path with
      | some id => exact IdStore.deletes_makes hapi (hids.hasFile_eq_some hf) (hh.closeFile_makes hapi id)
      | none =>
        exact (hh.onRoot_makes (hapi.remove v.fs path)).mono fun _ _ hP =>
          Or.inl ⟨hids.hasFile_eq_none hf, hP⟩
  | statFile fileid =>
    simp only [StoreCall.exec, usbFsStatFile]
    refine withIdStore_yields hs hp (IdStore.Makes.reply ?_ _)
    rw [hids.nameOf_eq]
    cases hname : v.ids.nameOf fileid with
    | none => exact ⟨v, Or.inl ⟨hname, rfl, rfl⟩, hh⟩
    | some path => exact (hh.statPath_makes hapi path).mono fun _ _ hP => Or.inr ⟨path, hname, hP⟩
  | statPath path =>
    cases path with
    | none => cases hc
    | some path =>
      simp only [StoreCall.exec, usbFsStatPath, withPath]
      exact withIdStore_yields hs hp ((hh.statPath_makes hapi path).reply _)
  | openDir dirpath =>
    cases dirpath with
    | none => cases hc
    | some path =>
      simp only [StoreCall.exec, usbFsOpenDir, withPath]
      exact withIdStore_yields hs hp ((hh.openDir_makes hapi path).reply _)
  | readDir dirid name namemax =>
    simp only [StoreCall.exec, usbFsReadDir, FsInUse.Allows]
    refine withIdStore_yields hs hp ?_
    have hread := IdStore.Makes.reply (P := v.ReadsDir api dirid) (hh.readNextDirent_makes dirid)
      (entryReply name namemax)
    rw [Outcome.bimap_bimap] at hread ⊢
    convert hread using 2
    funext current
    cases current <;> simp only [entryReply]
  | closeDir dirid =>
    simp only [StoreCall.exec, usbFsCloseDir]
    exact withIdStore_yields hs hp ((hh.closeDir_makes dirid).reply _)
  | createDir dirpath =>
    cases dirpath with
    | none => cases hc
    | some path =>
      simp only [StoreCall.exec, usbFsCreateDir, withPath]
      refine withIdStore_yields hs hp (IdStore.Makes.reply ?_ _)
      cases hf : s.hasDir path with
      | some id => exact ⟨v, Or.inl ⟨⟨id, hids.hasDir_eq_some hf⟩, rfl, rfl⟩, hh⟩
      | none =>
        exact hh.creates_makes (hids.hasDir_eq_none hf) (Outcome.result_andThen_ne_none
          (hapi.createDir v.fs path) fun dir fs => by simp [Outcome.result])
  | deleteDir dirpath =>
    cases dirpath with
    | none => cases hc
    | some path =>
      simp only [StoreCall.exec, usbFsDeleteDir, withPath]
      refine withIdStore_yields hs hp (IdStore.Makes.reply ?_ _)
      cases hf : s.hasDir path with
      | some id => exact IdStore.deletes_makes hapi (hids.hasDir_eq_some hf) (hh.closeDir_makes id)
      | none =>
        exact (hh.onRoot_makes (hapi.remove v.fs path)).mono fun _ _ hP =>
          Or.inl ⟨hids.hasDir_eq_none hf, hP⟩
  | createFile filepath =>
    cases filepath with
    | none => cases hc
    | some path =>
      simp only [StoreCall.exec, usbFsCreateFile, withPath]
      refine withIdStore_yields hs hp (IdStore.Makes.reply ?_ _)
      cases hf : s.hasFile path with
      | some id => exact ⟨v, Or.inl ⟨⟨id, hids.hasFile_eq_some hf⟩, rfl, rfl⟩, hh⟩
      | none =>
        exact hh.creates_makes (hids.hasFile_eq_none hf) (Outcome.result_andThen_ne_none
          (hapi.createFile v.fs path) fun f fs => by simp [Outcome.result])

end Globals

/-! ### The service -/

/-- The service is down, or up with a context and what is in use. -/
abbrev Service (U φ F D : Type) := Option (UsbFsServiceContext U × FsInUse φ F D)

namespace Globals

variable {U S σ φ T F D α : Type} {api : FatfsApi φ T F D} {g g' : Globals U φ F D}

/-- What `usbFsIsReady` answers. -/
def readiness (query : QueryInterfaces U) : Service U φ F D → Except ℕ Unit
  | none => .error nxFatdriveErrNotInitialized
  | some x => readyCode query x.1

/-- What `usbFsDeviceGetMountStatus` makes of that. -/
def mountStatus : Except ℕ Unit → ℕ
  | .ok _ => 1
  | .error code => if code ≠ 0 then 0 else 1

/-- One call on the service.  What is behind the mount of a set-up is not part of it: every set-up that
succeeds brings a file system of its own. -/
inductive ServiceStep (api : FatfsApi φ T F D) :
    Service U φ F D → ApiLabel U S σ φ → Service U φ F D → Prop
  | down : ServiceStep api none (.isInitialized, some (.error nxFatdriveErrNotInitialized)) none
  | up (x) : ServiceStep api (some x) (.isInitialized, some (.ok .nothing)) (some x)
  | initUp (x su) : ServiceStep api (some x) (.init su, some (.ok .nothing)) (some x)
  | initDone {su ctx fs} (h : su.connect = some (.ok (ctx, fs) ())) :
      ServiceStep api none (.init su, some (.ok .nothing)) (some (ctx, ⟨fs, .blank⟩))
  | initFailed {su code} (h : su.connect = some (.err code ())) :
      ServiceStep api none (.init su, some (.error code)) none
  | exit (v) (logOpens) :
      ServiceStep api v (.exit logOpens, some (.ok .nothing)) (if logOpens then none else v)
  | isReady (v) (query) :
      ServiceStep api v (.isReady query, some ((readiness query v).map fun _ => .nothing)) v
  | deviceUpdate (v) (query) :
      ServiceStep api v (.deviceUpdate query, some ((readiness query v).map fun _ => .nothing)) v
  | deviceGetMountStatus (v) (query) : ServiceStep api v
      (.deviceGetMountStatus query, some (.ok (.status (mountStatus (readiness query v))))) v
  | getMountStatus (v) : ServiceStep api v (.getMountStatus, some (.error nxFatdriveErrNotImplemented)) v
  | readRaw (v) (sector sectorcount) :
      ServiceStep api v (.readRaw sector sectorcount, some (.error nxFatdriveErrNotImplemented)) v
  | deviceRegister (v) : ServiceStep api v (.deviceRegister, some (.ok .nothing)) v
  | noSizes : ServiceStep api none (.statFilesystem, some (.error nxFatdriveErrNotInitialized)) none
  | sizes {a v v'} (ctx) (h : (v.OnFs (api.stats v.fs)).reply sizesReply a v') :
      ServiceStep api (some (ctx, v)) (.statFilesystem, some a) (some (ctx, v'))
  | badPath {c} (v) (h : c.badPath = true) :
      ServiceStep api v (.store c, some (.error nxFatdriveErrUnknown)) v
  | refused {c} (h : c.badPath = false) :
      ServiceStep api none (.store c, some (.error nxFatdriveErrNotInitialized)) none
  | call {c a v v'} (ctx) (h : c.badPath = false) (ha : v.Allows api c a v') :
      ServiceStep api (some (ctx, v)) (.store c, some a) (some (ctx, v'))

variable {v : Service U φ F D}

/-- The globals are the service: it is down as long as there is no store. -/
def Implements (g : Globals U φ F D) : Service U φ F D → Prop
  | none => g.idStorePtr.value = 0
  | some x => g.context? = some x.1 ∧ g.HoldsUse x.2

theorem implements_initial : (initial : Globals U φ F D).Implements none := rfl

theorem HoldsUse.ne_zero {u : FsInUse φ F D} (h : g.HoldsUse u) : g.idStorePtr.value ≠ 0 := by
  obtain ⟨s, hs, -, -⟩ := h
  exact store?_eq_some hs

/-- What is in use does not depend on the context. -/
theorem Implements.put {ctx : UsbFsServiceContext U} {u u' : FsInUse φ F D}
    (h : g.Implements (some (ctx, u))) (hput : Put g g') (hu : g'.HoldsUse u') :
    g'.Implements (some (ctx, u')) := by
  refine ⟨?_, hu⟩
  rw [context?, hput.ctxPtr, hput.contexts]
  exact h.1

theorem Healthy.implements_setUp (h : Healthy g) (ctx : UsbFsServiceContext U) (fs : φ) :
    (g.setUp ctx fs).Implements (some (ctx, ⟨fs, .blank⟩)) := by
  have hcur : (g.setUp ctx fs).mounted.Current fs :=
    ⟨Mutex.lockedPtr_eq_ok.mpr ⟨h.fsUnpoisoned, rfl, g.mounted.fileSystems.alloc_fst_ne_zero fs⟩,
      Heap.get?_alloc_self _ fs⟩
  exact ⟨Heap.get?_alloc_self g.contexts ctx, .new, Heap.get?_alloc_self g.stores .new, hcur,
    IdStore.implements_new⟩

/-- A call about the drive. -/
theorem Healthy.isReady_result (h : Healthy g) (hv : g.Implements v) (query : QueryInterfaces U) :
    (g.usbFsIsReady query).result = some (readiness query v) ∧ (g.usbFsIsReady query).state = g := by
  cases v with
  | none =>
    rw [h.isReady_down hv]
    exact ⟨rfl, rfl⟩
  | some x =>
    rw [h.isReady_up hv.2.ne_zero hv.1]
    cases hcode : readyCode query x.1 with
    | ok u =>
      simp only [readiness, hcode]
      exact ⟨rfl, rfl⟩
    | error code =>
      simp only [readiness, hcode]
      exact ⟨rfl, rfl⟩

theorem Healthy.mountStatus_result (h : Healthy g) (hv : g.Implements v) (query : QueryInterfaces U) :
    (g.usbFsDeviceGetMountStatus query).result = some (.ok (mountStatus (readiness query v))) ∧
      (g.usbFsDeviceGetMountStatus query).state = g := by
  obtain ⟨hres, hstate⟩ := h.isReady_result hv query
  unfold usbFsDeviceGetMountStatus
  cases hr : g.usbFsIsReady query with
  | ok u g' =>
    rw [hr] at hres hstate
    cases hstate
    rw [← Option.some_inj.mp hres]
    exact ⟨rfl, rfl⟩
  | err code g' =>
    rw [hr] at hres hstate
    cases hstate
    rw [← Option.some_inj.mp hres]
    exact ⟨rfl, rfl⟩
  | panicked g' =>
    rw [hr] at hres
    cases hres

/-- What a call leaves is the service after a step. -/
def Steps (api : FatfsApi φ T F D) (v : Service U φ F D) (c : ApiCall U S σ φ)
    (r : Outcome ℕ (Globals U φ F D) Reply) : Prop :=
  ∃ v', ServiceStep api v (c, r.result) v' ∧ r.state.Implements v'

/-- A query leaves the service. -/
theorem Implements.query (hv : g.Implements v) {r : Outcome ℕ (Globals U φ F D) α} {f : α → Reply}
    {a : Except ℕ α} {c : ApiCall U S σ φ} (hr : r.result = some a ∧ r.state = g)
    (hstep : ServiceStep api v (c, some (a.map f)) v) : Steps api v c (r.bimap f fun g => g) := by
  obtain ⟨hres, hstate⟩ := hr
  cases r with
  | ok b g' =>
    cases hres
    cases hstate
    exact ⟨v, hstep, hv⟩
  | err code g' =>
    cases hres
    cases hstate
    exact ⟨v, hstep, hv⟩
  | panicked g' => cases hres

/-- A set-up. -/
theorem Healthy.init_step (h : Healthy g) (hv : g.Implements v) {su : SetUp U S σ φ} (hsu : su.NoPanics)
    {r : Outcome ℕ (Globals U φ F D) Unit} (hr : g.usbFsInitialize su = some r) :
    Steps api v (.init su) (r.bimap (fun _ => Reply.nothing) fun g => g) := by
  cases v with
  | none =>
    obtain ⟨hnone, hok, herr⟩ := h.initialize_down hv su
    cases hc : su.connect with
    | none =>
      rw [hnone hc] at hr
      cases hr
    | some x =>
      cases x with
      | ok x u =>
        rw [hok x hc] at hr
        cases hr
        exact ⟨_, .initDone hc, h.implements_setUp x.1 x.2⟩
      | err code u =>
        obtain ⟨g', hg', heq⟩ := herr code hc
        rw [hg'] at hr
        cases hr
        refine ⟨none, .initFailed hc, ?_⟩
        rcases heq with rfl | ⟨ctx, rfl⟩
        · exact hv
        · exact hv
      | panicked u => exact absurd hc (SetUp.connect_not_panicked hsu)
  | some x =>
    rw [h.initialize_up hv.2.ne_zero] at hr
    cases hr
    exact ⟨_, .initUp x su, hv⟩

/-- A call under the mutex of the store. -/
theorem Healthy.store_step (hapi : api.NoPanics) (h : Healthy g) (hv : g.Implements v) (c : StoreCall) :
    Steps api v (.store c : ApiCall U S σ φ) (c.exec api g) := by
  cases hc : c.badPath with
  | true =>
    rw [storeCall_badPath hc]
    exact ⟨v, .badPath v hc, hv⟩
  | false =>
    have hans : Answers g (c.exec api g) := h.storeCall hapi hc
    cases v with
    | none =>
      rw [Answers, if_pos (show g.idStorePtr.value = 0 from hv)] at hans
      rw [hans]
      exact ⟨none, .refused hc, hv⟩
    | some x =>
      have hyields := h.storeCall_yields hapi hv.2 hc
      rw [Answers, if_neg hv.2.ne_zero] at hans
      cases hr : c.exec api g with
      | ok rep g' =>
        rw [hr] at hans hyields
        obtain ⟨u', hallow, hu⟩ := hyields
        exact ⟨_, .call x.1 hc hallow, hv.put hans hu⟩
      | err code g' =>
        rw [hr] at hans hyields
        obtain ⟨u', hallow, hu⟩ := hyields
        exact ⟨_, .call x.1 hc hallow, hv.put hans.2 hu⟩
      | panicked g' =>
        rw [hr] at hans
        exact hans.elim

/-- The sizes of the file system. -/
theorem Healthy.statFilesystem_step (hapi : api.NoPanics) (h : Healthy g) (hv : g.Implements v) :
    Steps api v (.statFilesystem : ApiCall U S σ φ)
      ((usbFsStatFilesystem api g).bimap (fun r => Reply.sizes r.1 r.2) fun g => g) := by
  cases v with
  | none =>
    have hans := h.statFilesystem hapi
    rw [Answers, if_pos (show g.idStorePtr.value = 0 from hv)] at hans
    rw [hans]
    exact ⟨none, .noSizes, hv⟩
  | some x =>
    obtain ⟨hctx, s, hs, hcur, hids⟩ := hv
    have hret := hcur.withFilesystem_returns (f := api.stats) (hapi.stats x.2.fs)
    have hholds : ∀ {w' : Mounted φ} {fs : φ}, g.mounted.SetTo fs w' →
        Implements { g with mounted := w' } (some (x.1, ⟨fs, x.2.ids⟩)) :=
      fun hset => ⟨hctx, s, hs, hset.2, hids⟩
    unfold usbFsStatFilesystem
    cases hr : g.mounted.withFilesystem api.stats with
    | ok info w' =>
      rw [hr] at hret
      obtain ⟨-, fs, hstats, hset⟩ := hret
      refine ⟨_, .sizes x.1 ⟨.ok info.obj, ?_, rfl⟩, hholds hset⟩
      simp only [FsInUse.OnFs, Gives, hstats]
      exact ⟨rfl, rfl⟩
    | err code w' =>
      rw [hr] at hret
      obtain ⟨e, fs, rfl, hstats, hset⟩ := hret
      refine ⟨_, .sizes x.1 ⟨.error (LibnxErrMapper.map e), ?_, rfl⟩, hholds hset⟩
      simp only [FsInUse.OnFs, Gives, hstats]
      exact ⟨rfl, rfl⟩
    | panicked w' =>
      rw [hr] at hret
      exact hret.elim

/-- **One call** is a step of the service. -/
theorem service_step (hapi : api.NoPanics) (h : Healthy g) (hv : g.Implements v) {l : ApiLabel U S σ φ}
    (hst : Guard (ApiStep api) (fun _ l => NoPanicIn l.1) g l g') :
    ∃ v', ServiceStep api v l v' ∧ g'.Implements v' := by
  obtain ⟨c, a⟩ := l
  obtain ⟨hc, r, hr, rfl, rfl⟩ := hst
  cases c with
  | isInitialized =>
    cases hr
    cases v with
    | none =>
      rw [if_neg (h.not_success hv), h.notInitialized hv]
      exact ⟨none, .down, hv⟩
    | some x =>
      rw [if_pos (h.isInitialized_iff.mpr hv.2.ne_zero)]
      exact ⟨some x, .up x, hv⟩
  | init su =>
    obtain ⟨r, hinit, rfl⟩ := Option.map_eq_some_iff.mp hr
    exact h.init_step hv hc hinit
  | exit logOpens =>
    cases hr
    cases logOpens with
    | false => exact ⟨v, .exit v false, hv⟩
    | true => exact ⟨none, .exit v true, (h.exit api.dirs).2⟩
  | isReady query =>
    cases hr
    exact hv.query (h.isReady_result hv query) (.isReady v query)
  | deviceUpdate query =>
    cases hr
    exact hv.query (h.isReady_result hv query) (.deviceUpdate v query)
  | deviceGetMountStatus query =>
    cases hr
    exact hv.query (h.mountStatus_result hv query) (.deviceGetMountStatus v query)
  | getMountStatus =>
    cases hr
    exact ⟨v, .getMountStatus v, hv⟩
  | readRaw sector sectorcount =>
    cases hr
    exact ⟨v, .readRaw v sector sectorcount, hv⟩
  | deviceRegister =>
    cases hr
    exact ⟨v, .deviceRegister v, hv⟩
  | statFilesystem =>
    cases hr
    exact h.statFilesystem_step hapi hv
  | store c =>
    cases hr
    exact h.store_step hapi hv c

/-- Runs from a healthy state. -/
theorem Healthy.run_service (hapi : api.NoPanics) {ls : List (ApiLabel U S σ φ)}
    (hrun : Run (Guard (ApiStep api) fun _ l => NoPanicIn l.1) g ls g') (h : Healthy g)
    (hv : g.Implements v) : ∃ v', Run (ServiceStep api) v ls v' ∧ g'.Implements v' := by
  have hstep : ∀ (g : Globals U φ F D) (l : ApiLabel U S σ φ) g' v, Healthy g ∧ g.Implements v →
      Guard (ApiStep api) (fun _ l => NoPanicIn l.1) g l g' →
      ∃ v', ServiceStep api v l v' ∧ Healthy g' ∧ g'.Implements v' := by
    rintro g l g' v ⟨h, hv⟩ hst
    obtain ⟨v', hs, hv'⟩ := service_step hapi h hv hst
    refine ⟨v', hs, ?_, hv'⟩
    obtain ⟨hc, r, hr, -, rfl⟩ := hst
    exact (h.exec hapi hc hr).state (fun _ _ h => h) fun _ _ h => h
  obtain ⟨v', hsrv, -, hv'⟩ := hrun.simulates hstep v ⟨h, hv⟩
  exact ⟨v', hsrv, hv'⟩

end Globals

end FatDrive
