import FatDrive.FileOps
import FatDrive.UsbFsLifetime

/-!
# FatDrive.UsbFsFiles — reading, writing, seeking and truncating by id

The entry points that operate on an open file.  Each looks the `File` of the id up in the store and
operates on it, on the file system it borrows; `fileAt?` is that `File` with that file system.

* `onFile_of_fileAt`, `onFile_eq_ok`: what such a call returns, and what becomes of the file;
* `relative_eq`: an offset below zero is decoded as the one above it;
* `seek_decodes_iff`: which offsets are handed on, arrived at and undone as they are.
-/

namespace FatDrive

open Lib

variable {φ F D E L C : Type}

/-! ### The calls -/

/-- Operate on a file of the store.  Behind a dangling reference the program stops. -/
def IdStore.onFile {α : Type} (s : IdStore F D) (w : Mounted φ) (id : ℕ)
    (f : F × φ → Outcome ℕ (F × φ) α) : Outcome ℕ (IdStore F D × Mounted φ) α :=
  match s.getFileHandle id with
  | .error code => .err code (s, w)
  | .ok file =>
    match w.fileSystems.get? file.fs with
    | none => .panicked (s, w)
    | some st => (f (file.obj, st)).bimap (fun a => a) fun x =>
        ({ s with fileHandleMap := s.fileHandleMap.replace id ⟨file.fs, x.1⟩ },
         { w with fileSystems := w.fileSystems.set file.fs x.2 })

/-- On a file that is open. -/
theorem IdStore.onFile_eq {α : Type} {s : IdStore F D} {w : Mounted φ} {id fs : ℕ} {x : F × φ}
    {f : F × φ → Outcome ℕ (F × φ) α} (hf : s.fileHandleMap.lookup id = some ⟨fs, x.1⟩)
    (hst : w.fileSystems.get? fs = some x.2) :
    s.onFile w id f = (f x).bimap (fun a => a) fun y =>
      ({ s with fileHandleMap := s.fileHandleMap.replace id ⟨fs, y.1⟩ },
        { w with fileSystems := w.fileSystems.set fs y.2 }) := by
  simp only [IdStore.onFile, IdStore.getFileHandle, hf, hst]

/-- How `usbFsSeekFile` reads the two's complement of an offset. -/
def relative (pos : ℕ) : ℤ :=
  if pos > 2 ^ 63 - 1 then -1 * asI64 (2 ^ 64 - 1 - pos) else asI64 pos

/-- The `SeekFrom` of a position and a `whence`. -/
def seekFromOf (pos : ℕ) : ℕ → Option SeekFrom
  | 0 => some (.start pos)
  | 1 => some (.current (relative pos))
  | 2 => some (.fromEnd (relative pos))
  | _ => none

namespace Globals

variable {U α : Type}

def onFile (g : Globals U φ F D) (fileid : ℕ) (f : F × φ → Outcome ℕ (F × φ) α) :
    Outcome ℕ (Globals U φ F D) α :=
  g.withIdStore fun s w => s.onFile w fileid f

variable (crate : FatfsFileOps φ E F)

/-- With what the buffer holds afterwards. -/
def usbFsReadFile (g : Globals U φ F D) (fileid : ℕ) (buffer : List UInt8) :
    Outcome ℕ (Globals U φ F D) (ℕ × List UInt8) :=
  g.onFile fileid fun x =>
    ((crate.read buffer.length x).mapErr LibnxErrMapper.map).bimap
      (fun data => (data.length, data ++ buffer.drop data.length)) fun x => x

def usbFsWriteFile (g : Globals U φ F D) (fileid : ℕ) (buffer : List UInt8) :
    Outcome ℕ (Globals U φ F D) ℕ :=
  g.onFile fileid fun x => (crate.write buffer x).mapErr LibnxErrMapper.map

/-- A `whence` that is none of the three is refused once the file has been found. -/
def usbFsSeekFile (g : Globals U φ F D) (fileid pos whence : ℕ) : Outcome ℕ (Globals U φ F D) ℕ :=
  match seekFromOf pos whence with
  | some sf => g.onFile fileid fun x => (crate.seekTo sf x).mapErr LibnxErrMapper.map
  | none => g.withIdStore fun s w =>
    match s.getFileHandle fileid with
    | .error code => .err code (s, w)
    | .ok _ => .err (nxFatdriveErrNotImplemented * 2 ^ 8 + nxFatdriveErrModule) (s, w)

def usbFsSyncFile (g : Globals U φ F D) (fileid : ℕ) : Outcome ℕ (Globals U φ F D) Unit :=
  g.onFile fileid fun x => (crate.flush x).mapErr LibnxErrMapper.map

/-- The size is not used. -/
def usbFsTruncateFile (g : Globals U φ F D) (fileid _size : ℕ) : Outcome ℕ (Globals U φ F D) Unit :=
  g.onFile fileid fun x => (crate.truncate x).mapErr LibnxErrMapper.map

/-! ### The file of an id -/

/-- The file an id stands for, with the file system it borrows. -/
def fileAt? (g : Globals U φ F D) (id : ℕ) : Option (F × φ) :=
  g.store?.bind fun s => (s.fileHandleMap.lookup id).bind fun file =>
    (g.mounted.fileSystems.get? file.fs).map fun st => (file.obj, st)

theorem fileAt?_eq_some {g : Globals U φ F D} {id : ℕ} {x : F × φ} :
    g.fileAt? id = some x ↔ ∃ s fs, g.store? = some s ∧
      s.fileHandleMap.lookup id = some ⟨fs, x.1⟩ ∧ g.mounted.fileSystems.get? fs = some x.2 := by
  simp only [fileAt?, Option.bind_eq_some_iff, Option.map_eq_some_iff]
  constructor
  · rintro ⟨s, hs, file, hf, st, hst, rfl⟩
    exact ⟨s, file.fs, hs, hf, hst⟩
  · rintro ⟨s, fs, hs, hf, hst⟩
    exact ⟨s, hs, ⟨fs, x.1⟩, hf, x.2, hst, rfl⟩

variable {crate} {g g' : Globals U φ F D} {id : ℕ} {x : F × φ} {f : F × φ → Outcome ℕ (F × φ) α}

/-- The file after the store and what is mounted have been put back. -/
theorem fileAt?_put {s : IdStore F D} {fs : ℕ} (hs : g.store? = some s)
    (hf : s.fileHandleMap.lookup id = some ⟨fs, x.1⟩)
    (hst : g.mounted.fileSystems.get? fs = some x.2) (y : F × φ) :
    (g.put g.idStorePtr.value
      ({ s with fileHandleMap := s.fileHandleMap.replace id ⟨fs, y.1⟩ },
        { g.mounted with fileSystems := g.mounted.fileSystems.set fs y.2 })).fileAt? id = some y := by
  refine fileAt?_eq_some.mpr ⟨_, fs, store?_put hs _, ?_, Heap.get?_set_self hst y.2⟩
  show (s.fileHandleMap.replace id ⟨fs, y.1⟩).lookup id = _
  rw [lookup_replace, if_pos rfl, hf, Option.map_some]

/-- A call on a file that is open returns what the operation does, and leaves the file so. -/
theorem onFile_of_fileAt (hp : g.idStorePtr.poisoned = false) (hx : g.fileAt? id = some x) :
    (g.onFile id f).result = (f x).result ∧ (g.onFile id f).state.fileAt? id = some (f x).state := by
  obtain ⟨s, fs, hs, hf, hst⟩ := fileAt?_eq_some.mp hx
  have hput := fileAt?_put hs hf hst (f x).state
  obtain ⟨hresult, hstate⟩ := withIdStore_of_store hp hs fun s w => s.onFile w id f
  rw [IdStore.onFile_eq hf hst] at hresult hstate
  rw [Outcome.state_bimap] at hstate
  refine ⟨hresult.trans (Outcome.result_bimap_id ..), ?_⟩
  -- whether the mutex is poisoned makes no difference to the file
  rcases hstate with hstate | hstate
  · rw [onFile, hstate]
    exact hput
  · rw [onFile, hstate]
    exact hput

/-- A call that succeeds has found the file open. -/
theorem onFile_eq_ok {a : α} (h : g.onFile id f = .ok a g') :
    ∃ x y, g.idStorePtr.poisoned = false ∧ g.fileAt? id = some x ∧ f x = .ok a y ∧
      g'.fileAt? id = some y := by
  obtain ⟨s, y, hp, hs, hin, -⟩ := withIdStore_eq_ok h
  unfold IdStore.onFile IdStore.getFileHandle at hin
  cases hf : s.fileHandleMap.lookup id with
  | none => simp [hf] at hin
  | some file =>
    cases hst : g.mounted.fileSystems.get? file.fs with
    | none => simp [hf, hst] at hin
    | some st =>
      have hx : g.fileAt? id = some (file.obj, st) := fileAt?_eq_some.mpr ⟨s, file.fs, hs, hf, hst⟩
      obtain ⟨hres, hstate⟩ := onFile_of_fileAt (f := f) hp hx
      rw [h] at hres hstate
      obtain ⟨y, hy⟩ := Outcome.result_eq_ok.mp hres.symm
      rw [hy] at hstate
      exact ⟨(file.obj, st), y, hp, hx, hy, hstate⟩

/-! ### Seeking -/

/-- **The decoding.**  The complement is taken, but not the one that is added to it. -/
theorem relative_eq {r : ℤ} (h : -2 ^ 63 ≤ r) (h' : r < 2 ^ 63) :
    relative (i64AsUsize r) = if r < 0 then r + 1 else r := by
  split
  · next hneg =>
    have hu := i64AsUsize_of_neg (by omega) hneg
    have hrest : 2 ^ 64 - 1 - i64AsUsize r < 2 ^ 63 := by omega
    rw [relative, if_pos (by omega), asI64_of_lt hrest]
    omega
  · next hnonneg =>
    have hu := i64AsUsize_of_nonneg (x := r) (by omega) (by omega)
    rw [relative, if_neg (by omega), asI64_of_lt (by omega), hu]

theorem usbFsSeekFile_eq_ok {pos whence n : ℕ} (h : usbFsSeekFile crate g id pos whence = .ok n g') :
    ∃ sf x y, seekFromOf pos whence = some sf ∧ g.fileAt? id = some x ∧
      crate.seekTo sf x = .ok n y ∧ g'.fileAt? id = some y := by
  unfold usbFsSeekFile at h
  cases hsf : seekFromOf pos whence with
  | none =>
    simp only [hsf] at h
    obtain ⟨s, y, -, -, hin, -⟩ := withIdStore_eq_ok h
    cases hfile : s.getFileHandle id <;> simp [hfile] at hin
  | some sf =>
    simp only [hsf] at h
    obtain ⟨x, y, -, hx, hres, hy⟩ := onFile_eq_ok h
    cases hseek : crate.seekTo sf x with
    | ok m z =>
      simp only [hseek, Outcome.mapErr, Outcome.ok.injEq] at hres
      obtain ⟨rfl, rfl⟩ := hres
      exact ⟨sf, x, z, rfl, hx, hseek, hy⟩
    | err e z => simp [hseek, Outcome.mapErr] at hres
    | panicked z => simp [hseek, Outcome.mapErr] at hres

section Decoding

variable {view : FileView φ E F L C} {fl : F} {st : φ} {r : ℤ} {n m : ℕ}

/-- What a seek by an offset relative to the position arrives at. -/
theorem seek_current_ok (laws : crate.Seeks view) (h : -2 ^ 63 ≤ r) (h' : r < 2 ^ 63)
    (hx : g.fileAt? id = some (fl, st))
    (hseek : usbFsSeekFile crate g id (i64AsUsize r) 1 = .ok n g') :
    ∃ fl' st', g'.fileAt? id = some (fl', st') ∧ view.pos fl' = n ∧ view.file fl' = view.file fl ∧
      n = min (view.pos fl + if r < 0 then r + 1 else r).toNat (view.file fl).length := by
  obtain ⟨sf, x, ⟨fl', st'⟩, hsf, hx', hok, hy⟩ := usbFsSeekFile_eq_ok hseek
  cases hx.symm.trans hx'
  cases hsf
  obtain ⟨-, hn, hpos, hfile⟩ := laws.seek_ok hok
  refine ⟨fl', st', hy, hpos, hfile, ?_⟩
  rw [hn, ← relative_eq h h']
  rfl

/-- The same from the end of the file. -/
theorem seek_end_ok (laws : crate.Seeks view) (h : -2 ^ 63 ≤ r) (h' : r < 2 ^ 63)
    (hx : g.fileAt? id = some (fl, st))
    (hseek : usbFsSeekFile crate g id (i64AsUsize r) 2 = .ok n g') :
    n = min ((view.file fl).length + if r < 0 then r + 1 else r).toNat (view.file fl).length := by
  obtain ⟨sf, x, ⟨fl', st'⟩, hsf, hx', hok, -⟩ := usbFsSeekFile_eq_ok hseek
  cases hx.symm.trans hx'
  cases hsf
  obtain ⟨-, hn, -, -⟩ := laws.seek_ok hok
  rw [hn, ← relative_eq h h']
  rfl

/-- **Signed offsets.**  An offset is handed on as it is, and arrived at, exactly if it is not
negative; a relative seek and its inverse lead back exactly if the offset is zero, or if the second
seek would have gone past the end. -/
theorem seek_decodes_iff (laws : crate.Seeks view) (h : -2 ^ 63 ≤ r) (h' : r < 2 ^ 63) :
    ((seekFromOf (i64AsUsize r) 1 = some (.current r) ↔ 0 ≤ r) ∧
      (seekFromOf (i64AsUsize r) 2 = some (.fromEnd r) ↔ 0 ≤ r)) ∧
    ∀ (g g' : Globals U φ F D) (id n : ℕ) (fl : F) (st : φ),
      g.fileAt? id = some (fl, st) → view.pos fl ≤ (view.file fl).length →
      (usbFsSeekFile crate g id (i64AsUsize r) 1 = .ok n g' →
        0 ≤ view.pos fl + r → view.pos fl + r ≤ (view.file fl).length →
        ((n : ℤ) = view.pos fl + r ↔ 0 ≤ r) ∧
        ∀ g'' m, -2 ^ 63 < r → usbFsSeekFile crate g' id (i64AsUsize (-r)) 1 = .ok m g'' →
          (m = view.pos fl ↔ r = 0 ∨ r < 0 ∧ view.pos fl = (view.file fl).length)) ∧
      (usbFsSeekFile crate g id (i64AsUsize r) 2 = .ok n g' →
        0 ≤ (view.file fl).length + r → (view.file fl).length + r ≤ (view.file fl).length →
        ((n : ℤ) = (view.file fl).length + r ↔ 0 ≤ r)) := by
  have hexact : (if r < 0 then r + 1 else r) = r ↔ 0 ≤ r := by split <;> omega
  refine ⟨⟨?_, ?_⟩, fun g g' id n fl st hx hle => ⟨fun hseek h₀ h₁ => ⟨?_, ?_⟩, fun hseek h₀ h₁ => ?_⟩⟩
  · rw [seekFromOf, relative_eq h h', Option.some_inj, SeekFrom.current.injEq]
    exact hexact
  · rw [seekFromOf, relative_eq h h', Option.some_inj, SeekFrom.fromEnd.injEq]
    exact hexact
  · obtain ⟨-, -, -, -, -, hn⟩ := seek_current_ok laws h h' hx hseek
    split at hn <;> omega
  · intro g'' m hmin hback
    obtain ⟨fl', st', hx', hpos, hfile, hn⟩ := seek_current_ok laws h h' hx hseek
    obtain ⟨-, -, -, -, -, hm⟩ := seek_current_ok laws (by omega) (by omega) hx' hback
    rw [hpos, hfile] at hm
    split at hn <;> split at hm <;> omega
  · have hn := seek_end_ok laws h h' hx hseek
    split at hn <;> omega

end Decoding

/-- A mounted volume whose file is open as id 0, at a position. -/
def openAt (bytes : List UInt8) (pos : ℕ) : Globals Unit OneFile OpenFile Unit where
  usbHsCtxPtr := { value := 0 }
  idStorePtr := { value := 1 }
  mounted := { fsPtr := { value := 1 }, fileSystems := (Heap.empty.alloc (volumeWith bytes)).2 }
  contexts := .empty
  stores := (Heap.empty.alloc (IdStore.insertFile .new "a"
    ⟨1, { recorded := (volumeWith bytes).recorded, pos := pos, dirty := false }⟩).2).2

theorem fileAt?_openAt (bytes : List UInt8) (pos : ℕ) : (openAt bytes pos).fileAt? 0 =
    some ({ recorded := (volumeWith bytes).recorded, pos := pos, dirty := false }, volumeWith bytes) :=
  rfl

/-- A step back by one, and forth again. -/
theorem seek_decodes_back_one : ∃ g' g'',
    usbFsSeekFile OneFile.ops (openAt [1, 2, 3, 4] 2) 0 (i64AsUsize (-1)) 1 = .ok 2 g' ∧
    usbFsSeekFile OneFile.ops g' 0 (i64AsUsize (-(-1))) 1 = .ok 3 g'' ∧
    (((2 : ℕ) : ℤ) = ((2 : ℕ) : ℤ) + -1 ↔ (0 : ℤ) ≤ -1) ∧
    (3 = 2 ↔ (-1 : ℤ) = 0 ∨ (-1 : ℤ) < 0 ∧ 2 = 4) := by
  have hback : (usbFsSeekFile OneFile.ops (openAt [1, 2, 3, 4] 2) 0 (i64AsUsize (-1)) 1).result =
      some (.ok 2) := by decide +kernel
  obtain ⟨g', hg'⟩ := Outcome.result_eq_ok.mp hback
  have hforth : (usbFsSeekFile OneFile.ops (usbFsSeekFile OneFile.ops (openAt [1, 2, 3, 4] 2) 0
      (i64AsUsize (-1)) 1).state 0 (i64AsUsize (-(-1))) 1).result = some (.ok 3) := by decide +kernel
  rw [hg'] at hforth
  obtain ⟨g'', hg''⟩ := Outcome.result_eq_ok.mp hforth
  have hfile := fileAt?_openAt [1, 2, 3, 4] 2
  obtain ⟨hpos, hround⟩ := ((seek_decodes_iff (r := -1) OneFile.ops_seeksInRange.toSeeks (by decide)
    (by decide)).2 _ g' 0 2 _ _ hfile (by decide)).1 hg' (by decide) (by decide)
  exact ⟨g', g'', hg', hg'', hpos, hround g'' 3 (by decide) hg''⟩

/-- **A step back by one does not move.**  It is decoded as a step by zero; the step forth then
leads past where it began. -/
theorem step_back_stays :
    seekFromOf (i64AsUsize (-1)) 1 = some (.current 0) ∧
    seekFromOf (i64AsUsize (-1)) 2 = some (.fromEnd 0) ∧
    (usbFsSeekFile OneFile.ops (openAt [1, 2, 3, 4] 2) 0 (i64AsUsize (-1)) 1).result = some (.ok 2) ∧
    (usbFsSeekFile OneFile.ops (usbFsSeekFile OneFile.ops (openAt [1, 2, 3, 4] 2) 0
      (i64AsUsize (-1)) 1).state 0 (i64AsUsize 1) 1).result = some (.ok 3) := by
  decide +kernel

end Globals

end FatDrive
