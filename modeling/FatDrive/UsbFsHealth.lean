import FatDrive.NewlibPartitions
import FatDrive.StatLength
import FatDrive.UsbFsApi

/-!
# FatDrive.UsbFsHealth — no sequence of calls panics

* `Healthy`: no mutex is poisoned, the pointers are set in order and every handle borrows the file
  system behind `fs_ptr`;
* `Healthy.storeCall`: what a call under the mutex of the store does to a healthy state;
* `Healthy.init`, `Healthy.exit`: what a set-up and a tear-down leave;
* `run_healthy`: if the crates do not panic, no sequence of calls does, nor does any of them follow a
  dangling pointer.
-/

namespace FatDrive

open Lib

/-! ### What the crates promise -/

/-- No function of the `fatfs` crate panics. -/
structure FatfsApi.NoPanics {φ T F D : Type} (api : FatfsApi φ T F D) : Prop where
  openFile : ∀ st path, (api.dirs.openFile st path).result ≠ none
  openDir : ∀ st path, (api.dirs.openDir st path).result ≠ none
  createFile : ∀ st path, (api.dirs.createFile st path).result ≠ none
  createDir : ∀ st path, (api.dirs.createDir st path).result ≠ none
  remove : ∀ st path, (api.dirs.remove st path).result ≠ none
  flush : ∀ st f, (api.dirs.flush st f).result ≠ none
  read : ∀ room x, (api.files.read room x).result ≠ none
  write : ∀ buff x, (api.files.write buff x).result ≠ none
  seekTo : ∀ sf x, (api.files.seekTo sf x).result ≠ none
  sync : ∀ x, (api.files.flush x).result ≠ none
  truncate : ∀ x, (api.files.truncate x).result ≠ none
  stats : ∀ st, (api.stats st).result ≠ none

/-- Mounting does not panic, and a boot record that is accepted has an entry. -/
structure SetUp.NoPanics {U S σ φ : Type} (su : SetUp U S σ φ) : Prop where
  newFs : ∀ d, (su.newFs d).result ≠ none
  fromBytes : ∀ bytes entries, su.mbr.fromBytes bytes = .ok entries → entries ≠ []

/-- A code that an operation on the store or the volume returns. -/
inductive VolumeCode : ℕ → Prop
  | io (e : IoError) : VolumeCode (LibnxErrMapper.map e)
  | fileNotFound : VolumeCode nxFatdriveErrFileNotFound
  | unknown : VolumeCode nxFatdriveErrUnknown
  | whence : VolumeCode (nxFatdriveErrNotImplemented * 2 ^ 8 + nxFatdriveErrModule)

/-! ### Operations on what is mounted -/

variable {U S σ φ T F D α β : Type}

namespace Mounted

variable {w w' w'' : Mounted φ}

/-- The pointer is set to a file system that is there, and its mutex is not poisoned. -/
structure Attached (w : Mounted φ) : Prop where
  unpoisoned : w.fsPtr.poisoned = false
  live : w.fileSystems.Live w.fsPtr.value

/-- The pointer is the same, and the file systems that were there still are. -/
structure Stays (w w' : Mounted φ) : Prop where
  ptr : w'.fsPtr = w.fsPtr
  moved : w.Moved (fun _ _ => True) w'

theorem Stays.refl (w : Mounted φ) : w.Stays w := ⟨rfl, .refl (fun _ => trivial) w⟩

theorem Stays.trans (h : w.Stays w') (h' : w'.Stays w'') : w.Stays w'' :=
  ⟨h'.ptr.trans h.ptr, h.moved.trans (fun _ _ _ _ _ => trivial) h'.moved⟩

theorem Stays.attached (h : w.Stays w') (ha : w.Attached) : w'.Attached := by
  refine ⟨?_, ?_⟩
  · rw [h.ptr]
    exact ha.unpoisoned
  · rw [h.ptr]
    exact h.moved.live ha.live

theorem set_stays {fs : ℕ} {st : φ} (hst : w.fileSystems.get? fs = some st) (st' : φ) :
    w.Stays { w with fileSystems := w.fileSystems.set fs st' } :=
  ⟨rfl, set_moved (fun _ => trivial) hst trivial⟩

theorem dropOn_stays (fs : ℕ) (drop : φ → φ) : w.Stays (w.dropOn fs drop) :=
  ⟨dropOn_fsPtr fs drop, dropOn_moved (fun _ => trivial) fun _ => trivial⟩

theorem onFs_returns {fs : ℕ} (hl : w.fileSystems.Live fs) {f : φ → Outcome IoError φ α}
    (hf : ∀ st, (f st).result ≠ none) :
    (w.onFs fs f).Returns (fun _ w' => w.Stays w') fun _ w' => w.Stays w' := by
  obtain ⟨st, hst⟩ := Heap.live_iff.mp hl
  have hr := hf st
  simp only [onFs, hst]
  cases hfst : f st with
  | ok a st' => exact set_stays hst st'
  | err e st' => exact set_stays hst st'
  | panicked st' =>
    rw [hfst] at hr
    exact hr rfl

theorem withFilesystem_returns (h : w.Attached) {f : φ → Outcome IoError φ α}
    (hf : ∀ st, (f st).result ≠ none) :
    (w.withFilesystem f).Returns (fun x w' => x.fs = w.fsPtr.value ∧ w.Stays w')
      fun code w' => VolumeCode code ∧ w.Stays w' := by
  have hne : w.fsPtr.value ≠ 0 := by
    intro h0
    have hl := h.live
    rw [h0] at hl
    exact Heap.not_live_zero _ hl
  have hget : w.getFilesystem = .ok w.fsPtr.value :=
    Mutex.lockedPtr_eq_ok.mpr ⟨h.unpoisoned, rfl, hne⟩
  have hon := onFs_returns h.live hf
  simp only [withFilesystem, hget]
  cases hr : w.onFs w.fsPtr.value f with
  | ok a w' =>
    rw [hr] at hon
    exact ⟨rfl, hon⟩
  | err e w' =>
    rw [hr] at hon
    exact ⟨.io e, hon⟩
  | panicked w' =>
    rw [hr] at hon
    exact hon

end Mounted

/-! ### Operations on the store -/

namespace IdStore

variable {api : FatfsApi φ T F D} {s : IdStore F D} {w : Mounted φ}

/-- What is mounted stays, and every handle borrows the file system behind the pointer. -/
structure Kept (w : Mounted φ) (x : IdStore F D × Mounted φ) : Prop where
  stays : w.Stays x.2
  borrows : x.1.Borrows w.fsPtr.value

/-- The operation does not panic, it keeps the handles, and an error of it is about the volume. -/
def Serves (w : Mounted φ) (r : Outcome ℕ (IdStore F D × Mounted φ) α) : Prop :=
  r.Returns (fun _ x => Kept w x) fun code x => VolumeCode code ∧ Kept w x

theorem Serves.bimap {r : Outcome ℕ (IdStore F D × Mounted φ) α} (h : Serves w r) (f : α → β) :
    Serves w (r.bimap f fun x => x) :=
  Outcome.Returns.bimap h (fun _ _ h => h) fun _ _ h => h

/-- It is enough that the handles are kept by the state that is left in the end. -/
theorem serves_of_borrows {r : Outcome ℕ (IdStore F D × Mounted φ) α}
    (h : r.Returns (fun _ x => w.Stays x.2) fun code x => VolumeCode code ∧ w.Stays x.2)
    (hb : r.state.1.Borrows w.fsPtr.value) : Serves w r := by
  cases r with
  | ok a x => exact ⟨h, hb⟩
  | err code x => exact ⟨h.1, h.2, hb⟩
  | panicked x => exact h

theorem openNewFile_returns (hapi : api.NoPanics) (ha : w.Attached) (path : String) :
    (openNewFile api.dirs w path).Returns (fun x w' => x.fs = w.fsPtr.value ∧ w.Stays w')
      fun code w' => VolumeCode code ∧ w.Stays w' :=
  Mounted.withFilesystem_returns ha fun st => hapi.openFile st path

theorem openNewDir_returns (hapi : api.NoPanics) (ha : w.Attached) (path : String) :
    (openNewDir api.dirs w path).Returns (fun x w' => x.fs = w.fsPtr.value ∧ w.Stays w')
      fun code w' => VolumeCode code ∧ w.Stays w' := by
  refine Mounted.withFilesystem_returns ha fun st => ?_
  split
  · simp [Outcome.result]
  · exact hapi.openDir st path

theorem openFile_serves (hapi : api.NoPanics) (ha : w.Attached) (hb : s.Borrows w.fsPtr.value)
    (path : String) : Serves w (openFile api.dirs s w path) := by
  refine serves_of_borrows ?_ (openFile_borrows hb path)
  have h := openNewFile_returns hapi ha path
  unfold openFile
  cases s.hasFile path with
  | some id => exact .refl w
  | none =>
    dsimp only
    cases hr : openNewFile api.dirs w path with
    | ok fl w' =>
      rw [hr] at h
      exact h.2
    | err code w' =>
      rw [hr] at h
      exact h
    | panicked w' =>
      rw [hr] at h
      exact h

theorem openDir_serves (hapi : api.NoPanics) (ha : w.Attached) (hb : s.Borrows w.fsPtr.value)
    (path : String) : Serves w (openDir api.dirs s w path) := by
  refine serves_of_borrows ?_ (openDir_borrows hb path)
  have h := openNewDir_returns hapi ha path
  unfold openDir
  cases s.hasDir path with
  | some id => exact .refl w
  | none =>
    dsimp only
    cases hr : openNewDir api.dirs w path with
    | ok fl w' =>
      rw [hr] at h
      exact h.2
    | err code w' =>
      rw [hr] at h
      exact h
    | panicked w' =>
      rw [hr] at h
      exact h

theorem closeFile_serves (hapi : api.NoPanics) (ha : w.Attached) (hb : s.Borrows w.fsPtr.value)
    (id : ℕ) : Serves w (closeFile api.dirs s w id) := by
  refine serves_of_borrows ?_ (closeFile_borrows hb id)
  unfold closeFile
  cases hf : s.fileHandleMap.lookup id with
  | none => exact ⟨.fileNotFound, .refl w⟩
  | some f =>
    have hlive : w.fileSystems.Live f.fs := by
      rw [hb.files id f hf]
      exact ha.live
    have h := Mounted.onFs_returns hlive fun st => hapi.flush st f.obj
    dsimp only
    cases hr : w.onFs f.fs fun st => api.dirs.flush st f.obj with
    | ok u w' =>
      rw [hr] at h
      exact h.trans (Mounted.dropOn_stays ..)
    | err e w' =>
      rw [hr] at h
      exact ⟨.io e, h.trans (Mounted.dropOn_stays ..)⟩
    | panicked w' =>
      rw [hr] at h
      exact h

theorem closeDir_serves (hb : s.Borrows w.fsPtr.value) (id : ℕ) :
    Serves w (closeDir api.dirs s w id) := by
  refine serves_of_borrows ?_ (closeDir_borrows hb id)
  unfold closeDir
  cases s.dirHandleMap.lookup id with
  | none => exact ⟨.fileNotFound, .refl w⟩
  | some d => exact Mounted.dropOn_stays ..

/-- An operation on the root directory, with the store locked. -/
theorem onRoot_serves (ha : w.Attached) (hb : s.Borrows w.fsPtr.value)
    {f : φ → Outcome IoError φ Unit} (hf : ∀ st, (f st).result ≠ none) :
    Serves w (Globals.onRoot s w f) :=
  (Mounted.withFilesystem_returns ha hf).bimap (fun _ _ h => ⟨h.2, hb⟩) fun _ _ h => ⟨h.1, h.2, hb⟩

/-- An operation on what an operation before it has kept. -/
theorem Serves.andThen {r : Outcome ℕ (IdStore F D × Mounted φ) α}
    {f : α → IdStore F D × Mounted φ → Outcome ℕ (IdStore F D × Mounted φ) β} (ha : w.Attached)
    (h : Serves w r) (hf : ∀ a x, x.2.Attached → x.1.Borrows x.2.fsPtr.value → Serves x.2 (f a x)) :
    Serves w (r.andThen f) := by
  refine Outcome.Returns.andThen h fun a x hx => ?_
  have hb : x.1.Borrows x.2.fsPtr.value := by
    rw [hx.stays.ptr]
    exact hx.borrows
  have hkept : ∀ y : IdStore F D × Mounted φ, Kept x.2 y → Kept w y := by
    intro y hy
    refine ⟨hx.stays.trans hy.stays, ?_⟩
    rw [← hx.stays.ptr]
    exact hy.borrows
  exact Outcome.Returns.mono (hf a x (hx.stays.attached ha) hb) (fun _ y hy => hkept y hy)
    fun _ y hy => ⟨hy.1, hkept y hy.2⟩

/-- Close what has that name, then remove it. -/
theorem remove_serves (hapi : api.NoPanics) (ha : w.Attached)
    {r : Outcome ℕ (IdStore F D × Mounted φ) Unit} (h : Serves w r) (path : String) :
    Serves w (r.andThen fun _ x => Globals.onRoot x.1 x.2 fun st => api.dirs.remove st path) :=
  h.andThen ha fun _ _ ha' hb' => onRoot_serves ha' hb' fun st => hapi.remove st path

theorem onFile_serves (ha : w.Attached) (hb : s.Borrows w.fsPtr.value) (id : ℕ)
    {f : F × φ → Outcome ℕ (F × φ) α}
    (hf : ∀ x, (f x).Returns (fun _ _ => True) fun code _ => VolumeCode code) :
    Serves w (s.onFile w id f) := by
  cases hl : s.fileHandleMap.lookup id with
  | none =>
    simp only [onFile, getFileHandle, hl]
    exact ⟨.fileNotFound, .refl w, hb⟩
  | some file =>
    have hlive : w.fileSystems.Live file.fs := by
      rw [hb.files id file hl]
      exact ha.live
    obtain ⟨st, hst⟩ := Heap.live_iff.mp hlive
    have hput : ∀ y : F × φ, Kept w
        ({ s with fileHandleMap := s.fileHandleMap.replace id ⟨file.fs, y.1⟩ },
          { w with fileSystems := w.fileSystems.set file.fs y.2 }) := by
      intro y
      refine ⟨Mounted.set_stays hst y.2, fun id' f hf => ?_, hb.dirs⟩
      rw [lookup_replace] at hf
      split at hf
      · obtain ⟨_, -, rfl⟩ := Option.map_eq_some_iff.mp hf
        exact hb.files id file hl
      · exact hb.files id' f hf
    rw [onFile_eq (x := (file.obj, st)) hl hst]
    exact (hf (file.obj, st)).bimap (fun _ y _ => hput y) fun _ y hc => ⟨hc, hput y⟩

/-- What a `File` returns an `io::Error` for is reported as a code of the volume. -/
theorem mapErr_returns {r : Outcome IoError (F × φ) α} (h : r.result ≠ none) :
    (r.mapErr fun e => LibnxErrMapper.map e).Returns (fun _ _ => True) fun code _ => VolumeCode code :=
  ((Outcome.returns_of_result h).mono (fun _ _ _ => trivial) fun _ _ h => h).mapErr fun e _ _ => .io e

theorem readNextDirent_serves (ha : w.Attached) (hb : s.Borrows w.fsPtr.value) (id : ℕ) :
    Serves w ((readNextDirent api.dirs s w id).bimap (fun current => current) fun s => (s, w)) := by
  unfold readNextDirent
  cases hd : s.dirHandleMap.lookup id with
  | none => exact ⟨.fileNotFound, .refl w, hb⟩
  | some dir =>
    dsimp only
    cases s.dirIterMap.lookup id with
    | none => exact ⟨.unknown, .refl w, hb⟩
    | some idx =>
      have hlive : w.fileSystems.Live dir.fs := by
        rw [hb.dirs id dir hd]
        exact ha.live
      obtain ⟨st, hst⟩ := Heap.live_iff.mp hlive
      dsimp only
      rw [hst]
      dsimp only
      split
      · exact ⟨.refl w, hb.files, hb.dirs⟩
      · exact ⟨.io _, .refl w, hb.files, hb.dirs⟩
      · exact ⟨.refl w, hb.files, hb.dirs⟩

theorem findEntry_code (entName : List Char) : ∀ (l : List (Except IoError DirEntry)) {code : ℕ},
    findEntry entName l = .error code → VolumeCode code
  | [], _, h => by
    cases h
    exact .fileNotFound
  | .error e :: _, _, h => by
    cases h
    exact .io e
  | .ok ent :: rest, _, h => by
    rw [findEntry] at h
    split at h
    · exact findEntry_code entName rest h
    · cases h

theorem statPath_returns (hapi : api.NoPanics) (ha : w.Attached) (hb : s.Borrows w.fsPtr.value)
    (path : String) : (statPath api.dirs s w path).Returns (fun _ w' => w.Stays w')
      fun code w' => VolumeCode code ∧ w.Stays w' := by
  have hopen : ∀ parent, (openParent api.dirs w parent).Returns
      (fun dir w' => dir.fs = w.fsPtr.value ∧ w.Stays w')
      fun code w' => VolumeCode code ∧ w.Stays w' := by
    intro parent
    refine (Mounted.withFilesystem_returns ha fun st => ?_).andThen
      fun dir w' h => ⟨h.1, h.2.trans (Mounted.dropOn_stays ..)⟩
    cases parent with
    | none => simp [Outcome.result]
    | some name =>
      dsimp only
      split
      · simp [Outcome.result]
      · exact hapi.openDir st name
  have hfind : (findParent api.dirs s w (parentName path)).Returns
      (fun dir w' => dir.fs = w.fsPtr.value ∧ w.Stays w')
      fun code w' => VolumeCode code ∧ w.Stays w' := by
    unfold findParent
    cases (parentName path).bind s.hasDir with
    | none => exact hopen _
    | some id =>
      dsimp only
      cases hd : s.dirHandleMap.lookup id with
      | none => exact ⟨.unknown, .refl w⟩
      | some dir => exact ⟨hb.dirs id dir hd, .refl w⟩
  refine hfind.andThen fun dir w' h => ?_
  have hlive : w'.fileSystems.Live dir.fs := by
    rw [h.1]
    exact h.2.moved.live ha.live
  obtain ⟨st, hst⟩ := Heap.live_iff.mp hlive
  unfold searchDir listing
  rw [hst]
  simp only [Option.map_some]
  cases hf : findEntry (entName path) (api.dirs.iter st dir.obj) with
  | ok found => exact h.2
  | error code => exact ⟨findEntry_code _ _ hf, h.2⟩

end IdStore

/-! ### Calls -/

namespace Globals

variable {api : FatfsApi φ T F D} {g g' : Globals U φ F D}

/-- No mutex is poisoned, what is set up is set up wholly but for a context, and the pointers and the
handles are sound. -/
structure Healthy (g : Globals U φ F D) : Prop extends Sound g where
  ctxUnpoisoned : g.usbHsCtxPtr.poisoned = false
  fsUnpoisoned : g.mounted.fsPtr.poisoned = false
  storeUnpoisoned : g.idStorePtr.poisoned = false
  fsNeedsStore : g.mounted.fsPtr.value ≠ 0 → g.idStorePtr.value ≠ 0

theorem healthy_initial : Healthy (initial : Globals U φ F D) where
  toSound := sound_initial
  ctxUnpoisoned := rfl
  fsUnpoisoned := rfl
  storeUnpoisoned := rfl
  fsNeedsStore := absurd rfl

theorem Healthy.isInitialized_iff (h : Healthy g) :
    g.usbFsIsInitialized = success ↔ g.idStorePtr.value ≠ 0 := by
  rw [Globals.isInitialized_iff]
  constructor
  · intro hi
    exact hi.1.2
  · intro h0
    have hfs := h.storeNeedsFs h0
    exact ⟨⟨h.storeUnpoisoned, h0⟩, ⟨h.ctxUnpoisoned, h.fsNeedsCtx hfs⟩, h.fsUnpoisoned, hfs⟩

/-- What `usbFsIsInitialized` returns where the set-up is not complete. -/
theorem Healthy.notInitialized (h : Healthy g) (h0 : g.idStorePtr.value = 0) :
    g.usbFsIsInitialized = nxFatdriveErrNotInitialized := by
  have hid : g.idStorePtr.lock = some g.idStorePtr.value :=
    Mutex.lock_eq_some.mpr ⟨h.storeUnpoisoned, rfl⟩
  have hctx : g.usbHsCtxPtr.lock = some g.usbHsCtxPtr.value :=
    Mutex.lock_eq_some.mpr ⟨h.ctxUnpoisoned, rfl⟩
  have hfs : g.mounted.fsPtr.lock = some g.mounted.fsPtr.value :=
    Mutex.lock_eq_some.mpr ⟨h.fsUnpoisoned, rfl⟩
  simp only [usbFsIsInitialized, hid, hctx, hfs]
  rw [if_neg fun hall => hall.1 h0]

theorem Healthy.store_of_ne (h : Healthy g) (h0 : g.idStorePtr.value ≠ 0) :
    ∃ s, g.store? = some s := Heap.live_iff.mp (h.store h0)

theorem Healthy.attached (h : Healthy g) (h0 : g.mounted.fsPtr.value ≠ 0) : g.mounted.Attached :=
  ⟨h.fsUnpoisoned, h.fs h0⟩

/-- What a call under the mutex of the store leaves. -/
structure Put (g g' : Globals U φ F D) : Prop where
  healthy : Healthy g'
  storePtr : g'.idStorePtr = g.idStorePtr
  ctxPtr : g'.usbHsCtxPtr = g.usbHsCtxPtr
  contexts : g'.contexts = g.contexts

theorem Healthy.put (h : Healthy g) {s : IdStore F D} (hs : g.store? = some s)
    {x : IdStore F D × Mounted φ} (hx : IdStore.Kept g.mounted x) :
    Put g (g.put g.idStorePtr.value x) where
  healthy :=
    { toSound := h.toSound.put hs hx.stays.moved hx.borrows
      ctxUnpoisoned := h.ctxUnpoisoned
      fsUnpoisoned := by
        show x.2.fsPtr.poisoned = false
        rw [hx.stays.ptr]
        exact h.fsUnpoisoned
      storeUnpoisoned := h.storeUnpoisoned
      fsNeedsStore := fun _ h0 => store?_eq_some hs h0 }
  storePtr := rfl
  ctxPtr := rfl
  contexts := rfl

/-- What a call returns that is refused while there is no store, and about the volume otherwise. -/
def Answers (g : Globals U φ F D) (r : Outcome ℕ (Globals U φ F D) α) : Prop :=
  if g.idStorePtr.value = 0 then r = .err nxFatdriveErrNotInitialized g
  else r.Returns (fun _ g' => Put g g') fun code g' => VolumeCode code ∧ Put g g'

theorem Healthy.withIdStore (h : Healthy g)
    {f : IdStore F D → Mounted φ → Outcome ℕ (IdStore F D × Mounted φ) α}
    (hf : ∀ s w, w.Attached → s.Borrows w.fsPtr.value → IdStore.Serves w (f s w)) :
    Answers g (g.withIdStore f) := by
  unfold Answers
  split
  · next h0 =>
    have hget : g.getIdStore = .error nxFatdriveErrNotInitialized := by
      unfold getIdStore Mutex.lockedPtr
      rw [Mutex.lock_eq_some.mpr ⟨h.storeUnpoisoned, h0⟩]
      rfl
    rw [Globals.withIdStore, hget]
  · next h0 =>
    obtain ⟨s, hs⟩ := h.store_of_ne h0
    have hcell : g.stores.get? g.idStorePtr.value = some s := hs
    have hserves := hf s g.mounted (h.attached (h.storeNeedsFs h0)) (h.borrows s hs)
    rw [Globals.withIdStore, getIdStore_eq h.storeUnpoisoned hs]
    simp only [hcell]
    cases hr : f s g.mounted with
    | ok a x =>
      rw [hr] at hserves
      exact h.put hs hserves
    | err code x =>
      rw [hr] at hserves
      exact ⟨hserves.1, h.put hs hserves.2⟩
    | panicked x =>
      rw [hr] at hserves
      exact hserves

theorem withIdStore_bimap (f : IdStore F D → Mounted φ → Outcome ℕ (IdStore F D × Mounted φ) α)
    (toReply : α → β) : (g.withIdStore f).bimap toReply (fun g => g) =
      g.withIdStore fun s w => (f s w).bimap toReply fun x => x := by
  unfold withIdStore
  cases g.getIdStore with
  | error code => rfl
  | ok a =>
    dsimp only
    cases g.stores.get? a with
    | none => rfl
    | some s =>
      dsimp only
      cases f s g.mounted <;> rfl

/-- A call that operates on the store, with its reply. -/
theorem Healthy.onStore (h : Healthy g)
    {f : IdStore F D → Mounted φ → Outcome ℕ (IdStore F D × Mounted φ) α}
    (hf : ∀ s w, w.Attached → s.Borrows w.fsPtr.value → IdStore.Serves w (f s w))
    (toReply : α → β) : Answers g ((g.withIdStore f).bimap toReply fun g => g) := by
  rw [withIdStore_bimap]
  exact h.withIdStore fun s w ha hb => (hf s w ha hb).bimap toReply

/-- A call that operates on the store, and is given a path. -/
theorem Healthy.onPath (h : Healthy g)
    {f : String → IdStore F D → Mounted φ → Outcome ℕ (IdStore F D × Mounted φ) α} (path : String)
    (hf : ∀ s w, w.Attached → s.Borrows w.fsPtr.value → IdStore.Serves w (f path s w))
    (toReply : α → β) :
    Answers g ((g.withPath (some path) f).bimap toReply fun g => g) := h.onStore hf toReply

theorem storeCall_badPath {c : StoreCall} (hc : c.badPath = true) :
    c.exec api g = .err nxFatdriveErrUnknown g := by
  cases c with
  | openFile filepath => cases filepath with | none => rfl | some path => cases hc
  | deleteFile filepath => cases filepath with | none => rfl | some path => cases hc
  | statPath path => cases path with | none => rfl | some path => cases hc
  | openDir dirpath => cases dirpath with | none => rfl | some path => cases hc
  | createDir dirpath => cases dirpath with | none => rfl | some path => cases hc
  | deleteDir dirpath => cases dirpath with | none => rfl | some path => cases hc
  | createFile filepath => cases filepath with | none => rfl | some path => cases hc
  | _ => cases hc

/-- **A call under the mutex of the store**, unless it is refused for its path. -/
theorem Healthy.storeCall (hapi : api.NoPanics) (h : Healthy g) {c : StoreCall}
    (hc : c.badPath = false) : Answers g (c.exec api g) := by
  cases c with
  | openFile filepath =>
    cases filepath with
    | none => cases hc
    | some path => exact h.onPath path (fun s w ha hb => IdStore.openFile_serves hapi ha hb path) _
  | closeFile fileid =>
    exact h.onStore (fun s w ha hb => IdStore.closeFile_serves hapi ha hb fileid) _
  | readFile fileid buffer =>
    refine h.onStore (fun s w ha hb => IdStore.onFile_serves ha hb fileid fun x => ?_) _
    exact (IdStore.mapErr_returns (hapi.read _ x)).bimap (fun _ _ h => h) fun _ _ h => h
  | writeFile fileid buffer =>
    refine h.onStore (fun s w ha hb => IdStore.onFile_serves ha hb fileid fun x => ?_) _
    exact IdStore.mapErr_returns (hapi.write _ x)
  | seekFile fileid pos whence =>
    show Answers g ((usbFsSeekFile api.files g fileid pos whence).bimap Reply.count fun g => g)
    unfold usbFsSeekFile
    cases seekFromOf pos whence with
    | none =>
      refine h.onStore (fun s w ha hb => ?_) _
      unfold IdStore.getFileHandle
      cases s.fileHandleMap.lookup fileid with
      | none => exact ⟨.fileNotFound, .refl w, hb⟩
      | some f => exact ⟨.whence, .refl w, hb⟩
    | some sf =>
      refine h.onStore (fun s w ha hb => IdStore.onFile_serves ha hb fileid fun x => ?_) _
      exact IdStore.mapErr_returns (hapi.seekTo _ x)
  | syncFile fileid =>
    refine h.onStore (fun s w ha hb => IdStore.onFile_serves ha hb fileid fun x => ?_) _
    exact IdStore.mapErr_returns (hapi.sync x)
  | truncateFile fileid size =>
    refine h.onStore (fun s w ha hb => IdStore.onFile_serves ha hb fileid fun x => ?_) _
    exact IdStore.mapErr_returns (hapi.truncate x)
  | deleteFile filepath =>
    cases filepath with
    | none => cases hc
    | some path =>
      refine h.onPath path (fun s w ha hb => ?_) _
      cases s.hasFile path with
      | some id => exact IdStore.remove_serves hapi ha (IdStore.closeFile_serves hapi ha hb id) path
      | none => exact IdStore.onRoot_serves ha hb fun st => hapi.remove st path
  | statFile fileid =>
    refine h.onStore (fun s w ha hb => ?_) _
    cases hp : s.getPathForId fileid with
    | error code =>
      obtain rfl : code = nxFatdriveErrFileNotFound := by
        unfold IdStore.getPathForId at hp
        split at hp
        · cases hp
        · split at hp <;> cases hp
          rfl
      exact ⟨.fileNotFound, .refl w, hb⟩
    | ok path =>
      exact (IdStore.statPath_returns hapi ha hb path).bimap (fun _ _ h => ⟨h, hb⟩)
        fun _ _ h => ⟨h.1, h.2, hb⟩
  | statPath path =>
    cases path with
    | none => cases hc
    | some path =>
      refine h.onPath path (fun s w ha hb => ?_) _
      exact (IdStore.statPath_returns hapi ha hb path).bimap (fun _ _ h => ⟨h, hb⟩)
        fun _ _ h => ⟨h.1, h.2, hb⟩
  | openDir dirpath =>
    cases dirpath with
    | none => cases hc
    | some path => exact h.onPath path (fun s w ha hb => IdStore.openDir_serves hapi ha hb path) _
  | readDir dirid name namemax =>
    refine h.onStore (fun s w ha hb => ?_) _
    have hread : IdStore.Serves w ((IdStore.readNextDirent api.dirs s w dirid).bimap
        (fun current => current) fun s => (s, w)) := IdStore.readNextDirent_serves ha hb dirid
    cases hr : IdStore.readNextDirent api.dirs s w dirid with
    | ok current s' =>
      rw [hr] at hread
      exact hread
    | err code s' =>
      rw [hr] at hread
      exact hread
    | panicked s' =>
      rw [hr] at hread
      exact hread
  | closeDir dirid => exact h.onStore (fun s w ha hb => IdStore.closeDir_serves hb dirid) _
  | createDir dirpath =>
    cases dirpath with
    | none => cases hc
    | some path =>
      refine h.onPath path (fun s w ha hb => ?_) _
      cases s.hasDir path with
      | some id => exact ⟨.refl w, hb⟩
      | none =>
        refine IdStore.onRoot_serves ha hb fun st => ?_
        exact Outcome.result_andThen_ne_none (hapi.createDir st path) fun a st => by simp [Outcome.result]
  | deleteDir dirpath =>
    cases dirpath with
    | none => cases hc
    | some path =>
      refine h.onPath path (fun s w ha hb => ?_) _
      cases s.hasDir path with
      | some id => exact IdStore.remove_serves hapi ha (IdStore.closeDir_serves hb id) path
      | none => exact IdStore.onRoot_serves ha hb fun st => hapi.remove st path
  | createFile filepath =>
    cases filepath with
    | none => cases hc
    | some path =>
      refine h.onPath path (fun s w ha hb => ?_) _
      cases s.hasFile path with
      | some id => exact ⟨.refl w, hb⟩
      | none =>
        refine IdStore.onRoot_serves ha hb fun st => ?_
        exact Outcome.result_andThen_ne_none (hapi.createFile st path) fun a st => by simp [Outcome.result]

/-! ### Setting up and tearing down -/

end Globals

/-- What a set-up comes to: the context and the file system, or a code. -/
def SetUp.connect (su : SetUp U S σ φ) : Option (Outcome ℕ Unit (UsbFsServiceContext U × φ)) :=
  match su.prepare with
  | .error e => some (.err (LibnxErrMapper.map e) ())
  | .ok (ctx, innerDevice) =>
    (su.mount innerDevice).map fun r => r.bimap (fun fs => (ctx, fs)) fun _ => ()

theorem SetUp.mount_not_panicked {su : SetUp U S σ φ} (hsu : su.NoPanics) (inner : σ) :
    su.mount inner ≠ some (.panicked ()) := by
  intro h
  obtain ⟨r, hr, h⟩ := Option.map_eq_some_iff.mp h
  obtain ⟨read, hread, rfl⟩ := Option.map_eq_some_iff.mp hr
  cases read with
  | err e st => cases h
  | panicked st => exact readMbr_not_panicked _ _ _ hread
  | ok mbrBuff st =>
    simp only [Outcome.mapErr, Outcome.andThen_ok] at h
    cases hfrom : su.mbr.fromBytes mbrBuff.inner with
    | error e =>
      rw [hfrom] at h
      cases h
    | ok entries =>
      rw [hfrom] at h
      cases entries with
      | nil => exact hsu.fromBytes _ _ hfrom rfl
      | cons ent entries =>
        have hnew := hsu.newFs (.new su.scsi st (rawOffset ent su.scsi.blockSize))
        simp only [List.getElem?_cons_zero, Outcome.bimap, Outcome.andThen_ok] at h
        cases hfs : su.newFs (.new su.scsi st (rawOffset ent su.scsi.blockSize)) with
        | ok fs u =>
          rw [hfs] at h
          cases h
        | err e u =>
          rw [hfs] at h
          cases h
        | panicked u =>
          rw [hfs] at hnew
          exact hnew rfl

theorem SetUp.connect_not_panicked {su : SetUp U S σ φ} (hsu : su.NoPanics) :
    su.connect ≠ some (.panicked ()) := by
  unfold SetUp.connect
  split
  · simp
  · next ctx inner _ =>
    intro h
    obtain ⟨r, hr, h⟩ := Option.map_eq_some_iff.mp h
    cases r with
    | ok fs u => cases h
    | err code u => cases h
    | panicked u => exact SetUp.mount_not_panicked hsu inner hr

namespace Globals

variable {su : SetUp U S σ φ}

/-- The state a set-up leaves that has gone all the way. -/
def setUp (g : Globals U φ F D) (ctx : UsbFsServiceContext U) (fs : φ) : Globals U φ F D :=
  ((g.setCtx ctx).setFs fs).setIdStore .new

/-- A call is turned away while the set-up is complete. -/
theorem Healthy.initialize_up (h : Healthy g) (h0 : g.idStorePtr.value ≠ 0) :
    g.usbFsInitialize su = some (.ok () g) := by
  rw [usbFsInitialize, if_pos (h.isInitialized_iff.mpr h0)]

theorem Healthy.not_success (h : Healthy g) (h0 : g.idStorePtr.value = 0) :
    g.usbFsIsInitialized ≠ success := fun hs => h.isInitialized_iff.mp hs h0

/-- The result of a call that is not turned away is that of the set-up. -/
theorem Healthy.initialize_down (h : Healthy g) (h0 : g.idStorePtr.value = 0)
    (su : SetUp U S σ φ) :
    (su.connect = none → g.usbFsInitialize su = none) ∧
    (∀ x, su.connect = some (.ok x ()) → g.usbFsInitialize su = some (.ok () (g.setUp x.1 x.2))) ∧
    ∀ code, su.connect = some (.err code ()) → ∃ g', g.usbFsInitialize su = some (.err code g') ∧
      (g' = g ∨ ∃ ctx, g' = g.setCtx ctx) := by
  have hn := h.not_success h0
  cases hp : su.prepare with
  | error e =>
    have hinit : g.usbFsInitialize su = some (.err (LibnxErrMapper.map e) g) := by
      rw [usbFsInitialize, if_neg hn, hp]
    simp only [SetUp.connect, hp]
    refine ⟨by simp, by simp, fun code hc => ?_⟩
    cases hc
    exact ⟨g, hinit, Or.inl rfl⟩
  | ok x =>
    obtain ⟨ctx, inner⟩ := x
    have hinit := Publishes.initialize_eq (g := g) ⟨hn, hp, h.ctxUnpoisoned⟩
    rw [hinit]
    simp only [SetUp.connect, hp]
    cases hm : su.mount inner with
    | none => exact ⟨fun _ => rfl, by simp, by simp⟩
    | some r =>
      refine ⟨by simp, fun x hx => ?_, fun code hc => ?_⟩
      · cases r with
        | ok fs u =>
          cases hx
          have hfs : (g.setCtx ctx).mounted.fsPtr.lock = some g.mounted.fsPtr.value :=
            Mutex.lock_eq_some.mpr ⟨h.fsUnpoisoned, rfl⟩
          have hid : ((g.setCtx ctx).setFs fs).idStorePtr.lock = some g.idStorePtr.value :=
            Mutex.lock_eq_some.mpr ⟨h.storeUnpoisoned, rfl⟩
          simp only [publishMounted, publishFs, hfs, Outcome.andThen_ok, publishIdStore, hid]
          rfl
        | err code u => cases hx
        | panicked u => cases hx
      · cases r with
        | ok fs u => cases hc
        | err code' u =>
          cases hc
          exact ⟨g.setCtx ctx, rfl, Or.inr ⟨ctx, rfl⟩⟩
        | panicked u => cases hc

theorem Healthy.setCtx (h : Healthy g) (ctx : UsbFsServiceContext U) : Healthy (g.setCtx ctx) where
  toSound := h.toSound.setCtx ctx
  ctxUnpoisoned := h.ctxUnpoisoned
  fsUnpoisoned := h.fsUnpoisoned
  storeUnpoisoned := h.storeUnpoisoned
  fsNeedsStore := h.fsNeedsStore

theorem Healthy.setUp (h : Healthy g) (h0 : g.idStorePtr.value = 0) (ctx : UsbFsServiceContext U)
    (fs : φ) : Healthy (g.setUp ctx fs) where
  toSound := by
    refine Sound.setIdStore ((h.toSound.setCtx ctx).setFs (g.contexts.alloc_fst_ne_zero ctx) fs ?_)
      (g.mounted.fileSystems.alloc_fst_ne_zero fs)
    exact fun s hs => absurd h0 (store?_eq_some (g := g) hs)
  ctxUnpoisoned := h.ctxUnpoisoned
  fsUnpoisoned := h.fsUnpoisoned
  storeUnpoisoned := h.storeUnpoisoned
  fsNeedsStore := fun _ => g.stores.alloc_fst_ne_zero .new

/-- **A set-up** does not panic. -/
theorem Healthy.init (h : Healthy g) (hsu : su.NoPanics) {r : Outcome ℕ (Globals U φ F D) Unit}
    (hr : g.usbFsInitialize su = some r) : r.Returns (fun _ g' => Healthy g') fun _ g' => Healthy g' := by
  by_cases h0 : g.idStorePtr.value = 0
  · obtain ⟨hnone, hok, herr⟩ := h.initialize_down h0 su
    cases hc : su.connect with
    | none =>
      rw [hnone hc] at hr
      cases hr
    | some x =>
      cases x with
      | ok x u =>
        rw [hok x hc] at hr
        cases hr
        exact h.setUp h0 x.1 x.2
      | err code u =>
        obtain ⟨g', hg', heq⟩ := herr code hc
        rw [hg'] at hr
        cases hr
        rcases heq with rfl | ⟨ctx, rfl⟩
        · exact h
        · exact h.setCtx ctx
      | panicked u => exact absurd hc (SetUp.connect_not_panicked hsu)
  · rw [h.initialize_up h0] at hr
    cases hr
    exact h

/-- The parts of a tear-down, where no mutex is poisoned. -/
theorem Healthy.exit_parts (h : Healthy g) (crate : FatfsCrate φ F D) :
    ∃ g₁ g₂ g₃, usbFsExit crate true g = [g₁, g₂, g₃] := by
  have hlock {m : Mutex ℕ} (hm : m.poisoned = false) : m.lock = some m.value :=
    Mutex.lock_eq_some.mpr ⟨hm, rfl⟩
  have hstore : ∃ g₁, exitIdStore crate g = some g₁ := by
    unfold Globals.exitIdStore
    rw [hlock h.storeUnpoisoned]
    split
    · next he => cases he
    · exact ⟨g, rfl⟩
    · exact ⟨_, rfl⟩
  obtain ⟨g₁, h₁⟩ := hstore
  obtain ⟨-, hc₁, hf₁⟩ := exitIdStore_ptrs h₁
  have hfs : ∃ g₂, exitFs g₁ = some g₂ := by
    unfold Globals.exitFs
    rw [hf₁, hlock h.fsUnpoisoned]
    split
    · next he => cases he
    · exact ⟨g₁, rfl⟩
    · exact ⟨_, rfl⟩
  obtain ⟨g₂, h₂⟩ := hfs
  obtain ⟨-, hc₂, -⟩ := exitFs_ptrs h₂
  have hctx : ∃ g₃, exitCtx g₂ = some g₃ := by
    unfold Globals.exitCtx
    rw [hc₂, hc₁, hlock h.ctxUnpoisoned]
    split
    · next he => cases he
    · exact ⟨g₂, rfl⟩
    · exact ⟨_, rfl⟩
  obtain ⟨g₃, h₃⟩ := hctx
  refine ⟨g₁, g₂, g₃, ?_⟩
  simp only [usbFsExit, if_true, inTurn, h₁, h₂, h₃]

/-- **A tear-down** that opens its log leaves nothing set up. -/
theorem Healthy.exit (h : Healthy g) (crate : FatfsCrate φ F D) :
    Healthy ((usbFsExit crate true g).getLastD g) ∧
      ((usbFsExit crate true g).getLastD g).idStorePtr.value = 0 := by
  obtain ⟨g₁, g₂, g₃, he⟩ := h.exit_parts crate
  have hmem : g₃ ∈ usbFsExit crate true g := by
    rw [he]
    simp
  have hsound : Sound g₃ := h.toSound.exit g₃ hmem
  rw [he, show [g₁, g₂, g₃].getLastD g = g₃ from rfl]
  obtain ⟨h₁, he⟩ := inTurn_cons_eq (he : inTurn _ g = _)
  obtain ⟨h₂, he⟩ := inTurn_cons_eq he
  obtain ⟨h₃, -⟩ := inTurn_cons_eq he
  obtain ⟨hs₁, hc₁, hf₁⟩ := exitIdStore_ptrs h₁
  obtain ⟨hs₂, hc₂, hf₂⟩ := exitFs_ptrs h₂
  obtain ⟨hs₃, hc₃, hm₃⟩ := exitCtx_ptrs h₃
  have hstore : g₃.idStorePtr = g.idStorePtr.store 0 := hs₃.trans (hs₂.trans hs₁)
  have hctx : g₃.usbHsCtxPtr = g.usbHsCtxPtr.store 0 := by rw [hc₃, hc₂, hc₁]
  have hfs : g₃.mounted.fsPtr = g.mounted.fsPtr.store 0 := by rw [hm₃, hf₂, hf₁]
  have h0 : g₃.idStorePtr.value = 0 := by rw [hstore, Mutex.value_store]
  refine ⟨⟨hsound, ?_, ?_, ?_, fun hne => ?_⟩, h0⟩
  · rw [hctx]
    exact h.ctxUnpoisoned
  · rw [hfs]
    exact h.fsUnpoisoned
  · rw [hstore]
    exact h.storeUnpoisoned
  · rw [hfs, Mutex.value_store] at hne
    exact absurd rfl hne

/-! ### Whole runs -/

/-- The context behind its pointer. -/
def context? (g : Globals U φ F D) : Option (UsbFsServiceContext U) :=
  g.contexts.get? g.usbHsCtxPtr.value

theorem Healthy.context_of_ne (h : Healthy g) (h0 : g.idStorePtr.value ≠ 0) :
    ∃ ctx, g.context? = some ctx :=
  Heap.live_iff.mp (h.ctx (h.fsNeedsCtx (h.storeNeedsFs h0)))

/-- What `usbFsIsReady` returns once a drive is set up. -/
def readyCode (query : QueryInterfaces U) (ctx : UsbFsServiceContext U) : Except ℕ Unit :=
  match query ctx.usbHsCtx with
  | .error e => .error (LibnxErrMapper.map e)
  | .ok ifaces =>
    if ifaces.any fun iface => iface.info == ctx.deviceInfo then .ok ()
    else .error nxFatdriveErrDriveDisconnected

/-- A value or an error, with the state that the call leaves. -/
def answered (g : Globals U φ F D) : Except ℕ α → Outcome ℕ (Globals U φ F D) α
  | .ok a => .ok a g
  | .error code => .err code g

theorem Healthy.isReady_down (h : Healthy g) (h0 : g.idStorePtr.value = 0)
    (query : QueryInterfaces U) : g.usbFsIsReady query = .err nxFatdriveErrNotInitialized g := by
  rw [usbFsIsReady, if_pos (h.not_success h0), h.notInitialized h0]

theorem Healthy.isReady_up (h : Healthy g) (h0 : g.idStorePtr.value ≠ 0)
    {ctx : UsbFsServiceContext U} (hctx : g.context? = some ctx) (query : QueryInterfaces U) :
    g.usbFsIsReady query = g.answered (readyCode query ctx) := by
  have hne := h.fsNeedsCtx (h.storeNeedsFs h0)
  have hget : g.getServiceCtx = .ok g.usbHsCtxPtr.value :=
    Mutex.lockedPtr_eq_ok.mpr ⟨h.ctxUnpoisoned, rfl, hne⟩
  have hcell : g.contexts.get? g.usbHsCtxPtr.value = some ctx := hctx
  simp only [usbFsIsReady, h.isInitialized_iff.mpr h0, ne_eq, not_true_eq_false, if_false, hget, hcell,
    readyCode]
  cases query ctx.usbHsCtx with
  | error e => rfl
  | ok ifaces =>
    dsimp only
    split
    · rfl
    · rfl

/-- What the calls about the drive do: they leave the state. -/
theorem Healthy.isReady (h : Healthy g) (query : QueryInterfaces U) :
    (g.usbFsIsReady query).Returns (fun _ g' => g' = g) fun _ g' => g' = g := by
  by_cases h0 : g.idStorePtr.value = 0
  · rw [h.isReady_down h0]
    rfl
  · obtain ⟨ctx, hctx⟩ := h.context_of_ne h0
    rw [h.isReady_up h0 hctx]
    cases readyCode query ctx <;> rfl

theorem Healthy.getMountStatus (h : Healthy g) (query : QueryInterfaces U) :
    (g.usbFsDeviceGetMountStatus query).Returns (fun _ g' => g' = g) fun _ g' => g' = g := by
  have hready := h.isReady query
  unfold usbFsDeviceGetMountStatus
  cases hr : g.usbFsIsReady query with
  | ok u g' =>
    rw [hr] at hready
    exact hready
  | err code g' =>
    rw [hr] at hready
    exact hready
  | panicked g' =>
    rw [hr] at hready
    exact hready

/-- **The size of the file system** is asked of the one behind the pointer. -/
theorem Healthy.statFilesystem (hapi : api.NoPanics) (h : Healthy g) :
    Answers g (usbFsStatFilesystem api g) := by
  unfold Answers usbFsStatFilesystem
  split
  · next h0 =>
    have hfs : g.mounted.fsPtr.value = 0 := by
      by_contra hne
      exact h.fsNeedsStore hne h0
    have hget : g.mounted.getFilesystem = .error nxFatdriveErrNotInitialized := by
      unfold Mounted.getFilesystem Mutex.lockedPtr
      rw [Mutex.lock_eq_some.mpr ⟨h.fsUnpoisoned, hfs⟩]
      rfl
    simp only [Mounted.withFilesystem, hget, Outcome.bimap]
  · next h0 =>
    obtain ⟨s, hs⟩ := h.store_of_ne h0
    have hput : ∀ w, g.mounted.Stays w → Put g { g with mounted := w } := by
      intro w hw
      have hkeep := (h.put (x := (s, w)) hs ⟨hw, h.borrows s hs⟩).healthy
      refine ⟨⟨hkeep.toSound.grows ⟨rfl, rfl, rfl, fun h => h, fun h => h, fun {a u} hu => ?_⟩,
        hkeep.ctxUnpoisoned, hkeep.fsUnpoisoned, hkeep.storeUnpoisoned, hkeep.fsNeedsStore⟩,
        rfl, rfl, rfl⟩
      rw [show (g.put g.idStorePtr.value (s, w)).stores = g.stores.set g.idStorePtr.value s from rfl,
        Heap.get?_set] at hu
      split at hu
      · next ha =>
        obtain ⟨_, -, rfl⟩ := Option.map_eq_some_iff.mp hu
        rw [ha]
        exact hs
      · exact hu
    exact (Mounted.withFilesystem_returns (h.attached (h.storeNeedsFs h0)) hapi.stats).bimap
      (fun _ w hw => hput w hw.2) fun _ w hw => ⟨hw.1, hput w hw.2⟩

theorem Healthy.answered (h : Healthy g) {r : Outcome ℕ (Globals U φ F D) α} (hr : Answers g r) :
    r.Returns (fun _ g' => Healthy g') fun _ g' => Healthy g' := by
  unfold Answers at hr
  split at hr
  · rw [hr]
    exact h
  · exact hr.mono (fun _ _ hp => hp.healthy) fun _ _ hp => hp.2.healthy

/-- A call with what it returned (nothing, if it panicked). -/
abbrev ApiLabel (U S σ φ : Type) := ApiCall U S σ φ × Option (Except ℕ Reply)

/-- One call that returns or panics. -/
def ApiStep (api : FatfsApi φ T F D) (g : Globals U φ F D) (l : ApiLabel U S σ φ)
    (g' : Globals U φ F D) : Prop :=
  ∃ r, l.1.exec api g = some r ∧ r.result = l.2 ∧ r.state = g'

/-- If the call is a set-up, mounting does not panic in it. -/
def NoPanicIn : ApiCall U S σ φ → Prop
  | .init su => su.NoPanics
  | _ => True

/-- **One call.** -/
theorem Healthy.exec (hapi : api.NoPanics) (h : Healthy g) {c : ApiCall U S σ φ} (hc : NoPanicIn c)
    {r : Outcome ℕ (Globals U φ F D) Reply} (hr : c.exec api g = some r) :
    r.Returns (fun _ g' => Healthy g') fun _ g' => Healthy g' := by
  have hsame {β : Type} {r : Outcome ℕ (Globals U φ F D) β} {f : β → Reply}
      (hr : r.Returns (fun _ g' => g' = g) fun _ g' => g' = g) :
      (r.bimap f fun g => g).Returns (fun _ g' => Healthy g') fun _ g' => Healthy g' := by
    refine hr.bimap (fun _ g' he => ?_) fun _ g' he => ?_
    · rw [he]
      exact h
    · rw [he]
      exact h
  cases c with
  | isInitialized =>
    cases hr
    split
    · exact h
    · exact h
  | init su =>
    obtain ⟨r, hinit, rfl⟩ := Option.map_eq_some_iff.mp hr
    exact (h.init hc hinit).bimap (fun _ _ h => h) fun _ _ h => h
  | exit logOpens =>
    cases hr
    cases logOpens with
    | false => exact h
    | true => exact (h.exit api.dirs).1
  | isReady query =>
    cases hr
    exact hsame (h.isReady query)
  | deviceUpdate query =>
    cases hr
    exact hsame (h.isReady query)
  | deviceGetMountStatus query =>
    cases hr
    exact hsame (h.getMountStatus query)
  | getMountStatus =>
    cases hr
    exact h
  | readRaw sector sectorcount =>
    cases hr
    exact h
  | deviceRegister =>
    cases hr
    exact h
  | statFilesystem =>
    cases hr
    exact (h.answered (h.statFilesystem hapi)).bimap (fun _ _ h => h) fun _ _ h => h
  | store c =>
    cases hr
    cases hbad : c.badPath with
    | true =>
      rw [storeCall_badPath hbad]
      exact h
    | false => exact h.answered (h.storeCall hapi hbad)

/-- Runs from a healthy state. -/
theorem Healthy.run (hapi : api.NoPanics) {ls : List (ApiLabel U S σ φ)}
    (hrun : Run (Guard (ApiStep api) fun _ l => NoPanicIn l.1) g ls g') (h : Healthy g) :
    Healthy g' ∧ ∀ l ∈ ls, l.2 ≠ none := by
  refine hrun.history (H := fun ls g => Healthy g ∧ ∀ l ∈ ls, l.2 ≠ none)
    ⟨h, by simp⟩ fun ls g l g' h hst => ?_
  obtain ⟨hc, r, hr, hres, rfl⟩ := hst
  have hret := h.1.exec hapi hc hr
  refine ⟨hret.state (fun _ _ h => h) fun _ _ h => h, fun l' hl' => ?_⟩
  rcases List.mem_append.mp hl' with hl' | hl'
  · exact h.2 l' hl'
  · obtain rfl := List.mem_singleton.mp hl'
    rw [← hres]
    exact hret.result_ne_none

/-- **No panic, ever.**  If neither the crate nor a mount panics, then in every run of calls from the
start no call panics or follows a dangling pointer, no mutex is ever poisoned, the pointers are set in
order, and every open file and directory borrows the file system that is mounted. -/
theorem run_healthy (hapi : api.NoPanics) {ls : List (ApiLabel U S σ φ)}
    (hrun : Run (Guard (ApiStep api) fun _ l => NoPanicIn l.1) initial ls g) :
    Healthy g ∧ ∀ l ∈ ls, l.2 ≠ none := Healthy.run hapi hrun healthy_initial

end Globals

/-- The volume with one file, with all that is used of it. -/
def OneFile.api : FatfsApi OneFile (Recorded ℕ) OpenFile Unit where
  dirs := volume
  files := ops
  stats v := .ok ⟨512, 4, 4⟩ v

theorem OneFile.api_noPanics : OneFile.api.NoPanics := by
  refine ⟨fun st path => ?_, ?_, ?_, ?_, ?_, ?_, ?_, fun buff x => ?_, fun sf x => ?_, fun x => ?_, ?_, ?_⟩
  · simp only [api, volume]
    split <;> simp [Outcome.result]
  · simp [api, volume, Outcome.result]
  · simp [api, volume, Outcome.result]
  · simp [api, volume, Outcome.result]
  · simp [api, volume, Outcome.result]
  · simp [api, volume, Outcome.result]
  · simp [api, ops, oneFile, Outcome.result]
  · simp only [api, ops, oneFile]
    split <;> simp [Outcome.result]
  · simp only [api, seekTo_ops, seekTarget]
    split <;> simp [Outcome.result]
  · simp only [api, ops, oneFile]
    split <;> simp [Outcome.result]
  · simp [api, ops, Outcome.result]
  · simp [api, Outcome.result]

namespace Globals

theorem sampleSetUp_noPanics (v : φ) : (sampleSetUp (.ok v ())).NoPanics where
  newFs := fun _ => Option.some_ne_none _
  fromBytes := by
    intro bytes entries h
    change bootTable bytes = .ok entries at h
    unfold bootTable at h
    split at h
    · cases h
      exact List.cons_ne_nil _ _
    · cases h

theorem sampleSetUp_connect (v : φ) :
    (sampleSetUp (.ok v ())).connect = some (.ok (⟨(), sampleInterface.info⟩, v) ()) := by
  have hprep : (sampleSetUp (.ok v ())).prepare = .ok (⟨(), sampleInterface.info⟩, ()) := rfl
  simp only [SetUp.connect, hprep, sampleSetUp_mount]
  rfl

/-- The volume is set up, a file opened on it, and the volume torn down. -/
def session : List (ApiLabel Unit Unit Unit OneFile) :=
  [(.store (.openFile (some "a")), some (.error nxFatdriveErrNotInitialized)),
    (.init (sampleSetUp (.ok (volumeWith [1, 2]) ())), some (.ok .nothing)),
    (.store (.openFile (some "a")), some (.ok (.id 0))), (.exit true, some (.ok .nothing))]

/-- The calls of such a session. -/
abbrev SessionStep (g : Globals Unit OneFile OpenFile Unit) (l : ApiLabel Unit Unit Unit OneFile)
    (g' : Globals Unit OneFile OpenFile Unit) : Prop :=
  Guard (ApiStep OneFile.api) (fun _ l => NoPanicIn l.1) g l g'

theorem apiStep_init {api : FatfsApi φ T F D} {su : SetUp U S σ φ} {g g' : Globals U φ F D}
    (h : g.usbFsInitialize su = some (.ok () g')) :
    ApiStep api g (.init su, some (.ok .nothing)) g' :=
  ⟨_, Option.map_eq_some_iff.mpr ⟨_, h, rfl⟩, rfl, rfl⟩

theorem apiStep_openFile {api : FatfsApi φ T F D} {filepath : Option String} {g g' : Globals U φ F D}
    {id : ℕ} (h : usbFsOpenFile api.dirs g filepath = .ok id g') :
    ApiStep api g ((.store (.openFile filepath), some (.ok (.id id))) : ApiLabel U S σ φ) g' := by
  have hexec : StoreCall.exec api g (.openFile filepath) = .ok (.id id) g' := by
    show (usbFsOpenFile api.dirs g filepath).bimap Reply.id (fun g => g) = _
    rw [h]
    rfl
  exact ⟨_, congrArg some hexec, rfl, rfl⟩

theorem session_run : ∃ g, Run SessionStep initial session g := by
  have hdown : SessionStep initial
      (.store (.openFile (some "a")), some (.error nxFatdriveErrNotInitialized)) initial :=
    ⟨trivial, _, rfl, rfl, rfl⟩
  have hset : (initial : Globals Unit OneFile OpenFile Unit).usbFsInitialize
      (sampleSetUp (.ok (volumeWith [1, 2]) ())) =
        some (.ok () (initial.setUp ⟨(), sampleInterface.info⟩ (volumeWith [1, 2]))) :=
    (healthy_initial.initialize_down rfl _).2.1 _ (sampleSetUp_connect _)
  have hinit : SessionStep initial
      (.init (sampleSetUp (.ok (volumeWith [1, 2]) ())), some (.ok .nothing))
      (initial.setUp ⟨(), sampleInterface.info⟩ (volumeWith [1, 2])) :=
    ⟨sampleSetUp_noPanics _, apiStep_init hset⟩
  have hid : ((initial.setUp ⟨(), sampleInterface.info⟩ (volumeWith [1, 2])).usbFsOpenFile
      OneFile.volume (some "a")).result = some (.ok 0) := by decide +kernel
  obtain ⟨g', hopen⟩ := Outcome.result_eq_ok.mp hid
  have hopened : SessionStep (initial.setUp ⟨(), sampleInterface.info⟩ (volumeWith [1, 2]))
      (.store (.openFile (some "a")), some (.ok (.id 0))) g' :=
    ⟨trivial, apiStep_openFile hopen⟩
  exact ⟨_, .cons hdown (.cons hinit (.cons hopened (.single ⟨trivial, _, rfl, rfl, rfl⟩)))⟩

theorem run_healthy_session : ∃ g : Globals Unit OneFile OpenFile Unit,
    Run SessionStep initial session g ∧ Healthy g ∧ ∀ l ∈ session, l.2 ≠ none := by
  obtain ⟨g, hrun⟩ := session_run
  exact ⟨g, hrun, run_healthy OneFile.api_noPanics hrun⟩

end Globals

end FatDrive
