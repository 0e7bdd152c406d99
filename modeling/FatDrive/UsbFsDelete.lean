import FatDrive.UsbFsPaths

/-!
# FatDrive.UsbFsDelete — what a failed delete leaves behind

`usbFsDeleteFile` and `usbFsDeleteDir` close what is open under the path, and only then remove the
entry.  `Undone` says that every id is as it was and that no entry is gone.

* `onRoot_failed`: a removal that fails leaves the store and the entries alone;
* `failed_delete_undone_iff`: a delete that fails is undone exactly if no handle was open under the
  path;
* `refused_delete`: a directory that is not empty stays, but its id is gone.
-/

namespace FatDrive

open Lib

variable {φ F D E : Type} {crate : FatfsCrate φ F D} {entry : φ → Path → Option E}
  {fileEntry : F → E} {dirEntry : D → E}

namespace IdStore

variable {s s' : IdStore F D} {w : Mounted φ}

/-- Every id stands for the same handle, at the same position.  The position in a file is part of
its handle. -/
structure KeepsIds (s s' : IdStore F D) : Prop where
  files : ∀ id f, s.fileHandleMap.lookup id = some f → s'.fileHandleMap.lookup id = some f
  dirs : ∀ id d, s.dirHandleMap.lookup id = some d → s'.dirHandleMap.lookup id = some d
  positions : ∀ id n, s.dirIterMap.lookup id = some n → s'.dirIterMap.lookup id = some n

theorem KeepsIds.refl (s : IdStore F D) : s.KeepsIds s := ⟨fun _ _ h => h, fun _ _ h => h, fun _ _ h => h⟩

/-- The handle of a file that is open is gone after `close_file`, whatever it returns. -/
theorem closeFile_loses {id : ℕ} (h : s.fileHandleMap.lookup id ≠ none) :
    ¬ s.KeepsIds (closeFile crate s w id).state.1 := by
  obtain ⟨f, hf⟩ := Option.ne_none_iff_exists'.mp h
  have hgone : (closeFile crate s w id).state.1.fileHandleMap = s.fileHandleMap.erase id := by
    unfold closeFile
    rw [hf]
    dsimp only
    cases w.onFs f.fs fun st => crate.flush st f.obj <;> rfl
  intro hsame
  have hstill := hsame.files id f hf
  rw [hgone, AList.lookup_erase] at hstill
  cases hstill

theorem closeDir_loses {id : ℕ} (h : s.dirHandleMap.lookup id ≠ none) :
    ¬ s.KeepsIds (closeDir crate s w id).state.1 := by
  obtain ⟨d, hd⟩ := Option.ne_none_iff_exists'.mp h
  have hgone : (closeDir crate s w id).state.1.dirHandleMap = s.dirHandleMap.erase id := by
    unfold closeDir
    rw [hd]
    rfl
  intro hsame
  have hstill := hsame.dirs id d hd
  rw [hgone, AList.lookup_erase] at hstill
  cases hstill

theorem closeFile_of_none {id : ℕ} (h : s.fileHandleMap.lookup id = none) :
    closeFile crate s w id = .err nxFatdriveErrFileNotFound (s, w) := by
  unfold closeFile
  rw [h]

theorem closeDir_of_none {id : ℕ} (h : s.dirHandleMap.lookup id = none) :
    closeDir crate s w id = .err nxFatdriveErrFileNotFound (s, w) := by
  unfold closeDir
  rw [h]

end IdStore

namespace Globals

variable {U : Type} {g g' : Globals U φ F D}

open IdStore

/-- The volumes have the entries they had. -/
abbrev SameEntries (entry : φ → Path → Option E) (w w' : Mounted φ) : Prop :=
  w.Moved (fun st st' => entry st' = entry st) w'

/-- As far as ids and entries go, nothing has happened. -/
structure Undone (entry : φ → Path → Option E) (g g' : Globals U φ F D) : Prop where
  ids : ∀ s, g.store? = some s → ∃ s', g'.store? = some s' ∧ s.KeepsIds s'
  entries : SameEntries entry g.mounted g'.mounted

theorem sameEntries_refl (entry : φ → Path → Option E) (w : Mounted φ) : SameEntries entry w w :=
  Mounted.Moved.refl (R := fun st st' => entry st' = entry st) (fun _ => rfl) w

theorem Undone.refl (g : Globals U φ F D) : Undone entry g g :=
  ⟨fun s hs => ⟨s, hs, .refl s⟩, sameEntries_refl entry g.mounted⟩

/-- No handle is open under the path when the call comes to the store.  Of what was closed in vain
the name alone is left. -/
def NoOpenFile (g : Globals U φ F D) (filepath : Option String) : Prop :=
  g.Reaches filepath fun path s _ => ∀ id, s.hasFile path = some id → s.fileHandleMap.lookup id = none

def NoOpenDir (g : Globals U φ F D) (dirpath : Option String) : Prop :=
  g.Reaches dirpath fun path s _ => ∀ id, s.hasDir path = some id → s.dirHandleMap.lookup id = none

/-- A removal that fails, by whichever step, leaves the store and the entries alone. -/
theorem onRoot_failed (hc : RefusedRemovesKeep crate entry) {s : IdStore F D}
    {w : Mounted φ} {path : String} {code : ℕ} {x : IdStore F D × Mounted φ}
    (h : onRoot s w (fun st => crate.remove st path) = .err code x) :
    x.1 = s ∧ SameEntries entry w x.2 := by
  unfold onRoot at h
  have hmoved : (w.withFilesystem fun st => crate.remove st path).isOk = false →
      SameEntries entry w (w.withFilesystem fun st => crate.remove st path).state := fun hfail =>
    Mounted.withFilesystem_failed (R := fun st st' => entry st' = entry st) (fun _ => rfl) hfail
      fun st hno => hc.remove_entry fun v' => hno () v'
  cases hres : w.withFilesystem fun st => crate.remove st path with
  | ok a w' =>
    rw [hres] at h
    cases h
  | err e w' =>
    rw [hres] at h hmoved
    cases h
    exact ⟨rfl, hmoved rfl⟩
  | panicked w' =>
    rw [hres] at h
    cases h

/-- The part of the two deletes behind the lock, where `isOpen` says that an id has a handle. -/
theorem delete_failed_iff (hc : RefusedRemovesKeep crate entry) {s : IdStore F D}
    {w : Mounted φ} (path : String) (oldId : Option ℕ) (isOpen : ℕ → Prop)
    (close : ℕ → Outcome ℕ (IdStore F D × Mounted φ) Unit) (code : ℕ) {x : IdStore F D × Mounted φ}
    (hkept : ∀ id, ¬ isOpen id → close id = .err nxFatdriveErrFileNotFound (s, w))
    (hlost : ∀ id, isOpen id → ¬ s.KeepsIds (close id).state.1)
    (hnone : oldId = none → onRoot s w (fun st => crate.remove st path) = .err code x)
    (hsome : ∀ id, oldId = some id → ((close id).andThen fun _ y =>
      onRoot y.1 y.2 fun st => crate.remove st path) = .err code x) :
    (s.KeepsIds x.1 ∧ SameEntries entry w x.2) ↔ ∀ id, oldId = some id → ¬ isOpen id := by
  cases oldId with
  | none =>
    obtain ⟨hs, hw⟩ := onRoot_failed hc (hnone rfl)
    rw [hs]
    exact iff_of_true ⟨.refl s, hw⟩ nofun
  | some id =>
    have h := hsome id rfl
    have hstore : x.1 = (close id).state.1 := by
      cases hcl : close id with
      | ok a y =>
        rw [hcl] at h
        exact (onRoot_failed hc h).1
      | err e y =>
        rw [hcl] at h
        cases h
        rfl
      | panicked y =>
        rw [hcl] at h
        cases h
    constructor
    · rintro ⟨hids, -⟩ id' hid' hl
      cases hid'
      rw [hstore] at hids
      exact hlost id hl hids
    · intro hno
      rw [hkept id (hno id rfl)] at h
      cases h
      exact ⟨.refl s, sameEntries_refl entry w⟩

/-- What a failed call on a path undoes is what its part behind the lock undoes. -/
theorem withPath_undone_iff {filepath : Option String}
    {f : String → IdStore F D → Mounted φ → Outcome ℕ (IdStore F D × Mounted φ) Unit}
    {P : String → IdStore F D → Prop}
    (hf : ∀ path s code x, f path s g.mounted = .err code x →
      ((s.KeepsIds x.1 ∧ SameEntries entry g.mounted x.2) ↔ P path s)) {code : ℕ}
    (h : g.withPath filepath f = .err code g') :
    Undone entry g g' ↔ g.Reaches filepath fun path s _ => P path s := by
  cases filepath with
  | none =>
    cases h
    exact iff_of_true (.refl g) nofun
  | some path =>
    obtain ⟨rfl, hnone⟩ | ⟨s, x, hp, hs, hfail, rfl⟩ := withIdStore_eq_err h
    · refine iff_of_true (.refl g') fun path' s _ hp hs => ?_
      cases hs.symm.trans (hnone hp)
    · have hiff := hf path s code x hfail
      constructor
      · rintro ⟨hids, hw⟩ path' s' hpath - hs'
        cases hpath
        cases hs.symm.trans hs'
        obtain ⟨u, hu, hsame⟩ := hids s hs
        rw [store?_put hs] at hu
        cases hu
        exact hiff.mp ⟨hsame, hw⟩
      · intro hr
        obtain ⟨hsame, hw⟩ := hiff.mpr (hr path s rfl hp hs)
        refine ⟨fun u hu => ?_, hw⟩
        cases hs.symm.trans hu
        exact ⟨x.1, store?_put hs x, hsame⟩

/-- **Failed deletes.**  A delete that fails changes no id and no entry, exactly if no handle was
open under the path: the early returns come after the close. -/
theorem failed_delete_undone_iff (hc : RefusedRemovesKeep crate entry) (g : Globals U φ F D)
    (path : Option String) :
    (∀ code g', usbFsDeleteFile crate g path = .err code g' →
      (Undone entry g g' ↔ g.NoOpenFile path)) ∧
    ∀ code g', usbFsDeleteDir crate g path = .err code g' →
      (Undone entry g g' ↔ g.NoOpenDir path) := by
  constructor
  · intro code g' h
    refine withPath_undone_iff (fun path s code x hx => ?_) h
    have hlock := delete_failed_iff hc path (s.hasFile path)
      (fun id => s.fileHandleMap.lookup id ≠ none) (IdStore.closeFile crate s g.mounted) code (x := x)
      (fun id hno => closeFile_of_none (not_not.mp hno)) (fun id => closeFile_loses)
      (fun hno => by rw [hno] at hx; exact hx) fun id hid => by rw [hid] at hx; exact hx
    exact hlock.trans (forall₂_congr fun id _ => not_not)
  · intro code g' h
    refine withPath_undone_iff (fun path s code x hx => ?_) h
    have hlock := delete_failed_iff hc path (s.hasDir path)
      (fun id => s.dirHandleMap.lookup id ≠ none) (IdStore.closeDir crate s g.mounted) code (x := x)
      (fun id hno => closeDir_of_none (not_not.mp hno)) (fun id => closeDir_loses)
      (fun hno => by rw [hno] at hx; exact hx) fun id hid => by rw [hid] at hx; exact hx
    exact hlock.trans (forall₂_congr fun id _ => not_not)

/-- A directory with a file in it, and open. -/
def occupiedSample : Globals Unit Volume ℕ ℕ :=
  (usbFsOpenDir volumeCrate (usbFsCreateFile volumeCrate mountedSample (some "d/x")).state
    (some "d")).state

/-- The same of a directory that is open and of a file that is not there. -/
theorem failed_delete_undone_samples :
    (∃ code g', usbFsDeleteDir volumeCrate occupiedSample (some "d") = .err code g' ∧
      (Undone Volume.entryAt occupiedSample g' ↔ occupiedSample.NoOpenDir (some "d"))) ∧
    ∃ code g', usbFsDeleteFile volumeCrate occupiedSample (some "b") = .err code g' ∧
      (Undone Volume.entryAt occupiedSample g' ↔ occupiedSample.NoOpenFile (some "b")) := by
  have hdir : (usbFsDeleteDir volumeCrate occupiedSample (some "d")).isErr = true := by decide +kernel
  have hfile : (usbFsDeleteFile volumeCrate occupiedSample (some "b")).isErr = true := by decide +kernel
  obtain ⟨code, g', h⟩ := Outcome.isErr_iff.mp hdir
  obtain ⟨code', g'', h'⟩ := Outcome.isErr_iff.mp hfile
  exact ⟨⟨code, g', h,
      (failed_delete_undone_iff Volume.resolvesPaths.toRefusedRemovesKeep _ _).2 code g' h⟩,
    code', g'', h', (failed_delete_undone_iff Volume.resolvesPaths.toRefusedRemovesKeep _ _).1 code' g'' h'⟩

/-- **A refused delete.**  The directory is not empty, so it stays; its id, which could be read from,
is gone. -/
theorem refused_delete :
    (usbFsDeleteDir volumeCrate occupiedSample (some "d")).result =
      some (.error (LibnxErrMapper.map (⟨.other, none⟩ : IoError))) ∧
    (occupiedSample.store?.bind fun s => s.dirHandleMap.lookup 0) = some ⟨1, 2⟩ ∧
    ((usbFsDeleteDir volumeCrate occupiedSample (some "d")).state.store?.bind fun s =>
      s.dirHandleMap.lookup 0) = none ∧
    ¬ Undone Volume.entryAt occupiedSample
      (usbFsDeleteDir volumeCrate occupiedSample (some "d")).state := by
  have hopen : (occupiedSample.store?.bind fun s => s.dirHandleMap.lookup 0) = some ⟨1, 2⟩ := by
    decide +kernel
  have hgone : ((usbFsDeleteDir volumeCrate occupiedSample (some "d")).state.store?.bind fun s =>
      s.dirHandleMap.lookup 0) = none := by decide +kernel
  refine ⟨by decide +kernel, hopen, hgone, fun h => ?_⟩
  obtain ⟨s, hs, hd⟩ := Option.bind_eq_some_iff.mp hopen
  obtain ⟨s', hs', hsame⟩ := h.ids s hs
  rw [hs', Option.bind_some, hsame.dirs 0 _ hd] at hgone
  cases hgone

end Globals

end FatDrive
