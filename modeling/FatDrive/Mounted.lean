import FatDrive.IdStore

/-!
# FatDrive.Mounted — what the calls of a store do to what is mounted

`Moved R w w'` says that the pointer has not moved and that every file system is still there, in a
state that `R` relates to the one before.  `Within crate R` says that the operations of the crate
other than `remove` go along `R`.

* `withFilesystem_eq_ok`: a result comes from the current file system;
* `openFile_moved`, `openDir_moved`, `closeFile_moved`, `closeDir_moved`, `dropStore_moved`: the
  calls go along any such `R`;
* `openFile_store`, `openDir_store`, `closeFile_store`, `closeDir_store`: what they make of the store.
-/

namespace FatDrive

open Lib

variable {φ F D α : Type} {R : φ → φ → Prop} {w w' w'' : Mounted φ}

namespace Mounted

structure Moved (R : φ → φ → Prop) (w w' : Mounted φ) : Prop where
  fsPtr : w'.fsPtr.value = w.fsPtr.value
  cell : ∀ {a st}, w.fileSystems.get? a = some st →
    ∃ st', w'.fileSystems.get? a = some st' ∧ R st st'

theorem Moved.refl (hR : ∀ st, R st st) (w : Mounted φ) : Moved R w w :=
  ⟨rfl, fun {_ st} h => ⟨st, h, hR st⟩⟩

theorem Moved.trans (hR : ∀ a b c, R a b → R b c → R a c) (h₁ : Moved R w w')
    (h₂ : Moved R w' w'') : Moved R w w'' where
  fsPtr := h₂.fsPtr.trans h₁.fsPtr
  cell := fun h => by
    obtain ⟨st', h', hr⟩ := h₁.cell h
    obtain ⟨st'', h'', hr'⟩ := h₂.cell h'
    exact ⟨st'', h'', hR _ _ _ hr hr'⟩

theorem Moved.poisonFs (h : Moved R w w') : Moved R w w'.poisonFs := ⟨h.fsPtr, h.cell⟩

theorem Moved.live (h : Moved R w w') {a : ℕ} (ha : w.fileSystems.Live a) :
    w'.fileSystems.Live a := by
  obtain ⟨st, hst⟩ := Heap.live_iff.mp ha
  obtain ⟨st', hst', -⟩ := h.cell hst
  exact Heap.live_iff.mpr ⟨st', hst'⟩

theorem set_moved (hR : ∀ st, R st st) {fs : ℕ} {st st' : φ}
    (hst : w.fileSystems.get? fs = some st) (hr : R st st') :
    Moved R w { w with fileSystems := w.fileSystems.set fs st' } where
  fsPtr := rfl
  cell := by
    intro a u hu
    by_cases ha : a = fs
    · subst ha
      rw [hst] at hu
      cases hu
      exact ⟨st', Heap.get?_set_self hst st', hr⟩
    · exact ⟨u, (Heap.get?_set_ne ha _ _).trans hu, hR u⟩

theorem onFs_moved (hR : ∀ st, R st st) {fs : ℕ} {f : φ → Outcome IoError φ α}
    (hf : ∀ st, R st (f st).state) : Moved R w (w.onFs fs f).state := by
  unfold onFs
  cases hst : w.fileSystems.get? fs with
  | none => exact .refl hR w
  | some st =>
    have hr := hf st
    dsimp only
    cases hres : f st with
    | ok a st' => exact set_moved hR hst (by rw [hres] at hr; exact hr)
    | err e st' => exact set_moved hR hst (by rw [hres] at hr; exact hr)
    | panicked st' => exact set_moved hR hst (by rw [hres] at hr; exact hr)

theorem dropOn_moved (hR : ∀ st, R st st) {fs : ℕ} {drop : φ → φ} (hd : ∀ st, R st (drop st)) :
    Moved R w (w.dropOn fs drop) := by
  unfold dropOn
  cases hst : w.fileSystems.get? fs with
  | none => exact .refl hR w
  | some st => exact set_moved hR hst (hd st)

@[simp] theorem dropOn_fsPtr (fs : ℕ) (drop : φ → φ) : (w.dropOn fs drop).fsPtr = w.fsPtr := by
  unfold dropOn
  cases w.fileSystems.get? fs <;> rfl

theorem withFilesystem_moved (hR : ∀ st, R st st) {f : φ → Outcome IoError φ α}
    (hf : ∀ st, R st (f st).state) : Moved R w (w.withFilesystem f).state := by
  unfold withFilesystem
  cases w.getFilesystem with
  | error code => exact .refl hR w
  | ok fs =>
    have h : Moved R w (w.onFs fs f).state := onFs_moved hR hf
    dsimp only
    cases hres : w.onFs fs f with
    | ok a w' => rw [hres] at h; exact h
    | err e w' => rw [hres] at h; exact h
    | panicked w' => rw [hres] at h; exact h.poisonFs

/-- An operation that does not succeed may be one of which `R` is known only then. -/
theorem withFilesystem_failed (hR : ∀ st, R st st) {f : φ → Outcome IoError φ α}
    (h : (w.withFilesystem f).isOk = false)
    (hf : ∀ st, (∀ a st', f st ≠ .ok a st') → R st (f st).state) :
    Moved R w (w.withFilesystem f).state := by
  unfold withFilesystem onFs at h ⊢
  cases hget : w.getFilesystem with
  | error code => exact .refl hR w
  | ok fs =>
    rw [hget] at h
    dsimp only at h ⊢
    cases hst : w.fileSystems.get? fs with
    | none => exact (Moved.refl hR w).poisonFs
    | some st =>
      have hr := hf st
      rw [hst] at h
      dsimp only at h ⊢
      cases hres : f st with
      | ok a st' =>
        rw [hres] at h
        cases h
      | err e st' =>
        rw [hres] at hr
        exact set_moved hR hst (hr nofun)
      | panicked st' =>
        rw [hres] at hr
        exact (set_moved hR hst (hr nofun)).poisonFs

/-- A result comes from the file system behind the pointer. -/
theorem withFilesystem_eq_ok {f : φ → Outcome IoError φ α} {x : Handle α}
    (h : w.withFilesystem f = .ok x w') :
    ∃ st st', x.fs = w.fsPtr.value ∧ w.fileSystems.get? x.fs = some st ∧ f st = .ok x.obj st' ∧
      w' = { w with fileSystems := w.fileSystems.set x.fs st' } := by
  unfold withFilesystem at h
  split at h
  · cases h
  · next fs hget =>
    have hfs : w.fsPtr.value = fs := (Mutex.lockedPtr_eq_ok.mp hget).2.1
    unfold onFs at h
    cases hst : w.fileSystems.get? fs with
    | none =>
      rw [hst] at h
      cases h
    | some st =>
      rw [hst] at h
      dsimp only at h
      cases hres : f st with
      | ok a st' =>
        rw [hres] at h
        cases h
        exact ⟨st, st', hfs.symm, hst, hres, rfl⟩
      | err e st' =>
        rw [hres] at h
        cases h
      | panicked st' =>
        rw [hres] at h
        cases h

theorem getFilesystem_of_ok {f : φ → Outcome IoError φ α} {x : Handle α}
    (h : w.withFilesystem f = .ok x w') : w.getFilesystem = .ok w.fsPtr.value := by
  unfold withFilesystem at h
  cases hget : w.getFilesystem with
  | error code =>
    rw [hget] at h
    cases h
  | ok fs => rw [(Mutex.lockedPtr_eq_ok.mp hget).2.1]

/-- There is a current file system, and it is `st`. -/
structure Current (w : Mounted φ) (st : φ) : Prop where
  ptr : w.getFilesystem = .ok w.fsPtr.value
  cell : w.fileSystems.get? w.fsPtr.value = some st

theorem Current.withFilesystem_ok {st st' : φ} (h : w.Current st) {f : φ → Outcome IoError φ α} {a : α}
    (hf : f st = .ok a st') : w.withFilesystem f =
      .ok ⟨w.fsPtr.value, a⟩ { w with fileSystems := w.fileSystems.set w.fsPtr.value st' } := by
  unfold withFilesystem onFs
  rw [h.ptr]
  dsimp only
  rw [h.cell]
  dsimp only
  rw [hf]

theorem Current.withFilesystem_err {st st' : φ} (h : w.Current st) {f : φ → Outcome IoError φ α}
    {e : IoError} (hf : f st = .err e st') : w.withFilesystem f =
      .err (LibnxErrMapper.map e) { w with fileSystems := w.fileSystems.set w.fsPtr.value st' } := by
  unfold withFilesystem onFs
  rw [h.ptr]
  dsimp only
  rw [h.cell]
  dsimp only
  rw [hf]

end Mounted

/-- Nothing that the crate does to a file system leaves `R`, except for `remove`. -/
structure Within (crate : FatfsCrate φ F D) (R : φ → φ → Prop) : Prop where
  refl : ∀ st, R st st
  trans : ∀ a b c, R a b → R b c → R a c
  openFile : ∀ st path, R st (crate.openFile st path).state
  openDir : ∀ st path, R st (crate.openDir st path).state
  createFile : ∀ st path, R st (crate.createFile st path).state
  createDir : ∀ st path, R st (crate.createDir st path).state
  flush : ∀ st f, R st (crate.flush st f).state
  dropFile : ∀ st f, R st (crate.dropFile st f)
  dropDir : ∀ st d, R st (crate.dropDir st d)

theorem within_true (crate : FatfsCrate φ F D) : Within crate fun _ _ => True := by
  constructor <;> intros <;> trivial

namespace IdStore

variable {crate : FatfsCrate φ F D} {s : IdStore F D}

theorem dropHandle_moved (hc : Within crate R) (f : Handle F) :
    Mounted.Moved R w (dropHandle crate w f) :=
  Mounted.dropOn_moved hc.refl fun st => hc.dropFile st f.obj

theorem openFile_moved (hc : Within crate R) (path : String) :
    Mounted.Moved R w (openFile crate s w path).state.2 := by
  unfold openFile
  cases s.hasFile path with
  | some id => exact .refl hc.refl w
  | none =>
    have h : Mounted.Moved R w (openNewFile crate w path).state :=
      Mounted.withFilesystem_moved hc.refl fun st => hc.openFile st path
    dsimp only
    cases ho : openNewFile crate w path with
    | ok fl w' => rw [ho] at h; exact h
    | err code w' => rw [ho] at h; exact h
    | panicked w' => rw [ho] at h; exact h

theorem openDir_moved (hc : Within crate R) (path : String) :
    Mounted.Moved R w (openDir crate s w path).state.2 := by
  unfold openDir
  cases s.hasDir path with
  | some id => exact .refl hc.refl w
  | none =>
    have h : Mounted.Moved R w (openNewDir crate w path).state := by
      refine Mounted.withFilesystem_moved hc.refl fun st => ?_
      split
      · exact hc.refl st
      · exact hc.openDir st path
    dsimp only
    cases ho : openNewDir crate w path with
    | ok fl w' => rw [ho] at h; exact h
    | err code w' => rw [ho] at h; exact h
    | panicked w' => rw [ho] at h; exact h

theorem closeFile_moved (hc : Within crate R) (id : ℕ) :
    Mounted.Moved R w (closeFile crate s w id).state.2 := by
  unfold closeFile
  cases s.fileHandleMap.lookup id with
  | none => exact .refl hc.refl w
  | some f =>
    have h : Mounted.Moved R w (w.onFs f.fs fun st => crate.flush st f.obj).state :=
      Mounted.onFs_moved hc.refl fun st => hc.flush st f.obj
    dsimp only
    cases hf : w.onFs f.fs fun st => crate.flush st f.obj with
    | ok _ w' => rw [hf] at h; exact h.trans hc.trans (dropHandle_moved hc f)
    | err e w' => rw [hf] at h; exact h.trans hc.trans (dropHandle_moved hc f)
    | panicked w' => rw [hf] at h; exact h.trans hc.trans (dropHandle_moved hc f)

theorem closeDir_moved (hc : Within crate R) (id : ℕ) :
    Mounted.Moved R w (closeDir crate s w id).state.2 := by
  unfold closeDir
  cases s.dirHandleMap.lookup id with
  | none => exact .refl hc.refl w
  | some d => exact Mounted.dropOn_moved hc.refl fun st => hc.dropDir st d.obj

/-! What the calls do to the store itself, whatever they return. -/

/-- A new file is one of the current file system. -/
theorem openNewFile_eq_ok {path : String} {w' : Mounted φ} {fl : Handle F}
    (h : openNewFile crate w path = .ok fl w') :
    ∃ st st', fl.fs = w.fsPtr.value ∧ w.fileSystems.get? w.fsPtr.value = some st ∧
      crate.openFile st path = .ok fl.obj st' := by
  obtain ⟨st, st', hfs, hst, hopen, -⟩ := Mounted.withFilesystem_eq_ok h
  exact ⟨st, st', hfs, hfs ▸ hst, hopen⟩

/-- A file that is opened anew. -/
theorem openFile_eq_ok {path : String} {id : ℕ} {x : IdStore F D × Mounted φ}
    (hnew : s.hasFile path = none) (h : openFile crate s w path = .ok id x) :
    ∃ st fl st', w.Current st ∧ crate.openFile st path = .ok fl st' ∧ id = s.nextId ∧
      x = ((s.insertFile path ⟨w.fsPtr.value, fl⟩).2,
        { w with fileSystems := w.fileSystems.set w.fsPtr.value st' }) := by
  unfold openFile at h
  rw [hnew] at h
  dsimp only at h
  cases hfile : openNewFile crate w path with
  | ok newFl w' =>
    obtain ⟨st, st', hfs, hst, hopen, rfl⟩ := Mounted.withFilesystem_eq_ok hfile
    have hptr := Mounted.getFilesystem_of_ok hfile
    rw [hfile] at h
    cases h
    obtain ⟨fs, fl⟩ := newFl
    obtain rfl : fs = w.fsPtr.value := hfs
    exact ⟨st, fl, st', ⟨hptr, hst⟩, hopen, rfl, rfl⟩
  | err code w' =>
    rw [hfile] at h
    cases h
  | panicked w' =>
    rw [hfile] at h
    cases h

theorem openFile_store (crate : FatfsCrate φ F D) (s : IdStore F D) (w : Mounted φ) (path : String) :
    (openFile crate s w path).state.1 = s ∨
    ∃ st fl st', s.hasFile path = none ∧ (openNewFile crate w path).isOk = true ∧
      w.fileSystems.get? w.fsPtr.value = some st ∧ crate.openFile st path = .ok fl st' ∧
      (openFile crate s w path).state.1 = (s.insertFile path ⟨w.fsPtr.value, fl⟩).2 := by
  unfold openFile
  cases hf : s.hasFile path with
  | some id => exact Or.inl rfl
  | none =>
    dsimp only
    cases ho : openNewFile crate w path with
    | ok x w' =>
      obtain ⟨st, st', hfs, hst, hopen⟩ := openNewFile_eq_ok ho
      exact Or.inr ⟨st, x.obj, st', rfl, rfl, hst, hopen, by rw [← hfs]; rfl⟩
    | err code w' => exact Or.inl rfl
    | panicked w' => exact Or.inl rfl

/-- The directory of a path, which needs no opening if it is the root. -/
def OpensDir (crate : FatfsCrate φ F D) (st : φ) (path : String) (d : D) : Prop :=
  (path = "/" ∨ path = "") ∧ d = crate.rootDir st ∨ ∃ st', crate.openDir st path = .ok d st'

/-- A new directory is one of the current file system. -/
theorem openNewDir_eq_ok {path : String} {w' : Mounted φ} {dir : Handle D}
    (h : openNewDir crate w path = .ok dir w') :
    ∃ st, dir.fs = w.fsPtr.value ∧ w.fileSystems.get? w.fsPtr.value = some st ∧
      OpensDir crate st path dir.obj := by
  obtain ⟨st, st', hfs, hst, hopen, -⟩ := Mounted.withFilesystem_eq_ok h
  refine ⟨st, hfs, hfs ▸ hst, ?_⟩
  split at hopen
  · next hroot =>
    injection hopen with hobj
    exact Or.inl ⟨hroot, hobj.symm⟩
  · exact Or.inr ⟨st', hopen⟩

theorem openDir_store (crate : FatfsCrate φ F D) (s : IdStore F D) (w : Mounted φ) (path : String) :
    (openDir crate s w path).state.1 = s ∨
    ∃ st d, w.fileSystems.get? w.fsPtr.value = some st ∧ OpensDir crate st path d ∧
      (openDir crate s w path).state.1 = (s.insertDir path ⟨w.fsPtr.value, d⟩).2 := by
  unfold openDir
  cases hf : s.hasDir path with
  | some id => exact Or.inl rfl
  | none =>
    dsimp only
    cases ho : openNewDir crate w path with
    | ok x w' =>
      obtain ⟨st, hfs, hst, hopen⟩ := openNewDir_eq_ok ho
      exact Or.inr ⟨st, x.obj, hst, hopen, by rw [← hfs]; rfl⟩
    | err code w' => exact Or.inl rfl
    | panicked w' => exact Or.inl rfl

theorem closeFile_store (crate : FatfsCrate φ F D) (s : IdStore F D) (w : Mounted φ) (id : ℕ) :
    (closeFile crate s w id).state.1 = s ∨
    (closeFile crate s w id).state.1 = { s with fileHandleMap := s.fileHandleMap.erase id } ∨
    (closeFile crate s w id).state.1 =
      { s with fileHandleMap := s.fileHandleMap.erase id, fileNameMap := s.fileNameMap.erase id } := by
  unfold closeFile
  cases s.fileHandleMap.lookup id with
  | none => exact Or.inl rfl
  | some f =>
    dsimp only
    cases w.onFs f.fs fun st => crate.flush st f.obj with
    | ok _ w' => exact Or.inr (Or.inr rfl)
    | err e w' => exact Or.inr (Or.inl rfl)
    | panicked w' => exact Or.inr (Or.inl rfl)

theorem closeDir_store (crate : FatfsCrate φ F D) (s : IdStore F D) (w : Mounted φ) (id : ℕ) :
    (closeDir crate s w id).state.1 = s ∨
    (closeDir crate s w id).state.1 =
      { s with
        dirHandleMap := s.dirHandleMap.erase id
        dirNameMap := s.dirNameMap.erase id
        dirIterMap := s.dirIterMap.erase id } := by
  unfold closeDir
  cases s.dirHandleMap.lookup id with
  | none => exact Or.inl rfl
  | some d => exact Or.inr rfl

theorem foldl_moved (hc : Within crate R) {β : Type} {f : Mounted φ → β → Mounted φ}
    (hf : ∀ w x, Mounted.Moved R w (f w x)) (l : List β) (w : Mounted φ) :
    Mounted.Moved R w (l.foldl f w) := by
  induction l generalizing w with
  | nil => exact .refl hc.refl w
  | cons x l ih => exact (hf w x).trans hc.trans (ih (f w x))

theorem dropStore_moved (hc : Within crate R) (s : IdStore F D) (w : Mounted φ) :
    Mounted.Moved R w (dropStore crate s w) := by
  have hdirs := foldl_moved hc (f := fun w (e : Sigma fun _ : ℕ => Handle D) =>
    w.dropOn e.2.fs fun st => crate.dropDir st e.2.obj)
    (fun w e => Mounted.dropOn_moved hc.refl fun st => hc.dropDir st e.2.obj)
    s.dirHandleMap.entries w
  have hfiles := foldl_moved hc (f := fun w (e : Sigma fun _ : ℕ => Handle F) =>
    dropHandle crate w e.2) (fun w e => dropHandle_moved hc e.2) s.fileHandleMap.entries
  exact hdirs.trans hc.trans (hfiles _)

theorem dropStore_fsPtr (s : IdStore F D) (w : Mounted φ) :
    (dropStore crate s w).fsPtr = w.fsPtr := by
  have hfold : ∀ {β : Type} (f : Mounted φ → β → Mounted φ), (∀ w x, (f w x).fsPtr = w.fsPtr) →
      ∀ (l : List β) (w : Mounted φ), (l.foldl f w).fsPtr = w.fsPtr := by
    intro β f hf l
    induction l with
    | nil => intro w; rfl
    | cons x l ih => intro w; exact (ih (f w x)).trans (hf w x)
  unfold dropStore dropHandle
  rw [hfold _ fun w e => Mounted.dropOn_fsPtr _ _, hfold _ fun w e => Mounted.dropOn_fsPtr _ _]

end IdStore

end FatDrive
