import FatDrive.Volume

/-!
# FatDrive.IdStoreInv — the maps of the store over whole runs

* `exec_effect`: all that a call can do to the store, errors and panics included;
* `effect_inStep_iff`: a call leaves maps that are in step in step exactly if it does not close a
  file whose flush fails;
* `run_inStep`: over runs, with what it says about the ids that opens return and about opening a
  path again;
* `stale_name`: a flush that fails makes a path unusable.
-/

namespace FatDrive.IdStore

open Lib

variable {φ F D : Type} {crate : FatfsCrate φ F D} {s s' : IdStore F D} {w : Mounted φ}

/-! ### What a call can do -/

/-- The flush of a file that is being closed succeeds. -/
def flushOk (crate : FatfsCrate φ F D) (w : Mounted φ) (f : Handle F) : Bool :=
  match w.onFs f.fs fun st => crate.flush st f.obj with
  | .ok _ _ => true
  | _ => false

/-- The same ids are in use, under the same paths. -/
structure SameIds (s s' : IdStore F D) : Prop where
  nextId : s'.nextId = s.nextId
  fileHandles : ∀ id, id ∈ s'.fileHandleMap ↔ id ∈ s.fileHandleMap
  fileNames : s'.fileNameMap = s.fileNameMap
  dirHandles : ∀ id, id ∈ s'.dirHandleMap ↔ id ∈ s.dirHandleMap
  dirNames : s'.dirNameMap = s.dirNameMap
  dirIters : ∀ id, id ∈ s'.dirIterMap ↔ id ∈ s.dirIterMap

theorem SameIds.refl (s : IdStore F D) : SameIds s s :=
  ⟨rfl, fun _ => Iff.rfl, rfl, fun _ => Iff.rfl, rfl, fun _ => Iff.rfl⟩

/-- What a call returned is an id. -/
def ReturnsId (r : Option (Except ℕ Resp)) : Prop := ∃ id, r = some (.ok (.id id))

/-- All that a call can do, with what it returns. -/
inductive Effect (crate : FatfsCrate φ F D) (s : IdStore F D) (w : Mounted φ) :
    Op F D → Option (Except ℕ Resp) → IdStore F D → Prop
  /-- Nothing is opened and nothing is closed. -/
  | kept {op r s'} (hs : SameIds s s') (hr : ¬ ReturnsId r)
      (hfile : ∀ id, op = .closeFile id → id ∉ s.fileHandleMap)
      (hdir : ∀ id, op = .closeDir id → id ∉ s.dirHandleMap) : Effect crate s w op r s'
  | foundFile {path id} (h : s.hasFile path = some id) :
      Effect crate s w (.openFile path) (some (.ok (.id id))) s
  | newFile {op path fl} (h : op = .insertFile path fl ∨ op = .openFile path ∧
        s.hasFile path = none ∧ ∃ w', openNewFile crate w path = .ok fl w') :
      Effect crate s w op (some (.ok (.id s.nextId))) (s.insertFile path fl).2
  | foundDir {path id} (h : s.hasDir path = some id) :
      Effect crate s w (.openDir path) (some (.ok (.id id))) s
  | newDir {op path dir} (h : op = .insertDir path dir ∨ op = .openDir path ∧
        s.hasDir path = none ∧ ∃ w', openNewDir crate w path = .ok dir w') :
      Effect crate s w op (some (.ok (.id s.nextId))) (s.insertDir path dir).2
  | closedFile {id f} (h : s.fileHandleMap.lookup id = some f) (hf : flushOk crate w f = true) :
      Effect crate s w (.closeFile id) (some (.ok .unit))
        { s with fileHandleMap := s.fileHandleMap.erase id, fileNameMap := s.fileNameMap.erase id }
  /-- The flush fails: the handle is gone, the name is left. -/
  | halfClosed {id f r} (h : s.fileHandleMap.lookup id = some f) (hf : flushOk crate w f = false)
      (hr : ¬ ReturnsId r) :
      Effect crate s w (.closeFile id) r { s with fileHandleMap := s.fileHandleMap.erase id }
  | closedDir {id d} (h : s.dirHandleMap.lookup id = some d) :
      Effect crate s w (.closeDir id) (some (.ok .unit))
        { s with
          dirHandleMap := s.dirHandleMap.erase id
          dirNameMap := s.dirNameMap.erase id
          dirIterMap := s.dirIterMap.erase id }

theorem not_returnsId_error {code : ℕ} : ¬ ReturnsId (some (.error code)) := nofun
theorem not_returnsId_none : ¬ ReturnsId none := nofun

theorem openFile_effect (path : String) :
    Effect crate s w (.openFile path) (exec crate s w (.openFile path)).result
      (exec crate s w (.openFile path)).state := by
  rw [exec, openFile]
  cases hh : s.hasFile path with
  | some id => exact .foundFile hh
  | none =>
    cases ho : openNewFile crate w path with
    | ok fl w' => exact .newFile (Or.inr ⟨rfl, hh, w', ho⟩)
    | err code w' => exact .kept (.refl s) not_returnsId_error nofun nofun
    | panicked w' => exact .kept (.refl s) not_returnsId_none nofun nofun

theorem openDir_effect (path : String) :
    Effect crate s w (.openDir path) (exec crate s w (.openDir path)).result
      (exec crate s w (.openDir path)).state := by
  rw [exec, openDir]
  cases hh : s.hasDir path with
  | some id => exact .foundDir hh
  | none =>
    cases ho : openNewDir crate w path with
    | ok dir w' => exact .newDir (Or.inr ⟨rfl, hh, w', ho⟩)
    | err code w' => exact .kept (.refl s) not_returnsId_error nofun nofun
    | panicked w' => exact .kept (.refl s) not_returnsId_none nofun nofun

theorem closeFile_effect (id : ℕ) :
    Effect crate s w (.closeFile id) (exec crate s w (.closeFile id)).result
      (exec crate s w (.closeFile id)).state := by
  rw [exec, closeFile]
  cases hl : s.fileHandleMap.lookup id with
  | none =>
    refine .kept (.refl s) not_returnsId_error ?_ nofun
    rintro _ ⟨⟩
    exact AList.lookup_eq_none.mp hl
  | some f =>
    dsimp only
    cases hf : w.onFs f.fs fun st => crate.flush st f.obj with
    | ok _ w' => exact .closedFile hl (by rw [flushOk, hf])
    | err e w' => exact .halfClosed hl (by rw [flushOk, hf]) not_returnsId_error
    | panicked w' => exact .halfClosed hl (by rw [flushOk, hf]) not_returnsId_none

theorem closeDir_effect (id : ℕ) :
    Effect crate s w (.closeDir id) (exec crate s w (.closeDir id)).result
      (exec crate s w (.closeDir id)).state := by
  rw [exec, closeDir]
  cases hl : s.dirHandleMap.lookup id with
  | none =>
    refine .kept (.refl s) not_returnsId_error nofun ?_
    rintro _ ⟨⟩
    exact AList.lookup_eq_none.mp hl
  | some d => exact .closedDir hl

theorem useFile_effect (id : ℕ) (use : F → F) :
    Effect crate s w (.useFile id use) (exec crate s w (.useFile id use)).result
      (exec crate s w (.useFile id use)).state := by
  rw [exec, useFile, getFileHandle]
  cases hl : s.fileHandleMap.lookup id with
  | none => exact .kept (.refl s) not_returnsId_error nofun nofun
  | some f =>
    refine .kept ⟨rfl, fun _ => AList.mem_replace, rfl, fun _ => Iff.rfl, rfl, fun _ => Iff.rfl⟩
      nofun nofun nofun

theorem readNextDirent_effect (id : ℕ) :
    Effect crate s w (.readNextDirent id) (exec crate s w (.readNextDirent id)).result
      (exec crate s w (.readNextDirent id)).state := by
  rw [exec, readNextDirent]
  cases hl : s.dirHandleMap.lookup id with
  | none => exact .kept (.refl s) not_returnsId_error nofun nofun
  | some dir =>
    cases hi : s.dirIterMap.lookup id with
    | none => exact .kept (.refl s) not_returnsId_error nofun nofun
    | some idx =>
      have hs : SameIds s { s with dirIterMap := s.dirIterMap.replace id ((idx + 1) % 2 ^ 64) } :=
        ⟨rfl, fun _ => Iff.rfl, rfl, fun _ => Iff.rfl, rfl, fun _ => AList.mem_replace⟩
      dsimp only
      cases w.fileSystems.get? dir.fs with
      | none => exact .kept hs not_returnsId_none nofun nofun
      | some st =>
        dsimp only
        cases (crate.iter st dir.obj)[idx]? with
        | none => exact .kept hs nofun nofun nofun
        | some ent =>
          cases ent with
          | error e => exact .kept hs not_returnsId_error nofun nofun
          | ok r => exact .kept hs nofun nofun nofun

/-- **All that a call can do.** -/
theorem exec_effect (op : Op F D) :
    Effect crate s w op (exec crate s w op).result (exec crate s w op).state := by
  cases op with
  | openFile path => exact openFile_effect path
  | openDir path => exact openDir_effect path
  | closeFile id => exact closeFile_effect id
  | closeDir id => exact closeDir_effect id
  | useFile id use => exact useFile_effect id use
  | readNextDirent id => exact readNextDirent_effect id
  | getPathForId id =>
    rw [exec]
    cases s.getPathForId id with
    | ok p => exact .kept (.refl s) nofun nofun nofun
    | error code => exact .kept (.refl s) not_returnsId_error nofun nofun
  | insertFile path fl => exact .newFile (Or.inl rfl)
  | insertDir path dir => exact .newDir (Or.inl rfl)

theorem Step.effect {l : Label φ F D} (h : Step crate s l s') :
    Effect crate s l.1.1 l.1.2 l.2 s' := by
  obtain ⟨hr, rfl⟩ := h
  rw [← hr]
  exact exec_effect l.1.2

/-! ### The maps in step -/

/-- The maps of each kind have the same ids, and no path is there twice. -/
structure InStep (s : IdStore F D) : Prop where
  files : ∀ id, id ∈ s.fileHandleMap ↔ id ∈ s.fileNameMap
  dirs : ∀ id, id ∈ s.dirHandleMap ↔ id ∈ s.dirNameMap
  iters : ∀ id, id ∈ s.dirIterMap ↔ id ∈ s.dirNameMap
  filePaths : NoTwice s.fileNameMap
  dirPaths : NoTwice s.dirNameMap

theorem inStep_new : InStep (new : IdStore F D) where
  files := fun id => iff_of_false (AList.notMem_empty id) (AList.notMem_empty id)
  dirs := fun id => iff_of_false (AList.notMem_empty id) (AList.notMem_empty id)
  iters := fun id => iff_of_false (AList.notMem_empty id) (AList.notMem_empty id)
  filePaths := .empty
  dirPaths := .empty

/-- The call inserts a handle of its own, past `open_file` and `open_dir`. -/
def Op.isInsert : Op F D → Bool
  | .insertFile .. | .insertDir .. => true
  | _ => false

/-- The call does not close a file whose flush fails. -/
def ClosesClean (crate : FatfsCrate φ F D) (s : IdStore F D) (c : Call φ F D) : Prop :=
  match c.2 with
  | .closeFile id => (s.fileHandleMap.lookup id).all (flushOk crate c.1) = true
  | _ => True

theorem InStep.same (h : InStep s) (hs : SameIds s s') : InStep s' where
  files := fun id => by rw [hs.fileHandles, hs.fileNames]; exact h.files id
  dirs := fun id => by rw [hs.dirHandles, hs.dirNames]; exact h.dirs id
  iters := fun id => by rw [hs.dirIters, hs.dirNames]; exact h.iters id
  filePaths := by rw [hs.fileNames]; exact h.filePaths
  dirPaths := by rw [hs.dirNames]; exact h.dirPaths

theorem InStep.insertFile (h : InStep s) {path : String} (hp : s.hasFile path = none)
    (fl : Handle F) : InStep (s.insertFile path fl).2 where
  files := fun id => by
    refine (AList.mem_insert _).trans (Iff.trans ?_ (AList.mem_insert _).symm)
    exact or_congr_right (h.files id)
  dirs := h.dirs
  iters := h.iters
  filePaths := h.filePaths.insert _ (findKey?_eq_none.mp hp)
  dirPaths := h.dirPaths

theorem InStep.insertDir (h : InStep s) {path : String} (hp : s.hasDir path = none)
    (dir : Handle D) : InStep (s.insertDir path dir).2 where
  files := h.files
  dirs := fun id => by
    refine (AList.mem_insert _).trans (Iff.trans ?_ (AList.mem_insert _).symm)
    exact or_congr_right (h.dirs id)
  iters := fun id => by
    refine (AList.mem_insert _).trans (Iff.trans ?_ (AList.mem_insert _).symm)
    exact or_congr_right (h.iters id)
  filePaths := h.filePaths
  dirPaths := h.dirPaths.insert _ (findKey?_eq_none.mp hp)

/-- **One call.** -/
theorem effect_inStep_iff (h : InStep s) {op : Op F D} {r : Option (Except ℕ Resp)}
    (hop : op.isInsert = false) (he : Effect crate s w op r s') :
    InStep s' ↔ ClosesClean crate s (w, op) := by
  cases he with
  | kept hs hr hfile hdir =>
    refine iff_of_true (h.same hs) ?_
    unfold ClosesClean
    split
    · next id hid => rw [AList.lookup_eq_none.mpr (hfile id hid)]; rfl
    · trivial
  | foundFile hf => exact iff_of_true h trivial
  | foundDir hf => exact iff_of_true h trivial
  | newFile hn =>
    rcases hn with rfl | ⟨rfl, hp, -⟩
    · cases hop
    · exact iff_of_true (h.insertFile hp _) trivial
  | newDir hn =>
    rcases hn with rfl | ⟨rfl, hp, -⟩
    · cases hop
    · exact iff_of_true (h.insertDir hp _) trivial
  | closedFile hl hf =>
    refine iff_of_true ⟨fun id => ?_, h.dirs, h.iters, h.filePaths.erase _, h.dirPaths⟩ ?_
    · exact AList.mem_erase.trans (Iff.trans (and_congr_right fun _ => h.files id)
        AList.mem_erase.symm)
    · unfold ClosesClean
      dsimp only
      rw [hl]
      exact hf
  | @halfClosed id f _ hl hf hr =>
    -- the name is left without its handle
    refine iff_of_false (fun h' => ?_) (fun hc => ?_)
    · have hmem : id ∈ s.fileNameMap := (h.files id).mp (AList.lookup_isSome.mp (by rw [hl]; rfl))
      exact (AList.mem_erase.mp ((h'.files id).mpr hmem)).1 rfl
    · unfold ClosesClean at hc
      dsimp only at hc
      rw [hl, Option.all_some, hf] at hc
      cases hc
  | closedDir hl =>
    refine iff_of_true
      ⟨h.files, fun id => ?_, fun id => ?_, h.filePaths, h.dirPaths.erase _⟩ trivial
    · exact AList.mem_erase.trans (Iff.trans (and_congr_right fun _ => h.dirs id)
        AList.mem_erase.symm)
    · exact AList.mem_erase.trans (Iff.trans (and_congr_right fun _ => h.iters id)
        AList.mem_erase.symm)

/-! ### What opens return -/

/-- `read_next_dirent` finds the directory of an id, and how far it has been read. -/
def DirUsable (s : IdStore F D) (id : ℕ) : Prop :=
  ∃ dir idx, s.dirHandleMap.lookup id = some dir ∧ s.dirIterMap.lookup id = some idx

theorem getFileHandle_iff {id : ℕ} : (∃ f, s.getFileHandle id = .ok f) ↔ id ∈ s.fileHandleMap := by
  unfold getFileHandle
  rw [← AList.lookup_isSome]
  cases s.fileHandleMap.lookup id with
  | none => exact iff_of_false (by rintro ⟨f, h⟩; cases h) Bool.false_ne_true
  | some f => exact iff_of_true ⟨f, rfl⟩ rfl

theorem dirUsable_iff (h : InStep s) {id : ℕ} : DirUsable s id ↔ id ∈ s.dirHandleMap := by
  constructor
  · rintro ⟨dir, idx, hd, -⟩
    exact AList.lookup_isSome.mp (by rw [hd]; rfl)
  · intro hd
    have hi : id ∈ s.dirIterMap := (h.iters id).mpr ((h.dirs id).mp hd)
    obtain ⟨dir, hdir⟩ := Option.isSome_iff_exists.mp (AList.lookup_isSome.mpr hd)
    obtain ⟨idx, hidx⟩ := Option.isSome_iff_exists.mp (AList.lookup_isSome.mpr hi)
    exact ⟨dir, idx, hdir, hidx⟩

/-- The id an open returns has a handle. -/
theorem opened_mem (h : InStep s) {op : Op F D} {id : ℕ}
    (he : Effect crate s w op (some (.ok (.id id))) s') :
    (∀ path, op = .openFile path → id ∈ s'.fileHandleMap) ∧
    (∀ path, op = .openDir path → id ∈ s'.dirHandleMap) := by
  cases he with
  | kept hs hr hfile hdir => exact absurd ⟨id, rfl⟩ hr
  | foundFile hf =>
    refine ⟨fun _ _ => (h.files id).mpr (AList.lookup_isSome.mp ?_), nofun⟩
    rw [lookup_of_findKey? hf]
    rfl
  | foundDir hf =>
    refine ⟨nofun, fun _ _ => (h.dirs id).mpr (AList.lookup_isSome.mp ?_)⟩
    rw [lookup_of_findKey? hf]
    rfl
  | newFile hn =>
    refine ⟨fun _ _ => (AList.mem_insert _).mpr (Or.inl rfl), ?_⟩
    rcases hn with rfl | ⟨rfl, -⟩ <;> exact nofun
  | newDir hn =>
    refine ⟨?_, fun _ _ => (AList.mem_insert _).mpr (Or.inl rfl)⟩
    rcases hn with rfl | ⟨rfl, -⟩ <;> exact nofun
  | halfClosed hl hf hr => exact absurd ⟨id, rfl⟩ hr

/-- A path none of whose handles is left is opened anew. -/
theorem reopen_file (h : InStep s) {path : String} {fl : Handle F} {w' : Mounted φ}
    (hgone : ∀ id, id ∈ s.fileHandleMap → s.fileNameMap.lookup id ≠ some path)
    (ho : openNewFile crate w path = .ok fl w') :
    openFile crate s w path = .ok s.nextId ((s.insertFile path fl).2, w') := by
  have hp : s.hasFile path = none := by
    refine findKey?_eq_none.mpr fun id hid => hgone id ((h.files id).mpr ?_) hid
    exact AList.lookup_isSome.mp (by rw [hid]; rfl)
  rw [openFile, hp]
  dsimp only
  rw [ho]
  rfl

theorem reopen_dir (h : InStep s) {path : String} {dir : Handle D} {w' : Mounted φ}
    (hgone : ∀ id, id ∈ s.dirHandleMap → s.dirNameMap.lookup id ≠ some path)
    (ho : openNewDir crate w path = .ok dir w') :
    openDir crate s w path = .ok s.nextId ((s.insertDir path dir).2, w') := by
  have hp : s.hasDir path = none := by
    refine findKey?_eq_none.mpr fun id hid => hgone id ((h.dirs id).mpr ?_) hid
    exact AList.lookup_isSome.mp (by rw [hid]; rfl)
  rw [openDir, hp]
  dsimp only
  rw [ho]
  rfl

/-! ### Runs -/

/-- **The maps over runs.**  After any calls none of which closes a file whose flush fails, the maps
are in step.  The next call leaves them so exactly if it does not either; an id it returns from an
open is usable; and a path whose handles are gone is opened under a new, usable id whenever the file
system opens it. -/
theorem run_inStep {ls : List (Label φ F D)}
    (hrun : Run (Guard (Step crate) fun s l =>
      l.1.2.isInsert = false ∧ ClosesClean crate s l.1) new ls s) :
    InStep s ∧
    (∀ l s', l.1.2.isInsert = false → Step crate s l s' →
      (InStep s' ↔ ClosesClean crate s l.1) ∧
      (∀ path id, l.1.2 = .openFile path → l.2 = some (.ok (.id id)) →
        ∃ f, s'.getFileHandle id = .ok f) ∧
      ∀ path id, l.1.2 = .openDir path → l.2 = some (.ok (.id id)) → DirUsable s' id) ∧
    (∀ w path fl w', (∀ id, id ∈ s.fileHandleMap → s.fileNameMap.lookup id ≠ some path) →
      openNewFile crate w path = .ok fl w' →
      openFile crate s w path = .ok s.nextId ((s.insertFile path fl).2, w')) ∧
    ∀ w path dir w', (∀ id, id ∈ s.dirHandleMap → s.dirNameMap.lookup id ≠ some path) →
      openNewDir crate w path = .ok dir w' →
      openDir crate s w path = .ok s.nextId ((s.insertDir path dir).2, w') := by
  have h : InStep s := hrun.invariant (I := InStep) (fun s l s' h hst =>
    (effect_inStep_iff h hst.1.1 hst.2.effect).mpr hst.1.2) inStep_new
  refine ⟨h, fun l s' hop hst => ⟨effect_inStep_iff h hop hst.effect, ?_, ?_⟩,
    fun w path fl w' => reopen_file h, fun w path dir w' => reopen_dir h⟩
  · intro path id hl hr
    have he := hst.effect
    rw [hr] at he
    exact getFileHandle_iff.mpr ((opened_mem h he).1 path hl)
  · intro path id hl hr
    have he := hst.effect
    have h' : InStep s' := (effect_inStep_iff h hop he).mpr (by rw [ClosesClean, hl]; trivial)
    rw [hr] at he
    exact (dirUsable_iff h').mpr ((opened_mem h he).2 path hl)

/-- The store after a list of calls on the sample volume. -/
def sampleAfter (cs : List (Call Volume ℕ ℕ)) : IdStore ℕ ℕ :=
  after (fun s c => (exec volumeCrate s c.1 c.2).state) new cs

/-- What the calls return. -/
def sampleAnswers (cs : List (Call Volume ℕ ℕ)) : List (Label Volume ℕ ℕ) :=
  answers (fun s c => (exec volumeCrate s c.1 c.2).state)
    (fun s c => (exec volumeCrate s c.1 c.2).result) new cs

/-- A file and a directory are opened, the file is closed and opened again. -/
def reopening : List (Call Volume ℕ ℕ) :=
  [(sampleMounted [], .openFile "a"), (sampleMounted [], .openDir "/"),
    (sampleMounted [], .closeFile 0), (sampleMounted [], .openFile "a")]

/-- A list of calls on the sample volume is a run. -/
theorem run_sample {P : IdStore ℕ ℕ → Call Volume ℕ ℕ → Prop} {cs : List (Call Volume ℕ ℕ)}
    (h : Along (fun s c => (exec volumeCrate s c.1 c.2).state) P new cs) :
    Run (Guard (Step volumeCrate) fun s l => P s l.1) new (sampleAnswers cs) (sampleAfter cs) :=
  run_answers _ (fun s (c : Call Volume ℕ ℕ) => (exec volumeCrate s c.1 c.2).result) h

theorem run_inStep_reopening : InStep (sampleAfter reopening) := by
  have h : Along (fun s c => (exec volumeCrate s c.1 c.2).state)
      (fun s c => c.2.isInsert = false ∧ ClosesClean volumeCrate s c) new reopening :=
    ⟨⟨rfl, trivial⟩, ⟨rfl, trivial⟩, ⟨rfl, rfl⟩, ⟨rfl, trivial⟩, trivial⟩
  exact (run_inStep (run_sample h)).1

/-- **A stale name.**  The flush of the closing file fails; the path is then answered with the id
of the closed file, which has no handle. -/
theorem stale_name :
    (sampleAnswers [(sampleMounted [], .openFile "a"), (sampleMounted [.fails], .closeFile 0),
      (sampleMounted [], .openFile "a"), (sampleMounted [], .useFile 0 fun f => f)]).map Prod.snd =
      [some (.ok (.id 0)), some (.error (LibnxErrMapper.map (⟨.other, none⟩ : IoError))),
        some (.ok (.id 0)), some (.error nxFatdriveErrFileNotFound)] ∧
    ¬ InStep (sampleAfter [(sampleMounted [], .openFile "a"),
      (sampleMounted [.fails], .closeFile 0)]) := by
  refine ⟨rfl, fun h => ?_⟩
  have := (h.files 0).mpr (by decide)
  exact absurd this (by decide)

end FatDrive.IdStore
