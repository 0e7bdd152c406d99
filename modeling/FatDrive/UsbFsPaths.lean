import FatDrive.UsbFsLifetime

/-!
# FatDrive.UsbFsPaths — ids, spellings of paths, and entries of the volume

`Apart` says that no two file ids denote one file, `Present` that every handle denotes an entry that
is on the volume.  `Tracked` is the invariant behind them: a handle's entry is the one its name
resolves to.

* `KeptByCalls.step`: what opening, closing and removing keep, every call keeps;
* `tracked_kept`: they keep it unless a file is opened under a second spelling, or an entry is removed
  that an id denotes under another spelling or as the other kind;
* `run_apart`: over runs from a fresh store;
* `two_ids`: a file with two ids, both left behind by a removal under a third spelling.
-/

namespace FatDrive

open Lib

variable {φ F D E : Type} {crate : FatfsCrate φ F D} {entry : φ → Path → Option E}
  {fileEntry : F → E} {dirEntry : D → E}

/-- Nothing is taken off the volume. -/
def Keeps (entry : φ → Path → Option E) (st st' : φ) : Prop :=
  ∀ k e, entry st k = some e → entry st' k = some e

theorem Keeps.of_eq {st st' : φ} (h : entry st' = entry st) : Keeps entry st st' :=
  fun k e he => by rw [h]; exact he

theorem ResolvesPaths.within (hc : ResolvesPaths crate entry fileEntry dirEntry) :
    Within crate (Keeps entry) where
  refl := fun _ _ _ h => h
  trans := fun _ _ _ h h' k e he => h' k e (h k e he)
  openFile := fun st path => .of_eq (hc.openFile_entry st path)
  openDir := fun st path => .of_eq (hc.openDir_entry st path)
  createFile := fun _ _ _ _ => hc.createFile_entry
  createDir := fun _ _ _ _ => hc.createDir_entry
  flush := fun st f => .of_eq (hc.flush_entry st f)
  dropFile := fun st f => .of_eq (hc.dropFile_entry st f)
  dropDir := fun st d => .of_eq (hc.dropDir_entry st d)

namespace IdStore

variable {s s' : IdStore F D} {w w' : Mounted φ}

/-- No two file ids denote the same file. -/
def Apart (fileEntry : F → E) (s : IdStore F D) : Prop :=
  ∀ id id' f f', s.fileHandleMap.lookup id = some f → s.fileHandleMap.lookup id' = some f' →
    fileEntry f.obj = fileEntry f'.obj → id = id'

/-- The entry is on the volume that the pointer leads to. -/
def OnVolume (entry : φ → Path → Option E) (w : Mounted φ) (e : E) : Prop :=
  ∃ st k, w.fileSystems.get? w.fsPtr.value = some st ∧ entry st k = some e

/-- Every handle denotes an entry of the volume. -/
structure Present (entry : φ → Path → Option E) (fileEntry : F → E) (dirEntry : D → E)
    (s : IdStore F D) (w : Mounted φ) : Prop where
  files : ∀ id f, s.fileHandleMap.lookup id = some f → OnVolume entry w (fileEntry f.obj)
  dirs : ∀ id d, s.dirHandleMap.lookup id = some d → OnVolume entry w (dirEntry d.obj)

/-- The path resolves to this entry. -/
def Resolves (entry : φ → Path → Option E) (w : Mounted φ) (path : String) (e : E) : Prop :=
  ∃ st, w.fileSystems.get? w.fsPtr.value = some st ∧ entry st (components path) = some e

/-- The entry of a handle is the one its name resolves to, and no name occurs twice. -/
structure Tracked (entry : φ → Path → Option E) (fileEntry : F → E) (dirEntry : D → E)
    (s : IdStore F D) (w : Mounted φ) : Prop where
  files : ∀ id f, s.fileHandleMap.lookup id = some f →
    ∃ path, s.fileNameMap.lookup id = some path ∧ Resolves entry w path (fileEntry f.obj)
  dirs : ∀ id d, s.dirHandleMap.lookup id = some d →
    ∃ path, s.dirNameMap.lookup id = some path ∧ Resolves entry w path (dirEntry d.obj)
  apart : Apart fileEntry s

theorem Tracked.present (h : Tracked entry fileEntry dirEntry s w) :
    Present entry fileEntry dirEntry s w where
  files := fun id f hf => by
    obtain ⟨path, -, st, hst, he⟩ := h.files id f hf
    exact ⟨st, components path, hst, he⟩
  dirs := fun id d hd => by
    obtain ⟨path, -, st, hst, he⟩ := h.dirs id d hd
    exact ⟨st, components path, hst, he⟩

theorem tracked_new : Tracked entry fileEntry dirEntry (new : IdStore F D) w where
  files := fun id f hf => by cases (AList.lookup_empty id).symm.trans hf
  dirs := fun id d hd => by cases (AList.lookup_empty id).symm.trans hd
  apart := fun id _ f _ hf => by cases (AList.lookup_empty id).symm.trans hf

theorem Resolves.moved (hw : w.Moved (Keeps entry) w') {path : String} {e : E}
    (h : Resolves entry w path e) : Resolves entry w' path e := by
  obtain ⟨st, hst, he⟩ := h
  obtain ⟨st', hst', hk⟩ := hw.cell hst
  rw [← hw.fsPtr] at hst'
  exact ⟨st', hst', hk _ _ he⟩

theorem Tracked.moved (h : Tracked entry fileEntry dirEntry s w) (hw : w.Moved (Keeps entry) w') :
    Tracked entry fileEntry dirEntry s w' where
  files := fun id f hf => by
    obtain ⟨path, hp, hr⟩ := h.files id f hf
    exact ⟨path, hp, hr.moved hw⟩
  dirs := fun id d hd => by
    obtain ⟨path, hp, hr⟩ := h.dirs id d hd
    exact ⟨path, hp, hr.moved hw⟩
  apart := h.apart

/-! ### Opening -/

/-- No file id has a name that resolves as this path does. -/
def NoFileAt (s : IdStore F D) (path : String) : Prop :=
  ∀ id name, id ∈ s.fileHandleMap → s.fileNameMap.lookup id = some name →
    components name ≠ components path

/-- No directory id has a name that resolves as this path does. -/
def NoDirAt (s : IdStore F D) (path : String) : Prop :=
  ∀ id name, id ∈ s.dirHandleMap → s.dirNameMap.lookup id = some name →
    components name ≠ components path

/-- Two names of one entry have the same components. -/
theorem Resolves.components_eq (hone : OnePlace entry) {name path : String} {e : E}
    (h : Resolves entry w name e) (h' : Resolves entry w path e) :
    components name = components path := by
  obtain ⟨st, hst, he⟩ := h
  obtain ⟨st', hst', he'⟩ := h'
  cases hst.symm.trans hst'
  exact hone st _ _ e he he'

theorem Tracked.insertFile (hone : OnePlace entry)
    (h : Tracked entry fileEntry dirEntry s w) {path : String} {fl : Handle F}
    (hr : Resolves entry w path (fileEntry fl.obj)) (hno : NoFileAt s path) :
    Tracked entry fileEntry dirEntry (s.insertFile path fl).2 w where
  files := fun id f hf => by
    by_cases hid : id = s.nextId
    · subst hid
      cases (AList.lookup_insert s.fileHandleMap).symm.trans hf
      exact ⟨path, AList.lookup_insert s.fileNameMap, hr⟩
    · obtain ⟨name, hn, hr'⟩ := h.files id f ((AList.lookup_insert_ne hid).symm.trans hf)
      exact ⟨name, (AList.lookup_insert_ne hid).trans hn, hr'⟩
  dirs := h.dirs
  apart := by
    -- an old file with the entry of the new one would have a name with its components
    have hold : ∀ id f, s.fileHandleMap.lookup id = some f → fileEntry f.obj ≠ fileEntry fl.obj := by
      intro id f hf he
      obtain ⟨name, hn, hr'⟩ := h.files id f hf
      rw [he] at hr'
      have hmem : id ∈ s.fileHandleMap := AList.lookup_isSome.mp (by rw [hf]; rfl)
      exact hno id name hmem hn (hr'.components_eq hone hr)
    intro id id' f f' hf hf' he
    rcases lookup_insert_or hf with h₁ | ⟨h₁, hfl⟩ <;>
      rcases lookup_insert_or hf' with h₂ | ⟨h₂, hfl'⟩
    · exact h.apart id id' f f' h₁ h₂ he
    · rw [hfl'] at he
      exact absurd he (hold id f h₁)
    · rw [hfl] at he
      exact absurd he.symm (hold id' f' h₂)
    · rw [h₁, h₂]

theorem Tracked.insertDir (h : Tracked entry fileEntry dirEntry s w) {path : String}
    {dir : Handle D} (hr : Resolves entry w path (dirEntry dir.obj)) :
    Tracked entry fileEntry dirEntry (s.insertDir path dir).2 w where
  files := h.files
  dirs := fun id d hd => by
    by_cases hid : id = s.nextId
    · subst hid
      cases (AList.lookup_insert s.dirHandleMap).symm.trans hd
      exact ⟨path, AList.lookup_insert s.dirNameMap, hr⟩
    · obtain ⟨name, hn, hr'⟩ := h.dirs id d ((AList.lookup_insert_ne hid).symm.trans hd)
      exact ⟨name, (AList.lookup_insert_ne hid).trans hn, hr'⟩
  apart := h.apart

/-- A file that is opened anew has no id under another spelling. -/
def OpensOnce (crate : FatfsCrate φ F D) (s : IdStore F D) (w : Mounted φ) (path : String) : Prop :=
  s.hasFile path = none → (openNewFile crate w path).isOk = true → NoFileAt s path

theorem Tracked.openFile (hc : ResolvesPaths crate entry fileEntry dirEntry) (hone : OnePlace entry)
    (h : Tracked entry fileEntry dirEntry s w) {path : String} (hs : OpensOnce crate s w path) :
    Tracked entry fileEntry dirEntry (openFile crate s w path).state.1
      (openFile crate s w path).state.2 := by
  have hw := openFile_moved (s := s) (w := w) hc.within path
  rcases openFile_store crate s w path with hsame | ⟨st, fl, st', hf, ho, hst, hopen, hins⟩
  · rw [hsame]
    exact h.moved hw
  · have hr : Resolves entry w path (fileEntry fl) := ⟨st, hst, hc.openFile_ok hopen⟩
    rw [hins]
    exact (h.moved hw).insertFile hone (hr.moved hw) (hs hf ho)

/-- The entry of an opened directory is that of its path. -/
theorem OpensDir.resolves (hc : ResolvesPaths crate entry fileEntry dirEntry) {st : φ}
    {path : String} {d : D} (hst : w.fileSystems.get? w.fsPtr.value = some st)
    (h : OpensDir crate st path d) : Resolves entry w path (dirEntry d) := by
  refine ⟨st, hst, ?_⟩
  rcases h with ⟨hroot, rfl⟩ | ⟨st', hopen⟩
  · rcases hroot with rfl | rfl <;> exact hc.root st
  · exact hc.openDir_ok hopen

theorem Tracked.openDir (hc : ResolvesPaths crate entry fileEntry dirEntry)
    (h : Tracked entry fileEntry dirEntry s w) (path : String) :
    Tracked entry fileEntry dirEntry (openDir crate s w path).state.1
      (openDir crate s w path).state.2 := by
  have hw := openDir_moved (s := s) (w := w) hc.within path
  rcases openDir_store crate s w path with hsame | ⟨st, d, hst, hopen, hins⟩
  · rw [hsame]
    exact h.moved hw
  · rw [hins]
    exact (h.moved hw).insertDir ((hopen.resolves hc hst).moved hw)

/-! ### Closing -/

theorem Tracked.eraseFile (h : Tracked entry fileEntry dirEntry s w) (id : ℕ) :
    Tracked entry fileEntry dirEntry
      { s with fileHandleMap := s.fileHandleMap.erase id, fileNameMap := s.fileNameMap.erase id } w where
  files := fun id' f hf => by
    obtain ⟨hne, hf⟩ := lookup_erase_iff.mp hf
    obtain ⟨name, hn, hr⟩ := h.files id' f hf
    exact ⟨name, lookup_erase_iff.mpr ⟨hne, hn⟩, hr⟩
  dirs := h.dirs
  apart := fun id₁ id₂ f₁ f₂ h₁ h₂ =>
    h.apart id₁ id₂ f₁ f₂ (lookup_erase_iff.mp h₁).2 (lookup_erase_iff.mp h₂).2

/-- The handle goes, its name stays. -/
theorem Tracked.eraseHandle (h : Tracked entry fileEntry dirEntry s w) (id : ℕ) :
    Tracked entry fileEntry dirEntry { s with fileHandleMap := s.fileHandleMap.erase id } w where
  files := fun id' f hf => h.files id' f (lookup_erase_iff.mp hf).2
  dirs := h.dirs
  apart := (h.eraseFile id).apart

theorem Tracked.eraseDir (h : Tracked entry fileEntry dirEntry s w) (id : ℕ) :
    Tracked entry fileEntry dirEntry
      { s with
        dirHandleMap := s.dirHandleMap.erase id
        dirNameMap := s.dirNameMap.erase id
        dirIterMap := s.dirIterMap.erase id } w where
  files := h.files
  dirs := fun id' d hd => by
    obtain ⟨hne, hd⟩ := lookup_erase_iff.mp hd
    obtain ⟨name, hn, hr⟩ := h.dirs id' d hd
    exact ⟨name, lookup_erase_iff.mpr ⟨hne, hn⟩, hr⟩
  apart := h.apart

theorem Tracked.closeFile (hc : ResolvesPaths crate entry fileEntry dirEntry)
    (h : Tracked entry fileEntry dirEntry s w) (id : ℕ) :
    Tracked entry fileEntry dirEntry (closeFile crate s w id).state.1
      (closeFile crate s w id).state.2 := by
  have hw := h.moved (closeFile_moved (s := s) (w := w) hc.within id)
  rcases closeFile_store crate s w id with hsame | hsame | hsame <;> rw [hsame]
  · exact hw
  · exact hw.eraseHandle id
  · exact hw.eraseFile id

theorem Tracked.closeDir (hc : ResolvesPaths crate entry fileEntry dirEntry)
    (h : Tracked entry fileEntry dirEntry s w) (id : ℕ) :
    Tracked entry fileEntry dirEntry (closeDir crate s w id).state.1
      (closeDir crate s w id).state.2 := by
  have hw := h.moved (closeDir_moved (s := s) (w := w) hc.within id)
  rcases closeDir_store crate s w id with hsame | hsame <;> rw [hsame]
  · exact hw
  · exact hw.eraseDir id

/-! ### Removing and creating -/

/-- If the entry of the path is removed, no id has a name that resolves as the path does. -/
def RemovesFree (crate : FatfsCrate φ F D) (path : String) (x : IdStore F D × Mounted φ) : Prop :=
  (x.2.withFilesystem fun st => crate.remove st path).isOk = true →
    NoFileAt x.1 path ∧ NoDirAt x.1 path

/-- The same for what closing the id of that name, if there is one, leads to. -/
def DeletesFree (crate : FatfsCrate φ F D) (path : String) (x : IdStore F D × Mounted φ)
    (oldId : Option ℕ) (close : ℕ → Outcome ℕ (IdStore F D × Mounted φ) Unit) : Prop :=
  match oldId with
  | none => RemovesFree crate path x
  | some oldId => ∀ y, close oldId = .ok () y → RemovesFree crate path y

theorem Resolves.removed (hc : ResolvesPaths crate entry fileEntry dirEntry) {path name : String}
    {e : E} {st st' : φ} (hst : w.fileSystems.get? w.fsPtr.value = some st)
    (hrem : crate.remove st path = .ok () st') (hne : components name ≠ components path)
    (h : Resolves entry w name e) :
    Resolves entry { w with fileSystems := w.fileSystems.set w.fsPtr.value st' } name e := by
  obtain ⟨st₀, hst₀, he⟩ := h
  cases hst.symm.trans hst₀
  refine ⟨st', Heap.get?_set_self hst st', ?_⟩
  rw [(hc.remove_ok hrem).2 _ hne]
  exact he

/-- **One removal.** -/
theorem Tracked.remove (hc : ResolvesPaths crate entry fileEntry dirEntry) {path : String}
    {x : IdStore F D × Mounted φ} (h : Tracked entry fileEntry dirEntry x.1 x.2)
    (hs : RemovesFree crate path x) :
    Tracked entry fileEntry dirEntry x.1
      (x.2.withFilesystem fun st => crate.remove st path).state := by
  cases hok : (x.2.withFilesystem fun st => crate.remove st path).isOk with
  | false =>
    refine h.moved (Mounted.withFilesystem_failed hc.within.refl hok fun st hno => ?_)
    exact .of_eq (hc.remove_entry fun v' => hno () v')
  | true =>
    obtain ⟨hfile, hdir⟩ := hs hok
    obtain ⟨u, w', heq⟩ := Outcome.isOk_iff.mp hok
    obtain ⟨st, st', hfs, hst, hrem, rfl⟩ := Mounted.withFilesystem_eq_ok heq
    rw [hfs] at hst
    rw [heq, Outcome.state_ok, hfs]
    refine ⟨fun id f hf => ?_, fun id d hd => ?_, h.apart⟩
    · obtain ⟨name, hn, hr⟩ := h.files id f hf
      have hmem : id ∈ x.1.fileHandleMap := AList.lookup_isSome.mp (by rw [hf]; rfl)
      exact ⟨name, hn, hr.removed hc hst hrem (hfile id name hmem hn)⟩
    · obtain ⟨name, hn, hr⟩ := h.dirs id d hd
      have hmem : id ∈ x.1.dirHandleMap := AList.lookup_isSome.mp (by rw [hd]; rfl)
      exact ⟨name, hn, hr.removed hc hst hrem (hdir id name hmem hn)⟩

end IdStore

namespace Globals

variable {U : Type} {g g₀ : Globals U φ F D}

open IdStore

/-- The calls. -/
inductive FileCall where
  | openFile (filepath : Option String)
  | openDir (dirpath : Option String)
  | closeFile (fileid : ℕ)
  | closeDir (dirid : ℕ)
  | createFile (filepath : Option String)
  | createDir (dirpath : Option String)
  | deleteFile (filepath : Option String)
  | deleteDir (dirpath : Option String)
  deriving DecidableEq, Repr

/-- The state a call leaves, whatever it returns. -/
def FileCall.next (crate : FatfsCrate φ F D) (g : Globals U φ F D) : FileCall → Globals U φ F D
  | .openFile filepath => (usbFsOpenFile crate g filepath).state
  | .openDir dirpath => (usbFsOpenDir crate g dirpath).state
  | .closeFile fileid => (usbFsCloseFile crate g fileid).state
  | .closeDir dirid => (usbFsCloseDir crate g dirid).state
  | .createFile filepath => (usbFsCreateFile crate g filepath).state
  | .createDir dirpath => (usbFsCreateDir crate g dirpath).state
  | .deleteFile filepath => (usbFsDeleteFile crate g filepath).state
  | .deleteDir dirpath => (usbFsDeleteDir crate g dirpath).state

def FileStep (crate : FatfsCrate φ F D) (g : Globals U φ F D) (c : FileCall)
    (g' : Globals U φ F D) : Prop := c.next crate g = g'

/-- `P` holds of the path and of the store and what is mounted, if the call gets that far. -/
def Reaches (g : Globals U φ F D) (filepath : Option String)
    (P : String → IdStore F D → Mounted φ → Prop) : Prop :=
  ∀ path s, filepath = some path → g.idStorePtr.poisoned = false → g.store? = some s →
    P path s g.mounted

/-- The call opens no file under a second spelling, and removes no entry that an id denotes once
the file or directory of that name is closed. -/
def FileCall.Safe (crate : FatfsCrate φ F D) (g : Globals U φ F D) : FileCall → Prop
  | .openFile filepath => g.Reaches filepath fun path s w => OpensOnce crate s w path
  | .deleteFile filepath => g.Reaches filepath fun path s w =>
    DeletesFree crate path (s, w) (s.hasFile path) (IdStore.closeFile crate s w)
  | .deleteDir dirpath => g.Reaches dirpath fun path s w =>
    DeletesFree crate path (s, w) (s.hasDir path) (IdStore.closeDir crate s w)
  | _ => True

/-! ### What the calls keep -/

section Calls

variable {I : IdStore F D → Mounted φ → Prop} {K : φ → φ → Prop}
  {O : IdStore F D → Mounted φ → String → Prop} {R : String → IdStore F D × Mounted φ → Prop}

/-- `I` is kept by what the calls are made of: by opening a file where `O` allows it, and by removing
an entry where `R` does. -/
structure KeptByCalls (crate : FatfsCrate φ F D) (K : φ → φ → Prop)
    (O : IdStore F D → Mounted φ → String → Prop) (R : String → IdStore F D × Mounted φ → Prop)
    (I : IdStore F D → Mounted φ → Prop) : Prop where
  moved : ∀ {s w w'}, I s w → w.Moved K w' → I s w'
  openFile : ∀ {s w path}, I s w → O s w path →
    I (IdStore.openFile crate s w path).state.1 (IdStore.openFile crate s w path).state.2
  openDir : ∀ {s w} path, I s w →
    I (IdStore.openDir crate s w path).state.1 (IdStore.openDir crate s w path).state.2
  closeFile : ∀ {s w} id, I s w →
    I (IdStore.closeFile crate s w id).state.1 (IdStore.closeFile crate s w id).state.2
  closeDir : ∀ {s w} id, I s w →
    I (IdStore.closeDir crate s w id).state.1 (IdStore.closeDir crate s w id).state.2
  remove : ∀ {path} {x : IdStore F D × Mounted φ}, I x.1 x.2 → R path x →
    I x.1 (x.2.withFilesystem fun st => crate.remove st path).state

/-- A removal, once what has this id is closed, is allowed. -/
def DeletesUnder (R : String → IdStore F D × Mounted φ → Prop) (path : String)
    (x : IdStore F D × Mounted φ) (oldId : Option ℕ)
    (close : ℕ → Outcome ℕ (IdStore F D × Mounted φ) Unit) : Prop :=
  match oldId with
  | none => R path x
  | some oldId => ∀ y, close oldId = .ok () y → R path y

/-- What the call opens and removes is allowed. -/
def FileCall.Under (crate : FatfsCrate φ F D) (O : IdStore F D → Mounted φ → String → Prop)
    (R : String → IdStore F D × Mounted φ → Prop) (g : Globals U φ F D) : FileCall → Prop
  | .openFile filepath => g.Reaches filepath fun path s w => O s w path
  | .deleteFile filepath => g.Reaches filepath fun path s w =>
    DeletesUnder R path (s, w) (s.hasFile path) (IdStore.closeFile crate s w)
  | .deleteDir dirpath => g.Reaches dirpath fun path s w =>
    DeletesUnder R path (s, w) (s.hasDir path) (IdStore.closeDir crate s w)
  | _ => True

/-- `I` holds of the store, if there is one. -/
def OfStore (I : IdStore F D → Mounted φ → Prop) (g : Globals U φ F D) : Prop :=
  ∀ s, g.store? = some s → I s g.mounted

theorem OfStore.put {s : IdStore F D} {x : IdStore F D × Mounted φ} (hs : g.store? = some s)
    (h : I x.1 x.2) : OfStore I (g.put g.idStorePtr.value x) := by
  intro u hu
  rw [store?_put hs] at hu
  cases hu
  exact h

namespace KeptByCalls

theorem onRoot (hk : KeptByCalls crate K O R I) (hR : ∀ st, K st st) {s : IdStore F D}
    {w : Mounted φ} (h : I s w) {f : φ → Outcome IoError φ Unit} (hf : ∀ st, K st (f st).state) :
    I (Globals.onRoot s w f).state.1 (Globals.onRoot s w f).state.2 := by
  unfold Globals.onRoot
  rw [Outcome.state_bimap]
  exact hk.moved h (Mounted.withFilesystem_moved hR hf)

theorem onRoot_remove (hk : KeptByCalls crate K O R I) {path : String}
    {x : IdStore F D × Mounted φ} (h : I x.1 x.2) (hs : R path x) :
    I (Globals.onRoot x.1 x.2 fun st => crate.remove st path).state.1
      (Globals.onRoot x.1 x.2 fun st => crate.remove st path).state.2 := by
  unfold Globals.onRoot
  rw [Outcome.state_bimap]
  exact hk.remove h hs

/-- Close what the name stands for, then remove. -/
theorem delete (hk : KeptByCalls crate K O R I) {path : String} {x : IdStore F D × Mounted φ}
    (h : I x.1 x.2) {oldId : Option ℕ} {close : ℕ → Outcome ℕ (IdStore F D × Mounted φ) Unit}
    (hs : DeletesUnder R path x oldId close)
    (hclose : ∀ id, I (close id).state.1 (close id).state.2) :
    let r := match oldId with
      | some oldId => (close oldId).andThen fun _ y =>
          Globals.onRoot y.1 y.2 fun st => crate.remove st path
      | none => Globals.onRoot x.1 x.2 fun st => crate.remove st path
    I r.state.1 r.state.2 := by
  cases oldId with
  | none => exact hk.onRoot_remove h hs
  | some oldId =>
    refine Outcome.andThen_state (I := fun x : IdStore F D × Mounted φ => I x.1 x.2)
      (hclose oldId) fun _ y hy => ?_
    have hclosed := hclose oldId
    rw [hy] at hclosed
    exact hk.onRoot_remove hclosed (hs y hy)

/-- **One call** keeps what its parts keep. -/
theorem step (hk : KeptByCalls crate K O R I) (hc : Within crate K) (h : OfStore I g)
    {c : FileCall} (hs : c.Under crate O R g) : OfStore I (c.next crate g) := by
  have hpoison : ∀ g : Globals U φ F D, OfStore I g →
      OfStore I { g with idStorePtr := g.idStorePtr.poison } := fun _ h => h
  cases c with
  | openFile filepath =>
    refine withPath_state h (fun path s hp hl hst => .put hst ?_) hpoison
    exact hk.openFile (h s hst) (hs path s hp hl hst)
  | openDir dirpath =>
    refine withPath_state h (fun path s hp hl hst => .put hst ?_) hpoison
    exact hk.openDir path (h s hst)
  | closeFile fileid =>
    refine withIdStore_state h (fun s hl hst => .put hst ?_) hpoison
    exact hk.closeFile fileid (h s hst)
  | closeDir dirid =>
    refine withIdStore_state h (fun s hl hst => .put hst ?_) hpoison
    exact hk.closeDir dirid (h s hst)
  | createFile filepath =>
    refine withPath_state h (fun path s hp hl hst => .put hst ?_) hpoison
    cases s.hasFile path with
    | some id => exact h s hst
    | none =>
      refine hk.onRoot hc.refl (h s hst) fun st => ?_
      refine Outcome.andThen_rel (R := K) hc.trans (hc.createFile st path) fun f st' _ => ?_
      exact hc.dropFile st' f
  | createDir dirpath =>
    refine withPath_state h (fun path s hp hl hst => .put hst ?_) hpoison
    cases s.hasDir path with
    | some id => exact h s hst
    | none =>
      refine hk.onRoot hc.refl (h s hst) fun st => ?_
      refine Outcome.andThen_rel (R := K) hc.trans (hc.createDir st path) fun d st' _ => ?_
      exact hc.dropDir st' d
  | deleteFile filepath =>
    refine withPath_state h (fun path s hp hl hst => .put hst ?_) hpoison
    exact hk.delete (h s hst) (hs path s hp hl hst) fun id => hk.closeFile id (h s hst)
  | deleteDir dirpath =>
    refine withPath_state h (fun path s hp hl hst => .put hst ?_) hpoison
    exact hk.delete (h s hst) (hs path s hp hl hst) fun id => hk.closeDir id (h s hst)

/-- What a fresh store has, it has after every run of calls that are allowed. -/
theorem run (hk : KeptByCalls crate K O R I) (hc : Within crate K)
    (h₀ : ∀ s, g₀.store? = some s → s = .new) (hnew : ∀ w, I .new w) {cs : List FileCall}
    (hrun : Run (Guard (FileStep crate) fun g c => c.Under crate O R g) g₀ cs g) :
    OfStore I g := by
  refine hrun.invariant (I := OfStore I) ?_ ?_
  · rintro g c _ hg ⟨hs, rfl⟩
    exact hk.step hc hg hs
  · intro s hs
    rw [h₀ s hs]
    exact hnew _

end KeptByCalls

end Calls

/-! ### Runs -/

/-- The store is tracked. -/
def Tracks (entry : φ → Path → Option E) (fileEntry : F → E) (dirEntry : D → E)
    (g : Globals U φ F D) : Prop :=
  ∀ s, g.store? = some s → Tracked entry fileEntry dirEntry s g.mounted

/-- A tracked store stays tracked. -/
theorem tracked_kept (hc : ResolvesPaths crate entry fileEntry dirEntry) (hone : OnePlace entry) :
    KeptByCalls crate (Keeps entry) (OpensOnce crate) (RemovesFree crate)
      (Tracked entry fileEntry dirEntry) where
  moved := Tracked.moved
  openFile := fun h hs => h.openFile hc hone hs
  openDir := fun path h => h.openDir hc path
  closeFile := fun id h => h.closeFile hc id
  closeDir := fun id h => h.closeDir hc id
  remove := fun h hs => h.remove hc hs

theorem FileCall.Safe.under {c : FileCall} (hs : c.Safe crate g) :
    c.Under crate (OpensOnce crate) (RemovesFree crate) g := by
  have hdelete : ∀ (path : String) (x : IdStore F D × Mounted φ) (oldId : Option ℕ) close,
      DeletesFree crate path x oldId close → DeletesUnder (RemovesFree crate) path x oldId close := by
    intro path x oldId close h
    cases oldId <;> exact h
  cases c with
  | deleteFile filepath => exact fun path s hp hl hst => hdelete _ _ _ _ (hs path s hp hl hst)
  | deleteDir dirpath => exact fun path s hp hl hst => hdelete _ _ _ _ (hs path s hp hl hst)
  | _ => exact hs

/-- **Ids and entries over runs.**  After any calls on a fresh store, each of which is safe, no two
file ids denote one file, and every id denotes an entry that is on the volume: none that has been
removed. -/
theorem run_apart (hc : ResolvesPaths crate entry fileEntry dirEntry) (hone : OnePlace entry)
    (h₀ : ∀ s, g₀.store? = some s → s = .new) {cs : List FileCall}
    (hrun : Run (Guard (FileStep crate) fun g c => c.Safe crate g) g₀ cs g) :
    ∀ s, g.store? = some s → Apart fileEntry s ∧ Present entry fileEntry dirEntry s g.mounted := by
  have h : Tracks entry fileEntry dirEntry g :=
    (tracked_kept hc hone).run hc.within h₀ (fun w => tracked_new)
      (hrun.mono fun _ _ _ hg => ⟨hg.1.under, hg.2⟩)
  exact fun s hs => ⟨(h s hs).apart, (h s hs).present⟩

theorem noFileAt_of_keys {s : IdStore F D} (h : s.fileHandleMap.keys = []) (path : String) :
    NoFileAt s path := by
  intro id name hid
  rw [AList.mem_keys, h] at hid
  cases hid

theorem noDirAt_of_keys {s : IdStore F D} (h : s.dirHandleMap.keys = []) (path : String) :
    NoDirAt s path := by
  intro id name hid
  rw [AList.mem_keys, h] at hid
  cases hid

/-- A mounted volume and a fresh store. -/
def mountedSample : Globals Unit Volume ℕ ℕ := wholeSet (sampleVolume []) initial

/-- That, with a file open. -/
def openSample : Globals Unit Volume ℕ ℕ := (FileCall.openFile (some "a")).next volumeCrate mountedSample

/-- A file is opened, and deleted while it is open. -/
theorem run_apart_deleting : ∃ s,
    ((FileCall.deleteFile (some "a")).next volumeCrate openSample).store? = some s ∧
      Apart (fun n => n) s ∧ Present Volume.entryAt (fun n => n) (fun n => n) s
        ((FileCall.deleteFile (some "a")).next volumeCrate openSample).mounted := by
  have hnew : mountedSample.store? = some .new := Heap.get?_alloc_self _ _
  have hopen : (FileCall.openFile (some "a")).Safe volumeCrate mountedSample := by
    intro path s _ _ hs _ _
    cases hnew.symm.trans hs
    exact noFileAt_of_keys rfl path
  have hclosed : (openSample.store?.map fun s => (s.hasFile "a",
      (IdStore.closeFile volumeCrate s openSample.mounted 0).state.1.fileHandleMap.keys,
      (IdStore.closeFile volumeCrate s openSample.mounted 0).state.1.dirHandleMap.keys)) =
      some (some 0, [], []) := by decide +kernel
  have hdelete : (FileCall.deleteFile (some "a")).Safe volumeCrate openSample := by
    rintro path s hp - hs
    cases hp
    rw [hs, Option.map_some, Option.some_inj, Prod.mk.injEq, Prod.mk.injEq] at hclosed
    obtain ⟨hf, hfiles, hdirs⟩ := hclosed
    rw [hf]
    intro y hy _
    rw [hy] at hfiles hdirs
    exact ⟨noFileAt_of_keys hfiles _, noDirAt_of_keys hdirs _⟩
  have hrun : Run (Guard (FileStep volumeCrate) fun g c => c.Safe volumeCrate g) mountedSample
      [.openFile (some "a"), .deleteFile (some "a")]
      ((FileCall.deleteFile (some "a")).next volumeCrate openSample) :=
    .cons ⟨hopen, rfl⟩ (.cons ⟨hdelete, rfl⟩ (.nil _))
  have hthere : ((FileCall.deleteFile (some "a")).next volumeCrate openSample).store?.isSome = true := by
    decide +kernel
  obtain ⟨s, hs⟩ := Option.isSome_iff_exists.mp hthere
  have hfresh : ∀ s, mountedSample.store? = some s → s = .new := fun s hs => by
    cases hnew.symm.trans hs
    rfl
  exact ⟨s, hs, run_apart Volume.resolvesPaths Volume.onePlace hfresh hrun s hs⟩

/-- A file opened under two spellings. -/
def spelledTwice : Globals Unit Volume ℕ ℕ :=
  (usbFsOpenFile volumeCrate (usbFsOpenFile volumeCrate mountedSample (some "a")).state
    (some "/a")).state

/-- **One file with two ids.**  A removal under a third spelling then leaves both ids behind. -/
theorem two_ids :
    (usbFsOpenFile volumeCrate mountedSample (some "a")).result = some (.ok 0) ∧
    (usbFsOpenFile volumeCrate (usbFsOpenFile volumeCrate mountedSample (some "a")).state
      (some "/a")).result = some (.ok 1) ∧
    (∃ s, spelledTwice.store? = some s ∧ ¬ Apart (fun n => n) s) ∧
    (usbFsDeleteFile volumeCrate spelledTwice (some "A")).result = some (.ok ()) ∧
    ∃ s, (usbFsDeleteFile volumeCrate spelledTwice (some "A")).state.store? = some s ∧
      ¬ Present Volume.entryAt (fun n => n) (fun n => n) s
        (usbFsDeleteFile volumeCrate spelledTwice (some "A")).state.mounted := by
  have hfst : (spelledTwice.store?.bind fun s => s.fileHandleMap.lookup 0) = some ⟨1, 1⟩ := by
    decide +kernel
  have hsnd : (spelledTwice.store?.bind fun s => s.fileHandleMap.lookup 1) = some ⟨1, 1⟩ := by
    decide +kernel
  refine ⟨by decide +kernel, by decide +kernel, ?_, by decide +kernel, ?_⟩
  · obtain ⟨s, hs, h0⟩ := Option.bind_eq_some_iff.mp hfst
    obtain ⟨s', hs', h1⟩ := Option.bind_eq_some_iff.mp hsnd
    cases hs.symm.trans hs'
    refine ⟨s, hs, fun h => ?_⟩
    have heq : (0 : ℕ) = 1 := h 0 1 _ _ h0 h1 rfl
    cases heq
  · have hlive : ((usbFsDeleteFile volumeCrate spelledTwice (some "A")).state.store?.bind
        fun s => s.fileHandleMap.lookup 0) = some ⟨1, 1⟩ := by decide +kernel
    have hgone : ((usbFsDeleteFile volumeCrate spelledTwice (some "A")).state.mounted.fileSystems.get?
        (usbFsDeleteFile volumeCrate spelledTwice (some "A")).state.mounted.fsPtr.value).map
        (fun st => st.entries.entries.all fun kv => kv.2.ident ≠ 1) = some true := by
      decide +kernel
    obtain ⟨s, hs, h0⟩ := Option.bind_eq_some_iff.mp hlive
    obtain ⟨st, hst, hall⟩ := Option.map_eq_some_iff.mp hgone
    refine ⟨s, hs, fun h => ?_⟩
    obtain ⟨st', k, hst', hk⟩ := h.files 0 _ h0
    cases hst.symm.trans hst'
    obtain ⟨e, he, hident⟩ := Option.map_eq_some_iff.mp hk
    have hmem := List.all_eq_true.mp hall ⟨k, e⟩ (AList.mem_lookup_iff.mp he)
    exact absurd hident (of_decide_eq_true hmem)

end Globals

end FatDrive
