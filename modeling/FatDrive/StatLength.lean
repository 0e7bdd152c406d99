import FatDrive.StatOpens
import FatDrive.UsbFsFiles

/-!
# FatDrive.StatLength — the length of an open file, in its `File` and in the directory

A `File` keeps the length it has grown to until it is flushed.  `usbFsStatFile` takes the name of the
id and looks the length up in the directory.

* `stat_eq_ok_iff`: what is reported of an open file is the length that is listed of it;
* `acts_lengths`, `call_opened`: what a call on the id makes of the two lengths, and of the store;
* `stat_sees_length`: over runs, the lengths agree if every write that made the file longer is followed
  by a sync that succeeds, and as long as no sync fails only then;
* `grown_unseen`: a write without a sync.
-/

namespace FatDrive

open Lib

variable {φ F D E T L C : Type}

/-! ### What the crate promises -/

section Laws

variable (entry : φ → Path → Option E) (fileEntry : F → E) (dirEntry : D → E)
  (list : φ → E → List (E × DirEntry))

/-- What is listed of an entry, in the directory it is in. -/
def Lists (v : φ) (e : E) (z : E × DirEntry) : Prop :=
  ∃ k d, entry v k = some (dirEntry d) ∧ z ∈ list v (dirEntry d) ∧ z.1 = e

/-- The length that is listed of an entry. -/
def ListedLength (v : φ) (e : E) (n : ℕ) : Prop := ∀ z, Lists entry dirEntry list v e z → z.2.len = n

/-- The `File` is of the same entry, and neither the tree nor a name in it has changed. -/
structure SameTree (x y : F × φ) : Prop where
  fileEntry_eq : fileEntry y.1 = fileEntry x.1
  entry_eq : entry y.2 = entry x.2
  names_eq : ∀ dir, (list y.2 dir).map (fun z => (z.1, z.2.fileName)) =
    (list x.2 dir).map fun z => (z.1, z.2.fileName)

/-- Reading and seeking change no length.  A write changes that of the `File` at most, and marks it as
changed then; a `File` that is changed keeps its length for a flush, which stores it in the directory
if it succeeds. -/
structure KeepsLength (crate : FatfsCrate φ F D) (ops : FatfsFileOps φ T F) (view : FileView φ T F L C) :
    Prop extends ops.Seeks view where
  openFile_length : ∀ {v p fl v'}, crate.openFile v p = .ok fl v' →
    ListedLength entry dirEntry list v' (fileEntry fl) (view.file fl).length
  read_same : ∀ room x, SameTree entry fileEntry list x (ops.read room x).state ∧
    list (ops.read room x).state.2 = list x.2 ∧
    view.file (ops.read room x).state.1 = view.file x.1 ∧
    view.dirty (ops.read room x).state.1 = view.dirty x.1
  seek_same : ∀ sf x, SameTree entry fileEntry list x (ops.seekTo sf x).state ∧
    list (ops.seekTo sf x).state.2 = list x.2 ∧
    view.file (ops.seekTo sf x).state.1 = view.file x.1 ∧
    view.dirty (ops.seekTo sf x).state.1 = view.dirty x.1
  write_same : ∀ buff x, SameTree entry fileEntry list x (ops.write buff x).state ∧
    list (ops.write buff x).state.2 = list x.2 ∧
    (view.file x.1).length ≤ (view.file (ops.write buff x).state.1).length ∧
    (view.dirty (ops.write buff x).state.1 = false →
      view.file (ops.write buff x).state.1 = view.file x.1 ∧ view.dirty x.1 = false)
  flush_same : ∀ x, SameTree entry fileEntry list x (ops.flush x).state ∧
    (view.file (ops.flush x).state.1).length = (view.file x.1).length ∧
    (list (ops.flush x).state.2 = list x.2 ∧
        view.dirty (ops.flush x).state.1 = view.dirty x.1 ∨
      ListedLength entry dirEntry list (ops.flush x).state.2 (fileEntry x.1) (view.file x.1).length)
  flush_stores : ∀ x, (ops.flush x).isOk = true → view.dirty x.1 = true →
    ListedLength entry dirEntry list (ops.flush x).state.2 (fileEntry x.1) (view.file x.1).length

end Laws

variable {crate : FatfsCrate φ F D} {ops : FatfsFileOps φ T F} {view : FileView φ T F L C}
  {entry : φ → Path → Option E} {fileEntry : F → E} {dirEntry : D → E}
  {list : φ → E → List (E × DirEntry)}

/-- An entry is listed once. -/
theorem Lists.unique (hc : FindsByName crate entry fileEntry dirEntry list) (hone : OnePlace entry)
    {v : φ} {e : E} {z z' : E × DirEntry} (h : Lists entry dirEntry list v e z)
    (h' : Lists entry dirEntry list v e z') : z = z' := by
  obtain ⟨k, d, hd, hz, he⟩ := h
  obtain ⟨k', d', hd', hz', he'⟩ := h'
  have hk : entry v (k ++ [lowerName z.2.fileName.toList]) = some e :=
    (hc.child hd).mpr ⟨z, hz, he, rfl⟩
  have hk' : entry v (k' ++ [lowerName z'.2.fileName.toList]) = some e :=
    (hc.child hd').mpr ⟨z', hz', he', rfl⟩
  obtain ⟨rfl, hname⟩ := List.append_inj' (hone v _ _ e hk hk') rfl
  rw [← Option.some_inj.mp (hd.symm.trans hd')] at hz'
  exact hc.unique_name hz hz' (List.singleton_injective hname)

/-- A file is listed. -/
theorem listed_of_entry (hc : FindsByName crate entry fileEntry dirEntry list) {v : φ} {k : Path} {f : F}
    (h : entry v k = some (fileEntry f)) : ∃ z, Lists entry dirEntry list v (fileEntry f) z := by
  rcases List.eq_nil_or_concat k with rfl | ⟨k, c, rfl⟩
  · exact absurd (Option.some_inj.mp (h.symm.trans (hc.root v))) (hc.kinds f _)
  · rw [List.concat_eq_append] at h
    obtain ⟨d, hd⟩ := hc.parent h
    obtain ⟨z, hz, he, -⟩ := (hc.child hd).mp h
    exact ⟨z, k, d, hd, hz, he⟩

namespace SameTree

variable {x y : F × φ}

theorem symm (h : SameTree entry fileEntry list x y) : SameTree entry fileEntry list y x :=
  ⟨h.fileEntry_eq.symm, h.entry_eq.symm, fun dir => (h.names_eq dir).symm⟩

theorem refl (x : F × φ) : SameTree entry fileEntry list x x := ⟨rfl, rfl, fun _ => rfl⟩

theorem mem (h : SameTree entry fileEntry list x y) {dir : E} {z : E × DirEntry} (hz : z ∈ list y.2 dir) :
    ∃ z' ∈ list x.2 dir, z'.1 = z.1 ∧ z'.2.fileName = z.2.fileName := by
  have hmem := List.mem_map_of_mem (f := fun z => (z.1, z.2.fileName)) hz
  rw [h.names_eq dir] at hmem
  obtain ⟨z', hz', heq⟩ := List.mem_map.mp hmem
  obtain ⟨hentry, hfile⟩ := Prod.mk.inj heq
  exact ⟨z', hz', hentry, hfile⟩

/-- The same spelling. -/
theorem spelledAlike (h : SameTree entry fileEntry list x y) {path : String}
    (hs : IdStore.SpelledAlike entry dirEntry list x.2 path) :
    IdStore.SpelledAlike entry dirEntry list y.2 path := by
  intro d hd z hz hname
  rw [h.entry_eq] at hd
  obtain ⟨z', hz', -, hfile⟩ := h.mem hz
  rw [← hfile] at hname ⊢
  exact hs d hd z' hz' hname

/-- What is listed of the file, where nothing listed has changed. -/
theorem lists_iff (h : SameTree entry fileEntry list x y) (hl : list y.2 = list x.2) {z : E × DirEntry} :
    Lists entry dirEntry list y.2 (fileEntry y.1) z ↔
      Lists entry dirEntry list x.2 (fileEntry x.1) z := by
  unfold Lists
  rw [h.entry_eq, h.fileEntry_eq, hl]

end SameTree

/-! ### What is reported of an open file -/

namespace Globals

open IdStore

variable {U α : Type} {g : Globals U φ F D} {s : IdStore F D} {id n : ℕ} {path : String} {x y : F × φ}
  {f : F × φ → Outcome ℕ (F × φ) α}

/-- The id is a file of the current file system, open under this name, and what is open under the
name of its parent is the parent. -/
structure OpenAs (entry : φ → Path → Option E) (fileEntry : F → E) (dirEntry : D → E)
    (g : Globals U φ F D) (s : IdStore F D) (id : ℕ) (path : String) (x : F × φ) : Prop where
  unpoisoned : g.idStorePtr.poisoned = false
  store_eq : g.store? = some s
  name : s.fileNameMap.lookup id = some path
  handle : s.fileHandleMap.lookup id = some ⟨g.mounted.fsPtr.value, x.1⟩
  current : g.mounted.Current x.2
  resolves : entry x.2 (components path) = some (fileEntry x.1)
  parent : ParentAsNamed entry dirEntry s g.mounted (parentName path)

/-- `stat_path` gets to the entry of the path. -/
def Findable (entry : φ → Path → Option E) (dirEntry : D → E) (list : φ → E → List (E × DirEntry))
    (s : IdStore F D) (st : φ) (path : String) : Prop :=
  parts path ≠ [] ∧
    (slashesOnly (parentName path) = true → (foundDir s.dirNameMap (parentName path)).isSome) ∧
    SpelledAlike entry dirEntry list st path

theorem OpenAs.fileAt (h : OpenAs entry fileEntry dirEntry g s id path x) : g.fileAt? id = some x :=
  fileAt?_eq_some.mpr ⟨s, _, h.store_eq, h.handle, h.current.cell⟩

/-- `usbFsStatFile` on an open file is `stat_path` on its name. -/
theorem OpenAs.stat_eq (h : OpenAs entry fileEntry dirEntry g s id path x) :
    (g.usbFsStatFile crate id).result = (statPath crate s g.mounted path).result := by
  have hpath : s.getPathForId id = .ok path := by simp only [getPathForId, h.name]
  rw [usbFsStatFile, (withIdStore_of_store h.unpoisoned h.store_eq _).1, hpath]
  exact Outcome.result_bimap_id ..

/-- **What is reported** of an open file: the length that is listed, if the path is one that
`stat_path` follows. -/
theorem stat_eq_ok_iff (hc : FindsByName crate entry fileEntry dirEntry list) (hone : OnePlace entry)
    (h : OpenAs entry fileEntry dirEntry g s id path x) :
    (∃ attributes, (g.usbFsStatFile crate id).result = some (.ok (n, attributes))) ↔
      Findable entry dirEntry list s x.2 path ∧
        ListedLength entry dirEntry list x.2 (fileEntry x.1) n := by
  rw [h.stat_eq]
  by_cases hparts : parts path = []
  · refine iff_of_false ?_ fun hf => hf.1.1 hparts
    rintro ⟨attributes, hres⟩
    rw [stat_root hc h.current hparts] at hres
    cases hres
  by_cases hs : slashesOnly (parentName path) = true →
      (foundDir s.dirNameMap (parentName path)).isSome
  · obtain ⟨d, hd, z, hz, he, hname, hres⟩ :=
      stat_listed hc h.current h.parent h.resolves hparts hs
    have hlists : Lists entry dirEntry list x.2 (fileEntry x.1) z := ⟨_, d, hd, hz, he⟩
    constructor
    · rintro ⟨attributes, hok⟩
      have hfind := (reports_iff hc h.current h.parent h.resolves).mp
      rw [hok] at hres
      split at hres
      · cases hres
        refine ⟨hfind ⟨_, z, hz, he, hok⟩, fun z' hz' => ?_⟩
        rw [hlists.unique hc hone hz']
      · cases hres
    · rintro ⟨hfind, hlen⟩
      rw [if_pos (hfind.2.2 d hd z hz hname), hlen z hlists] at hres
      exact ⟨_, hres⟩
  · refine iff_of_false ?_ fun hf => hs hf.1.2.1
    obtain ⟨hslash, hfound⟩ := Classical.not_imp.mp hs
    obtain ⟨code, herr⟩ := stat_slashes (s := s) hc h.current hslash (by simpa using hfound)
    rintro ⟨attributes, hok⟩
    rw [herr] at hok
    cases hok

/-! ### Calls on the id -/

/-- The calls on an open file. -/
inductive HandleCall where
  | read (buffer : List UInt8)
  | write (buffer : List UInt8)
  | seek (pos whence : ℕ)
  | sync
  deriving DecidableEq, Repr

/-- Whatever is returned, nothing is made of the value. -/
def HandleCall.exec (ops : FatfsFileOps φ T F) (g : Globals U φ F D) (fileid : ℕ) :
    HandleCall → Outcome ℕ (Globals U φ F D) Unit
  | read buffer => (usbFsReadFile ops g fileid buffer).bimap (fun _ => ()) fun g => g
  | write buffer => (usbFsWriteFile ops g fileid buffer).bimap (fun _ => ()) fun g => g
  | seek pos whence => (usbFsSeekFile ops g fileid pos whence).bimap (fun _ => ()) fun g => g
  | sync => usbFsSyncFile ops g fileid

/-- The state after a call. -/
def next (ops : FatfsFileOps φ T F) (fileid : ℕ) (g : Globals U φ F D) (c : HandleCall) :
    Globals U φ F D := (c.exec ops g fileid).state

/-- What a call makes of the file.  A seek with a `whence` that is none of the three makes nothing
of it. -/
def HandleCall.Acts (ops : FatfsFileOps φ T F) (x y : F × φ) : HandleCall → Prop
  | read buffer => y = (ops.read buffer.length x).state
  | write buffer => y = (ops.write buffer x).state
  | seek _ _ => (∃ sf, y = (ops.seekTo sf x).state) ∨ y = x
  | sync => y = (ops.flush x).state

/-- The length of the file, as its `File` has it. -/
def lengthAt (view : FileView φ T F L C) (g : Globals U φ F D) (id : ℕ) : Option ℕ :=
  (g.fileAt? id).map fun x => (view.file x.1).length

/-- The call makes the file longer. -/
def Lengthens (ops : FatfsFileOps φ T F) (view : FileView φ T F L C) (id : ℕ) (g : Globals U φ F D)
    (c : HandleCall) : Prop := lengthAt view (next ops id g c) id ≠ lengthAt view g id

/-- The call is a sync that succeeds. -/
def Syncs (ops : FatfsFileOps φ T F) (id : ℕ) (g : Globals U φ F D) (c : HandleCall) : Prop :=
  c = .sync ∧ (c.exec ops g id).isOk = true

/-- The call is no sync that fails. -/
def SyncSucceeds (ops : FatfsFileOps φ T F) (id : ℕ) (g : Globals U φ F D) (c : HandleCall) : Prop :=
  c = .sync → (c.exec ops g id).isOk = true

/-- What becomes of the store and of what is mounted, when the file becomes `y`. -/
def putFile (g : Globals U φ F D) (s : IdStore F D) (id : ℕ) (y : F × φ) : Globals U φ F D :=
  g.put g.idStorePtr.value
    ({ s with fileHandleMap := s.fileHandleMap.replace id ⟨g.mounted.fsPtr.value, y.1⟩ },
      { g.mounted with fileSystems := g.mounted.fileSystems.set g.mounted.fsPtr.value y.2 })

/-- The file stays open, when it is put back as one of the same entry. -/
theorem OpenAs.putFile (h : OpenAs entry fileEntry dirEntry g s id path x)
    (hsame : SameTree entry fileEntry list x y) :
    OpenAs entry fileEntry dirEntry (g.putFile s id y)
      { s with fileHandleMap := s.fileHandleMap.replace id ⟨g.mounted.fsPtr.value, y.1⟩ } id path y where
  unpoisoned := h.unpoisoned
  store_eq := store?_put h.store_eq _
  name := h.name
  handle := by
    show (s.fileHandleMap.replace id _).lookup id = _
    rw [lookup_replace, if_pos rfl, h.handle, Option.map_some]
    rfl
  current := ⟨h.current.ptr, Heap.get?_set_self h.current.cell y.2⟩
  resolves := by rw [hsame.entry_eq, hsame.fileEntry_eq, h.resolves]
  parent := fun id' hid => by
    obtain ⟨d, hd, st, hst, he⟩ := h.parent id' hid
    cases h.current.cell.symm.trans hst
    exact ⟨d, hd, y.2, Heap.get?_set_self h.current.cell y.2, by rw [hsame.entry_eq, he]⟩

/-- The file stays open, when nothing is changed. -/
theorem OpenAs.putSame (h : OpenAs entry fileEntry dirEntry g s id path x) :
    OpenAs entry fileEntry dirEntry (g.put g.idStorePtr.value (s, g.mounted)) s id path x where
  unpoisoned := h.unpoisoned
  store_eq := store?_put h.store_eq _
  name := h.name
  handle := h.handle
  current := h.current
  resolves := h.resolves
  parent := h.parent

theorem OpenAs.onFile (h : OpenAs entry fileEntry dirEntry g s id path x)
    (f : F × φ → Outcome ℕ (F × φ) α) :
    (g.onFile id f).result = (f x).result ∧
      ((g.onFile id f).state.idStorePtr.poisoned = true ∨
        (g.onFile id f).state = g.putFile s id (f x).state) := by
  obtain ⟨hresult, hstate⟩ :=
    withIdStore_of_store h.unpoisoned h.store_eq fun s w => s.onFile w id f
  rw [IdStore.onFile_eq h.handle h.current.cell] at hresult hstate
  rw [Outcome.state_bimap] at hstate
  refine ⟨hresult.trans (Outcome.result_bimap_id ..), ?_⟩
  rcases hstate with hstate | hstate
  · exact Or.inr hstate
  · left
    rw [Globals.onFile, hstate]
    rfl

/-- What a call on the id does: the program panics, or the file is put back as the call has made it,
or nothing is changed. -/
theorem OpenAs.exec (h : OpenAs entry fileEntry dirEntry g s id path x) (c : HandleCall) :
    (next ops id g c).idStorePtr.poisoned = true ∨ ∃ y, c.Acts ops x y ∧
      (c = .sync → (c.exec ops g id).isOk = (ops.flush x).isOk) ∧
      (next ops id g c = g.putFile s id y ∨
        y = x ∧ next ops id g c = g.put g.idStorePtr.value (s, g.mounted)) := by
  cases c with
  | read buffer =>
    have hnext : next ops id g (.read buffer) = (usbFsReadFile ops g id buffer).state :=
      Outcome.state_bimap ..
    rw [hnext]
    have hstate := (h.onFile fun x => ((ops.read buffer.length x).mapErr LibnxErrMapper.map).bimap
      (fun data => (data.length, data ++ buffer.drop data.length)) fun x => x).2
    simp only [Outcome.state_bimap, Outcome.state_mapErr] at hstate
    exact hstate.imp_right fun hput => ⟨_, rfl, nofun, Or.inl hput⟩
  | write buffer =>
    have hnext : next ops id g (.write buffer) = (usbFsWriteFile ops g id buffer).state :=
      Outcome.state_bimap ..
    rw [hnext]
    have hstate := (h.onFile fun x => (ops.write buffer x).mapErr LibnxErrMapper.map).2
    simp only [Outcome.state_mapErr] at hstate
    exact hstate.imp_right fun hput => ⟨_, rfl, nofun, Or.inl hput⟩
  | seek pos whence =>
    have hnext : next ops id g (.seek pos whence) = (usbFsSeekFile ops g id pos whence).state :=
      Outcome.state_bimap ..
    rw [hnext]
    unfold usbFsSeekFile
    cases hsf : seekFromOf pos whence with
    | some sf =>
      have hstate := (h.onFile fun x => (ops.seekTo sf x).mapErr LibnxErrMapper.map).2
      simp only [Outcome.state_mapErr] at hstate
      exact hstate.imp_right fun hput => ⟨_, Or.inl ⟨sf, rfl⟩, nofun, Or.inl hput⟩
    | none =>
      have hfile : s.getFileHandle id = .ok ⟨g.mounted.fsPtr.value, x.1⟩ := by
        simp only [getFileHandle, h.handle]
      rcases (withIdStore_of_store h.unpoisoned h.store_eq _).2 with hput | hput
      · refine Or.inr ⟨x, Or.inr rfl, nofun, Or.inr ⟨rfl, ?_⟩⟩
        rw [hput, hfile]
        rfl
      · left
        rw [hput]
        rfl
  | sync =>
    obtain ⟨hresult, hstate⟩ := h.onFile fun x => (ops.flush x).mapErr LibnxErrMapper.map
    have hok : (usbFsSyncFile ops g id).isOk = (ops.flush x).isOk :=
      (Outcome.isOk_of_result hresult).trans (Outcome.isOk_mapErr ..)
    simp only [Outcome.state_mapErr] at hstate
    exact hstate.imp_right fun hput => ⟨_, rfl, fun _ => hok, Or.inl hput⟩

/-! ### The two lengths -/

/-- A `File` that is not marked as changed has the length that is listed, and none has less. -/
structure Ledger (view : FileView φ T F L C) (entry : φ → Path → Option E) (fileEntry : F → E)
    (dirEntry : D → E) (list : φ → E → List (E × DirEntry)) (x : F × φ) : Prop where
  clean : view.dirty x.1 = false →
    ListedLength entry dirEntry list x.2 (fileEntry x.1) (view.file x.1).length
  le : ∀ z, Lists entry dirEntry list x.2 (fileEntry x.1) z → z.2.len ≤ (view.file x.1).length

/-- The length that is listed is that of the `File`. -/
def InStep (view : FileView φ T F L C) (entry : φ → Path → Option E) (fileEntry : F → E)
    (dirEntry : D → E) (list : φ → E → List (E × DirEntry)) (x : F × φ) : Prop :=
  ListedLength entry dirEntry list x.2 (fileEntry x.1) (view.file x.1).length

theorem InStep.ledger (h : InStep view entry fileEntry dirEntry list x) :
    Ledger view entry fileEntry dirEntry list x :=
  ⟨fun _ => h, fun z hz => Nat.le_of_eq (h z hz)⟩

/-- What one call makes of the two lengths: a call that changes nothing listed makes the `File` longer
at most, and marks it as changed then; and a sync may store the length. -/
theorem acts_lengths (laws : KeepsLength entry fileEntry dirEntry list crate ops view) {c : HandleCall}
    (h : c.Acts ops x y) :
    SameTree entry fileEntry list x y ∧ (view.file x.1).length ≤ (view.file y.1).length ∧
      (list y.2 = list x.2 ∧ (view.dirty y.1 = false →
          (view.file y.1).length = (view.file x.1).length ∧ view.dirty x.1 = false) ∨
        c = .sync ∧ InStep view entry fileEntry dirEntry list y) := by
  cases c with
  | read buffer =>
    obtain rfl : y = _ := h
    obtain ⟨hsame, hlist, hfile, hdirty⟩ := laws.read_same buffer.length x
    rw [hfile, hdirty]
    exact ⟨hsame, Nat.le_refl _, Or.inl ⟨hlist, fun hclean => ⟨rfl, hclean⟩⟩⟩
  | write buffer =>
    obtain rfl : y = _ := h
    obtain ⟨hsame, hlist, hle, hclean⟩ := laws.write_same buffer x
    refine ⟨hsame, hle, Or.inl ⟨hlist, fun hd => ?_⟩⟩
    obtain ⟨hfile, hd⟩ := hclean hd
    exact ⟨by rw [hfile], hd⟩
  | seek pos whence =>
    rcases h with ⟨sf, rfl⟩ | rfl
    · obtain ⟨hsame, hlist, hfile, hdirty⟩ := laws.seek_same sf x
      rw [hfile, hdirty]
      exact ⟨hsame, Nat.le_refl _, Or.inl ⟨hlist, fun hclean => ⟨rfl, hclean⟩⟩⟩
    · exact ⟨.refl y, Nat.le_refl _, Or.inl ⟨rfl, fun hclean => ⟨rfl, hclean⟩⟩⟩
  | sync =>
    obtain rfl : y = _ := h
    obtain ⟨hsame, hlen, hkept | hstored⟩ := laws.flush_same x
    · obtain ⟨hlist, hdirty⟩ := hkept
      rw [hlen, hdirty]
      exact ⟨hsame, Nat.le_refl _, Or.inl ⟨hlist, fun hclean => ⟨rfl, hclean⟩⟩⟩
    · refine ⟨hsame, Nat.le_of_eq hlen.symm, Or.inr ⟨rfl, ?_⟩⟩
      rw [InStep, hlen, hsame.fileEntry_eq]
      exact hstored

theorem Ledger.acts (laws : KeepsLength entry fileEntry dirEntry list crate ops view)
    (hx : Ledger view entry fileEntry dirEntry list x) {c : HandleCall} (h : c.Acts ops x y) :
    Ledger view entry fileEntry dirEntry list y := by
  obtain ⟨hsame, hle, ⟨hlist, hclean⟩ | ⟨-, hstored⟩⟩ := acts_lengths laws h
  · refine ⟨fun hd z hz => ?_, fun z hz => ?_⟩
    · obtain ⟨hlen, hd⟩ := hclean hd
      rw [hlen]
      exact hx.clean hd z ((hsame.lists_iff hlist).mp hz)
    · exact Nat.le_trans (hx.le z ((hsame.lists_iff hlist).mp hz)) hle
  · exact hstored.ledger

/-- A call that does not make the `File` longer keeps the lengths in step. -/
theorem InStep.acts (laws : KeepsLength entry fileEntry dirEntry list crate ops view)
    (hx : InStep view entry fileEntry dirEntry list x) {c : HandleCall} (h : c.Acts ops x y)
    (hlen : (view.file y.1).length = (view.file x.1).length) :
    InStep view entry fileEntry dirEntry list y := by
  obtain ⟨hsame, -, ⟨hlist, -⟩ | ⟨-, hstored⟩⟩ := acts_lengths laws h
  · intro z hz
    rw [hlen]
    exact hx z ((hsame.lists_iff hlist).mp hz)
  · exact hstored

/-- A sync that succeeds brings them in step. -/
theorem inStep_of_flush (laws : KeepsLength entry fileEntry dirEntry list crate ops view)
    (hx : Ledger view entry fileEntry dirEntry list x) (hok : (ops.flush x).isOk = true) :
    InStep view entry fileEntry dirEntry list (ops.flush x).state := by
  obtain ⟨hsame, hlen, -⟩ := laws.flush_same x
  cases hd : view.dirty x.1 with
  | true =>
    rw [InStep, hlen, hsame.fileEntry_eq]
    exact laws.flush_stores x hok hd
  | false => exact InStep.acts laws (hx.clean hd) (c := .sync) rfl hlen

/-- After a call that has made the `File` longer they are not. -/
theorem not_inStep_of_longer (hc : FindsByName crate entry fileEntry dirEntry list)
    (laws : KeepsLength entry fileEntry dirEntry list crate ops view) {k : Path}
    (hk : entry x.2 k = some (fileEntry x.1)) (hx : Ledger view entry fileEntry dirEntry list x)
    {c : HandleCall} (h : c.Acts ops x y) (hlen : (view.file y.1).length ≠ (view.file x.1).length) :
    ¬ InStep view entry fileEntry dirEntry list y := by
  intro hy
  obtain ⟨z, hz⟩ := listed_of_entry hc hk
  have hle := hx.le z hz
  obtain ⟨hsame, hlonger, ⟨hlist, -⟩ | ⟨rfl, -⟩⟩ := acts_lengths laws h
  · have heq := hy z ((hsame.lists_iff hlist).mpr hz)
    omega
  · obtain rfl : y = _ := h
    exact hlen (laws.flush_same x).2.1

/-- Only a sync brings them in step. -/
theorem inStep_before (laws : KeepsLength entry fileEntry dirEntry list crate ops view)
    (hx : Ledger view entry fileEntry dirEntry list x) {c : HandleCall} (h : c.Acts ops x y)
    (hc : c ≠ .sync) (hy : InStep view entry fileEntry dirEntry list y) :
    InStep view entry fileEntry dirEntry list x := by
  obtain ⟨hsame, hlonger, ⟨hlist, -⟩ | ⟨hsync, -⟩⟩ := acts_lengths laws h
  · intro z hz
    have hle := hx.le z hz
    have heq := hy z ((hsame.lists_iff hlist).mpr hz)
    omega
  · exact absurd hsync hc

/-! ### Runs -/

/-- The id is open under the name, `stat_path` gets to it or not as `found` says, and its lengths are
as calls on the id leave them. -/
def Followed (view : FileView φ T F L C) (entry : φ → Path → Option E) (fileEntry : F → E)
    (dirEntry : D → E) (list : φ → E → List (E × DirEntry)) (id : ℕ) (path : String) (found : Prop)
    (g : Globals U φ F D) : Prop :=
  ∃ s x, OpenAs entry fileEntry dirEntry g s id path x ∧ Ledger view entry fileEntry dirEntry list x ∧
    (Findable entry dirEntry list s x.2 path ↔ found)

/-- The lengths of the file of an id are in step. -/
def InStepAt (view : FileView φ T F L C) (entry : φ → Path → Option E) (fileEntry : F → E)
    (dirEntry : D → E) (list : φ → E → List (E × DirEntry)) (id : ℕ) (g : Globals U φ F D) : Prop :=
  ∀ x, g.fileAt? id = some x → InStep view entry fileEntry dirEntry list x

theorem OpenAs.inStepAt_iff (h : OpenAs entry fileEntry dirEntry g s id path x) :
    InStepAt view entry fileEntry dirEntry list id g ↔ InStep view entry fileEntry dirEntry list x := by
  constructor
  · exact fun hstep => hstep x h.fileAt
  · intro hstep x' hx'
    cases h.fileAt.symm.trans hx'
    exact hstep

theorem Findable.sameTree {s' : IdStore F D} (hsame : SameTree entry fileEntry list x y)
    (hnames : s'.dirNameMap = s.dirNameMap) (h : Findable entry dirEntry list s x.2 path) :
    Findable entry dirEntry list s' y.2 path := by
  obtain ⟨hparts, hfound, hspell⟩ := h
  refine ⟨hparts, ?_, hsame.spelledAlike hspell⟩
  rw [hnames]
  exact hfound

/-- **One call** on the id: the program panics, or the file stays open under its name. -/
theorem call_opened (laws : KeepsLength entry fileEntry dirEntry list crate ops view)
    (h : OpenAs entry fileEntry dirEntry g s id path x) (c : HandleCall)
    (hk : (next ops id g c).idStorePtr.poisoned = false) :
    ∃ s' y, OpenAs entry fileEntry dirEntry (next ops id g c) s' id path y ∧
      s'.dirNameMap = s.dirNameMap ∧ c.Acts ops x y ∧
      (c = .sync → (c.exec ops g id).isOk = (ops.flush x).isOk) := by
  have hcall : (next ops id g c).idStorePtr.poisoned = true ∨ _ := h.exec c
  obtain hp | ⟨y, hacts, hok, hput⟩ := hcall
  · rw [hk] at hp
    cases hp
  · rcases hput with hput | ⟨rfl, hput⟩
    · rw [hput]
      exact ⟨_, y, h.putFile (acts_lengths laws hacts).1, rfl, hacts, hok⟩
    · rw [hput]
      exact ⟨s, y, h.putSame, rfl, hacts, hok⟩

theorem Followed.next {found : Prop} (laws : KeepsLength entry fileEntry dirEntry list crate ops view)
    (h : Followed view entry fileEntry dirEntry list id path found g) (c : HandleCall)
    (hk : (Globals.next ops id g c).idStorePtr.poisoned = false) :
    Followed view entry fileEntry dirEntry list id path found (Globals.next ops id g c) := by
  obtain ⟨s, x, hopen, hledger, hfound⟩ := h
  obtain ⟨s', y, hopen', hnames, hacts, -⟩ := call_opened laws hopen c hk
  have hsame := (acts_lengths laws hacts).1
  refine ⟨s', y, hopen', hledger.acts laws hacts, ?_⟩
  rw [← hfound]
  exact ⟨fun h => h.sameTree hsame.symm hnames.symm, fun h => h.sameTree hsame hnames⟩

/-- A poisoned mutex stays so. -/
theorem poisoned_next (hp : g.idStorePtr.poisoned = true) (c : HandleCall) :
    (next ops id g c).idStorePtr.poisoned = true := by
  have hstay : ∀ {β : Type} (k : IdStore F D → Mounted φ → Outcome ℕ (IdStore F D × Mounted φ) β),
      (g.withIdStore k).state.idStorePtr.poisoned = true := fun k =>
    withIdStore_state (I := fun g => g.idStorePtr.poisoned = true) hp
      (fun s hp' => absurd (hp.symm.trans hp') (by decide)) fun _ _ => rfl
  have hfile : ∀ {β : Type} (f : F × φ → Outcome ℕ (F × φ) β),
      (g.onFile id f).state.idStorePtr.poisoned = true := fun f => hstay _
  cases c with
  | read buffer =>
    rw [next, HandleCall.exec, Outcome.state_bimap]
    exact hfile _
  | write buffer =>
    rw [next, HandleCall.exec, Outcome.state_bimap]
    exact hfile _
  | seek pos whence =>
    rw [next, HandleCall.exec, Outcome.state_bimap, usbFsSeekFile]
    cases seekFromOf pos whence with
    | none => exact hstay _
    | some sf => exact hfile _
  | sync => exact hfile _

/-- Where the mutex is not poisoned in the end, no call has panicked. -/
theorem along_unpoisoned : ∀ {cs : List HandleCall} {g : Globals U φ F D},
    (after (next ops id) g cs).idStorePtr.poisoned = false →
    Along (next ops id) (fun g c => (next ops id g c).idStorePtr.poisoned = false) g cs ∧
      g.idStorePtr.poisoned = false
  | [], _, h => ⟨trivial, h⟩
  | c :: cs, g, h => by
    obtain ⟨hrest, hnext⟩ := along_unpoisoned (g := next ops id g c) h
    refine ⟨⟨hnext, hrest⟩, ?_⟩
    cases hp : g.idStorePtr.poisoned with
    | false => rfl
    | true =>
      rw [poisoned_next hp c] at hnext
      cases hnext

/-- A file that is opened anew is open under its name, and its lengths are in step. -/
theorem openFile_opened (hc : FindsByName crate entry fileEntry dirEntry list)
    (laws : KeepsLength entry fileEntry dirEntry list crate ops view) {g₀ : Globals U φ F D}
    (hnew : ∀ s, g₀.store? = some s → s.hasFile path = none)
    (hopen : g₀.usbFsOpenFile crate (some path) = .ok id g)
    (hparent : ∀ s, g.store? = some s → ParentAsNamed entry dirEntry s g.mounted (parentName path)) :
    ∃ s x, OpenAs entry fileEntry dirEntry g s id path x ∧
      InStep view entry fileEntry dirEntry list x := by
  simp only [usbFsOpenFile, withPath] at hopen
  obtain ⟨s₀, y, hp, hs₀, hin, rfl⟩ := withIdStore_eq_ok hopen
  have hstore := store?_put hs₀ y
  obtain ⟨st, fl, st', hw, hcrate, rfl, rfl⟩ := IdStore.openFile_eq_ok (hnew s₀ hs₀) hin
  have hres : entry st' (components path) = some (fileEntry fl) := by
    have hentry := hc.openFile_entry st path
    rw [hcrate, Outcome.state_ok] at hentry
    rw [hentry]
    exact hc.openFile_ok hcrate
  refine ⟨(s₀.insertFile path ⟨g₀.mounted.fsPtr.value, fl⟩).2, (fl, st'), ?_,
    laws.openFile_length hcrate⟩
  exact {
    unpoisoned := hp
    store_eq := hstore
    name := AList.lookup_insert _
    handle := AList.lookup_insert _
    current := ⟨hw.ptr, Heap.get?_set_self hw.cell st'⟩
    resolves := hres
    parent := hparent _ hstore }

/-- The path is one that `stat_path` follows. -/
def Found (entry : φ → Path → Option E) (dirEntry : D → E) (list : φ → E → List (E × DirEntry))
    (g : Globals U φ F D) (path : String) : Prop :=
  ∃ s st, g.store? = some s ∧ g.mounted.Current st ∧ Findable entry dirEntry list s st path

theorem OpenAs.found_iff (h : OpenAs entry fileEntry dirEntry g s id path x) :
    Found entry dirEntry list g path ↔ Findable entry dirEntry list s x.2 path := by
  constructor
  · rintro ⟨s', st, hs, hst, hfind⟩
    cases h.store_eq.symm.trans hs
    cases h.current.cell.symm.trans hst.cell
    exact hfind
  · exact fun hfind => ⟨s, x.2, h.store_eq, h.current, hfind⟩

/-- Seeking to the end gives the length of the `File`. -/
theorem seek_to_end (laws : ops.Seeks view) (hx : g.fileAt? id = some x) {g' : Globals U φ F D}
    (hseek : usbFsSeekFile ops g id 0 2 = .ok n g') : n = (view.file x.1).length := by
  obtain ⟨sf, x', ⟨fl', st'⟩, hsf, hx', hok, -⟩ := usbFsSeekFile_eq_ok hseek
  cases hx.symm.trans hx'
  cases hsf
  have hzero : relative 0 = 0 := by decide
  obtain ⟨-, hn, -, -⟩ := laws.seek_ok hok
  rw [FileView.target, hzero] at hn
  omega

section Lengths

variable {found : Prop} {c : HandleCall}
  (laws : KeepsLength entry fileEntry dirEntry list crate ops view)
  (h : Followed view entry fileEntry dirEntry list id path found g)
  (hk : (next ops id g c).idStorePtr.poisoned = false)

include laws h hk

theorem inStepAt_of_syncs (hsync : Syncs ops id g c) :
    InStepAt view entry fileEntry dirEntry list id (next ops id g c) := by
  obtain ⟨s, x, hopen, hledger, -⟩ := h
  obtain ⟨s', y, hopen', -, hacts, hok⟩ := call_opened laws hopen c hk
  obtain ⟨rfl, hsucceeds⟩ := hsync
  rw [hok rfl] at hsucceeds
  obtain rfl : y = _ := hacts
  exact hopen'.inStepAt_iff.mpr (inStep_of_flush laws hledger hsucceeds)

theorem inStepAt_next (hlen : ¬ Lengthens ops view id g c)
    (hstep : InStepAt view entry fileEntry dirEntry list id g) :
    InStepAt view entry fileEntry dirEntry list id (next ops id g c) := by
  obtain ⟨s, x, hopen, -, -⟩ := h
  obtain ⟨s', y, hopen', -, hacts, -⟩ := call_opened laws hopen c hk
  have hsame : (view.file y.1).length = (view.file x.1).length := by
    have heq := not_ne_iff.mp hlen
    simpa [lengthAt, hopen.fileAt, hopen'.fileAt] using heq
  exact hopen'.inStepAt_iff.mpr ((hopen.inStepAt_iff.mp hstep).acts laws hacts hsame)

theorem not_inStepAt_of_lengthens (hc : FindsByName crate entry fileEntry dirEntry list)
    (hlen : Lengthens ops view id g c) :
    ¬ InStepAt view entry fileEntry dirEntry list id (next ops id g c) := by
  obtain ⟨s, x, hopen, hledger, -⟩ := h
  obtain ⟨s', y, hopen', -, hacts, -⟩ := call_opened laws hopen c hk
  have hne : (view.file y.1).length ≠ (view.file x.1).length := by
    intro heq
    refine hlen ?_
    simp [lengthAt, hopen.fileAt, hopen'.fileAt, heq]
  rw [hopen'.inStepAt_iff]
  exact not_inStep_of_longer hc laws hopen.resolves hledger hacts hne

theorem inStepAt_before (hok : SyncSucceeds ops id g c) (hsync : ¬ Syncs ops id g c)
    (hstep : InStepAt view entry fileEntry dirEntry list id (next ops id g c)) :
    InStepAt view entry fileEntry dirEntry list id g := by
  obtain ⟨s, x, hopen, hledger, -⟩ := h
  obtain ⟨s', y, hopen', -, hacts, -⟩ := call_opened laws hopen c hk
  have hc : c ≠ .sync := fun heq => hsync ⟨heq, hok heq⟩
  exact hopen.inStepAt_iff.mpr (inStep_before laws hledger hacts hc (hopen'.inStepAt_iff.mp hstep))

end Lengths

/-- **Stat and the length.**  Let a file be opened anew, let calls be made on its id, and let seeking to
the end then yield `n`.  `usbFsStatFile` reports `n` if the path is one that `stat_path` follows, and
every write that made the file longer is followed by a sync that succeeds; and as long as no sync
fails, only then. -/
theorem stat_sees_length (hc : FindsByName crate entry fileEntry dirEntry list) (hone : OnePlace entry)
    (laws : KeepsLength entry fileEntry dirEntry list crate ops view) {g₀ g' : Globals U φ F D}
    (hnew : ∀ s, g₀.store? = some s → s.hasFile path = none)
    (hopen : g₀.usbFsOpenFile crate (some path) = .ok id g)
    (hparent : ∀ s, g.store? = some s → ParentAsNamed entry dirEntry s g.mounted (parentName path))
    {cs : List HandleCall}
    (hseek : usbFsSeekFile ops (after (next ops id) g cs) id 0 2 = .ok n g') :
    (Found entry dirEntry list g path ∧
        Mended (next ops id) (Lengthens ops view id) (Syncs ops id) g cs →
      ∃ attributes, ((after (next ops id) g cs).usbFsStatFile crate id).result =
        some (.ok (n, attributes))) ∧
    (Along (next ops id) (SyncSucceeds ops id) g cs →
      (∃ attributes, ((after (next ops id) g cs).usbFsStatFile crate id).result =
        some (.ok (n, attributes))) →
      Found entry dirEntry list g path ∧
        Mended (next ops id) (Lengthens ops view id) (Syncs ops id) g cs) := by
  obtain ⟨s, x, hx, hstep⟩ := openFile_opened hc laws hnew hopen hparent
  have hfollowed : Followed view entry fileEntry dirEntry list id path
      (Found entry dirEntry list g path) g := ⟨s, x, hx, hstep.ledger, hx.found_iff.symm⟩
  -- the seek has found the mutex unpoisoned, and so has every call before it
  obtain ⟨-, -, hp, -⟩ := onFile_eq_ok
    (f := fun x => (ops.seekTo (.fromEnd (relative 0)) x).mapErr LibnxErrMapper.map) hseek
  have halong := (along_unpoisoned hp).1
  have hend : Followed view entry fileEntry dirEntry list id path (Found entry dirEntry list g path)
      (after (next ops id) g cs) :=
    Along.invariant _ (fun g c h hk => h.next laws c hk) halong hfollowed
  obtain ⟨s', y, hy, -, hfound⟩ := hend
  have hn := seek_to_end laws.toSeeks hy.fileAt hseek
  rw [stat_eq_ok_iff hc hone hy, hfound, hn]
  have hstepped : InStepAt view entry fileEntry dirEntry list id g := hx.inStepAt_iff.mpr hstep
  constructor
  · rintro ⟨hpath, hmended⟩
    refine ⟨hpath, hy.inStepAt_iff.mp ?_⟩
    exact after_of_mended (fun g c h hk => h.next laws c hk)
      (fun g c h hk hsync => inStepAt_of_syncs laws h hk hsync)
      (fun g c h hk hlen hstep => inStepAt_next laws h hk hlen hstep) halong hfollowed
      (Or.inl hstepped) hmended
  · rintro hsyncs ⟨hpath, hlisted⟩
    refine ⟨hpath, ?_⟩
    exact (mended_of_after (fun g c h hk => h.next laws c hk.1)
      (fun g c h hk hlen => not_inStepAt_of_lengthens laws h hk.1 hc hlen)
      (fun g c h hk hsync hstep => inStepAt_before laws h hk.1 hk.2 hsync hstep)
      (Along.and _ halong hsyncs) hfollowed (hy.inStepAt_iff.mpr hlisted)).2

end Globals

/-! ### A volume with one file in its root directory -/

namespace OneFile

def fileName : List Char := "a".toList

/-- The root directory is `true`, and the file `false`. -/
def entryAt (_ : OneFile) : Path → Option Bool
  | [] => some true
  | [c] => if c = fileName then some false else none
  | _ => none

def listed (v : OneFile) : Bool → List (Bool × DirEntry)
  | true => [(false, ⟨"a", true, v.recorded.length, 0x20⟩)]
  | false => []

/-- The volume by paths.  Nothing can be created or removed. -/
def volume : FatfsCrate OneFile OpenFile Unit where
  rootDir _ := ()
  openFile v path :=
    if components path = [fileName] then
      .ok { recorded := v.recorded, pos := 0, dirty := false } v
    else .err ⟨.notFound, none⟩ v
  openDir v _ := .err ⟨.notFound, none⟩ v
  createFile v _ := .err ⟨.other, none⟩ v
  createDir v _ := .err ⟨.other, none⟩ v
  remove v _ := .err ⟨.other, none⟩ v
  flush v fl := .ok () (OneFile.ops.flush (fl, v)).state.2
  dropFile v fl := OneFile.ops.drop (fl, v)
  dropDir v _ := v
  iter v _ := (listed v true).map fun x => .ok x.2

theorem entryAt_eq_some {v : OneFile} {k : Path} {e : Bool} : entryAt v k = some e ↔
    k = [] ∧ e = true ∨ k = [fileName] ∧ e = false := by
  constructor
  · intro h
    unfold entryAt at h
    split at h
    · exact Or.inl ⟨rfl, (Option.some_inj.mp h).symm⟩
    · obtain ⟨rfl, he⟩ := Option.ite_none_right_eq_some.mp h
      exact Or.inr ⟨rfl, (Option.some_inj.mp he).symm⟩
    · cases h
  · rintro (⟨rfl, rfl⟩ | ⟨rfl, rfl⟩) <;> rfl

theorem volume_openFile (v : OneFile) (path : String) : volume.openFile v path =
    if components path = [fileName] then .ok { recorded := v.recorded, pos := 0, dirty := false } v
    else .err ⟨.notFound, none⟩ v := rfl

theorem onePlace : OnePlace entryAt := by
  intro v k k' e h h'
  rcases entryAt_eq_some.mp h with ⟨rfl, rfl⟩ | ⟨rfl, rfl⟩ <;>
    rcases entryAt_eq_some.mp h' with ⟨rfl, he⟩ | ⟨rfl, he⟩ <;> first | rfl | cases he

theorem volume_findsByName :
    FindsByName volume entryAt (fun _ => false) (fun _ => true) listed where
  root _ := rfl
  openFile_ok := by
    intro v p f v' h
    rw [volume_openFile] at h
    split at h
    · next hp => rw [hp]; rfl
    · cases h
  openFile_entry _ _ := rfl
  openDir_ok h := by cases h
  openDir_entry _ _ := rfl
  createFile_entry h := h
  createDir_entry h := h
  remove_ok h := by cases h
  remove_entry _ := rfl
  flush_entry _ _ := rfl
  dropFile_entry _ _ := rfl
  dropDir_entry _ _ := rfl
  kinds _ _ := by decide
  iter_congr _ := rfl
  openDir_iter _ _ := rfl
  dropDir_iter _ _ := rfl
  openDir_complete := by
    intro v p d hne h
    rcases entryAt_eq_some.mp h with ⟨hk, -⟩ | ⟨-, hd⟩
    · exact absurd hk hne
    · cases hd
  openDir_none _ _ _ := ⟨_, _, rfl⟩
  iter_eq _ := rfl
  child := by
    intro v k d c e h
    rcases entryAt_eq_some.mp h with ⟨rfl, -⟩ | ⟨-, hd⟩
    · have hname : lowerName "a".toList = fileName := by decide
      exact IdStore.child_of_listed rfl hname rfl
    · cases hd
  parent := by
    intro v k c e h
    rcases entryAt_eq_some.mp h with ⟨hk, -⟩ | ⟨hk, -⟩
    · simp at hk
    · have hk' : k = [] := by
        have hlen := congrArg List.length hk
        simpa using hlen
      exact ⟨(), by rw [hk']; rfl⟩
  unique_name := by
    intro v e x y hx hy _
    cases e <;> simp_all [listed]
  name := by
    intro v e x hx
    cases e <;> simp only [listed, List.mem_singleton, List.not_mem_nil] at hx
    subst hx
    show "a".toList ≠ [] ∧ '/' ∉ "a".toList
    decide

/-- The length that is listed is the recorded one. -/
theorem listedLength {v : OneFile} {n : ℕ} (h : v.recorded.length = n) :
    ListedLength entryAt (fun _ : Unit => true) listed v false n := by
  rintro z ⟨k, d, -, hz, -⟩
  rw [List.mem_singleton.mp hz]
  exact h

theorem sameTree {x y : OpenFile × OneFile} : SameTree entryAt (fun _ : OpenFile => false) listed x y :=
  ⟨rfl, rfl, fun dir => by cases dir <;> rfl⟩

theorem ops_keepsLength :
    KeepsLength entryAt (fun _ => false) (fun _ => true) listed volume OneFile.ops oneFileView where
  toSeeks := ops_seeksInRange.toSeeks
  openFile_length := by
    intro v p fl v' h
    rw [volume_openFile] at h
    split at h
    · cases h
      exact listedLength rfl
    · cases h
  read_same room x := ⟨sameTree, rfl, rfl, rfl⟩
  seek_same sf x := by
    rw [seekTo_ops, seekTarget]
    split
    · exact ⟨sameTree, rfl, rfl, rfl⟩
    · exact ⟨sameTree, rfl, rfl, rfl⟩
  write_same buff x := by
    refine ⟨sameTree, ?_⟩
    simp only [OneFile.ops, oneFile]
    split
    · exact ⟨rfl, Nat.le_refl _, fun hd => ⟨rfl, hd⟩⟩
    · exact ⟨rfl, Nat.le_max_left _ _, fun hd => by cases hd⟩
  flush_same x := by
    refine ⟨sameTree, ?_⟩
    simp only [OneFile.ops, oneFile]
    split
    · exact ⟨rfl, Or.inr (listedLength rfl)⟩
    · exact ⟨rfl, Or.inl ⟨rfl, rfl⟩⟩
  flush_stores x _ hd := by
    have hdirty : x.1.dirty = true := hd
    simp only [OneFile.ops, oneFile, hdirty, if_true]
    exact listedLength rfl

/-- The volume is mounted, and nothing is open. -/
def mounted (bytes : List UInt8) : Globals Unit OneFile OpenFile Unit where
  usbHsCtxPtr := { value := 0 }
  idStorePtr := { value := 1 }
  mounted := { fsPtr := { value := 1 }, fileSystems := (Heap.empty.alloc (volumeWith bytes)).2 }
  contexts := .empty
  stores := (Heap.empty.alloc IdStore.new).2

/-- The file is open. -/
def opened (bytes : List UInt8) : Globals Unit OneFile OpenFile Unit :=
  ((mounted bytes).usbFsOpenFile volume (some "a")).state

/-- Calls are made on its id. -/
def used (bytes : List UInt8) (cs : List Globals.HandleCall) : Globals Unit OneFile OpenFile Unit :=
  after (Globals.next OneFile.ops 0) (opened bytes) cs

end OneFile

namespace Globals

/-- An empty file, written to and synced. -/
theorem stat_sees_length_synced : ∃ attributes,
    ((OneFile.used [] [.write [1], .sync]).usbFsStatFile OneFile.volume 0).result =
      some (.ok (1, attributes)) := by
  have hopened : ((OneFile.mounted []).usbFsOpenFile OneFile.volume (some "a")).result =
      some (.ok 0) := by decide +kernel
  obtain ⟨g, hg⟩ := Outcome.result_eq_ok.mp hopened
  obtain rfl : OneFile.opened [] = g := by rw [OneFile.opened, hg, Outcome.state_ok]
  have hended : (usbFsSeekFile OneFile.ops (OneFile.used [] [.write [1], .sync]) 0 0 2).result =
      some (.ok 1) := by decide +kernel
  obtain ⟨g', hseek⟩ := Outcome.result_eq_ok.mp hended
  have hnew : ∀ s, (OneFile.mounted []).store? = some s → s.hasFile "a" = none := by
    intro s hs
    cases hs
    rfl
  have hparent : ∀ s, (OneFile.opened []).store? = some s →
      IdStore.ParentAsNamed OneFile.entryAt (fun _ => true) s (OneFile.opened []).mounted
        (parentName "a") := by
    intro s _ id hid
    have hnone : parentName "a" = none := by decide
    rw [hnone] at hid
    cases hid
  have hspell : IdStore.SpelledAlike OneFile.entryAt (fun _ : Unit => true) OneFile.listed
      (volumeWith []) "a" := by
    intro d hd z hz _
    rw [List.mem_singleton.mp hz]
    decide
  have hfound : Found OneFile.entryAt (fun _ : Unit => true) OneFile.listed (OneFile.opened []) "a" :=
    ⟨_, volumeWith [], rfl, ⟨rfl, rfl⟩, by decide, by decide, hspell⟩
  have hsynced : Syncs OneFile.ops 0 (OneFile.used [] [.write [1]]) .sync := ⟨rfl, by decide +kernel⟩
  have hkept : ¬ Lengthens OneFile.ops oneFileView 0 (OneFile.used [] [.write [1]]) .sync := by
    unfold Lengthens
    decide +kernel
  have hmended : Mended (next OneFile.ops 0) (Lengthens OneFile.ops oneFileView 0) (Syncs OneFile.ops 0)
      (OneFile.opened []) [.write [1], .sync] :=
    ⟨fun _ => Or.inl hsynced, fun h => absurd h hkept, trivial⟩
  exact (stat_sees_length OneFile.volume_findsByName OneFile.onePlace OneFile.ops_keepsLength hnew hg
    hparent hseek).1 ⟨hfound, hmended⟩

/-- **Growth unseen.**  A byte is written to an empty file: seeking to the end arrives behind it, and
the length that is reported is 0. -/
theorem grown_unseen :
    ((OneFile.mounted []).usbFsOpenFile OneFile.volume (some "a")).result = some (.ok 0) ∧
    (usbFsSeekFile OneFile.ops (OneFile.used [] [.write [1]]) 0 0 2).result = some (.ok 1) ∧
    ((OneFile.used [] [.write [1]]).usbFsStatFile OneFile.volume 0).result = some (.ok (0, 0x20)) := by
  refine ⟨?_, ?_, ?_⟩ <;> decide +kernel

end Globals

end FatDrive
