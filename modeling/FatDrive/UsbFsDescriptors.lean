import FatDrive.FilesView

/-!
# FatDrive.UsbFsDescriptors — the C interface is a file system with descriptors

* `Shows`: what is in use is the files of the users;
* `Shows.allows`: what a call may do to what is in use, it may do to the files;
* `run_files`: every run of calls between a set-up and a tear-down, in which what is open is called by one
  name, is a run of the files of the users, with the same answers;
* `run_descriptor`: what is done under one id is a run of one descriptor, whatever is done under others.
-/

namespace FatDrive

open Lib

variable {U S σ φ T F D E α β : Type}

theorem Gives.cases {r : Outcome IoError S α} {reply : α → β} {ok : α → S → FsInUse φ F D}
    {err : S → FsInUse φ F D} {b : Except ℕ β} {v' : FsInUse φ F D} {Q : α → S → Prop}
    {R : IoError → S → Prop}
    (h : Gives r reply ok err b v') (hr : r.Returns Q R) :
    (∃ a s, Q a s ∧ b = .ok (reply a) ∧ v' = ok a s) ∨
      ∃ e s, R e s ∧ b = .error (LibnxErrMapper.map e) ∧ v' = err s := by
  cases r with
  | ok a s => exact Or.inl ⟨a, s, hr, h⟩
  | err e s => exact Or.inr ⟨e, s, hr, h⟩
  | panicked s => exact hr.elim

namespace FsInUse

variable {view : FilesView φ E F D} {v v' : FsInUse φ F D} {d d' : UserFiles E} {n id : ℕ} {path : String}

/-- What is in use is the files of the users; at most `n` ids have been given out. -/
structure Shows (view : FilesView φ E F D) (n : ℕ) (v : FsInUse φ F D) (d : UserFiles E) : Prop where
  reflects : Reflects view v.ids.files v.fs d
  names_eq : ∀ id, v.ids.fileNames id = d.names id
  dirs_eq : ∀ id, d.dirs id = (v.ids.dirs id).map fun dir => (dir.name, view.dirEntry dir.obj)
  unused : ∀ id, v.ids.nextId ≤ id →
    v.ids.files id = none ∧ v.ids.fileNames id = none ∧ v.ids.dirs id = none
  next_le : v.ids.nextId ≤ n

/-! The calls that are made are these. -/

/-- A file that is open, and is found by the path, has it for its name. -/
def FileNamed (view : FilesView φ E F D) (v : FsInUse φ F D) (path : String) : Prop :=
  ∀ id f, v.ids.files id = some f → view.entry v.fs (parts path) = some (view.fileEntry f) →
    v.ids.fileNames id = some path

/-- The same of a directory. -/
def DirNamed (view : FilesView φ E F D) (v : FsInUse φ F D) (path : String) : Prop :=
  ∀ id dir, v.ids.dirs id = some dir → view.entry v.fs (parts path) = some (view.dirEntry dir.obj) →
    dir.name = path

def NotFile (view : FilesView φ E F D) (v : FsInUse φ F D) (path : String) : Prop :=
  ∀ id f, v.ids.files id = some f → view.entry v.fs (parts path) ≠ some (view.fileEntry f)

def NotDir (view : FilesView φ E F D) (v : FsInUse φ F D) (path : String) : Prop :=
  ∀ id dir, v.ids.dirs id = some dir → view.entry v.fs (parts path) ≠ some (view.dirEntry dir.obj)

end FsInUse

/-- Paths have no links in them.  A file that is open is opened and deleted by the name it was opened with,
and so a directory is deleted, each by the function for its kind. -/
def StoreCall.Safe (view : FilesView φ E F D) (v : FsInUse φ F D) : StoreCall → Prop
  | .openFile (some path) => Dotless path ∧ v.FileNamed view path
  | .deleteFile (some path) => Dotless path ∧ v.FileNamed view path ∧ v.NotDir view path
  | .deleteDir (some path) => Dotless path ∧ v.DirNamed view path ∧ v.NotFile view path
  | c => ∀ path, c.path? = some path → Dotless path

theorem StoreCall.Safe.dotless {view : FilesView φ E F D} {v : FsInUse φ F D} {c : StoreCall}
    (h : c.Safe view v) : ∀ path, c.path? = some path → Dotless path := by
  intro path hp
  cases c with
  | openFile filepath =>
    obtain rfl : filepath = some path := hp
    exact h.1
  | deleteFile filepath =>
    obtain rfl : filepath = some path := hp
    exact h.1
  | deleteDir dirpath =>
    obtain rfl : dirpath = some path := hp
    exact h.1
  | _ => exact h path hp

/-- An id that is in use for nothing is so still when one is taken out of use. -/
theorem update_none {f : ℕ → Option α} {i id : ℕ} (h : f i = none) :
    Function.update f id none i = none := by
  by_cases hid : i = id
  · rw [hid, Function.update_self]
  · rw [Function.update_of_ne hid, h]

namespace FsInUse

variable {view : FilesView φ E F D} {v v' : FsInUse φ F D} {d d' : UserFiles E} {n id : ℕ} {path : String}

namespace Shows

theorem later (h : v.Shows view n d) : v.Shows view (n + 1) d :=
  ⟨h.reflects, h.names_eq, h.dirs_eq, h.unused, Nat.le_succ_of_le h.next_le⟩

theorem same (h : v.Shows view n d) {fs : φ} (hs : view.Same v.ids.files v.fs fs) :
    Shows view n ⟨fs, v.ids⟩ d := ⟨h.reflects.same hs, h.names_eq, h.dirs_eq, h.unused, h.next_le⟩

/-- The id that is due is in use for nothing. -/
theorem free (h : v.Shows view n d) : d.Free v.ids.nextId := by
  obtain ⟨hfile, hname, hdir⟩ := h.unused _ le_rfl
  refine ⟨h.reflects.opened_eq_none.mpr hfile, (h.names_eq _).symm.trans hname, ?_⟩
  rw [h.dirs_eq, hdir]
  rfl

theorem nextId_succ (h : v.Shows view n d) (hn : n + 1 < 2 ^ 64) :
    IdStore.idAfter v.ids.nextId = v.ids.nextId + 1 := by
  have := h.next_le
  rw [IdStore.idAfter, if_neg (by omega)]

theorem lt_of_idAfter (h : v.Shows view n d) (hn : n + 1 < 2 ^ 64)
    (hid : IdStore.idAfter v.ids.nextId ≤ id) : v.ids.nextId < id := by
  rwa [h.nextId_succ hn] at hid

theorem dir_some (h : v.Shows view n d) {dir : NamedDir D} (hd : v.ids.dirs id = some dir) :
    d.dirs id = some (dir.name, view.dirEntry dir.obj) := by
  rw [h.dirs_eq, hd]
  rfl

theorem dirs_eq_none (h : v.Shows view n d) : d.dirs id = none ↔ v.ids.dirs id = none := by
  rw [h.dirs_eq, Option.map_eq_none_iff]

theorem dir_of (h : v.Shows view n d) {x : String × E} (hx : d.dirs id = some x) :
    ∃ dir, v.ids.dirs id = some dir ∧ x = (dir.name, view.dirEntry dir.obj) := by
  rw [h.dirs_eq] at hx
  obtain ⟨dir, hd, rfl⟩ := Option.map_eq_some_iff.mp hx
  exact ⟨dir, hd, rfl⟩

theorem dirs_ne (h : v.Shows view n d) (hnew : ∀ id, v.ids.dirNames id ≠ some path) (id : ℕ) (e : E) :
    d.dirs id ≠ some (path, e) := by
  intro hid
  obtain ⟨dir, hd, hx⟩ := h.dir_of hid
  cases hx
  refine hnew id ?_
  rw [IdTable.dirNames, hd]
  rfl

/-- The users see the directory of an id change as it does. -/
theorem dirs_update (h : v.Shows view n d) (id : ℕ) (x : Option (NamedDir D)) (i : ℕ) :
    Function.update d.dirs id (x.map fun dir => (dir.name, view.dirEntry dir.obj)) i =
      (Function.update v.ids.dirs id x i).map fun dir => (dir.name, view.dirEntry dir.obj) := by
  by_cases hid : i = id
  · rw [hid, Function.update_self, Function.update_self]
  · rw [Function.update_of_ne hid, Function.update_of_ne hid]
    exact h.dirs_eq i

theorem idAfter_le (h : v.Shows view n d) (hn : n + 1 < 2 ^ 64) :
    IdStore.idAfter v.ids.nextId ≤ n + 1 := by
  rw [h.nextId_succ hn]
  exact Nat.succ_le_succ h.next_le

/-- What is open with the entry of a path is open by its name. -/
theorem name_eq (h : v.Shows view n d) (hname : v.FileNamed view path) {x : E × ℕ}
    (htree : d.tree (parts path) = some x.1) (hx : d.opened id = some x) : d.names id = some path := by
  have hmap := h.reflects.entry_eq id
  rw [hx] at hmap
  obtain ⟨f, hf, he⟩ := Option.map_eq_some_iff.mp hmap.symm
  rw [h.reflects.tree_eq] at htree
  exact (h.names_eq id).symm.trans (hname id f hf (htree.trans (congrArg some he.symm)))

theorem dirName_eq (h : v.Shows view n d) (hname : v.DirNamed view path) {x : String × E}
    (htree : d.tree (parts path) = some x.2) (hx : d.dirs id = some x) : x.1 = path := by
  obtain ⟨dir, hd, rfl⟩ := h.dir_of hx
  rw [h.reflects.tree_eq] at htree
  exact hname id dir hd htree

theorem not_opens (h : v.Shows view n d) (hno : v.NotFile view path) {e : E}
    (htree : d.tree (parts path) = some e) : ¬ d.Opens e := by
  intro ho
  obtain ⟨i, f, hf, he⟩ := h.reflects.opens_iff.mp ho
  rw [h.reflects.tree_eq] at htree
  exact hno i f hf (htree.trans (congrArg some he.symm))

theorem dir_ne (h : v.Shows view n d) (hno : v.NotDir view path) {e : E}
    (htree : d.tree (parts path) = some e) (i : ℕ) (x : String × E) (hx : d.dirs i = some x) :
    x.2 ≠ e := by
  rintro rfl
  obtain ⟨dir, hdir, rfl⟩ := h.dir_of hx
  rw [h.reflects.tree_eq] at htree
  exact hno i dir hdir htree

/-! ### Files -/

section Files

variable {api : FatfsApi φ T F D} {a : Except ℕ α}

theorem opensFile (h : v.Shows view n d) (laws : api.KeepsFiles view) (hn : n + 1 < 2 ^ 64)
    (hdot : Dotless path) (hname : v.FileNamed view path) {a : Except ℕ ℕ}
    (hst : v.OpensFile api path a v') :
    ∃ d', d.OpensFile view.isDir d' path (a.map Reply.id) ∧ v'.Shows view (n + 1) d' := by
  rcases hst with ⟨id, hid, rfl, rfl⟩ | ⟨hnew, hgives⟩
  · exact ⟨d, Or.inl ⟨id, (h.names_eq id).symm.trans hid, rfl, rfl⟩, h.later⟩
  · have hnew' : ∀ id, d.names id ≠ some path := fun id hid => hnew id ((h.names_eq id).trans hid)
    have hfree := h.unused _ le_rfl
    rcases hgives.cases (laws.openFile h.reflects.ready hfree.1 hdot) with
      ⟨f, fs, hopens, rfl, rfl⟩ | ⟨e, fs, hsame, rfl, rfl⟩
    · have htree : d.tree (parts path) = some (view.fileEntry f) := by
        rw [h.reflects.tree_eq]
        exact hopens.resolved
      have hno : ¬ d.Opens (view.fileEntry f) := by
        rintro ⟨i, x, hx, he⟩
        exact hnew' i (h.name_eq hname (htree.trans (congrArg some he.symm)) hx)
      refine ⟨_, Or.inr ⟨hnew', Or.inr ⟨v.ids.nextId, _, h.free, htree, hopens.isFile, hno, rfl, rfl⟩⟩,
        h.reflects.opening hfree.1 hopens hno _, fun id => ?_, h.dirs_eq, fun id hid => ?_, ?_⟩
      · exact congrFun (congrArg (fun t => Function.update t v.ids.nextId (some path))
          (funext h.names_eq)) id
      · have hlt := h.lt_of_idAfter hn hid
        obtain ⟨h₁, h₂, h₃⟩ := h.unused id hlt.le
        have hne : id ≠ v.ids.nextId := hlt.ne'
        exact ⟨(Function.update_of_ne hne ..).trans h₁, (Function.update_of_ne hne ..).trans h₂, h₃⟩
      · exact h.idAfter_le hn
    · exact ⟨d, Or.inr ⟨hnew', Or.inl ⟨⟨_, rfl⟩, rfl⟩⟩, (h.same hsame).later⟩

variable [DecidableEq E]

/-- An operation on the `File` of an id. -/
theorem onFile (h : v.Shows view n d) (ht : d.Tidy) {c : StoreCall} {f : α → Reply} {a : Except ℕ Reply}
    {op : F × φ → Outcome IoError (F × φ) α}
    (hop : ∀ fl, v.ids.files id = some fl → (op (fl, v.fs)).Returns
      (fun x y => view.Operates v.ids.files id (fl, v.fs) y ∧ UserFiles.DescriptorActs
        (view.descriptor (fl, v.fs)) (view.descriptor y) (.ok (f x)) c)
      fun _ y => view.Operates v.ids.files id (fl, v.fs) y ∧ ∀ code, UserFiles.DescriptorActs
        (view.descriptor (fl, v.fs)) (view.descriptor y) (.error code) c)
    (hst : (v.OnFile id op).reply f a v') : ∃ d', d.OnId d' id a c ∧ v'.Shows view n d' := by
  obtain ⟨r, ⟨hnone, rfl, rfl⟩ | ⟨fl, hf, hgives⟩, rfl⟩ := hst
  · exact ⟨d, Or.inl ⟨h.reflects.opened_eq_none.mpr hnone, rfl, rfl⟩, h⟩
  · obtain ⟨hopen, hbytes⟩ := h.reflects.opened_eq hf
    have hx : (⟨d.bytes (view.fileEntry fl), (view.descriptor (fl, v.fs)).cursor⟩ : Descriptor UInt8) =
        view.descriptor (fl, v.fs) := by rw [hbytes]
    have hput : ∀ y : F × φ, view.Operates v.ids.files id (fl, v.fs) y →
        Shows view n ⟨y.2, v.ids.setFile id y.1⟩
          { d with toOpenFiles := d.put id (view.fileEntry fl) (view.descriptor y) } := by
      intro y hy
      refine ⟨h.reflects.operate ht.exclusive hf hy, h.names_eq, h.dirs_eq, fun i hi => ?_, h.next_le⟩
      obtain ⟨h₁, h₂, h₃⟩ := h.unused i hi
      refine ⟨?_, h₂, h₃⟩
      show Function.update v.ids.files id (some y.1) i = none
      rw [Function.update_of_ne, h₁]
      rintro rfl
      rw [h₁] at hf
      cases hf
    rcases hgives.cases (hop fl hf) with ⟨x, y, hy, rfl, rfl⟩ | ⟨e, y, hy, rfl, rfl⟩
    · exact ⟨_, Or.inr ⟨_, _, _, hopen, hx ▸ hy.2, rfl⟩, hput y hy.1⟩
    · exact ⟨_, Or.inr ⟨_, _, _, hopen, hx ▸ hy.2 _, rfl⟩, hput y hy.1⟩

/-- An id is looked up and the call refused. -/
theorem refuses (h : v.Shows view n d) {c : StoreCall} {f : α → Reply} {a : Except ℕ Reply}
    (hc : ∀ x code, UserFiles.DescriptorActs x x (.error code) c) (hst : (v.Refuses id).reply f a v') :
    ∃ d', d.OnId d' id a c ∧ v'.Shows view n d' := by
  obtain ⟨r, ⟨hnone, rfl, rfl⟩ | ⟨hsome, rfl, rfl⟩, rfl⟩ := hst
  · exact ⟨d, Or.inl ⟨h.reflects.opened_eq_none.mpr hnone, rfl, rfl⟩, h⟩
  · obtain ⟨fl, hf⟩ := Option.ne_none_iff_exists'.mp hsome
    obtain ⟨hopen, -⟩ := h.reflects.opened_eq hf
    refine ⟨d, Or.inr ⟨_, _, _, hopen, hc _ _, ?_⟩, h⟩
    rw [OpenFiles.put_same hopen]

theorem closesFile (h : v.Shows view n d) (ht : d.Tidy) (laws : api.KeepsFiles view) {a : Except ℕ Unit}
    (hst : v.ClosesFile api id a v') : ∃ d', d.ClosesFile d' id a ∧ v'.Shows view n d' := by
  rcases hst with ⟨hnone, rfl, rfl⟩ | ⟨f, hf, hgives⟩
  · exact ⟨d, Or.inl ⟨h.reflects.opened_eq_none.mpr hnone, rfl, rfl⟩, h⟩
  · obtain ⟨hopen, hbytes⟩ := h.reflects.opened_eq hf
    have hunused : ∀ i, v.ids.nextId ≤ i → Function.update v.ids.files id none i = none :=
      fun i hi => update_none (h.unused i hi).1
    rcases hgives.cases (laws.close h.reflects.ready hf) with
      ⟨u, fs, ⟨hc, hstored⟩, rfl, rfl⟩ | ⟨e, fs, hc, rfl, rfl⟩
    · have hreflects := h.reflects.closing ht.exclusive hf hc (Function.update d.names id none)
      have hsame : (d.toOpenFiles.close id).spoil (view.fileEntry f)
          (view.stored (api.dirs.dropFile fs f) (view.fileEntry f)) = d.toOpenFiles.close id := by
        rw [hstored, ← hbytes]
        exact OpenFiles.spoil_same (view.fileEntry f)
      rw [hsame] at hreflects
      refine ⟨_, Or.inr ⟨_, _, hopen, Or.inl ⟨rfl, rfl⟩⟩, hreflects, fun i => ?_, h.dirs_eq, fun i hi => ?_,
        h.next_le⟩
      · exact congrFun (congrArg (fun t => Function.update t id none) (funext h.names_eq)) i
      · exact ⟨hunused i hi, update_none (h.unused i hi).2.1, (h.unused i hi).2.2⟩
    · exact ⟨_, Or.inr ⟨_, _, hopen, Or.inr ⟨⟨_, rfl⟩, _, rfl⟩⟩,
        h.reflects.closing ht.exclusive hf hc d.names, h.names_eq, h.dirs_eq,
        fun i hi => ⟨hunused i hi, (h.unused i hi).2⟩, h.next_le⟩

/-! ### Entries -/

/-- An entry is made, or is there. -/
theorem creates (h : v.Shows view n d) (ht : d.Tidy) {dir : Bool} {r : Outcome IoError φ Unit}
    (hr : r.Returns
      (fun _ fs => ∃ e, view.isDir e = dir ∧ (view.entry v.fs (parts path) = some e ∧
        view.Same v.ids.files v.fs fs ∨ view.Adds v.ids.files path e v.fs fs))
      fun _ fs => view.Same v.ids.files v.fs fs)
    {a : Except ℕ Unit} (hst : v.OnFs r a v') :
    ∃ d', d.Creates view.isDir d' dir path (a.map fun _ => .nothing) ∧ v'.Shows view n d' := by
  rcases hst.cases hr with ⟨u, fs, ⟨e, hkind, hadds⟩, rfl, rfl⟩ | ⟨e, fs, hsame, rfl, rfl⟩
  · rcases hadds with ⟨htree, hsame⟩ | hadds
    · exact ⟨d, Or.inr ⟨rfl, e, hkind, Or.inl ⟨by rw [h.reflects.tree_eq, htree], rfl⟩⟩, h.same hsame⟩
    · have hfresh : ∀ k, d.tree k ≠ some e := by
        rw [h.reflects.tree_eq]
        exact hadds.fresh
      have hno : ¬ d.Opens e := fun ho => by
        obtain ⟨k, hk⟩ := ht.placed ho
        exact hfresh k hk
      refine ⟨d.add e (view.entry fs),
        Or.inr ⟨rfl, e, hkind, Or.inr ⟨_, ⟨hno, hfresh, hadds.found, ?_⟩, rfl⟩⟩,
        h.reflects.add hadds hno, h.names_eq, h.dirs_eq, h.unused, h.next_le⟩
      rw [h.reflects.tree_eq]
      exact hadds.only
  · exact ⟨d, Or.inl ⟨⟨_, rfl⟩, rfl⟩, h.same hsame⟩

/-- An entry of which nothing is open is removed. -/
theorem removes (h : v.Shows view n d) (laws : api.KeepsFiles view) (hdot : Dotless path)
    (hun : ∀ e, d.tree (parts path) = some e → d.Unused e) {a : Except ℕ Unit}
    (hst : v.OnFs (api.dirs.remove v.fs path) a v') :
    ∃ d', d.Removes d' path (a.map fun _ => .nothing) ∧ v'.Shows view n d' := by
  have hclosed : ∀ id f, v.ids.files id = some f →
      view.entry v.fs (parts path) ≠ some (view.fileEntry f) := by
    intro id f hf he
    rw [← h.reflects.tree_eq] at he
    exact (hun _ he).file (h.reflects.opens_iff.mpr ⟨id, f, hf, rfl⟩)
  rcases hst.cases (laws.remove h.reflects.ready hdot hclosed) with
    ⟨u, fs, ⟨e, hrem⟩, rfl, rfl⟩ | ⟨e, fs, hsame, rfl, rfl⟩
  · have htree : d.tree (parts path) = some e := by
      rw [h.reflects.tree_eq]
      exact hrem.found
    exact ⟨_, Or.inr ⟨rfl, e, _, htree, hun e htree, rfl⟩, h.reflects.without hrem (hun e htree).file,
      h.names_eq, h.dirs_eq, h.unused, h.next_le⟩
  · exact ⟨d, Or.inl ⟨⟨_, rfl⟩, rfl⟩, h.same hsame⟩

end Files

/-! ### Directories -/

section Dirs

variable {api : FatfsApi φ T F D}

/-- The root directory is opened by two names, and others by what the crate finds. -/
theorem openAny_returns (h : v.Shows view n d) (laws : api.KeepsFiles view) (hdot : Dotless path) :
    (api.dirs.openAny v.fs path).Returns
      (fun dir fs => view.Same v.ids.files v.fs fs ∧
        view.entry v.fs (parts path) = some (view.dirEntry dir) ∧ view.isDir (view.dirEntry dir) = true)
      fun _ fs => view.Same v.ids.files v.fs fs := by
  unfold FatfsCrate.openAny
  split
  · next hroot =>
    have hparts : parts path = [] := by
      rcases hroot with rfl | rfl <;> decide
    obtain ⟨hentry, hdir⟩ := laws.rootDir h.reflects.ready
    rw [hparts]
    exact ⟨⟨⟨fun _ _ _ _ => rfl, fun _ _ => rfl⟩, h.reflects.ready, rfl⟩, hentry, hdir⟩
  · exact laws.openDir h.reflects.ready hdot

theorem opensDir (h : v.Shows view n d) (laws : api.KeepsFiles view) (hn : n + 1 < 2 ^ 64)
    (hdot : Dotless path) {a : Except ℕ ℕ} (hst : v.OpensDir api path a v') :
    ∃ d', d.OpensDir view.isDir d' path (a.map Reply.id) ∧ v'.Shows view (n + 1) d' := by
  rcases hst with ⟨id, hid, rfl, rfl⟩ | ⟨hnew, hgives⟩
  · obtain ⟨dir, hdir, rfl⟩ := Option.map_eq_some_iff.mp hid
    exact ⟨d, Or.inl ⟨id, _, h.dir_some hdir, rfl, rfl⟩, h.later⟩
  · have hnew' := h.dirs_ne hnew
    rcases hgives.cases (h.openAny_returns laws hdot) with
      ⟨dir, fs, ⟨hsame, hentry, hkind⟩, rfl, rfl⟩ | ⟨e, fs, hsame, rfl, rfl⟩
    · have htree : d.tree (parts path) = some (view.dirEntry dir) := by
        rw [h.reflects.tree_eq]
        exact hentry
      have hsh := h.same hsame
      refine ⟨_, Or.inr ⟨hnew', Or.inr ⟨v.ids.nextId, _, h.free, htree, hkind, rfl, rfl⟩⟩,
        ⟨hsh.reflects.ready, hsh.reflects.tree_eq, hsh.reflects.entry_eq, hsh.reflects.descriptor_eq,
          hsh.reflects.stored_eq⟩, h.names_eq, h.dirs_update v.ids.nextId (some ⟨path, dir, 0⟩),
        fun id hid => ?_, h.idAfter_le hn⟩
      · have hlt := h.lt_of_idAfter hn hid
        obtain ⟨h₁, h₂, h₃⟩ := h.unused id hlt.le
        exact ⟨h₁, h₂, (Function.update_of_ne hlt.ne' ..).trans h₃⟩
    · exact ⟨d, Or.inr ⟨hnew', Or.inl ⟨⟨_, rfl⟩, rfl⟩⟩, (h.same hsame).later⟩

/-- A directory is closed; the crate drops its `Dir`. -/
theorem closesDir (h : v.Shows view n d) (laws : api.KeepsFiles view) {a : Except ℕ Unit}
    (hst : v.ClosesDir api id a v') :
    ∃ d', d.ClosesDir d' id (a.map fun _ => .nothing) ∧ v'.Shows view n d' := by
  rcases hst with ⟨hnone, rfl, rfl⟩ | ⟨dir, hdir, rfl, rfl⟩
  · exact ⟨d, Or.inl ⟨h.dirs_eq_none.mpr hnone, rfl, rfl⟩, h⟩
  · have hsh := h.same (laws.dropDir dir.obj h.reflects.ready)
    have hsome : d.dirs id ≠ none := by
      rw [h.dir_some hdir]
      exact Option.some_ne_none _
    refine ⟨d.closeDir id, Or.inr ⟨hsome, rfl, rfl⟩,
      ⟨hsh.reflects.ready, hsh.reflects.tree_eq, hsh.reflects.entry_eq, hsh.reflects.descriptor_eq,
        hsh.reflects.stored_eq⟩, h.names_eq, h.dirs_update id none, fun i hi => ?_, h.next_le⟩
    obtain ⟨h₁, h₂, h₃⟩ := h.unused i hi
    exact ⟨h₁, h₂, update_none h₃⟩

/-- What is listed of an entry is the entry that is found there. -/
theorem describes (h : v.Shows view n d) {k : Path} {r : DirEntry} (hr : view.Lists v.ids.files v.fs k r)
    (hno : ¬ IsDots r.fileName.toList) :
    d.Describes view.isDir (k ++ [r.fileName.toList]) r.len (!r.isFile) := by
  obtain ⟨e, hentry, hkind, hlen⟩ := hr.entry hno
  refine ⟨e, by rw [h.reflects.tree_eq, hentry], hkind, fun hfile hclosed => ?_⟩
  rw [hlen (by simpa using hfile) fun id f hf he => hclosed (h.reflects.opens_iff.mpr ⟨id, f, hf, he⟩),
    h.reflects.stored_eq e hclosed]

theorem readsDir (h : v.Shows view n d) (ht : d.Tidy) (laws : api.KeepsFiles view) {name : ℕ → UInt8}
    {namemax : ℕ} {a : Except ℕ Reply} (hst : (v.ReadsDir api id).reply (entryReply name namemax) a v') :
    d.ReadsDir view.isDir d id name namemax a ∧ v'.Shows view n d := by
  obtain ⟨r, ⟨hnone, rfl, rfl⟩ | ⟨dir, hdir, rfl, rfl⟩, rfl⟩ := hst
  · exact ⟨⟨rfl, Or.inl ⟨h.dirs_eq_none.mpr hnone, rfl⟩⟩, h⟩
  · have hd := h.dir_some hdir
    refine ⟨⟨rfl, Or.inr ⟨_, _, hd, ?_⟩⟩, h.reflects, h.names_eq, fun i => ?_, fun i hi => ?_, h.next_le⟩
    · cases hent : (api.dirs.iter v.fs dir.obj)[dir.next]? with
      | none => exact Or.inr ⟨none, rfl, fun x hx => by cases hx⟩
      | some ent =>
        cases ent with
        | error e => exact Or.inl ⟨_, rfl⟩
        | ok r =>
          refine Or.inr ⟨_, rfl, fun x hx => ?_⟩
          cases hx
          have htree := ht.dirs_named id _ _ hd
          rw [h.reflects.tree_eq] at htree
          have hlist := laws.iter h.reflects.ready htree (List.mem_of_getElem? hent)
          by_cases hdots : IsDots r.fileName.toList
          · exact Or.inl hdots
          · refine Or.inr ⟨!r.isFile, ?_, h.describes hlist hdots⟩
            cases r.isFile <;> rfl
    · show d.dirs i = (Function.update v.ids.dirs id _ i).map _
      by_cases hid : i = id
      · subst hid
        rw [Function.update_self, hd]
        rfl
      · rw [Function.update_of_ne hid]
        exact h.dirs_eq i
    · obtain ⟨h₁, h₂, h₃⟩ := h.unused i hi
      refine ⟨h₁, h₂, ?_⟩
      show Function.update v.ids.dirs id _ i = none
      rw [Function.update_of_ne, h₃]
      rintro rfl
      rw [h₃] at hdir
      cases hdir

/-- The entry that the search ends at. -/
theorem findEntry_eq_ok {name : List Char} {found : ℕ × ℕ} :
    ∀ {l : List (Except IoError DirEntry)}, IdStore.findEntry name l = .ok found →
      ∃ r, .ok r ∈ l ∧ trimEnd '/' r.fileName.toList = name ∧ found = (r.len, r.attributes)
  | [], h => by cases h
  | .error e :: _, h => by cases h
  | .ok r :: l, h => by
    rw [IdStore.findEntry] at h
    split at h
    · obtain ⟨r', hr', hname⟩ := findEntry_eq_ok h
      exact ⟨r', List.mem_cons_of_mem _ hr', hname⟩
    · next hname =>
      cases h
      exact ⟨r, List.mem_cons_self .., not_not.mp hname, rfl⟩

/-- What is found in the parent is found by the path. -/
theorem describes_found (h : v.Shows view n d) (laws : api.KeepsFiles view) (hdot : Dotless path) {dir : D}
    (hentry : view.entry v.fs (parentParts path) = some (view.dirEntry dir)) {size mode : ℕ}
    (hfound : IdStore.findEntry (entName path) (api.dirs.iter v.fs dir) = .ok (size, mode)) :
    d.Describes view.isDir (parts path) size (mode.testBit 4) := by
  obtain ⟨r, hr, hname, hx⟩ := findEntry_eq_ok hfound
  cases hx
  have hlist := laws.iter h.reflects.ready hentry hr
  rw [trimEnd_of_notMem hlist.name_slash] at hname
  have hne : parts path ≠ [] := fun hnil => by
    refine hlist.name_ne (hname.trans ?_)
    rw [entName, strippedPath_eq_nil hnil]
    rfl
  have hparts := parts_eq hne
  rw [hparts, ← hname, hlist.attributes]
  refine h.describes hlist (hdot _ ?_)
  rw [hparts, ← hname]
  exact List.mem_append_right _ (List.mem_singleton_self _)

/-- The name of the parent has no link in it either. -/
theorem dotless_parentName (hdot : Dotless path) {name : String} (hname : parentName path = some name) :
    Dotless name ∧ parentParts path = parts name := by
  have hparent : parentParts path = parts name := by
    rw [parentParts, hname]
    rfl
  refine ⟨fun m hm => ?_, hparent⟩
  by_cases hne : parts path = []
  · rw [parentName, strippedPath_eq_nil hne] at hname
    cases hname
  · refine hdot m ?_
    rw [parts_eq hne, hparent]
    exact List.mem_append_left _ hm

theorem openParent_returns (h : v.Shows view n d) (laws : api.KeepsFiles view) (hdot : Dotless path) :
    (api.dirs.openParent v.fs (parentName path)).Returns
      (fun dir fs => view.Same v.ids.files v.fs fs ∧
        view.entry v.fs (parentParts path) = some (view.dirEntry dir))
      fun _ fs => view.Same v.ids.files v.fs fs := by
  have hroot : parentParts path = [] → view.Same v.ids.files v.fs v.fs ∧
      view.entry v.fs (parentParts path) = some (view.dirEntry (api.dirs.rootDir v.fs)) := by
    intro hnil
    rw [hnil]
    exact ⟨⟨⟨fun _ _ _ _ => rfl, fun _ _ => rfl⟩, h.reflects.ready, rfl⟩,
      (laws.rootDir h.reflects.ready).1⟩
  cases hp : parentName path with
  | none => exact hroot (by rw [parentParts, hp]; rfl)
  | some name =>
    obtain ⟨hname, hparent⟩ := dotless_parentName hdot hp
    unfold FatfsCrate.openParent
    dsimp only
    split
    · next hempty =>
      refine hroot (hparent.trans ?_)
      rw [hempty]
      decide
    · rw [hparent]
      exact (laws.openDir h.reflects.ready hname).mono (fun dir fs hx => ⟨hx.1, hx.2.1⟩) fun _ _ hx => hx

theorem stats (h : v.Shows view n d) (ht : d.Tidy) (laws : api.KeepsFiles view) (hdot : Dotless path)
    {a : Except ℕ (ℕ × ℕ)} (hst : v.Stats api path a v') :
    d.Stats view.isDir d path (a.map fun r => .stat r.1 r.2) ∧ v'.Shows view n d := by
  have hanswer : ∀ {v' : FsInUse φ F D} {dir : D}, v'.Shows view n d →
      view.entry v'.fs (parentParts path) = some (view.dirEntry dir) →
      d.Stats view.isDir d path
        ((IdStore.findEntry (entName path) (api.dirs.iter v'.fs dir)).map fun r => .stat r.1 r.2) := by
    intro v' dir hsh hentry
    refine ⟨rfl, ?_⟩
    cases hfound : IdStore.findEntry (entName path) (api.dirs.iter v'.fs dir) with
    | error code => exact Or.inl ⟨code, rfl⟩
    | ok r => exact Or.inr ⟨r.1, r.2, rfl, hsh.describes_found laws hdot hentry hfound⟩
  rcases hst with ⟨id, dir, hdir, hname, rfl, rfl⟩ | ⟨-, hret⟩
  · have htree := ht.dirs_named id _ _ (h.dir_some hdir)
    rw [h.reflects.tree_eq, ← (dotless_parentName hdot hname).2] at htree
    exact ⟨hanswer h htree, h⟩
  · have hboth := hret.and (h.openParent_returns laws hdot)
    cases hr : api.dirs.openParent v.fs (parentName path) with
    | ok dir fs =>
      rw [hr] at hboth
      obtain ⟨⟨rfl, rfl⟩, hsame, hentry⟩ := hboth
      have hsh := h.same hsame
      have hdrop := laws.dropDir dir hsh.reflects.ready
      refine ⟨hanswer (hsh.same hdrop) ?_, hsh.same hdrop⟩
      show view.entry (api.dirs.dropDir fs dir) _ = _
      rw [hdrop.entry, hsame.entry]
      exact hentry
    | err e fs =>
      rw [hr] at hboth
      obtain ⟨⟨rfl, rfl⟩, hsame⟩ := hboth
      exact ⟨⟨rfl, Or.inl ⟨_, rfl⟩⟩, h.same hsame⟩
    | panicked fs =>
      rw [hr] at hboth
      exact hboth.elim

theorem statsId (h : v.Shows view n d) (ht : d.Tidy) (laws : api.KeepsFiles view) {a : Except ℕ (ℕ × ℕ)}
    (hst : v.StatsId api id a v') :
    d.StatsId view.isDir d id (a.map fun r => .stat r.1 r.2) ∧ v'.Shows view n d := by
  have hname : v.ids.nameOf id = d.nameOf id := by
    unfold IdTable.nameOf UserFiles.nameOf
    rw [h.names_eq, h.dirs_eq, IdTable.dirNames, Option.map_map]
    rfl
  unfold StatsId at hst
  rw [hname] at hst
  rcases hst with ⟨hnone, rfl, rfl⟩ | ⟨path, hpath, hst⟩
  · exact ⟨Or.inl ⟨hnone, rfl, rfl⟩, h⟩
  · have hdot : Dotless path := by
      unfold UserFiles.nameOf at hpath
      cases hn : d.names id with
      | some name =>
        rw [hn] at hpath
        cases hpath
        exact ht.dotless id _ hn
      | none =>
        rw [hn] at hpath
        obtain ⟨x, hx, rfl⟩ := Option.map_eq_some_iff.mp hpath
        exact ht.dirs_dotless id x.1 x.2 hx
    obtain ⟨hstats, hsh⟩ := h.stats ht laws hdot hst
    exact ⟨Or.inr ⟨path, hpath, hstats⟩, hsh⟩

end Dirs

/-! ### Deletions -/

section Deletes

variable [DecidableEq E] {api : FatfsApi φ T F D}

/-- What is open with the entry of the path is closed first, if it is known by the path. -/
theorem deletesFile (h : v.Shows view n d) (ht : d.Tidy) (laws : api.KeepsFiles view) (hdot : Dotless path)
    (hname : v.FileNamed view path) (hno : v.NotDir view path) {a : Except ℕ Unit}
    (hst : v.Deletes api v.ids.fileNames (v.ClosesFile api) path a v') :
    ∃ d', d.DeletesFile d' path (a.map fun _ => .nothing) ∧ v'.Shows view n d' := by
  rcases hst with ⟨hnew, hst⟩ | ⟨id, hid, ⟨v₁, hcl, hst⟩ | ⟨code, hcl, rfl⟩⟩
  · have hnew' : ∀ i, d.names i ≠ some path := fun i hi => hnew i ((h.names_eq i).trans hi)
    have hun : ∀ e, d.tree (parts path) = some e → d.Unused e := by
      refine fun e htree => ⟨?_, h.dir_ne hno htree⟩
      rintro ⟨i, x, hi, rfl⟩
      exact hnew' i (h.name_eq hname htree hi)
    obtain ⟨d', hrem, hsh⟩ := h.removes laws hdot hun hst
    exact ⟨d', Or.inl ⟨hnew', hrem⟩, hsh⟩
  · have hid' : d.names id = some path := (h.names_eq id).symm.trans hid
    obtain ⟨d₁, hcl₁, h₁⟩ := h.closesFile ht laws hcl
    have hok : ∃ e p, d.opened id = some (e, p) ∧ d₁ = { d with
        toOpenFiles := d.close id
        names := Function.update d.names id none } := by
      rcases hcl₁ with ⟨-, hr, -⟩ | ⟨e, p, hopen, ⟨-, rfl⟩ | ⟨⟨code, hr⟩, -⟩⟩
      · cases hr
      · exact ⟨e, p, hopen, rfl⟩
      · cases hr
    obtain ⟨e₀, p₀, -, rfl⟩ := hok
    have hun : ∀ e, d.tree (parts path) = some e → UserFiles.Unused { d with
        toOpenFiles := d.close id
        names := Function.update d.names id none } e := by
      refine fun e htree => ⟨?_, h.dir_ne hno htree⟩
      rintro ⟨i, x, hi, rfl⟩
      obtain ⟨hne, hi⟩ := OpenFiles.opened_of_close hi
      exact hne (ht.once i id path (h.name_eq hname htree hi) hid')
    obtain ⟨d', hrem, hsh⟩ := h₁.removes laws hdot hun hst
    exact ⟨d', Or.inr ⟨id, hid', Or.inl ⟨_, hcl₁, hrem⟩⟩, hsh⟩
  · obtain ⟨d', hcl', hsh⟩ := h.closesFile ht laws hcl
    exact ⟨d', Or.inr ⟨id, (h.names_eq id).symm.trans hid, Or.inr ⟨code, hcl', rfl⟩⟩, hsh⟩

theorem deletesDir (h : v.Shows view n d) (ht : d.Tidy) (laws : api.KeepsFiles view) (hdot : Dotless path)
    (hname : v.DirNamed view path) (hno : v.NotFile view path) {a : Except ℕ Unit}
    (hst : v.Deletes api v.ids.dirNames (v.ClosesDir api) path a v') :
    ∃ d', d.DeletesDir d' path (a.map fun _ => .nothing) ∧ v'.Shows view n d' := by
  rcases hst with ⟨hnew, hst⟩ | ⟨id, hid, hst⟩
  · have hnew' := h.dirs_ne hnew
    have hun : ∀ e, d.tree (parts path) = some e → d.Unused e := by
      refine fun e htree => ⟨h.not_opens hno htree, ?_⟩
      rintro i x hx rfl
      exact hnew' i x.2 (by rw [hx, ← h.dirName_eq hname htree hx])
    obtain ⟨d', hrem, hsh⟩ := h.removes laws hdot hun hst
    exact ⟨d', Or.inl ⟨hnew', hrem⟩, hsh⟩
  · obtain ⟨dir, hd, hpath⟩ := Option.map_eq_some_iff.mp hid
    have hdd : d.dirs id = some (path, view.dirEntry dir.obj) := by
      rw [h.dir_some hd, hpath]
    rcases hst with ⟨v₁, hcl, hst⟩ | ⟨code, hcl, -⟩
    · obtain ⟨d₁, hcl₁, h₁⟩ := h.closesDir laws hcl
      rcases hcl₁ with ⟨hnone, -⟩ | ⟨-, -, rfl⟩
      · rw [hdd] at hnone
        cases hnone
      have hun : ∀ e, d.tree (parts path) = some e → (d.closeDir id).Unused e := by
        refine fun e htree => ⟨h.not_opens hno htree, ?_⟩
        rintro i x hx rfl
        rcases UserFiles.update_cases hx with ⟨-, hx⟩ | ⟨hne, hx⟩
        · cases hx
        · exact hne (ht.dirs_once i id _ x.2 _ (by rw [hx, ← h.dirName_eq hname htree hx]) hdd)
      obtain ⟨d', hrem, hsh⟩ := h₁.removes laws hdot hun hst
      exact ⟨d', Or.inr ⟨id, _, hdd, hrem⟩, hsh⟩
    · rcases hcl with ⟨hnone, -, -⟩ | ⟨-, -, hok, -⟩
      · rw [hnone] at hd
        cases hd
      · cases hok

/-! ### Calls -/

/-- **What a call may do** to what is in use, it may do to the files. -/
theorem allows (h : v.Shows view n d) (ht : d.Tidy) (laws : api.KeepsFiles view) (hn : n + 1 < 2 ^ 64)
    {c : StoreCall} (hsafe : c.Safe view v) {a : Except ℕ Reply} (hst : v.Allows api c a v') :
    ∃ d', d.Allows view.isDir d' a c ∧ v'.Shows view (n + 1) d' := by
  have hlater {P : UserFiles E → Prop} (hx : ∃ d', P d' ∧ v'.Shows view n d') :
      ∃ d', P d' ∧ v'.Shows view (n + 1) d' := by
    obtain ⟨d', hP, hsh⟩ := hx
    exact ⟨d', hP, hsh.later⟩
  have hbad {c : StoreCall} (hst : v.Answers (.error nxFatdriveErrUnknown) a v')
      (hc : d.Allows view.isDir d a c = (a = .error nxFatdriveErrUnknown ∧ d = d)) :
      ∃ d', d.Allows view.isDir d' a c ∧ v'.Shows view (n + 1) d' := by
    obtain ⟨rfl, rfl⟩ := hst
    exact ⟨d, hc ▸ ⟨rfl, rfl⟩, h.later⟩
  have hready := h.reflects.ready
  cases c with
  | openFile filepath =>
    cases filepath with
    | none => exact hbad hst rfl
    | some path =>
      obtain ⟨r, hst, rfl⟩ := hst
      exact h.opensFile laws hn hsafe.1 hsafe.2 hst
  | closeFile fileid =>
    obtain ⟨r, hst, rfl⟩ := hst
    obtain ⟨d', hcl, hsh⟩ := h.closesFile ht laws hst
    exact ⟨d', ⟨r, hcl, rfl⟩, hsh.later⟩
  | readFile fileid buffer =>
    refine hlater (h.onFile ht (fun fl hf => ?_) hst)
    exact (laws.read buffer.length hready hf).mono (fun data y hy => ⟨hy.1, Or.inl ⟨data, rfl, hy.2⟩⟩)
      fun e y hy => ⟨hy.1, fun code => Or.inr ⟨⟨code, rfl⟩, hy.2⟩⟩
  | writeFile fileid buffer =>
    refine hlater (h.onFile ht (fun fl hf => ?_) hst)
    exact (laws.write buffer hready hf).mono (fun k y hy => ⟨hy.1, Or.inl ⟨k, rfl, hy.2⟩⟩)
      fun e y hy => ⟨hy, fun code => Or.inr ⟨code, rfl⟩⟩
  | seekFile fileid pos whence =>
    simp only [FsInUse.Allows] at hst
    cases hsf : seekFromOf pos whence with
    | some sf =>
      rw [hsf] at hst
      refine hlater (h.onFile ht (fun fl hf => ?_) hst)
      exact (laws.seekTo sf hready hf).mono (fun k y hy => ⟨hy.1, Or.inl ⟨sf, k, hsf, rfl, hy.2⟩⟩)
        fun e y hy => ⟨hy.1, fun code => Or.inr ⟨⟨code, rfl⟩, hy.2⟩⟩
    | none =>
      rw [hsf] at hst
      exact hlater (h.refuses (fun x code => Or.inr ⟨⟨code, rfl⟩, rfl⟩) hst)
  | syncFile fileid =>
    refine hlater (h.onFile ht (fun fl hf => ?_) hst)
    exact (laws.sync hready hf).mono (fun u y hy => ⟨hy.1, Or.inl rfl, hy.2⟩)
      fun e y hy => ⟨hy.1, fun code => ⟨Or.inr ⟨code, rfl⟩, hy.2⟩⟩
  | truncateFile fileid size =>
    refine hlater (h.onFile ht (fun fl hf => ?_) hst)
    exact (laws.truncate hready hf).mono (fun u y hy => ⟨hy.1, Or.inl ⟨rfl, hy.2⟩⟩)
      fun e y hy => ⟨hy, fun code => Or.inr ⟨code, rfl⟩⟩
  | deleteFile filepath =>
    cases filepath with
    | none => exact hbad hst rfl
    | some path =>
      obtain ⟨r, hst, rfl⟩ := hst
      exact hlater (h.deletesFile ht laws hsafe.1 hsafe.2.1 hsafe.2.2 hst)
  | statFile fileid =>
    obtain ⟨r, hst, rfl⟩ := hst
    obtain ⟨hstats, hsh⟩ := h.statsId ht laws hst
    exact ⟨d, hstats, hsh.later⟩
  | statPath path =>
    cases path with
    | none => exact hbad hst rfl
    | some path =>
      obtain ⟨r, hst, rfl⟩ := hst
      obtain ⟨hstats, hsh⟩ := h.stats ht laws (hsafe path rfl) hst
      exact ⟨d, hstats, hsh.later⟩
  | openDir dirpath =>
    cases dirpath with
    | none => exact hbad hst rfl
    | some path =>
      obtain ⟨r, hst, rfl⟩ := hst
      exact h.opensDir laws hn (hsafe path rfl) hst
  | readDir dirid name namemax =>
    obtain ⟨hreads, hsh⟩ := h.readsDir ht laws hst
    exact ⟨d, hreads, hsh.later⟩
  | closeDir dirid =>
    obtain ⟨r, hst, rfl⟩ := hst
    exact hlater (h.closesDir laws hst)
  | createDir dirpath =>
    cases dirpath with
    | none => exact hbad hst rfl
    | some path =>
      obtain ⟨r, ⟨⟨id, hid⟩, rfl, rfl⟩ | ⟨-, hst⟩, rfl⟩ := hst
      · obtain ⟨dir, hdir, rfl⟩ := Option.map_eq_some_iff.mp hid
        exact ⟨d, Or.inl ⟨⟨id, _, h.dir_some hdir⟩, rfl, rfl⟩, h.later⟩
      · obtain ⟨d', hcr, hsh⟩ := h.creates ht (laws.createDir hready (hsafe path rfl)) hst
        exact ⟨d', Or.inr hcr, hsh.later⟩
  | deleteDir dirpath =>
    cases dirpath with
    | none => exact hbad hst rfl
    | some path =>
      obtain ⟨r, hst, rfl⟩ := hst
      exact hlater (h.deletesDir ht laws hsafe.1 hsafe.2.1 hsafe.2.2 hst)
  | createFile filepath =>
    cases filepath with
    | none => exact hbad hst rfl
    | some path =>
      obtain ⟨r, ⟨⟨id, hid⟩, rfl, rfl⟩ | ⟨-, hst⟩, rfl⟩ := hst
      · exact ⟨d, Or.inl ⟨⟨id, (h.names_eq id).symm.trans hid⟩, rfl, rfl⟩, h.later⟩
      · obtain ⟨d', hcr, hsh⟩ := h.creates ht (laws.createFile hready (hsafe path rfl)) hst
        exact ⟨d', Or.inr hcr, hsh.later⟩

end Deletes

end Shows

end FsInUse

/-! ### Steps of the service -/

/-- The call leaves the volume mounted, and is a safe one for what is in use. -/
def ApiCall.Safe (view : FilesView φ E F D) (v : FsInUse φ F D) : ApiCall U S σ φ → Prop
  | .store c => c.Safe view v
  | .exit logOpens => logOpens = false
  | _ => True

section Step

variable [DecidableEq E] {api : FatfsApi φ T F D} {view : FilesView φ E F D} {v : FsInUse φ F D}
  {d : UserFiles E} {n : ℕ}

/-- **One step of the service** is one of the files of the users. -/
theorem FsInUse.Shows.step (h : v.Shows view n d) (ht : d.Tidy) (laws : api.KeepsFiles view)
    (hn : n + 1 < 2 ^ 64) {ctx : UsbFsServiceContext U} {l : Globals.ApiLabel U S σ φ}
    {w' : Service U φ F D} (hsafe : l.1.Safe view v)
    (hst : Globals.ServiceStep api (some (ctx, v)) l w') :
    ∃ v' d', w' = some (ctx, v') ∧ d.Step view.isDir l d' ∧ d'.Tidy ∧ v'.Shows view (n + 1) d' := by
  have hsame {l : Globals.ApiLabel U S σ φ} (hl : ∀ c, l.1 ≠ .store c) :
      ∃ v' d', some (ctx, v) = some (ctx, v') ∧ d.Step view.isDir l d' ∧ d'.Tidy ∧
        v'.Shows view (n + 1) d' := ⟨v, d, rfl, Or.inr ⟨hl, rfl⟩, ht, h.later⟩
  cases hst with
  | up => exact hsame fun c hc => by cases hc
  | initUp _ su => exact hsame fun c hc => by cases hc
  | exit _ logOpens =>
    obtain rfl : logOpens = false := hsafe
    exact hsame fun c hc => by cases hc
  | isReady _ query => exact hsame fun c hc => by cases hc
  | deviceUpdate _ query => exact hsame fun c hc => by cases hc
  | deviceGetMountStatus _ query => exact hsame fun c hc => by cases hc
  | getMountStatus => exact hsame fun c hc => by cases hc
  | readRaw _ sector sectorcount => exact hsame fun c hc => by cases hc
  | deviceRegister => exact hsame fun c hc => by cases hc
  | sizes _ hsizes =>
    obtain ⟨r, hr, rfl⟩ := hsizes
    have hno : ∀ c, (ApiCall.statFilesystem : ApiCall U S σ φ) ≠ .store c := fun c hc => by cases hc
    rcases hr.cases (laws.stats h.reflects.ready) with ⟨i, fs, hsm, rfl, rfl⟩ | ⟨e, fs, hsm, rfl, rfl⟩
    · exact ⟨_, d, rfl, Or.inr ⟨hno, rfl⟩, ht, (h.same hsm).later⟩
    · exact ⟨_, d, rfl, Or.inr ⟨hno, rfl⟩, ht, (h.same hsm).later⟩
  | badPath _ hbad =>
    exact ⟨v, d, rfl, Or.inl ⟨_, _, rfl, UserFiles.allows_badPath hbad⟩, ht, h.later⟩
  | call _ hgood hall =>
    obtain ⟨d', hd', hsh⟩ := h.allows ht laws hn hsafe hall
    exact ⟨_, d', rfl, Or.inl ⟨_, _, rfl, hd'⟩, UserFiles.allows_tidy hd' hsafe.dotless ht, hsh⟩

end Step

/-! ### Runs -/

/-- What a freshly mounted volume is to its users. -/
def FilesView.fresh (view : FilesView φ E F D) (st : φ) : UserFiles E where
  bytes := view.stored st
  opened := fun _ => none
  tree := view.entry st
  names := fun _ => none
  dirs := fun _ => none

/-- Nothing has been opened on a volume that has just been mounted. -/
theorem FsInUse.shows_fresh {view : FilesView φ E F D} {fs : φ} (hr : view.Ready (fun _ => none) fs) :
    Shows view 0 ⟨fs, IdTable.blank⟩ (view.fresh fs) :=
  ⟨⟨hr, rfl, fun _ => rfl, fun _ => rfl, fun _ _ => rfl⟩, fun _ => rfl, fun _ => rfl,
    fun _ _ => ⟨rfl, rfl, rfl⟩, le_rfl⟩

theorem FilesView.tidy_fresh (view : FilesView φ E F D) (fs : φ) : (view.fresh fs).Tidy where
  exclusive := fun _ _ _ _ hi => by cases hi
  named := fun _ _ _ hi => by cases hi
  once := fun _ _ _ hi => by cases hi
  dotless := fun _ _ hi => by cases hi
  dirs_named := fun _ _ _ hi => by cases hi
  dirs_once := fun _ _ _ _ _ hi => by cases hi
  dirs_dotless := fun _ _ _ hi => by cases hi

namespace Globals

variable [DecidableEq E] {api : FatfsApi φ T F D} {view : FilesView φ E F D} {g g' : Globals U φ F D}
  {d : UserFiles E} {n : ℕ}

/-- The globals are the files of the users. -/
def SeenIn (view : FilesView φ E F D) (n : ℕ) (g : Globals U φ F D) (d : UserFiles E) : Prop :=
  ∃ ctx v, g.Implements (some (ctx, v)) ∧ v.Shows view n d ∧ d.Tidy

/-- The call is a safe one for what is in use. -/
def SafeIn (view : FilesView φ E F D) (g : Globals U φ F D) (c : ApiCall U S σ φ) : Prop :=
  ∀ v, g.HoldsUse v → c.Safe view v

/-- The call does not take the id out of use. -/
def HoldsIn (g : Globals U φ F D) (id : ℕ) (c : ApiCall U S σ φ) : Prop :=
  ∀ v, g.HoldsUse v → c.Holds v.ids.fileNames id

/-- **One call.** -/
theorem apiStep_seen (hapi : api.NoPanics) (laws : api.KeepsFiles view) (h : Healthy g)
    (hd : SeenIn view n g d) (hn : n + 1 < 2 ^ 64) {l : ApiLabel U S σ φ} (hsafe : SafeIn view g l.1)
    (hst : ApiStep api g l g') :
    ∃ d', d.Step view.isDir l d' ∧ Healthy g' ∧ SeenIn view (n + 1) g' d' := by
  obtain ⟨ctx, v, hv, hsh, ht⟩ := hd
  by_cases hc : NoPanicIn l.1
  · obtain ⟨w', hservice, hw'⟩ := service_step hapi h hv ⟨hc, hst⟩
    obtain ⟨v', d', rfl, hstep, ht', hsh'⟩ := hsh.step ht laws hn (hsafe v hv.2) hservice
    refine ⟨d', hstep, ?_, ctx, v', hw', hsh', ht'⟩
    obtain ⟨r, hr, -, rfl⟩ := hst
    exact (h.exec hapi hc hr).state (fun _ _ h => h) fun _ _ h => h
  · -- a set-up is turned away before it mounts anything
    obtain ⟨c, a⟩ := l
    cases c with
    | init su =>
      obtain ⟨r, hr, -, rfl⟩ := hst
      obtain ⟨x, hx, rfl⟩ := Option.map_eq_some_iff.mp hr
      rw [h.initialize_up hv.2.ne_zero] at hx
      cases hx
      exact ⟨d, Or.inr ⟨fun c hc => (by cases hc), rfl⟩, h, ctx, v, hv, hsh.later, ht⟩
    | _ => exact absurd trivial hc

/-- Runs from a state that has been seen already.  What the calls are allowed to be may depend on what
their callers see. -/
theorem run_seen (hapi : api.NoPanics) (laws : api.KeepsFiles view)
    {C : Globals U φ F D → ApiLabel U S σ φ → Prop} {A : UserFiles E → ApiLabel U S σ φ → Prop}
    (hC : ∀ {n g d l}, SeenIn view n g d → C g l → A d l) {ls : List (ApiLabel U S σ φ)}
    (hrun : Run (Guard (ApiStep api) fun g l => SafeIn view g l.1 ∧ C g l) g ls g') :
    ∀ {n d}, Healthy g → SeenIn view n g d → n + ls.length < 2 ^ 64 →
      ∃ d', Run (Guard (UserFiles.Step view.isDir) A) d ls d' ∧ Healthy g' ∧
        SeenIn view (n + ls.length) g' d' := by
  induction hrun with
  | nil g => exact fun h hd _ => ⟨_, .nil _, h, hd⟩
  | @cons g g₁ g' l ls hst _ ih =>
    intro n d h hd hlen
    rw [List.length_cons] at hlen
    obtain ⟨⟨hsafe, hc⟩, hst⟩ := hst
    obtain ⟨d₁, hst', h₁, hd₁⟩ := apiStep_seen hapi laws h hd (by omega) hsafe hst
    obtain ⟨d', hrun', h', hd'⟩ := ih h₁ hd₁ (by omega)
    refine ⟨d', .cons ⟨hC hd hc, hst'⟩ hrun', h', ?_⟩
    rwa [List.length_cons, Nat.add_comm ls.length, ← Nat.add_assoc]

omit [DecidableEq E] in
/-- The state after a set-up that has succeeded. -/
theorem setUp_seen (hapi : api.NoPanics) {su : SetUp U S σ φ} {ctx : UsbFsServiceContext U} {fs : φ}
    {ls₀ : List (ApiLabel U S σ φ)} {g₀ : Globals U φ F D}
    (hpre : Run (Guard (ApiStep api) fun _ l => NoPanicIn l.1) initial ls₀ g₀)
    (hdown : g₀.idStorePtr.value = 0) (hconn : su.connect = some (.ok (ctx, fs) ()))
    (hinit : ApiStep api g₀ (.init su, some (.ok .nothing)) g) (hr : view.Ready (fun _ => none) fs) :
    Healthy g ∧ SeenIn view 0 g (view.fresh fs) := by
  have h₀ := (Healthy.run hapi hpre healthy_initial).1
  obtain ⟨r, hexec, -, rfl⟩ := hinit
  obtain ⟨x, hx, rfl⟩ := Option.map_eq_some_iff.mp hexec
  rw [(h₀.initialize_down hdown su).2.1 _ hconn] at hx
  cases hx
  exact ⟨h₀.setUp hdown ctx fs, ctx, _, h₀.implements_setUp ctx fs, FsInUse.shows_fresh hr,
    view.tidy_fresh fs⟩

/-- **The interface is a file system.**  Let a volume be mounted that is in order, and whose drive serves
every transfer.  Whatever is called until a tear-down, as long as paths have no links and what is open is
called by the name it was opened with, the calls with their answers are a run of a tree of files and
directories in which each id in use is a descriptor. -/
theorem run_files (hapi : api.NoPanics) (laws : api.KeepsFiles view) {su : SetUp U S σ φ}
    {ctx : UsbFsServiceContext U} {fs : φ} {ls₀ ls : List (ApiLabel U S σ φ)} {g₀ g' : Globals U φ F D}
    (hpre : Run (Guard (ApiStep api) fun _ l => NoPanicIn l.1) initial ls₀ g₀)
    (hdown : g₀.idStorePtr.value = 0) (hconn : su.connect = some (.ok (ctx, fs) ()))
    (hinit : ApiStep api g₀ (.init su, some (.ok .nothing)) g) (hin : view.inOrder fs fun _ => none)
    (hserved : view.served fs) (hrun : Run (Guard (ApiStep api) fun g l => SafeIn view g l.1) g ls g')
    (hlen : ls.length < 2 ^ 64) :
    ∃ d, Run (UserFiles.Step view.isDir) (view.fresh fs) ls d ∧ SeenIn view ls.length g' d := by
  obtain ⟨h, hd⟩ := setUp_seen hapi hpre hdown hconn hinit ⟨hin, hserved⟩
  have hall : Run (Guard (ApiStep api) fun g l => SafeIn view g l.1 ∧ True) g ls g' :=
    hrun.mono fun _ _ _ hst => ⟨⟨hst.1, trivial⟩, hst.2⟩
  obtain ⟨d, hrun', -, hd'⟩ := run_seen hapi laws (A := fun _ _ => True) (fun _ h => h) hall h hd (by omega)
  rw [Nat.zero_add] at hd'
  exact ⟨d, hrun'.mono fun _ _ _ hst => hst.2, hd'⟩

omit [DecidableEq E] in
/-- The descriptor of an id is what can be observed of its `File`. -/
theorem SeenIn.descriptor_eq (h : Healthy g) (hd : SeenIn view n g d) (id : ℕ) :
    d.descriptor? id = (g.fileAt? id).map view.descriptor := by
  obtain ⟨ctx, v, ⟨-, s, hs, hcur, hids⟩, hsh, -⟩ := hd
  rw [hsh.reflects.descriptor_eq id, ← hids.files id, fileAt?, hs, Option.bind_some]
  cases hl : s.fileHandleMap.lookup id with
  | none => rfl
  | some file =>
    have hcell : g.mounted.fileSystems.get? file.fs = some v.fs := by
      rw [(h.borrows s hs).files id file hl]
      exact hcur.cell
    rw [Option.bind_some, hcell]
    rfl

omit [DecidableEq E] in
theorem SeenIn.holds {id : ℕ} {c : ApiCall U S σ φ} (hd : SeenIn view n g d) (hc : HoldsIn g id c) :
    c.Holds d.names id := by
  obtain ⟨ctx, v, hv, hsh, -⟩ := hd
  rw [← funext hsh.names_eq]
  exact hc v hv.2

/-- **A descriptor is its user's alone.**  From any point of such a run, as long as an id is not taken out
of use, the calls on it with their answers are a run of its descriptor: no call on another id, and no
other file that is opened, closed, created or removed, can be seen through it. -/
theorem run_descriptor (hapi : api.NoPanics) (laws : api.KeepsFiles view) {su : SetUp U S σ φ}
    {ctx : UsbFsServiceContext U} {fs : φ} {ls₀ ls₁ ls₂ : List (ApiLabel U S σ φ)}
    {g₀ g₁ g₂ : Globals U φ F D} {id : ℕ} {x : F × φ}
    (hpre : Run (Guard (ApiStep api) fun _ l => NoPanicIn l.1) initial ls₀ g₀)
    (hdown : g₀.idStorePtr.value = 0) (hconn : su.connect = some (.ok (ctx, fs) ()))
    (hinit : ApiStep api g₀ (.init su, some (.ok .nothing)) g) (hin : view.inOrder fs fun _ => none)
    (hserved : view.served fs)
    (hrun₁ : Run (Guard (ApiStep api) fun g l => SafeIn view g l.1) g ls₁ g₁) (hx : g₁.fileAt? id = some x)
    (hrun₂ : Run (Guard (ApiStep api) fun g l => SafeIn view g l.1 ∧ HoldsIn g id l.1) g₁ ls₂ g₂)
    (hlen : ls₁.length + ls₂.length < 2 ^ 64) :
    ∃ y, g₂.fileAt? id = some y ∧ Run UserFiles.DescriptorStep (view.descriptor x)
      (ls₂.filter fun l => l.1.onId id) (view.descriptor y) := by
  obtain ⟨h, hd⟩ := setUp_seen hapi hpre hdown hconn hinit ⟨hin, hserved⟩
  have hall : Run (Guard (ApiStep api) fun g l => SafeIn view g l.1 ∧ True) g ls₁ g₁ :=
    hrun₁.mono fun _ _ _ hst => ⟨⟨hst.1, trivial⟩, hst.2⟩
  obtain ⟨d₁, -, h₁, hd₁⟩ := run_seen hapi laws (A := fun _ _ => True) (fun _ h => h) hall h hd (by omega)
  obtain ⟨d₂, hrun, h₂, hd₂⟩ := run_seen hapi laws (A := fun d l => l.1.Holds d.names id) SeenIn.holds
    hrun₂ h₁ hd₁ (by omega)
  have hdesc : d₁.descriptor? id = some (view.descriptor x) := by
    rw [hd₁.descriptor_eq h₁, hx]
    rfl
  obtain ⟨-, -, -, -, ht⟩ := hd₁
  obtain ⟨x', hrun', hx'⟩ := UserFiles.run_descriptor_of_files hrun ht.exclusive hdesc
  rw [hd₂.descriptor_eq h₂] at hx'
  obtain ⟨y, hy, rfl⟩ := Option.map_eq_some_iff.mp hx'
  exact ⟨y, hy, hrun'⟩

/-! ### Two files -/

theorem safeIn_openFile {g : Globals Unit ManyFiles PlacedFile Unit} {path : String}
    (files : List (Σ _ : ℕ, Handle PlacedFile))
    (hs : g.store?.map (fun s => s.fileHandleMap.entries) = some files) (hdot : Dotless path)
    (h : ∀ x ∈ files, parts path ≠ [x.2.obj.name]) :
    SafeIn ManyFiles.view g (.store (.openFile (some path)) : ApiCall Unit Unit Unit ManyFiles) := by
  rintro v ⟨s, hs', -, hids⟩
  rw [hs'] at hs
  obtain rfl := Option.some_inj.mp hs
  refine ⟨hdot, fun id f hf he => ?_⟩
  rw [← hids.files] at hf
  obtain ⟨file, hfile, rfl⟩ := Option.map_eq_some_iff.mp hf
  exact absurd (ManyFiles.entry_eq_some.mp he).1 (h ⟨id, file⟩ (AList.mem_lookup_iff.mp hfile))

def twoFiles : ManyFiles := ((⟨∅⟩ : ManyFiles).put ['a'] [1, 2]).put ['b'] [3]

theorem twoFiles_inOrder : ManyFiles.view.inOrder twoFiles fun _ => none := by
  refine ⟨fun n hn => ?_, fun _ _ hf => by cases hf⟩
  have hmem : n = ['b'] ∨ n = ['a'] ∨ n ∈ (∅ : AList fun _ : List Char => List UInt8) :=
    (AList.mem_insert _).mp hn |>.imp_right (AList.mem_insert _).mp
  rcases hmem with rfl | rfl | hn
  · decide
  · decide
  · exact absurd hn (AList.notMem_empty n)

def twoFilesUp : Globals Unit ManyFiles PlacedFile Unit :=
  initial.setUp ⟨(), sampleInterface.info⟩ twoFiles

def openCalls : List (ApiLabel Unit Unit Unit ManyFiles) :=
  [(.store (.openFile (some "a")), some (.ok (.id 0))), (.store (.openFile (some "b")), some (.ok (.id 1)))]

def useCalls : List (ApiLabel Unit Unit Unit ManyFiles) :=
  [(.store (.writeFile 1 [9]), some (.ok (.count 1))), (.store (.readFile 0 [0]), some (.ok (.data 1 [1]))),
    (.isInitialized, some (.ok .nothing)), (.store (.closeFile 1), some (.ok .nothing)),
    (.store (.readFile 1 [0]), some (.error nxFatdriveErrFileNotFound)),
    (.store (.statPath (some "b")), some (.ok (.stat 1 0x20))),
    (.store (.createFile (some "c")), some (.ok .nothing))]

theorem twoFilesUp_init : ApiStep ManyFiles.api initial
    (.init (sampleSetUp (.ok twoFiles ())), some (.ok .nothing)) twoFilesUp :=
  apiStep_init ((healthy_initial.initialize_down rfl _).2.1 _ (sampleSetUp_connect _))

theorem openCalls_run : ∃ g, Run (Guard (ApiStep ManyFiles.api) fun g l => SafeIn ManyFiles.view g l.1)
    twoFilesUp openCalls g ∧ g.fileAt? 0 = some (⟨['a'], 0⟩, twoFiles) ∧
      ∃ g', Run (Guard (ApiStep ManyFiles.api)
        fun g l => SafeIn ManyFiles.view g l.1 ∧ HoldsIn g 0 l.1) g useCalls g' := by
  have hno {c : StoreCall} (hc : c.path? = none) : ∀ p, c.path? = some p → Dotless p := by
    intro p hp
    rw [hc] at hp
    cases hp
  have hdot {c : StoreCall} (path : String) (hc : c.path? = some path) (hd : Dotless path) :
      ∀ p, c.path? = some p → Dotless p := by
    intro p hp
    rw [hc] at hp
    cases hp
    exact hd
  refine ⟨_, .cons ⟨safeIn_openFile [] rfl (by decide) (by simp), _, rfl, rfl, rfl⟩
    (.cons ⟨safeIn_openFile [⟨0, _⟩] rfl (by decide) (by decide), _, rfl, rfl, rfl⟩ (.nil _)), rfl, ?_⟩
  refine Run.exists_cons ⟨⟨fun _ _ => hno rfl, fun _ _ => trivial⟩, _, rfl, rfl, rfl⟩ ?_
  refine Run.exists_cons ⟨⟨fun _ _ => hno rfl, fun _ _ => trivial⟩, _, rfl, rfl, rfl⟩ ?_
  refine Run.exists_cons ⟨⟨fun _ _ => trivial, fun _ _ => trivial⟩, _, rfl, rfl, rfl⟩ ?_
  refine Run.exists_cons ⟨⟨fun _ _ => hno rfl, fun _ _ => Nat.one_ne_zero⟩, _, rfl, rfl, rfl⟩ ?_
  refine Run.exists_cons ⟨⟨fun _ _ => hno rfl, fun _ _ => trivial⟩, _, rfl, rfl, rfl⟩ ?_
  refine Run.exists_cons ⟨⟨fun _ _ => hdot "b" rfl (by decide), fun _ _ => trivial⟩, _, rfl, rfl, rfl⟩ ?_
  exact Run.exists_cons ⟨⟨fun _ _ => hdot "c" rfl (by decide), fun _ _ => trivial⟩, _, rfl, rfl, rfl⟩
    ⟨_, .nil _⟩

theorem run_files_two : ∃ (g : Globals Unit ManyFiles PlacedFile Unit) (d : UserFiles (Option (List Char))),
    Run (Guard (ApiStep ManyFiles.api) fun g l => SafeIn ManyFiles.view g l.1) twoFilesUp
        (openCalls ++ useCalls) g ∧
      Run (UserFiles.Step ManyFiles.view.isDir) (ManyFiles.view.fresh twoFiles) (openCalls ++ useCalls) d ∧
        SeenIn ManyFiles.view 9 g d := by
  obtain ⟨g₁, hrun₁, -, g₂, hrun₂⟩ := openCalls_run
  have hrun := hrun₁.append (hrun₂.mono fun _ _ _ hst => ⟨hst.1.1, hst.2⟩)
  obtain ⟨d, hd⟩ := run_files ManyFiles.api_noPanics ManyFiles.keepsFiles (.nil initial) rfl
    (sampleSetUp_connect twoFiles) twoFilesUp_init twoFiles_inOrder trivial hrun (by decide)
  exact ⟨g₂, d, hrun, hd⟩

theorem run_descriptor_two : ∃ (g : Globals Unit ManyFiles PlacedFile Unit) (y : PlacedFile × ManyFiles),
    g.fileAt? 0 = some y ∧ Run UserFiles.DescriptorStep ⟨[1, 2], 0⟩
      [((.store (.readFile 0 [0]), some (.ok (.data 1 [1]))) : ApiLabel Unit Unit Unit ManyFiles)]
      (ManyFiles.view.descriptor y) := by
  obtain ⟨g₁, hrun₁, hx, g₂, hrun₂⟩ := openCalls_run
  exact ⟨g₂, run_descriptor ManyFiles.api_noPanics ManyFiles.keepsFiles (.nil initial) rfl
    (sampleSetUp_connect twoFiles) twoFilesUp_init twoFiles_inOrder trivial hrun₁ hx hrun₂ (by decide)⟩

end Globals

end FatDrive
