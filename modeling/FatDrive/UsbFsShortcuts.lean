import FatDrive.StatPath
import FatDrive.UsbFsPaths

/-!
# FatDrive.UsbFsShortcuts — answers from the names of what is open

`usbFsCreateFile` and `usbFsCreateDir` succeed at once if something of that name is open, and
`stat_path` looks an entry up in an open directory of its parent's name.  `Named` is what makes these
answers right: every name, also one whose file has been closed, resolves to an entry of its kind.

* `named_kept`: the calls keep it, unless they remove an entry that a name still resolves to;
* `run_shortcuts_agree`: over runs from a fresh store;
* `outlived_names`: names that outlive their entries.
-/

namespace FatDrive

open Lib

variable {φ F D E : Type} {crate : FatfsCrate φ F D} {entry : φ → Path → Option E}
  {fileEntry : F → E} {dirEntry : D → E}

/-- Files and directories are told apart.  What a directory lists depends on its entry alone, and
does not change when a directory is opened or dropped. -/
structure ListsByEntry (crate : FatfsCrate φ F D) (entry : φ → Path → Option E)
    (fileEntry : F → E) (dirEntry : D → E) : Prop
    extends ResolvesPaths crate entry fileEntry dirEntry where
  kinds : ∀ f d, fileEntry f ≠ dirEntry d
  iter_congr : ∀ {v d d'}, dirEntry d = dirEntry d' → crate.iter v d = crate.iter v d'
  openDir_iter : ∀ v p, crate.iter (crate.openDir v p).state = crate.iter v
  dropDir_iter : ∀ v d, crate.iter (crate.dropDir v d) = crate.iter v

/-- What is created is there. -/
structure CreatesEntries (crate : FatfsCrate φ F D) (entry : φ → Path → Option E)
    (fileEntry : F → E) (dirEntry : D → E) : Prop
    extends ListsByEntry crate entry fileEntry dirEntry where
  createFile_ok : ∀ {v p f v'}, crate.createFile v p = .ok f v' →
    entry v' (components p) = some (fileEntry f)
  createDir_ok : ∀ {v p d v'}, crate.createDir v p = .ok d v' →
    entry v' (components p) = some (dirEntry d)

/-- The volume keeps to these laws. -/
theorem Volume.createsEntries : CreatesEntries volumeCrate (fun v k => v.entries.lookup k)
    (fun n => ⟨n, false⟩) fun n => ⟨n, true⟩ where
  root := fun v => v.root
  openFile_ok := openEntry_eq_ok
  openFile_entry := fun v path => by
    show (fun k => (v.openEntry path false).state.entries.lookup k) = _
    rw [openEntry_entries]
  openDir_ok := openEntry_eq_ok
  openDir_entry := fun v path => by
    show (fun k => (v.openEntry path true).state.entries.lookup k) = _
    rw [openEntry_entries]
  createFile_entry := createEntry_lookup
  createDir_entry := createEntry_lookup
  remove_ok := remove_eq_ok
  remove_entry := fun {v path} h => by
    show (fun k => (v.remove path).state.entries.lookup k) = _
    rw [remove_entries h]
  flush_entry := fun v _ =>
    attempt_state (P := fun v' => (fun k => v'.entries.lookup k) = fun k => v.entries.lookup k) rfl rfl
  dropFile_entry := fun _ _ => rfl
  dropDir_entry := fun _ _ => rfl
  kinds := fun f d h => by cases h
  createFile_ok := createEntry_eq_ok
  createDir_ok := createEntry_eq_ok
  iter_congr := fun {v d d'} h => by
    have hd : d = d' := congrArg VolEntry.ident h
    rw [hd]
  openDir_iter := fun v path => by
    funext n
    show Volume.list (v.openEntry path true).state n = Volume.list v n
    unfold Volume.list
    rw [openEntry_entries]
  dropDir_iter := fun _ _ => rfl

namespace IdStore

variable {s s' : IdStore F D} {w w' : Mounted φ}

/-- Every name resolves to an entry of its kind, and a directory's name has a handle of that entry. -/
structure Named (entry : φ → Path → Option E) (fileEntry : F → E) (dirEntry : D → E)
    (s : IdStore F D) (w : Mounted φ) : Prop where
  files : ∀ id path, s.fileNameMap.lookup id = some path →
    ∃ f, Resolves entry w path (fileEntry f)
  dirs : ∀ id path, s.dirNameMap.lookup id = some path →
    ∃ d, s.dirHandleMap.lookup id = some ⟨w.fsPtr.value, d⟩ ∧ Resolves entry w path (dirEntry d)

theorem named_new : Named entry fileEntry dirEntry (new : IdStore F D) w where
  files := fun id path h => by cases (AList.lookup_empty id).symm.trans h
  dirs := fun id path h => by cases (AList.lookup_empty id).symm.trans h

namespace Named

theorem moved (h : Named entry fileEntry dirEntry s w) (hw : w.Moved (Keeps entry) w') :
    Named entry fileEntry dirEntry s w' where
  files := fun id path hp => by
    obtain ⟨f, hr⟩ := h.files id path hp
    exact ⟨f, hr.moved hw⟩
  dirs := fun id path hp => by
    obtain ⟨d, hd, hr⟩ := h.dirs id path hp
    exact ⟨d, by rw [hw.fsPtr]; exact hd, hr.moved hw⟩

theorem insertFile (h : Named entry fileEntry dirEntry s w) {path : String} {fl : Handle F}
    (hr : Resolves entry w path (fileEntry fl.obj)) :
    Named entry fileEntry dirEntry (s.insertFile path fl).2 w where
  files := fun id name hn => by
    rcases lookup_insert_or hn with hn | ⟨-, rfl⟩
    · exact h.files id name hn
    · exact ⟨fl.obj, hr⟩
  dirs := h.dirs

theorem insertDir (h : Named entry fileEntry dirEntry s w) {path : String} {d : D}
    (hr : Resolves entry w path (dirEntry d)) :
    Named entry fileEntry dirEntry (s.insertDir path ⟨w.fsPtr.value, d⟩).2 w where
  files := h.files
  dirs := fun id name hn => by
    by_cases hid : id = s.nextId
    · subst hid
      cases (AList.lookup_insert s.dirNameMap).symm.trans hn
      exact ⟨d, AList.lookup_insert s.dirHandleMap, hr⟩
    · obtain ⟨d', hd, hr'⟩ := h.dirs id name ((AList.lookup_insert_ne hid).symm.trans hn)
      exact ⟨d', (AList.lookup_insert_ne hid).trans hd, hr'⟩

/-- A file's name may go, and its handle is not asked for. -/
theorem eraseFile (h : Named entry fileEntry dirEntry s w) (id : ℕ)
    (handles : AList fun _ : ℕ => Handle F) :
    Named entry fileEntry dirEntry
      { s with fileHandleMap := handles, fileNameMap := s.fileNameMap.erase id } w where
  files := fun id' path hp => h.files id' path (lookup_erase_iff.mp hp).2
  dirs := h.dirs

theorem eraseHandle (h : Named entry fileEntry dirEntry s w)
    (handles : AList fun _ : ℕ => Handle F) :
    Named entry fileEntry dirEntry { s with fileHandleMap := handles } w := ⟨h.files, h.dirs⟩

theorem eraseDir (h : Named entry fileEntry dirEntry s w) (id : ℕ) :
    Named entry fileEntry dirEntry
      { s with
        dirHandleMap := s.dirHandleMap.erase id
        dirNameMap := s.dirNameMap.erase id
        dirIterMap := s.dirIterMap.erase id } w where
  files := h.files
  dirs := fun id' path hp => by
    obtain ⟨hne, hp⟩ := lookup_erase_iff.mp hp
    obtain ⟨d, hd, hr⟩ := h.dirs id' path hp
    exact ⟨d, lookup_erase_iff.mpr ⟨hne, hd⟩, hr⟩

theorem openFile (hc : ResolvesPaths crate entry fileEntry dirEntry)
    (h : Named entry fileEntry dirEntry s w) (path : String) :
    Named entry fileEntry dirEntry (openFile crate s w path).state.1
      (openFile crate s w path).state.2 := by
  have hw := openFile_moved (s := s) (w := w) hc.within path
  rcases openFile_store crate s w path with hsame | ⟨st, fl, st', -, -, hst, hopen, hins⟩
  · rw [hsame]
    exact h.moved hw
  · have hr : Resolves entry w path (fileEntry fl) := ⟨st, hst, hc.openFile_ok hopen⟩
    rw [hins]
    exact (h.moved hw).insertFile (hr.moved hw)

theorem openDir (hc : ResolvesPaths crate entry fileEntry dirEntry)
    (h : Named entry fileEntry dirEntry s w) (path : String) :
    Named entry fileEntry dirEntry (openDir crate s w path).state.1
      (openDir crate s w path).state.2 := by
  have hw := openDir_moved (s := s) (w := w) hc.within path
  rcases openDir_store crate s w path with hsame | ⟨st, d, hst, hopen, hins⟩
  · rw [hsame]
    exact h.moved hw
  · rw [hins, ← hw.fsPtr]
    exact (h.moved hw).insertDir ((hopen.resolves hc hst).moved hw)

theorem closeFile (hc : ResolvesPaths crate entry fileEntry dirEntry)
    (h : Named entry fileEntry dirEntry s w) (id : ℕ) :
    Named entry fileEntry dirEntry (closeFile crate s w id).state.1
      (closeFile crate s w id).state.2 := by
  have hw := h.moved (closeFile_moved (s := s) (w := w) hc.within id)
  rcases closeFile_store crate s w id with hsame | hsame | hsame <;> rw [hsame]
  · exact hw
  · exact hw.eraseHandle _
  · exact hw.eraseFile id _

theorem closeDir (hc : ResolvesPaths crate entry fileEntry dirEntry)
    (h : Named entry fileEntry dirEntry s w) (id : ℕ) :
    Named entry fileEntry dirEntry (closeDir crate s w id).state.1
      (closeDir crate s w id).state.2 := by
  have hw := h.moved (closeDir_moved (s := s) (w := w) hc.within id)
  rcases closeDir_store crate s w id with hsame | hsame <;> rw [hsame]
  · exact hw
  · exact hw.eraseDir id

end Named

/-- No name, of a file or of a directory, resolves as this path does. -/
def NoNameAt (s : IdStore F D) (path : String) : Prop :=
  (∀ id name, s.fileNameMap.lookup id = some name → components name ≠ components path) ∧
    ∀ id name, s.dirNameMap.lookup id = some name → components name ≠ components path

/-- If the entry of the path is removed, no name is left that resolves as the path does. -/
def RemovesUnnamed (crate : FatfsCrate φ F D) (path : String) (x : IdStore F D × Mounted φ) : Prop :=
  (x.2.withFilesystem fun st => crate.remove st path).isOk = true → NoNameAt x.1 path

/-- **One removal.** -/
theorem Named.remove (hc : ResolvesPaths crate entry fileEntry dirEntry) {path : String}
    {x : IdStore F D × Mounted φ} (h : Named entry fileEntry dirEntry x.1 x.2)
    (hs : RemovesUnnamed crate path x) :
    Named entry fileEntry dirEntry x.1
      (x.2.withFilesystem fun st => crate.remove st path).state := by
  cases hok : (x.2.withFilesystem fun st => crate.remove st path).isOk with
  | false =>
    refine h.moved (Mounted.withFilesystem_failed hc.within.refl hok fun st hno => ?_)
    exact .of_eq (hc.remove_entry fun v' => hno () v')
  | true =>
    obtain ⟨hfile, hdir⟩ := hs hok
    obtain ⟨u, w', heq⟩ := Outcome.isOk_iff.mp hok
    obtain ⟨st, st', hfs, hst, hrem, rfl⟩ := Mounted.withFilesystem_eq_ok heq
    rw [hfs] at hst
    rw [heq, Outcome.state_ok, hfs]
    refine ⟨fun id name hn => ?_, fun id name hn => ?_⟩
    · obtain ⟨f, hr⟩ := h.files id name hn
      exact ⟨f, hr.removed hc hst hrem (hfile id name hn)⟩
    · obtain ⟨d, hd, hr⟩ := h.dirs id name hn
      exact ⟨d, hd, hr.removed hc hst hrem (hdir id name hn)⟩

/-- A store whose names resolve stays one. -/
theorem named_kept (hc : ResolvesPaths crate entry fileEntry dirEntry) :
    Globals.KeptByCalls crate (Keeps entry) (fun _ _ _ => True) (RemovesUnnamed crate)
      (Named entry fileEntry dirEntry) where
  moved := Named.moved
  openFile := fun {_ _ path} h _ => h.openFile hc path
  openDir := fun path h => h.openDir hc path
  closeFile := fun id h => h.closeFile hc id
  closeDir := fun id h => h.closeDir hc id
  remove := fun h hs => h.remove hc hs

/-! ### Looking up the parent -/

/-- A directory that lists the same gives the same answer. -/
theorem searchDir_congr {dir dir' : Handle D} {ent : List Char}
    (h : listing crate w dir = listing crate w' dir') :
    (searchDir crate w dir ent).result = (searchDir crate w' dir' ent).result := by
  unfold searchDir
  rw [h]
  cases listing crate w' dir' with
  | none => rfl
  | some l =>
    dsimp only
    cases findEntry ent l <;> rfl

/-- The parent, opened afresh: what it lists is what the directory of that name lists. -/
theorem openParent_eq_ok (hc : ListsByEntry crate entry fileEntry dirEntry)
    {parent : Option String} {h : Handle D} (ho : openParent crate w parent = .ok h w') :
    ∃ st, w.fileSystems.get? w.fsPtr.value = some st ∧
      entry st (components (parent.getD "")) = some (dirEntry h.obj) ∧
      listing crate w' h = some (crate.iter st h.obj) := by
  obtain ⟨x, w₁, hfs, hdrop⟩ := Outcome.andThen_eq_ok.mp ho
  obtain ⟨st, st', hptr, hst, hopen, rfl⟩ := Mounted.withFilesystem_eq_ok hfs
  cases hdrop
  rw [hptr] at hst
  have hiter : crate.iter st' = crate.iter st ∧
      entry st (components (parent.getD "")) = some (dirEntry h.obj) := by
    cases parent with
    | none =>
      injection hopen with hobj hsame
      rw [← hobj, hsame]
      exact ⟨rfl, hc.root st'⟩
    | some name =>
      dsimp only at hopen
      split at hopen
      · next hname =>
        injection hopen with hobj hsame
        rw [hname, ← hobj, hsame]
        exact ⟨rfl, hc.root st'⟩
      · have hkeep := hc.openDir_iter st name
        rw [hopen] at hkeep
        exact ⟨hkeep, hc.openDir_ok hopen⟩
  refine ⟨st, hst, hiter.2, ?_⟩
  have hset : (w.fileSystems.set h.fs st').get? h.fs = some st' := by
    rw [hptr]
    exact Heap.get?_set_self hst st'
  unfold listing Mounted.dropOn
  dsimp only
  rw [hset]
  dsimp only
  rw [Heap.get?_set_self hset, Option.map_some, hc.dropDir_iter, hiter.1]

/-- **An open parent** is as good as one opened afresh. -/
theorem Named.statPath_fresh (hc : ListsByEntry crate entry fileEntry dirEntry)
    (hn : Named entry fileEntry dirEntry s w) {path : String} {h : Handle D}
    (ho : openParent crate w (parentName path) = .ok h w') :
    (statPath crate s w path).result = (statPath crate new w path).result := by
  have hnone : ∀ q : Option String, q.bind (new : IdStore F D).hasDir = none := by
    intro q
    cases q <;> rfl
  have hfresh : (statPath crate (new : IdStore F D) w path).result =
      (searchDir crate w' h (entName path)).result := by
    unfold statPath findParent
    rw [hnone]
    dsimp only
    rw [ho]
    rfl
  rw [hfresh]
  unfold statPath findParent
  cases hfound : (parentName path).bind s.hasDir with
  | none =>
    dsimp only
    rw [ho]
    rfl
  | some id =>
    obtain ⟨name, hname, hid⟩ := Option.bind_eq_some_iff.mp hfound
    obtain ⟨d, hd, st, hst, hent⟩ := hn.dirs id name (lookup_of_findKey? hid)
    obtain ⟨st₁, hst₁, hent₁, hlist⟩ := openParent_eq_ok hc ho
    cases hst.symm.trans hst₁
    rw [hname, Option.getD_some] at hent₁
    have heq : dirEntry d = dirEntry h.obj := Option.some_inj.mp (hent.symm.trans hent₁)
    dsimp only
    rw [hd]
    refine searchDir_congr ?_
    rw [hlist]
    unfold listing
    rw [hst, Option.map_some, hc.iter_congr heq]

end IdStore

namespace Globals

open IdStore

variable {U : Type} {g g' g₀ : Globals U φ F D}

/-- A removal leaves no name that resolved to what is removed, once what has the name of the path
is closed. -/
def FileCall.LeavesNoName (crate : FatfsCrate φ F D) (g : Globals U φ F D) (c : FileCall) : Prop :=
  c.Under crate (fun _ _ _ => True) (RemovesUnnamed crate) g

/-- A successful call that operates on the store. -/
theorem withPath_eq_ok {α : Type} {path : String}
    {f : String → IdStore F D → Mounted φ → Outcome ℕ (IdStore F D × Mounted φ) α} {a : α}
    (h : g.withPath (some path) f = .ok a g') :
    ∃ s x, g.store? = some s ∧ f path s g.mounted = .ok a x ∧ g'.mounted = x.2 := by
  obtain ⟨s, x, -, hs, hf, rfl⟩ := withIdStore_eq_ok h
  exact ⟨s, x, hs, hf, rfl⟩

/-- What is created on the root directory of the current file system, and dropped, is there. -/
theorem onRoot_created {α : Type} {toEntry : α → E} {s : IdStore F D} {w : Mounted φ} {path : String}
    {x : IdStore F D × Mounted φ} {create : φ → Outcome IoError φ α} {drop : φ → α → φ}
    (h : onRoot s w (fun st => (create st).andThen fun a st => .ok () (drop st a)) = .ok () x)
    (hcreate : ∀ {st a st'}, create st = .ok a st' →
      entry (drop st' a) (components path) = some (toEntry a)) :
    ∃ a, Resolves entry x.2 path (toEntry a) := by
  obtain ⟨hd, w', hfs, -, rfl⟩ := Outcome.bimap_eq_ok.mp h
  obtain ⟨st, st', hptr, hst, hf, rfl⟩ := Mounted.withFilesystem_eq_ok hfs
  obtain ⟨a, st₁, ha, hdrop⟩ := Outcome.andThen_eq_ok.mp hf
  cases hdrop
  rw [hptr] at hst
  refine ⟨a, drop st₁ a, ?_, hcreate ha⟩
  rw [hptr]
  exact Heap.get?_set_self hst _

/-- **A file that is created** is there. -/
theorem createFile_present (hc : CreatesEntries crate entry fileEntry dirEntry)
    (hn : OfStore (Named entry fileEntry dirEntry) g) {path : String}
    (h : usbFsCreateFile crate g (some path) = .ok () g') :
    ∃ f, Resolves entry g'.mounted path (fileEntry f) := by
  obtain ⟨s, x, hs, hf, hx⟩ := withPath_eq_ok h
  rw [hx]
  cases hfile : s.hasFile path with
  | some id =>
    rw [hfile] at hf
    cases hf
    exact (hn s hs).files id path (lookup_of_findKey? hfile)
  | none =>
    rw [hfile] at hf
    refine onRoot_created hf fun {st f st'} hcreate => ?_
    rw [hc.dropFile_entry]
    exact hc.createFile_ok hcreate

/-- **A directory that is created** is there. -/
theorem createDir_present (hc : CreatesEntries crate entry fileEntry dirEntry)
    (hn : OfStore (Named entry fileEntry dirEntry) g) {path : String}
    (h : usbFsCreateDir crate g (some path) = .ok () g') :
    ∃ d, Resolves entry g'.mounted path (dirEntry d) := by
  obtain ⟨s, x, hs, hf, hx⟩ := withPath_eq_ok h
  rw [hx]
  cases hdir : s.hasDir path with
  | some id =>
    rw [hdir] at hf
    cases hf
    obtain ⟨d, -, hr⟩ := (hn s hs).dirs id path (lookup_of_findKey? hdir)
    exact ⟨d, hr⟩
  | none =>
    rw [hdir] at hf
    refine onRoot_created hf fun {st d st'} hcreate => ?_
    rw [hc.dropDir_entry]
    exact hc.createDir_ok hcreate

/-- **Short cuts over runs.**  After any calls on a fresh store, whatever they return, none of which
removes an entry that a name still resolves to: a file or directory whose creation succeeds is there,
by whichever way; and `stat_path` answers as it would with no directory open, where it can open the
parent. -/
theorem run_shortcuts_agree (hc : CreatesEntries crate entry fileEntry dirEntry)
    (h₀ : ∀ s, g₀.store? = some s → s = .new) {cs : List FileCall}
    (hrun : Run (Guard (FileStep crate) fun g c => c.LeavesNoName crate g) g₀ cs g) :
    (∀ path g', usbFsCreateFile crate g (some path) = .ok () g' →
      ∃ f, Resolves entry g'.mounted path (fileEntry f)) ∧
    (∀ path g', usbFsCreateDir crate g (some path) = .ok () g' →
      ∃ d, Resolves entry g'.mounted path (dirEntry d)) ∧
    ∀ s path h w', g.store? = some s →
      openParent crate g.mounted (parentName path) = .ok h w' →
      (statPath crate s g.mounted path).result = (statPath crate .new g.mounted path).result := by
  have hn : OfStore (Named entry fileEntry dirEntry) g :=
    (named_kept hc.toResolvesPaths).run hc.within h₀ (fun w => named_new) hrun
  exact ⟨fun path g' => createFile_present hc hn, fun path g' => createDir_present hc hn,
    fun s path h w' hs => (hn s hs).statPath_fresh hc.toListsByEntry⟩

/-- The entries of the sample volume. -/
abbrev volEntry (v : Volume) (k : Path) : Option VolEntry := v.entries.lookup k

/-- A file is opened and deleted, and a directory is open; then a file is created. -/
theorem run_shortcuts_agree_deleting :
    ∃ f, Resolves volEntry
      (usbFsCreateFile volumeCrate ((FileCall.deleteFile (some "a")).next volumeCrate openSample)
        (some "a")).state.mounted "a" ⟨f, false⟩ := by
  have hnew : mountedSample.store? = some .new := Heap.get?_alloc_self _ _
  have hfresh : ∀ s, mountedSample.store? = some s → s = .new := fun s hs => by
    cases hnew.symm.trans hs
    rfl
  have hclosed : (openSample.store?.map fun s => (s.hasFile "a",
      (IdStore.closeFile volumeCrate s openSample.mounted 0).state.1.fileNameMap.keys,
      (IdStore.closeFile volumeCrate s openSample.mounted 0).state.1.dirNameMap.keys)) =
      some (some 0, [], []) := by decide +kernel
  have hdelete : (FileCall.deleteFile (some "a")).LeavesNoName volumeCrate openSample := by
    rintro path s hp - hs
    cases hp
    rw [hs, Option.map_some, Option.some_inj, Prod.mk.injEq, Prod.mk.injEq] at hclosed
    obtain ⟨hf, hfiles, hdirs⟩ := hclosed
    rw [hf]
    intro y hy _
    rw [hy] at hfiles hdirs
    have hempty : ∀ (t : AList fun _ : ℕ => String) id name, t.keys = [] → t.lookup id ≠ some name := by
      intro t id name hkeys hl
      have hmem : id ∈ t := AList.lookup_isSome.mp (Option.isSome_iff_exists.mpr ⟨name, hl⟩)
      rw [AList.mem_keys, hkeys] at hmem
      cases hmem
    exact ⟨fun id name hl => absurd hl (hempty _ id name hfiles),
      fun id name hl => absurd hl (hempty _ id name hdirs)⟩
  have hrun : Run (Guard (FileStep volumeCrate) fun g c => c.LeavesNoName volumeCrate g)
      mountedSample [.openFile (some "a"), .deleteFile (some "a")]
      ((FileCall.deleteFile (some "a")).next volumeCrate openSample) :=
    .cons ⟨fun _ _ _ _ _ => trivial, rfl⟩ (.cons ⟨hdelete, rfl⟩ (.nil _))
  have hok : (usbFsCreateFile volumeCrate
      ((FileCall.deleteFile (some "a")).next volumeCrate openSample) (some "a")).isOk = true := by
    decide +kernel
  obtain ⟨_, g', hcreate⟩ := Outcome.isOk_iff.mp hok
  have hthere := (run_shortcuts_agree Volume.createsEntries hfresh hrun).1 "a" g' hcreate
  rw [hcreate]
  exact hthere

/-- A file is open under the name `a`, a directory under the name `d`, and both are deleted under
other names. -/
def outlived : Globals Unit Volume ℕ ℕ :=
  (usbFsDeleteDir volumeCrate (usbFsDeleteFile volumeCrate
    (usbFsOpenDir volumeCrate openSample (some "d")).state (some "/a")).state (some "/d")).state

/-- **Names that outlive their entries.**  The file `a` is not created, since it is open; and the
directory `d` that is still open does not have `x`, where `d` itself cannot be opened. -/
theorem outlived_names :
    Run (FileStep volumeCrate) mountedSample [.openFile (some "a"), .openDir (some "d"),
      .deleteFile (some "/a"), .deleteDir (some "/d")] outlived ∧
    (usbFsCreateFile volumeCrate outlived (some "a")).result = some (.ok ()) ∧
    (¬ ∃ f, Resolves volEntry (usbFsCreateFile volumeCrate outlived (some "a")).state.mounted "a"
      ⟨f, false⟩) ∧
    (outlived.store?.map fun s => (statPath volumeCrate s outlived.mounted "d/x").result) =
      some (some (.error nxFatdriveErrFileNotFound)) ∧
    (statPath volumeCrate new outlived.mounted "d/x").result =
      some (.error (LibnxErrMapper.map (⟨.notFound, none⟩ : IoError))) := by
  have hgone : ((usbFsCreateFile volumeCrate outlived (some "a")).state.mounted.fileSystems.get? 1).map
      (fun v => v.entries.lookup (components "a")) = some none := by decide +kernel
  have hptr : (usbFsCreateFile volumeCrate outlived (some "a")).state.mounted.fsPtr.value = 1 := by
    decide +kernel
  have hrun : Run (FileStep volumeCrate) mountedSample [.openFile (some "a"), .openDir (some "d"),
      .deleteFile (some "/a"), .deleteDir (some "/d")] outlived :=
    .cons rfl (.cons rfl (.cons rfl (.cons rfl (.nil _))))
  refine ⟨hrun, by decide +kernel, ?_, by decide +kernel, by decide +kernel⟩
  rintro ⟨f, st, hst, hent⟩
  rw [hptr] at hst
  rw [hst] at hgone
  cases (Option.some_inj.mp hgone).symm.trans hent

end Globals

end FatDrive
