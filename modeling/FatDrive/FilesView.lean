import FatDrive.UserFiles

/-!
# FatDrive.FilesView — what the crate promises of the files of a volume

A `FilesView` is what can be observed of a volume, with the `File`s and `Dir`s that are open on it, and
`KeepsFiles` what the crate promises in these terms, so long as no file is opened twice and no transfer
fails.

* `Reflects`: a volume with its open `File`s is what the users see;
* `Reflects.operate`, `opening`, `closing`, `add`, `without`: … and stays so under the crate's operations;
* `ManyFiles.keepsFiles`: a volume with files in its root directory, as the crate promises it.
-/

namespace FatDrive

open Lib

variable {φ E F D : Type}

/-! ### What the crate promises -/

/-- What can be observed of a volume, and of the `File`s and `Dir`s on it. -/
structure FilesView (φ E F D : Type) where
  /-- What is found at these names, as they are spelled; nothing, where one of them is a link. -/
  entry : φ → Path → Option E
  isDir : E → Bool
  fileEntry : F → E
  dirEntry : D → E
  /-- What the next `File` of an entry finds. -/
  stored : φ → E → List UInt8
  descriptor : F × φ → Descriptor UInt8
  /-- The volume is in order, with these `File`s open on it. -/
  inOrder : φ → (ℕ → Option F) → Prop
  /-- Every transfer that the drive is asked for succeeds, now and later. -/
  served : φ → Prop

namespace FilesView

variable (view : FilesView φ E F D) (files : ℕ → Option F)

structure Ready (st : φ) : Prop where
  inOrder : view.inOrder st files
  served : view.served st

/-- Nothing can be seen to have changed but the `File`s of these ids and the contents of these entries. -/
structure Leaves (ids : Set ℕ) (es : Set E) (st st' : φ) : Prop where
  descriptor : ∀ id f, files id = some f → id ∉ ids →
    view.descriptor (f, st') = view.descriptor (f, st)
  stored : ∀ e, e ∉ es → view.stored st' e = view.stored st e

/-- Nothing can be seen to have changed. -/
structure Same (st st' : φ) : Prop extends view.Leaves files ∅ ∅ st st' where
  ready : view.Ready files st'
  entry : view.entry st' = view.entry st

/-- An operation on the `File` of an id, which has left it so. -/
structure Operates (id : ℕ) (x y : F × φ) : Prop
    extends view.Leaves files {id} {view.fileEntry x.1} x.2 y.2 where
  ready : view.Ready (Function.update files id (some y.1)) y.2
  entry : view.entry y.2 = view.entry x.2
  fileEntry : view.fileEntry y.1 = view.fileEntry x.1

/-- A `File` has been opened; if no other is of its entry, the volume stays in order. -/
structure OpensOn (id : ℕ) (path : String) (st : φ) (x : F × φ) : Prop
    extends view.Leaves files ∅ ∅ st x.2 where
  ready : (∀ id' f, files id' = some f → view.fileEntry f ≠ view.fileEntry x.1) →
    view.Ready (Function.update files id (some x.1)) x.2
  entry : view.entry x.2 = view.entry st
  resolved : view.entry st (parts path) = some (view.fileEntry x.1)
  isFile : view.isDir (view.fileEntry x.1) = false
  descriptor_eq : view.descriptor x = ⟨view.stored st (view.fileEntry x.1), 0⟩

/-- The `File` of an id has been dropped. -/
structure Closes (id : ℕ) (x : F × φ) (st' : φ) : Prop
    extends view.Leaves files {id} {view.fileEntry x.1} x.2 st' where
  ready : view.Ready (Function.update files id none) st'
  entry : view.entry st' = view.entry x.2

/-- There is a new entry with nothing in it, which is found where nothing was. -/
structure Adds (path : String) (e : E) (st st' : φ) : Prop extends view.Leaves files ∅ {e} st st' where
  ready : view.Ready files st'
  fresh : ∀ k, view.entry st k ≠ some e
  found : view.entry st' (parts path) = some e
  only : ∀ k, view.entry st' k ≠ view.entry st k → view.entry st k = none ∧ view.entry st' k = some e
  empty : view.stored st' e = []

/-- An entry is found nowhere any more. -/
structure Removes (path : String) (e : E) (st st' : φ) : Prop extends view.Leaves files ∅ {e} st st' where
  ready : view.Ready files st'
  found : view.entry st (parts path) = some e
  gone : ∀ k, view.entry st k = some e → view.entry st' k = none
  kept : ∀ k, view.entry st k ≠ some e → view.entry st' k = view.entry st k

/-- What a directory lists that is found at `k`: an entry right below it, or one of its links. -/
structure Lists (st : φ) (k : Path) (r : DirEntry) : Prop where
  name_ne : r.fileName.toList ≠ []
  name_slash : '/' ∉ r.fileName.toList
  attributes : r.attributes.testBit 4 = !r.isFile
  entry : ¬ IsDots r.fileName.toList → ∃ e, view.entry st (k ++ [r.fileName.toList]) = some e ∧
    view.isDir e = !r.isFile ∧ (r.isFile = true →
      (∀ id f, files id = some f → view.fileEntry f ≠ e) → r.len = (view.stored st e).length)

end FilesView

/-- On a volume that is in order, and whose transfers succeed, an operation on one `File` leaves all
others alone, an operation that fails at reading or seeking leaves its own `File` as it was, what a flush
has stored is what the next `File` finds, and one entry at most is made or removed.  Paths with links are
left out, and a `File` that is opened or an entry that is removed is that of no other `File`. -/
structure FatfsApi.KeepsFiles {φ T F D E : Type} (api : FatfsApi φ T F D) (view : FilesView φ E F D) :
    Prop where
  rootDir : ∀ {st files}, view.Ready files st →
    view.entry st [] = some (view.dirEntry (api.dirs.rootDir st)) ∧
      view.isDir (view.dirEntry (api.dirs.rootDir st)) = true
  openFile : ∀ {st files id path}, view.Ready files st → files id = none → Dotless path →
    (api.dirs.openFile st path).Returns (fun f st' => view.OpensOn files id path st (f, st'))
      fun _ st' => view.Same files st st'
  openDir : ∀ {st files path}, view.Ready files st → Dotless path →
    (api.dirs.openDir st path).Returns
      (fun dir st' => view.Same files st st' ∧ view.entry st (parts path) = some (view.dirEntry dir) ∧
        view.isDir (view.dirEntry dir) = true)
      fun _ st' => view.Same files st st'
  iter : ∀ {st files k dir r}, view.Ready files st → view.entry st k = some (view.dirEntry dir) →
    .ok r ∈ api.dirs.iter st dir → view.Lists files st k r
  dropDir : ∀ {st files} dir, view.Ready files st → view.Same files st (api.dirs.dropDir st dir)
  stats : ∀ {st files}, view.Ready files st →
    (api.stats st).Returns (fun _ st' => view.Same files st st') fun _ st' => view.Same files st st'
  read : ∀ {files id x} room, view.Ready files x.2 → files id = some x.1 →
    (api.files.read room x).Returns
      (fun data y => view.Operates files id x y ∧
        (view.descriptor x).Reads room data (view.descriptor y))
      fun _ y => view.Operates files id x y ∧ view.descriptor y = view.descriptor x
  write : ∀ {files id x} buff, view.Ready files x.2 → files id = some x.1 →
    (api.files.write buff x).Returns
      (fun n y => view.Operates files id x y ∧
        (view.descriptor x).Writes buff n (view.descriptor y))
      fun _ y => view.Operates files id x y
  seekTo : ∀ {files id x} sf, view.Ready files x.2 → files id = some x.1 →
    (api.files.seekTo sf x).Returns
      (fun n y => view.Operates files id x y ∧
        (view.descriptor x).Seeks (sf.target (view.descriptor x)) n (view.descriptor y))
      fun _ y => view.Operates files id x y ∧ view.descriptor y = view.descriptor x
  sync : ∀ {files id x}, view.Ready files x.2 → files id = some x.1 →
    (api.files.flush x).Returns
      (fun _ y => view.Operates files id x y ∧ view.descriptor y = view.descriptor x)
      fun _ y => view.Operates files id x y ∧ view.descriptor y = view.descriptor x
  truncate : ∀ {files id x}, view.Ready files x.2 → files id = some x.1 →
    (api.files.truncate x).Returns
      (fun _ y => view.Operates files id x y ∧ view.descriptor y = (view.descriptor x).cut)
      fun _ y => view.Operates files id x y
  close : ∀ {st files id f}, view.Ready files st → files id = some f →
    (api.dirs.flush st f).Returns
      (fun _ st' => view.Closes files id (f, st) (api.dirs.dropFile st' f) ∧
        view.stored (api.dirs.dropFile st' f) (view.fileEntry f) = (view.descriptor (f, st)).bytes)
      fun _ st' => view.Closes files id (f, st) (api.dirs.dropFile st' f)
  createFile : ∀ {st files path}, view.Ready files st → Dotless path →
    ((api.dirs.createFile st path).andThen fun f st => .ok () (api.dirs.dropFile st f)).Returns
      (fun _ st' => ∃ e, view.isDir e = false ∧ (view.entry st (parts path) = some e ∧
        view.Same files st st' ∨ view.Adds files path e st st'))
      fun _ st' => view.Same files st st'
  createDir : ∀ {st files path}, view.Ready files st → Dotless path →
    ((api.dirs.createDir st path).andThen fun dir st => .ok () (api.dirs.dropDir st dir)).Returns
      (fun _ st' => ∃ e, view.isDir e = true ∧ (view.entry st (parts path) = some e ∧
        view.Same files st st' ∨ view.Adds files path e st st'))
      fun _ st' => view.Same files st st'
  remove : ∀ {st files path}, view.Ready files st → Dotless path →
    (∀ id f, files id = some f → view.entry st (parts path) ≠ some (view.fileEntry f)) →
    (api.dirs.remove st path).Returns (fun _ st' => ∃ e, view.Removes files path e st st')
      fun _ st' => view.Same files st st'

/-! ### A volume and what the users see of it -/

section Reflects

variable {view : FilesView φ E F D} {files : ℕ → Option F} {st st' : φ} {d : UserFiles E} {id : ℕ} {f : F}

/-- The volume, with these `File`s open on it, is what the users see. -/
structure Reflects (view : FilesView φ E F D) (files : ℕ → Option F) (st : φ) (d : UserFiles E) : Prop where
  ready : view.Ready files st
  tree_eq : d.tree = view.entry st
  entry_eq : ∀ id, (d.opened id).map Prod.fst = (files id).map view.fileEntry
  descriptor_eq : ∀ id, d.descriptor? id = (files id).map fun f => view.descriptor (f, st)
  stored_eq : ∀ e, ¬ d.Opens e → d.bytes e = view.stored st e

namespace Reflects

theorem opened_eq_none (h : Reflects view files st d) : d.opened id = none ↔ files id = none := by
  have := h.entry_eq id
  cases ho : d.opened id with
  | none =>
    rw [ho] at this
    simp [Option.map_eq_none_iff.mp this.symm]
  | some x =>
    rw [ho] at this
    obtain ⟨f, hf, -⟩ := Option.map_eq_some_iff.mp this.symm
    simp [hf]

/-- The `File` of an id that is in use. -/
theorem opened_eq (h : Reflects view files st d) (hf : files id = some f) :
    d.opened id = some (view.fileEntry f, (view.descriptor (f, st)).cursor) ∧
      d.bytes (view.fileEntry f) = (view.descriptor (f, st)).bytes := by
  have he := h.entry_eq id
  have hd := h.descriptor_eq id
  rw [hf] at he hd
  obtain ⟨⟨e, p⟩, ho, rfl⟩ := Option.map_eq_some_iff.mp he
  rw [OpenFiles.descriptor?_of_opened ho] at hd
  have hx : ⟨d.bytes (view.fileEntry f), p⟩ = view.descriptor (f, st) := Option.some_inj.mp hd
  rw [ho, ← hx]
  exact ⟨rfl, rfl⟩

theorem opens_iff (h : Reflects view files st d) {e : E} :
    d.Opens e ↔ ∃ id f, files id = some f ∧ view.fileEntry f = e := by
  constructor
  · rintro ⟨id, x, ho, rfl⟩
    have := h.entry_eq id
    rw [ho] at this
    obtain ⟨f, hf, he⟩ := Option.map_eq_some_iff.mp this.symm
    exact ⟨id, f, hf, he⟩
  · rintro ⟨id, f, hf, rfl⟩
    exact ⟨id, _, (h.opened_eq hf).1, rfl⟩

/-- Only the contents of entries that are not open have changed, and where entries are found. -/
theorem restored (h : Reflects view files st d) {es : Set E} (hl : view.Leaves files ∅ es st st')
    (hr : view.Ready files st') {bytes : E → List UInt8} (hes : ∀ e ∈ es, ¬ d.Opens e)
    (hin : ∀ e ∈ es, bytes e = view.stored st' e) (hout : ∀ e, e ∉ es → bytes e = d.bytes e) :
    Reflects view files st' { d with bytes := bytes, tree := view.entry st' } where
  ready := hr
  tree_eq := rfl
  entry_eq := h.entry_eq
  descriptor_eq := fun id => by
    have hdesc := @UserFiles.descriptor_eq E d { d with bytes := bytes, tree := view.entry st' }
      rfl (fun e ho => hout e fun he => hes e he ho) id
    refine hdesc.trans ?_
    rw [h.descriptor_eq id]
    cases hf : files id with
    | none => rfl
    | some f => exact congrArg some (hl.descriptor id f hf (Set.notMem_empty id)).symm
  stored_eq := fun e he => by
    by_cases hmem : e ∈ es
    · exact hin e hmem
    · exact (hout e hmem).trans ((h.stored_eq e he).trans (hl.stored e hmem).symm)

/-- Nothing can be seen to have changed. -/
theorem same (h : Reflects view files st d) (hs : view.Same files st st') : Reflects view files st' d := by
  have hr : Reflects view files st' { d with bytes := d.bytes, tree := view.entry st' } :=
    h.restored hs.toLeaves hs.ready (fun e he => absurd he (Set.notMem_empty e))
      (fun e he => absurd he (Set.notMem_empty e)) fun _ _ => rfl
  rwa [hs.entry, ← h.tree_eq] at hr

variable [DecidableEq E]

/-- An operation on the `File` of an id is one on its descriptor. -/
theorem operate (h : Reflects view files st d) (hex : d.Exclusive) (hf : files id = some f) {y : F × φ}
    (ho : view.Operates files id (f, st) y) :
    Reflects view (Function.update files id (some y.1)) y.2
      { d with toOpenFiles := d.put id (view.fileEntry f) (view.descriptor y) } := by
  obtain ⟨hopen, -⟩ := h.opened_eq hf
  refine ⟨ho.ready, h.tree_eq.trans ho.entry.symm, fun id' => ?_, fun id' => ?_, fun e he => ?_⟩
  · by_cases hid : id' = id
    · subst hid
      simp [OpenFiles.put, ho.fileEntry]
    · simpa [OpenFiles.put, Function.update_of_ne hid] using h.entry_eq id'
  · by_cases hid : id' = id
    · subst hid
      simp
    · rw [OpenFiles.descriptor_put_of_ne hex hopen hid, h.descriptor_eq id', Function.update_of_ne hid]
      cases hf' : files id' with
      | none => rfl
      | some f' => exact congrArg some (ho.descriptor id' f' hf' hid).symm
  · have hne : e ≠ view.fileEntry f := by
      rintro rfl
      exact he ⟨id, _, Function.update_self .., rfl⟩
    have hnot : ¬ d.Opens e := by
      rintro ⟨id', x, hx, rfl⟩
      refine he ⟨id', x, ?_, rfl⟩
      have hid : id' ≠ id := by
        rintro rfl
        rw [hopen] at hx
        cases hx
        exact hne rfl
      exact (Function.update_of_ne hid ..).trans hx
    show Function.update d.bytes _ _ e = _
    rw [Function.update_of_ne hne, h.stored_eq e hnot]
    exact (ho.stored e hne).symm

omit [DecidableEq E] in
/-- A `File` is opened of an entry of which no other is. -/
theorem opening (h : Reflects view files st d) (hnone : files id = none) {path : String} {x : F × φ}
    (ho : view.OpensOn files id path st x) (hno : ¬ d.Opens (view.fileEntry x.1))
    (names : ℕ → Option String) :
    Reflects view (Function.update files id (some x.1)) x.2
      { d with toOpenFiles := d.openAt id (view.fileEntry x.1), names := names } := by
  have hfresh : ∀ id' f, files id' = some f → view.fileEntry f ≠ view.fileEntry x.1 :=
    fun id' f hf he => hno (h.opens_iff.mpr ⟨id', f, hf, he⟩)
  refine ⟨ho.ready hfresh, h.tree_eq.trans ho.entry.symm, fun id' => ?_, fun id' => ?_, fun e he => ?_⟩
  · by_cases hid : id' = id
    · subst hid
      simp [OpenFiles.openAt]
    · simpa [OpenFiles.openAt, Function.update_of_ne hid] using h.entry_eq id'
  · by_cases hid : id' = id
    · subst hid
      rw [OpenFiles.descriptor_openAt_self, Function.update_self, h.stored_eq _ hno]
      exact congrArg some ho.descriptor_eq.symm
    · rw [OpenFiles.descriptor_openAt_of_ne hid, h.descriptor_eq id', Function.update_of_ne hid]
      cases hf' : files id' with
      | none => rfl
      | some f' => exact congrArg some (ho.descriptor id' f' hf' (Set.notMem_empty id')).symm
  · have hnot : ¬ d.Opens e := by
      rintro ⟨id', y, hy, rfl⟩
      have hid : id' ≠ id := by
        rintro rfl
        rw [h.opened_eq_none.mpr hnone] at hy
        cases hy
      exact he ⟨id', y, (Function.update_of_ne hid ..).trans hy, rfl⟩
    exact (h.stored_eq e hnot).trans (ho.stored e (Set.notMem_empty e)).symm

/-- The `File` of an id is dropped; the contents of its entry are what has been stored. -/
theorem closing (h : Reflects view files st d) (hex : d.Exclusive) (hf : files id = some f)
    (hc : view.Closes files id (f, st) st') (names : ℕ → Option String) :
    Reflects view (Function.update files id none) st' { d with
      toOpenFiles := (d.toOpenFiles.close id).spoil (view.fileEntry f) (view.stored st' (view.fileEntry f))
      names := names } := by
  obtain ⟨hopen, -⟩ := h.opened_eq hf
  have hnot : ¬ (d.toOpenFiles.close id).Opens (view.fileEntry f) := hex.not_opens hopen
  refine ⟨hc.ready, h.tree_eq.trans hc.entry.symm, fun id' => ?_, fun id' => ?_, fun e he => ?_⟩
  · by_cases hid : id' = id
    · subst hid
      simp [OpenFiles.spoil, OpenFiles.close]
    · simpa [OpenFiles.spoil, OpenFiles.close, Function.update_of_ne hid] using h.entry_eq id'
  · rw [OpenFiles.descriptor_spoil hnot]
    by_cases hid : id' = id
    · subst hid
      simp [OpenFiles.descriptor?, OpenFiles.close]
    · rw [OpenFiles.descriptor_close_of_ne hid, h.descriptor_eq id', Function.update_of_ne hid]
      cases hf' : files id' with
      | none => rfl
      | some f' => exact congrArg some (hc.descriptor id' f' hf' hid).symm
  · show Function.update d.bytes _ _ e = _
    by_cases heq : e = view.fileEntry f
    · subst heq
      exact Function.update_self ..
    · have hstill : ¬ d.Opens e := by
        rintro ⟨id', x, hx, hxe⟩
        have hid : id' ≠ id := by
          rintro rfl
          rw [hopen] at hx
          cases hx
          exact heq hxe.symm
        exact he ⟨id', x, (Function.update_of_ne hid ..).trans hx, hxe⟩
      rw [Function.update_of_ne heq, h.stored_eq e hstill]
      exact (hc.stored e heq).symm

/-- A new entry. -/
theorem add (h : Reflects view files st d) {path : String} {e : E} (ha : view.Adds files path e st st')
    (hno : ¬ d.Opens e) : Reflects view files st' (d.add e (view.entry st')) := by
  refine h.restored ha.toLeaves ha.ready (fun e' he => ?_) (fun e' he => ?_) fun e' he => ?_
  · cases he
    exact hno
  · cases he
    rw [ha.empty]
    exact Function.update_self ..
  · exact Function.update_of_ne he ..

/-- One entry less. -/
theorem without (h : Reflects view files st d) {path : String} {e : E}
    (hr : view.Removes files path e st st') (hno : ¬ d.Opens e) :
    Reflects view files st' (d.without e (view.stored st' e)) := by
  have htree : (d.without e (view.stored st' e)).tree = view.entry st' := by
    funext k
    show (if d.tree k = some e then none else d.tree k) = _
    rw [h.tree_eq]
    split
    · next hk => exact (hr.gone k hk).symm
    · next hk => exact (hr.kept k hk).symm
  have hrest : Reflects view files st' { d with
      bytes := Function.update d.bytes e (view.stored st' e)
      tree := view.entry st' } := by
    refine h.restored hr.toLeaves hr.ready (fun e' he => ?_) (fun e' he => ?_) fun e' he => ?_
    · cases he
      exact hno
    · cases he
      exact Function.update_self ..
    · exact Function.update_of_ne he ..
  rw [← htree] at hrest
  exact hrest

end Reflects

end Reflects

/-! ### A volume with files in its root directory -/

/-- What is written is stored at once. -/
structure ManyFiles where
  contents : AList fun _ : List Char => List UInt8

structure PlacedFile where
  name : List Char
  pos : ℕ

namespace ManyFiles

def bytes (v : ManyFiles) (n : List Char) : List UInt8 := (v.contents.lookup n).getD []

def put (v : ManyFiles) (n : List Char) (l : List UInt8) : ManyFiles := ⟨v.contents.insert n l⟩

/-- The file that the names lead to. -/
def find (v : ManyFiles) : Path → Option (List Char)
  | [n] => if n ∈ v.contents then some n else none
  | _ => none

def seekTarget (target : ℤ) (s : PlacedFile × ManyFiles) : Outcome IoError (PlacedFile × ManyFiles) ℕ :=
  if 0 ≤ target then
    .ok (min target.toNat (s.2.bytes s.1.name).length)
      ({ s.1 with pos := min target.toNat (s.2.bytes s.1.name).length }, s.2)
  else .err ⟨.invalidInput, none⟩ s

/-- It has no directories but the root. -/
def dirs : FatfsCrate ManyFiles PlacedFile Unit where
  rootDir _ := ()
  openFile v path :=
    match v.find (parts path) with
    | some n => .ok ⟨n, 0⟩ v
    | none => .err ⟨.notFound, none⟩ v
  openDir v _ := .err ⟨.notFound, none⟩ v
  createFile v path :=
    match parts path with
    | [n] => .ok ⟨n, 0⟩ (if n ∈ v.contents then v else v.put n [])
    | _ => .err ⟨.notFound, none⟩ v
  createDir v _ := .err ⟨.other, none⟩ v
  remove v path :=
    match v.find (parts path) with
    | some n => .ok () ⟨v.contents.erase n⟩
    | none => .err ⟨.notFound, none⟩ v
  flush v _ := .ok () v
  dropFile v _ := v
  dropDir v _ := v
  iter v _ := v.contents.entries.map fun x => .ok ⟨String.ofList x.1, true, x.2.length, 0x20⟩

def files : FatfsFileOps ManyFiles (List Char) PlacedFile where
  toFile n := ⟨n, 0⟩
  seek p := seekTarget p
  read room s :=
    let data := ((s.2.bytes s.1.name).drop s.1.pos).take room
    .ok data ({ s.1 with pos := s.1.pos + data.length }, s.2)
  write buff s :=
    .ok buff.length ({ s.1 with pos := s.1.pos + buff.length },
      s.2.put s.1.name (splice (s.2.bytes s.1.name) s.1.pos buff))
  flush s := .ok () s
  drop s := s.2
  seekCurrent off s := seekTarget (s.1.pos + off) s
  seekEnd off s := seekTarget ((s.2.bytes s.1.name).length + off) s
  truncate s := .ok () (s.1, s.2.put s.1.name ((s.2.bytes s.1.name).take s.1.pos))
  rawOsError _ := none

def api : FatfsApi ManyFiles (List Char) PlacedFile Unit where
  dirs := dirs
  files := files
  stats v := .ok ⟨512, 4, 4⟩ v

/-- The root directory is the entry without a name. -/
def view : FilesView ManyFiles (Option (List Char)) PlacedFile Unit where
  entry v
    | [] => some none
    | k => (v.find k).map some
  isDir e := e.isNone
  fileEntry f := some f.name
  dirEntry _ := none
  stored v e := e.elim [] v.bytes
  descriptor x := ⟨x.2.bytes x.1.name, x.1.pos⟩
  inOrder v opened := (∀ n ∈ v.contents, n ≠ [] ∧ '/' ∉ n ∧ ¬ IsDots n) ∧
    ∀ id f, opened id = some f → f.name ∈ v.contents ∧
      ∀ id' f', opened id' = some f' → f'.name = f.name → id' = id
  served _ := True

variable {v v' : ManyFiles} {opened : ℕ → Option PlacedFile} {id : ℕ} {f : PlacedFile} {n : List Char}
  {k : Path}

theorem find_eq_some : v.find k = some n ↔ k = [n] ∧ n ∈ v.contents := by
  unfold find
  split
  · next m =>
    constructor
    · intro h
      obtain ⟨hm, he⟩ := Option.ite_none_right_eq_some.mp h
      cases he
      exact ⟨rfl, hm⟩
    · rintro ⟨h, hm⟩
      cases h
      exact if_pos hm
  · next hk => exact ⟨nofun, fun h => absurd h.1 (hk n)⟩

theorem entry_eq_some : view.entry v k = some (some n) ↔ k = [n] ∧ n ∈ v.contents := by
  cases k with
  | nil => exact ⟨nofun, nofun⟩
  | cons m k =>
    show (v.find (m :: k)).map some = some (some n) ↔ _
    rw [← find_eq_some]
    exact ⟨fun h => by simpa using h, fun h => by simp [h]⟩

theorem entry_eq_none : view.entry v k = some none ↔ k = [] := by
  cases k with
  | nil => exact ⟨fun _ => rfl, fun _ => rfl⟩
  | cons m k =>
    refine ⟨fun h => ?_, nofun⟩
    obtain ⟨n, -, hn⟩ := Option.map_eq_some_iff.mp h
    cases hn

/-- Entries are found alike where the same names are there. -/
theorem entry_congr (h : k = [] ∨ ∀ n, k = [n] → (n ∈ v'.contents ↔ n ∈ v.contents)) :
    view.entry v' k = view.entry v k := by
  refine Option.ext fun e => ?_
  cases e with
  | none => rw [entry_eq_none, entry_eq_none]
  | some n =>
    rw [entry_eq_some, entry_eq_some]
    rcases h with rfl | h
    · exact ⟨nofun, nofun⟩
    · exact ⟨fun ⟨hk, hm⟩ => ⟨hk, (h n hk).mp hm⟩, fun ⟨hk, hm⟩ => ⟨hk, (h n hk).mpr hm⟩⟩

theorem bytes_put_self (l : List UInt8) : (v.put n l).bytes n = l := by
  simp [bytes, put]

theorem bytes_put_of_ne {m : List Char} (h : m ≠ n) (l : List UInt8) : (v.put n l).bytes m = v.bytes m := by
  simp [bytes, put, AList.lookup_insert_ne h]

/-- An operation that stores something in its file at most, and moves. -/
theorem operates (h : view.Ready opened v) (hf : opened id = some f)
    (hmem : ∀ m, m ∈ v'.contents ↔ m ∈ v.contents) (hbytes : ∀ m, m ≠ f.name → v'.bytes m = v.bytes m)
    (p : ℕ) : view.Operates opened id (f, v) (⟨f.name, p⟩, v') where
  descriptor := fun id' f' hf' hne => by
    have hname : f'.name ≠ f.name := fun he => hne ((h.inOrder.2 id f hf).2 id' f' hf' he)
    show Descriptor.mk _ _ = Descriptor.mk _ _
    rw [hbytes _ hname]
  stored := fun e he => by
    cases e with
    | none => rfl
    | some m => exact hbytes m fun hm => he (congrArg some hm)
  ready := by
    have hold : ∀ {j g}, Function.update opened id (some ⟨f.name, p⟩) j = some g →
        ∃ f', opened j = some f' ∧ f'.name = g.name := by
      intro j g hj
      rcases UserFiles.update_cases hj with ⟨rfl, hg⟩ | ⟨-, hj⟩
      · cases hg
        exact ⟨f, hf, rfl⟩
      · exact ⟨g, hj, rfl⟩
    refine ⟨⟨fun m hm => h.inOrder.1 m ((hmem m).mp hm), fun i g hg => ?_⟩, trivial⟩
    obtain ⟨f₁, hf₁, hn₁⟩ := hold hg
    refine ⟨(hmem _).mpr (hn₁ ▸ (h.inOrder.2 i f₁ hf₁).1), fun j g' hg' hname => ?_⟩
    obtain ⟨f₂, hf₂, hn₂⟩ := hold hg'
    exact (h.inOrder.2 i f₁ hf₁).2 j f₂ hf₂ ((hn₂.trans hname).trans hn₁.symm)
  entry := funext fun k => entry_congr (Or.inr fun m _ => hmem m)
  fileEntry := rfl

theorem operates_moves (h : view.Ready opened v) (hf : opened id = some f) (p : ℕ) :
    view.Operates opened id (f, v) (⟨f.name, p⟩, v) :=
  operates h hf (fun _ => Iff.rfl) (fun _ _ => rfl) p

theorem operates_puts (h : view.Ready opened v) (hf : opened id = some f) (l : List UInt8) (p : ℕ) :
    view.Operates opened id (f, v) (⟨f.name, p⟩, v.put f.name l) := by
  refine operates h hf (fun m => ?_) (fun m hm => bytes_put_of_ne hm l) p
  refine (AList.mem_insert _).trans (or_iff_right_of_imp ?_)
  rintro rfl
  exact (h.inOrder.2 id f hf).1

theorem same (h : view.Ready opened v) : view.Same opened v v :=
  ⟨⟨fun _ _ _ _ => rfl, fun _ _ => rfl⟩, h, rfl⟩

/-- The one name of a path without links. -/
theorem name_of_parts {path : String} (hdot : Dotless path) (hk : parts path = [n]) :
    n ≠ [] ∧ '/' ∉ n ∧ ¬ IsDots n := by
  have hn : n ∈ parts path := by simp [hk]
  have hname : n = entName path := by
    have hne : parts path ≠ [] := by simp [hk]
    have hsplit : [] ++ [n] = parentParts path ++ [entName path] := (parts_eq hne) ▸ hk.symm
    exact List.singleton_injective (List.append_inj' hsplit rfl).2
  refine ⟨?_, hname ▸ slash_notMem_entName path, hdot n hn⟩
  rintro rfl
  simp [parts, pieces] at hn

/-- A new file. -/
theorem adds (h : view.Ready opened v) {path : String} (hdot : Dotless path) (hk : parts path = [n])
    (hno : n ∉ v.contents) : view.Adds opened path (some n) v (v.put n []) := by
  have hname : ∀ id f, opened id = some f → f.name ≠ n := by
    rintro id f hf rfl
    exact hno (h.inOrder.2 id f hf).1
  have hmem : ∀ {m}, m ∈ (v.put n []).contents ↔ m = n ∨ m ∈ v.contents := AList.mem_insert _
  refine ⟨⟨fun id f hf _ => ?_, fun e he => ?_⟩, ⟨⟨fun m hm => ?_, fun id f hf => ?_⟩, trivial⟩,
    fun k hk' => hno (entry_eq_some.mp hk').2, entry_eq_some.mpr ⟨hk, hmem.mpr (Or.inl rfl)⟩,
    fun k hne => ?_, bytes_put_self []⟩
  · show Descriptor.mk _ _ = Descriptor.mk _ _
    rw [bytes_put_of_ne (hname id f hf)]
  · cases e with
    | none => rfl
    | some m => exact bytes_put_of_ne (fun hm => he (congrArg some hm)) []
  · rcases hmem.mp hm with rfl | hm
    · exact name_of_parts hdot hk
    · exact h.inOrder.1 m hm
  · exact ⟨hmem.mpr (Or.inr (h.inOrder.2 id f hf).1), (h.inOrder.2 id f hf).2⟩
  · have hkn : k = [n] := by
      by_contra hkn
      refine hne (entry_congr (Or.inr fun m hm => hmem.trans (or_iff_right ?_)))
      rintro rfl
      exact hkn hm
    subst hkn
    refine ⟨Option.eq_none_iff_forall_ne_some.mpr fun e he => ?_,
      entry_eq_some.mpr ⟨rfl, hmem.mpr (Or.inl rfl)⟩⟩
    cases e with
    | none => cases entry_eq_none.mp he
    | some m =>
      obtain ⟨hm, hin⟩ := entry_eq_some.mp he
      cases hm
      exact hno hin

/-- One file less. -/
theorem removes (h : view.Ready opened v) {path : String} (hk : parts path = [n]) (hin : n ∈ v.contents)
    (hno : ∀ id f, opened id = some f → f.name ≠ n) :
    view.Removes opened path (some n) v ⟨v.contents.erase n⟩ := by
  have hbytes : ∀ {m}, m ≠ n → bytes ⟨v.contents.erase n⟩ m = v.bytes m := by
    intro m hm
    simp [bytes, AList.lookup_erase_ne hm]
  refine ⟨⟨fun id f hf _ => ?_, fun e he => ?_⟩, ⟨⟨fun m hm => ?_, fun id f hf => ?_⟩, trivial⟩,
    entry_eq_some.mpr ⟨hk, hin⟩, fun k hk' => ?_, fun k hk' => ?_⟩
  · show Descriptor.mk _ _ = Descriptor.mk _ _
    rw [hbytes (hno id f hf)]
  · cases e with
    | none => rfl
    | some m => exact hbytes fun hm => he (congrArg some hm)
  · exact h.inOrder.1 m (AList.mem_erase.mp hm).2
  · exact ⟨AList.mem_erase.mpr ⟨hno id f hf, (h.inOrder.2 id f hf).1⟩, (h.inOrder.2 id f hf).2⟩
  · obtain ⟨rfl, -⟩ := entry_eq_some.mp hk'
    refine Option.eq_none_iff_forall_ne_some.mpr fun e he => ?_
    cases e with
    | none => cases entry_eq_none.mp he
    | some m =>
      obtain ⟨hm, hmem⟩ := entry_eq_some.mp he
      cases hm
      exact (AList.mem_erase.mp hmem).1 rfl
  · refine entry_congr (Or.inr fun m hm => AList.mem_erase.trans (and_iff_right_of_imp fun hmem hmn => ?_))
    exact hk' (entry_eq_some.mpr ⟨hmn ▸ hm, hin⟩)

/-- A `File` of a name of which no other is open. -/
theorem ready_open (h : view.Ready opened v) (hn : n ∈ v.contents)
    (hfresh : ∀ id' f, opened id' = some f → f.name ≠ n) :
    view.Ready (Function.update opened id (some ⟨n, 0⟩)) v := by
  refine ⟨⟨h.inOrder.1, fun i f hf => ?_⟩, trivial⟩
  rcases UserFiles.update_cases hf with ⟨rfl, hx⟩ | ⟨hi, hf⟩
  · cases hx
    refine ⟨hn, fun j g hg hname => ?_⟩
    rcases UserFiles.update_cases hg with ⟨rfl, -⟩ | ⟨-, hg⟩
    · rfl
    · exact absurd hname (hfresh j g hg)
  · refine ⟨(h.inOrder.2 i f hf).1, fun j g hg hname => ?_⟩
    rcases UserFiles.update_cases hg with ⟨-, hx⟩ | ⟨-, hg⟩
    · cases hx
      exact absurd hname.symm (hfresh i f hf)
    · exact (h.inOrder.2 i f hf).2 j g hg hname

theorem closes (h : view.Ready opened v) : view.Closes opened id (f, v) v where
  descriptor := fun _ _ _ _ => rfl
  stored := fun _ _ => rfl
  ready := by
    have hold : ∀ {i f}, Function.update opened id none i = some f → opened i = some f := by
      intro i f hf
      rcases UserFiles.update_cases hf with ⟨-, hx⟩ | ⟨-, hf⟩
      · cases hx
      · exact hf
    exact ⟨⟨h.inOrder.1, fun i f hf =>
      ⟨(h.inOrder.2 i f (hold hf)).1, fun j g hg => (h.inOrder.2 i f (hold hf)).2 j g (hold hg)⟩⟩, trivial⟩
  entry := rfl

theorem seekTarget_returns (h : view.Ready opened v) (hf : opened id = some f) (target : ℤ) :
    (seekTarget target (f, v)).Returns
      (fun n y => view.Operates opened id (f, v) y ∧
        (view.descriptor (f, v)).Seeks target n (view.descriptor y))
      fun _ y => view.Operates opened id (f, v) y ∧ view.descriptor y = view.descriptor (f, v) := by
  unfold seekTarget
  split
  · next h0 => exact ⟨operates_moves h hf _, h0, rfl, rfl, rfl⟩
  · exact ⟨operates_moves h hf f.pos, rfl⟩

theorem lists (h : view.Ready opened v) {r : DirEntry}
    (hr : (.ok r : Except IoError DirEntry) ∈ api.dirs.iter v ()) : view.Lists opened v [] r := by
  obtain ⟨⟨n, l⟩, hx, he⟩ := List.mem_map.mp hr
  cases he
  have hlook : v.contents.lookup n = some l := AList.mem_lookup_iff.mpr hx
  have hn : n ∈ v.contents := AList.lookup_isSome.mp (by simp [hlook])
  have hlist : (String.ofList n).toList = n := String.toList_ofList
  have hbit : (0x20 : ℕ).testBit 4 = false := by decide
  refine ⟨?_, ?_, hbit, fun _ => ⟨some n, ?_, rfl, fun _ _ => ?_⟩⟩
  · rw [hlist]
    exact (h.inOrder.1 n hn).1
  · rw [hlist]
    exact (h.inOrder.1 n hn).2.1
  · rw [hlist]
    exact entry_eq_some.mpr ⟨rfl, hn⟩
  · show l.length = ((v.contents.lookup n).getD []).length
    rw [hlook]
    rfl

theorem api_noPanics : api.NoPanics := by
  refine ⟨fun st path => ?_, ?_, fun st path => ?_, ?_, fun st path => ?_, ?_, ?_, ?_, fun sf x => ?_, ?_,
    ?_, ?_⟩
  · simp only [api, dirs]
    split <;> simp [Outcome.result]
  · simp [api, dirs, Outcome.result]
  · simp only [api, dirs]
    split <;> simp [Outcome.result]
  · simp [api, dirs, Outcome.result]
  · simp only [api, dirs]
    split <;> simp [Outcome.result]
  · simp [api, dirs, Outcome.result]
  · simp [api, files, Outcome.result]
  · simp [api, files, Outcome.result]
  · cases sf <;> simp only [api, files, FatfsFileOps.seekTo, seekTarget] <;> split <;>
      simp [Outcome.result]
  · simp [api, files, Outcome.result]
  · simp [api, files, Outcome.result]
  · simp [api, Outcome.result]

theorem keepsFiles : api.KeepsFiles view where
  rootDir _ := ⟨rfl, rfl⟩
  openFile {v opened id path} h hnone _ := by
    show Outcome.Returns _ _ (match v.find (parts path) with | some n => _ | none => _)
    cases hk : v.find (parts path) with
    | none => exact same h
    | some n =>
      obtain ⟨hp, hn⟩ := find_eq_some.mp hk
      refine ⟨⟨fun _ _ _ _ => rfl, fun _ _ => rfl⟩, fun hfresh => ?_, rfl,
        entry_eq_some.mpr ⟨hp, hn⟩, rfl, rfl⟩
      exact ready_open h hn fun id' f hf hname => hfresh id' f hf (congrArg some hname)
  openDir h _ := same h
  iter h hk hr := by
    rw [entry_eq_none.mp hk]
    exact lists h hr
  dropDir dir h := same h
  stats h := same h
  read {opened id x} room h hf := by
    refine ⟨operates_moves h hf _, List.length_take_le .., ?_, fun hnil => ?_, rfl, rfl⟩
    · have htake : ∀ l : List UInt8, l.take room = l.take (l.take room).length := fun l => by
        rw [List.length_take, List.take_eq_take_iff, Nat.min_assoc, Nat.min_self]
      exact htake _
    · have hlen := congrArg List.length hnil
      simp only [List.length_take, List.length_drop, List.length_nil] at hlen
      show room = 0 ∨ (x.2.bytes x.1.name).length ≤ x.1.pos
      omega
  write {opened id x} buff h hf := by
    refine ⟨operates_puts h hf _ _, le_rfl, ?_, rfl⟩
    rw [List.take_length]
    exact bytes_put_self _
  seekTo {opened id x} sf h hf := by
    cases sf with
    | start absr => exact seekTarget_returns h hf _
    | current off => exact seekTarget_returns h hf _
    | fromEnd off => exact seekTarget_returns h hf _
  sync {opened id x} h hf := ⟨operates_moves h hf x.1.pos, rfl⟩
  truncate {opened id x} h hf := by
    refine ⟨operates_puts h hf _ x.1.pos, ?_⟩
    show Descriptor.mk _ _ = Descriptor.mk _ _
    rw [bytes_put_self]
    rfl
  close h hf := ⟨closes h, rfl⟩
  createFile {v opened path} h hdot := by
    show Outcome.Returns _ _ (Outcome.andThen (match parts path with | [n] => _ | _ => _) _)
    split
    · next n hk =>
      refine ⟨some n, rfl, ?_⟩
      show _ ∧ view.Same opened v (if n ∈ v.contents then v else v.put n []) ∨ _
      split
      · next hn => exact Or.inl ⟨entry_eq_some.mpr ⟨hk, hn⟩, same h⟩
      · next hn => exact Or.inr (adds h hdot hk hn)
    · exact same h
  createDir h _ := same h
  remove {v opened path} h _ hno := by
    show Outcome.Returns _ _ (match v.find (parts path) with | some n => _ | none => _)
    cases hk : v.find (parts path) with
    | none => exact same h
    | some n =>
      obtain ⟨hp, hn⟩ := find_eq_some.mp hk
      refine ⟨some n, removes h hp hn fun id f hf hname => hno id f hf ?_⟩
      exact entry_eq_some.mpr ⟨hname ▸ hp, hname ▸ hn⟩

end ManyFiles

end FatDrive
