import FatDrive.DirectoryOps
import FatDrive.Lib.OpenFiles
import FatDrive.UsbFsService

/-!
# FatDrive.UserFiles — the files of a volume, as the users of the interface see them

`UserFiles` is a tree of entries with the contents of its files, and the ids under which files and
directories are open; `Allows` says what a call may return and make of it.

* `allows_steady`: a call on one id leaves the descriptors of all others;
* `allows_tidy`: what is open is where its name says, and a name is given to one id only;
* `run_descriptor_of_files`: what is done under one id is a run of one descriptor.
-/

namespace FatDrive

open Lib

variable {φ E : Type}

/-! ### What the users see -/

/-- Where a seek wants to go. -/
def SeekFrom.target (x : Descriptor UInt8) : SeekFrom → ℤ
  | .start absr => absr
  | .current off => x.cursor + off
  | .fromEnd off => x.bytes.length + off

/-- There is no link in the path, to the directory itself or to the one above. -/
def Dotless (path : String) : Prop := ∀ n ∈ parts path, ¬ IsDots n

instance : DecidablePred Dotless := fun path => inferInstanceAs (Decidable (∀ n ∈ parts path, ¬ IsDots n))

structure UserFiles (E : Type) extends OpenFiles ℕ E UInt8 where
  tree : Path → Option E
  /-- The names by which ids of files are known, also once a close has failed. -/
  names : ℕ → Option String
  /-- The directories that are open, with the names under which they were opened. -/
  dirs : ℕ → Option (String × E)

namespace UserFiles

/-- What a call does to the descriptor `x` of an id. -/
def DescriptorActs (x x' : Descriptor UInt8) (a : Except ℕ Reply) : StoreCall → Prop
  | .readFile _ buffer =>
    (∃ data, a = .ok (.data data.length (data ++ buffer.drop data.length)) ∧
      x.Reads buffer.length data x') ∨ (∃ code, a = .error code) ∧ x' = x
  | .writeFile _ buffer =>
    (∃ n, a = .ok (.count n) ∧ x.Writes buffer n x') ∨ ∃ code, a = .error code
  | .seekFile _ pos whence =>
    (∃ sf n, seekFromOf pos whence = some sf ∧ a = .ok (.count n) ∧ x.Seeks (sf.target x) n x') ∨
      (∃ code, a = .error code) ∧ x' = x
  | .syncFile _ => (a = .ok .nothing ∨ ∃ code, a = .error code) ∧ x' = x
  | .truncateFile _ _ => a = .ok .nothing ∧ x' = x.cut ∨ ∃ code, a = .error code
  | _ => x' = x

variable (isDir : E → Bool) (d d' : UserFiles E)

/-- The name of an id: a file comes before a directory. -/
def nameOf (id : ℕ) : Option String := (d.names id).orElse fun _ => (d.dirs id).map Prod.fst

/-- The entry is of this kind and, if it is a file that is not open, of this length. -/
def Describes (k : Path) (size : ℕ) (dir : Bool) : Prop :=
  ∃ e, d.tree k = some e ∧ isDir e = dir ∧ (dir = false → ¬ d.Opens e → size = (d.bytes e).length)

/-- `t` is the tree with a new entry, which is found by the path, and nowhere where another was. -/
structure Adds (path : String) (e : E) (t : Path → Option E) : Prop where
  closed : ¬ d.Opens e
  fresh : ∀ k, d.tree k ≠ some e
  found : t (parts path) = some e
  only : ∀ k, t k ≠ d.tree k → d.tree k = none ∧ t k = some e

/-- No file and no directory is open with this entry. -/
structure Unused (e : E) : Prop where
  file : ¬ d.Opens e
  dir : ∀ id x, d.dirs id = some x → x.2 ≠ e

def closeDir (id : ℕ) : UserFiles E := { d with dirs := Function.update d.dirs id none }

variable [DecidableEq E]

/-- A new entry, with nothing in it. -/
def add (e : E) (t : Path → Option E) : UserFiles E := { d with
  toOpenFiles := d.spoil e []
  tree := t }

/-- The entry is found nowhere any more. -/
def without (e : E) (bytes : List UInt8) : UserFiles E := { d with
  toOpenFiles := d.spoil e bytes
  tree := fun k => if d.tree k = some e then none else d.tree k }

/-- A call on an id: refused if the id is not in use, and otherwise one on its descriptor. -/
def OnId (id : ℕ) (a : Except ℕ Reply) (c : StoreCall) : Prop :=
  d.opened id = none ∧ a = .error nxFatdriveErrFileNotFound ∧ d' = d ∨
  ∃ e p x, d.opened id = some (e, p) ∧ DescriptorActs ⟨d.bytes e, p⟩ x a c ∧
    d' = { d with toOpenFiles := d.put id e x }

/-- The id is in use for nothing. -/
structure Free (id : ℕ) : Prop where
  opened : d.opened id = none
  names : d.names id = none
  dirs : d.dirs id = none

/-- A name that is known has its id; the file of another, which is not open, is opened under a new id. -/
def OpensFile (path : String) (a : Except ℕ Reply) : Prop :=
  (∃ id, d.names id = some path ∧ a = .ok (.id id) ∧ d' = d) ∨
  (∀ id, d.names id ≠ some path) ∧ ((∃ code, a = .error code) ∧ d' = d ∨
    ∃ id e, d.Free id ∧ d.tree (parts path) = some e ∧ isDir e = false ∧ ¬ d.Opens e ∧
      a = .ok (.id id) ∧ d' = { d with
        toOpenFiles := d.openAt id e
        names := Function.update d.names id (some path) })

def OpensDir (path : String) (a : Except ℕ Reply) : Prop :=
  (∃ id e, d.dirs id = some (path, e) ∧ a = .ok (.id id) ∧ d' = d) ∨
  (∀ id e, d.dirs id ≠ some (path, e)) ∧ ((∃ code, a = .error code) ∧ d' = d ∨
    ∃ id e, d.Free id ∧ d.tree (parts path) = some e ∧ isDir e = true ∧ a = .ok (.id id) ∧
      d' = { d with dirs := Function.update d.dirs id (some (path, e)) })

/-- The id is in use no more; if the volume fails, its name stays, and the contents of the file may be
anything. -/
def ClosesFile (id : ℕ) (a : Except ℕ Unit) : Prop :=
  d.opened id = none ∧ a = .error nxFatdriveErrFileNotFound ∧ d' = d ∨
  ∃ e p, d.opened id = some (e, p) ∧
    (a = .ok () ∧ d' = { d with
        toOpenFiles := d.close id
        names := Function.update d.names id none } ∨
      (∃ code, a = .error code) ∧
        ∃ bytes, d' = { d with toOpenFiles := (d.toOpenFiles.close id).spoil e bytes })

def ClosesDir (id : ℕ) (a : Except ℕ Reply) : Prop :=
  d.dirs id = none ∧ a = .error nxFatdriveErrFileNotFound ∧ d' = d ∨
  d.dirs id ≠ none ∧ a = .ok .nothing ∧ d' = d.closeDir id

/-- An entry of this kind is there.  If it was not, it is all that is new; a call that fails makes none. -/
def Creates (dir : Bool) (path : String) (a : Except ℕ Reply) : Prop :=
  (∃ code, a = .error code) ∧ d' = d ∨
  a = .ok .nothing ∧ ∃ e, isDir e = dir ∧
    (d.tree (parts path) = some e ∧ d' = d ∨ ∃ t, d.Adds path e t ∧ d' = d.add e t)

/-- The entry, which is not open, is there no more, and all others are; a call that fails removes none. -/
def Removes (path : String) (a : Except ℕ Reply) : Prop :=
  (∃ code, a = .error code) ∧ d' = d ∨
  a = .ok .nothing ∧ ∃ e bytes, d.tree (parts path) = some e ∧ d.Unused e ∧ d' = d.without e bytes

/-- A file that is known by the name is closed first; if that fails, nothing is removed. -/
def DeletesFile (path : String) (a : Except ℕ Reply) : Prop :=
  (∀ id, d.names id ≠ some path) ∧ d.Removes d' path a ∨
  ∃ id, d.names id = some path ∧ ((∃ d₁, d.ClosesFile d₁ id (.ok ()) ∧ d₁.Removes d' path a) ∨
    ∃ code, d.ClosesFile d' id (.error code) ∧ a = .error code)

def DeletesDir (path : String) (a : Except ℕ Reply) : Prop :=
  (∀ id e, d.dirs id ≠ some (path, e)) ∧ d.Removes d' path a ∨
  ∃ id e, d.dirs id = some (path, e) ∧ (d.closeDir id).Removes d' path a

/-- What is reported is an entry that is found by the path. -/
def Stats (path : String) (a : Except ℕ Reply) : Prop :=
  d' = d ∧ ((∃ code, a = .error code) ∨
    ∃ size mode, a = .ok (.stat size mode) ∧ d.Describes isDir (parts path) size (mode.testBit 4))

def StatsId (id : ℕ) (a : Except ℕ Reply) : Prop :=
  d.nameOf id = none ∧ a = .error nxFatdriveErrFileNotFound ∧ d' = d ∨
  ∃ path, d.nameOf id = some path ∧ d.Stats isDir d' path a

/-- What is listed in a directory is an entry right below it, or one of its links. -/
def Lists (k : Path) (ent : DirEntryData) : Prop :=
  IsDots ent.name.toList ∨ ∃ dir, ent.typeVal = (if dir then IdStore.dtDir else IdStore.dtReg) ∧
    d.Describes isDir (k ++ [ent.name.toList]) ent.size dir

/-- An entry of the directory is reported, or its end. -/
def ReadsDir (id : ℕ) (name : ℕ → UInt8) (namemax : ℕ) (a : Except ℕ Reply) : Prop :=
  d' = d ∧ (d.dirs id = none ∧ a = .error nxFatdriveErrFileNotFound ∨
    ∃ path e, d.dirs id = some (path, e) ∧ ((∃ code, a = .error code) ∨
      ∃ ent, a = .ok (entryReply name namemax ent) ∧ ∀ x, ent = some x → d.Lists isDir (parts path) x))

/-- What a call may return, and make of the files. -/
def Allows (a : Except ℕ Reply) : StoreCall → Prop
  | .openFile (some path) => d.OpensFile isDir d' path a
  | .closeFile id => ∃ r, d.ClosesFile d' id r ∧ a = r.map fun _ => .nothing
  | .readFile id buffer => d.OnId d' id a (.readFile id buffer)
  | .writeFile id buffer => d.OnId d' id a (.writeFile id buffer)
  | .seekFile id pos whence => d.OnId d' id a (.seekFile id pos whence)
  | .syncFile id => d.OnId d' id a (.syncFile id)
  | .truncateFile id size => d.OnId d' id a (.truncateFile id size)
  | .deleteFile (some path) => d.DeletesFile d' path a
  | .statFile id => d.StatsId isDir d' id a
  | .statPath (some path) => d.Stats isDir d' path a
  | .openDir (some path) => d.OpensDir isDir d' path a
  | .readDir id name namemax => d.ReadsDir isDir d' id name namemax a
  | .closeDir id => d.ClosesDir d' id a
  | .createDir (some path) =>
    (∃ id e, d.dirs id = some (path, e)) ∧ a = .ok .nothing ∧ d' = d ∨ d.Creates isDir d' true path a
  | .deleteDir (some path) => d.DeletesDir d' path a
  | .createFile (some path) =>
    (∃ id, d.names id = some path) ∧ a = .ok .nothing ∧ d' = d ∨ d.Creates isDir d' false path a
  | _ => a = .error nxFatdriveErrUnknown ∧ d' = d

end UserFiles

/-! ### Steps -/

namespace UserFiles

section Steps

variable {U S σ : Type} [DecidableEq E]

/-- One call, with its answer.  Those that are not under the mutex of the store leave the files alone. -/
def Step (isDir : E → Bool) (d : UserFiles E) (l : Globals.ApiLabel U S σ φ) (d' : UserFiles E) : Prop :=
  (∃ c a, l = (.store c, some a) ∧ d.Allows isDir d' a c) ∨ (∀ c, l.1 ≠ .store c) ∧ d' = d

omit [DecidableEq E] in
/-- One call on a descriptor. -/
def DescriptorStep (x : Descriptor UInt8) (l : Globals.ApiLabel U S σ φ) (x' : Descriptor UInt8) : Prop :=
  ∃ c a, l = (.store c, some a) ∧ DescriptorActs x x' a c

end Steps

end UserFiles

/-- The call is one on the descriptor of the id. -/
def StoreCall.onId (id : ℕ) : StoreCall → Bool
  | .readFile fileid _ => fileid = id
  | .writeFile fileid _ => fileid = id
  | .seekFile fileid _ _ => fileid = id
  | .syncFile fileid => fileid = id
  | .truncateFile fileid _ => fileid = id
  | _ => false

/-- The call does not take the id out of use. -/
def StoreCall.Holds (names : ℕ → Option String) (id : ℕ) : StoreCall → Prop
  | .closeFile fileid => fileid ≠ id
  | .deleteFile (some path) => names id ≠ some path
  | _ => True

namespace ApiCall

variable {U S σ : Type}

def onId (id : ℕ) : ApiCall U S σ φ → Bool
  | .store c => c.onId id
  | _ => false

def Holds (names : ℕ → Option String) (id : ℕ) : ApiCall U S σ φ → Prop
  | .store c => c.Holds names id
  | _ => True

end ApiCall

namespace UserFiles

section Steady

variable {U S σ : Type} [DecidableEq E] {isDir : E → Bool} {d d' : UserFiles E} {id : ℕ}

omit [DecidableEq E] in
/-- Where neither what is open nor what is in it has changed, no descriptor has. -/
theorem descriptor_eq (ho : d'.opened = d.opened) (hb : ∀ e, d.Opens e → d'.bytes e = d.bytes e) (id : ℕ) :
    d'.descriptor? id = d.descriptor? id := by
  show (d'.opened id).map _ = (d.opened id).map _
  rw [ho]
  cases hx : d.opened id with
  | none => rfl
  | some x => simp only [Option.map_some, hb x.1 ⟨id, x, hx, rfl⟩]

omit [DecidableEq E] in
theorem exclusive_of_opened (h : d.Exclusive) (ho : d'.opened = d.opened) : d'.Exclusive := by
  intro i j x y hi hj
  rw [ho] at hi hj
  exact h i j x y hi hj

theorem OnId.exclusive {a : Except ℕ Reply} {c : StoreCall} (hst : d.OnId d' id a c) (h : d.Exclusive) :
    d'.Exclusive := by
  rcases hst with ⟨-, -, rfl⟩ | ⟨e, p, x, hopen, -, rfl⟩
  · exact h
  · exact OpenFiles.Exclusive.put h hopen x

theorem OnId.descriptor_self {a : Except ℕ Reply} {c : StoreCall} (hst : d.OnId d' id a c)
    {x : Descriptor UInt8} (hx : d.descriptor? id = some x) :
    ∃ x', DescriptorActs x x' a c ∧ d'.descriptor? id = some x' := by
  rcases hst with ⟨hnone, -, -⟩ | ⟨e, p, x', hopen, hacts, rfl⟩
  · rw [OpenFiles.descriptor?_eq_none.mpr hnone] at hx
    cases hx
  · rw [OpenFiles.descriptor?_of_opened hopen] at hx
    cases hx
    exact ⟨x', hacts, OpenFiles.descriptor_put_self id e x'⟩

theorem OnId.descriptor_other {a : Except ℕ Reply} {c : StoreCall} (hst : d.OnId d' id a c)
    (h : d.Exclusive) {id' : ℕ} (hne : id' ≠ id) : d'.descriptor? id' = d.descriptor? id' := by
  rcases hst with ⟨-, -, rfl⟩ | ⟨e, p, x, hopen, -, rfl⟩
  · rfl
  · exact OpenFiles.descriptor_put_of_ne h hopen hne x

omit [DecidableEq E] in
theorem OpensFile.exclusive {path : String} {a : Except ℕ Reply} (hst : d.OpensFile isDir d' path a)
    (h : d.Exclusive) : d'.Exclusive := by
  rcases hst with ⟨id, -, -, rfl⟩ | ⟨-, ⟨-, rfl⟩ | ⟨id, e, -, -, -, hno, -, rfl⟩⟩
  · exact h
  · exact h
  · exact OpenFiles.Exclusive.openAt h id hno

omit [DecidableEq E] in
theorem OpensFile.descriptor_other {path : String} {a : Except ℕ Reply} (hst : d.OpensFile isDir d' path a)
    {x : Descriptor UInt8} (hx : d.descriptor? id = some x) : d'.descriptor? id = some x := by
  rcases hst with ⟨id', -, -, rfl⟩ | ⟨-, ⟨-, rfl⟩ | ⟨id', e, hfree, -, -, -, -, rfl⟩⟩
  · exact hx
  · exact hx
  · have hne : id ≠ id' := by
      rintro rfl
      rw [OpenFiles.descriptor?_eq_none.mpr hfree.opened] at hx
      cases hx
    exact (OpenFiles.descriptor_openAt_of_ne hne e).trans hx

theorem ClosesFile.exclusive {a : Except ℕ Unit} (hst : d.ClosesFile d' id a) (h : d.Exclusive) :
    d'.Exclusive := by
  rcases hst with ⟨-, -, rfl⟩ | ⟨e, p, -, ⟨-, rfl⟩ | ⟨-, bytes, rfl⟩⟩
  · exact h
  · exact OpenFiles.Exclusive.close h id
  · exact OpenFiles.Exclusive.close h id

theorem ClosesFile.descriptor_other {a : Except ℕ Unit} (hst : d.ClosesFile d' id a) (h : d.Exclusive)
    {id' : ℕ} (hne : id' ≠ id) : d'.descriptor? id' = d.descriptor? id' := by
  rcases hst with ⟨-, -, rfl⟩ | ⟨e, p, hopen, ⟨-, rfl⟩ | ⟨-, bytes, rfl⟩⟩
  · rfl
  · exact OpenFiles.descriptor_close_of_ne hne
  · rw [← OpenFiles.descriptor_close_of_ne (d := d.toOpenFiles) hne]
    exact OpenFiles.descriptor_spoil (OpenFiles.Exclusive.not_opens h hopen) bytes id'

/-- What a step leaves of the files that are open once, and of the descriptor of an id. -/
structure Steady (d d' : UserFiles E) (c : StoreCall) : Prop where
  exclusive : d'.Exclusive
  descriptor : ∀ id x, c.onId id = false → c.Holds d.names id → d.descriptor? id = some x →
    d'.descriptor? id = some x

omit [DecidableEq E] in
theorem steady_of_same {c : StoreCall} (h : d.Exclusive) (ho : d'.opened = d.opened)
    (hb : ∀ e, d.Opens e → d'.bytes e = d.bytes e) : d.Steady d' c :=
  ⟨exclusive_of_opened h ho, fun id _ _ _ hx => (descriptor_eq ho hb id).trans hx⟩

theorem OnId.steady {a : Except ℕ Reply} {c : StoreCall} (hst : d.OnId d' id a c) (h : d.Exclusive)
    (hc : ∀ i, c.onId i = decide (id = i)) : d.Steady d' c where
  exclusive := hst.exclusive h
  descriptor := fun i x hi _ hx => by
    rw [hc i] at hi
    exact (hst.descriptor_other h (Ne.symm (of_decide_eq_false hi))).trans hx

/-- A file that is not open is changed. -/
theorem bytes_spoil {e : E} (h : ¬ d.Opens e) (bytes : List UInt8) :
    ∀ e', d.Opens e' → (d.toOpenFiles.spoil e bytes).bytes e' = d.bytes e' := by
  intro e' ho
  refine Function.update_of_ne ?_ ..
  rintro rfl
  exact h ho

theorem Creates.steady {dir : Bool} {path : String} {a : Except ℕ Reply} {c : StoreCall}
    (hst : d.Creates isDir d' dir path a) (h : d.Exclusive) : d.Steady d' c := by
  rcases hst with ⟨-, rfl⟩ | ⟨-, e, -, ⟨-, rfl⟩ | ⟨t, hadds, rfl⟩⟩
  · exact steady_of_same h rfl fun _ _ => rfl
  · exact steady_of_same h rfl fun _ _ => rfl
  · exact steady_of_same h rfl (bytes_spoil hadds.closed [])

theorem Removes.steady {path : String} {a : Except ℕ Reply} {c : StoreCall} (hst : d.Removes d' path a)
    (h : d.Exclusive) : d.Steady d' c := by
  rcases hst with ⟨-, rfl⟩ | ⟨-, e, bytes, -, hun, rfl⟩
  · exact steady_of_same h rfl fun _ _ => rfl
  · exact steady_of_same h rfl (bytes_spoil hun.file bytes)

theorem DeletesFile.steady {path : String} {a : Except ℕ Reply} (hst : d.DeletesFile d' path a)
    (h : d.Exclusive) : d.Steady d' (.deleteFile (some path)) := by
  rcases hst with ⟨-, hrem⟩ | ⟨i, hname, ⟨d₁, hcl, hrem⟩ | ⟨code, hcl, -⟩⟩
  · exact hrem.steady h
  · have hsteady := hrem.steady (c := .syncFile i) (hcl.exclusive h)
    refine ⟨hsteady.exclusive, fun id x _ hh hx => ?_⟩
    have hne : id ≠ i := by
      rintro rfl
      exact hh hname
    refine hsteady.descriptor id x (decide_eq_false (Ne.symm hne)) trivial ?_
    exact (hcl.descriptor_other h hne).trans hx
  · refine ⟨hcl.exclusive h, fun id x _ hh hx => ?_⟩
    have hne : id ≠ i := by
      rintro rfl
      exact hh hname
    exact (hcl.descriptor_other h hne).trans hx

/-- A call that is given no text is refused. -/
theorem allows_badPath {c : StoreCall} (hc : c.badPath = true) :
    d.Allows isDir d (.error nxFatdriveErrUnknown) c := by
  cases c with
  | openFile path =>
    cases path with
    | none => exact ⟨rfl, rfl⟩
    | some path => cases hc
  | deleteFile path =>
    cases path with
    | none => exact ⟨rfl, rfl⟩
    | some path => cases hc
  | openDir path =>
    cases path with
    | none => exact ⟨rfl, rfl⟩
    | some path => cases hc
  | statPath path =>
    cases path with
    | none => exact ⟨rfl, rfl⟩
    | some path => cases hc
  | createDir path =>
    cases path with
    | none => exact ⟨rfl, rfl⟩
    | some path => cases hc
  | deleteDir path =>
    cases path with
    | none => exact ⟨rfl, rfl⟩
    | some path => cases hc
  | createFile path =>
    cases path with
    | none => exact ⟨rfl, rfl⟩
    | some path => cases hc
  | _ => cases hc

/-- **One step.**  No file is opened twice, and the descriptor of an id changes only by a call on it, as
long as the id is in use. -/
theorem allows_steady {a : Except ℕ Reply} {c : StoreCall} (hst : d.Allows isDir d' a c)
    (h : d.Exclusive) : d.Steady d' c := by
  have hsame (ho : d'.toOpenFiles = d.toOpenFiles) : d.Steady d' c :=
    steady_of_same h (congrArg OpenFiles.opened ho) fun e _ => congrFun (congrArg OpenFiles.bytes ho) e
  have hrefl (he : d' = d) : d.Steady d' c := hsame (congrArg toOpenFiles he)
  cases c with
  | openFile filepath =>
    cases filepath with
    | none => exact hrefl hst.2
    | some path => exact ⟨OpensFile.exclusive hst h, fun id x _ _ hx => OpensFile.descriptor_other hst hx⟩
  | closeFile fileid =>
    obtain ⟨r, hcl, -⟩ := hst
    exact ⟨hcl.exclusive h, fun id x _ hne hx => (hcl.descriptor_other h (Ne.symm hne)).trans hx⟩
  | readFile fileid buffer => exact OnId.steady hst h fun i => rfl
  | writeFile fileid buffer => exact OnId.steady hst h fun i => rfl
  | seekFile fileid pos whence => exact OnId.steady hst h fun i => rfl
  | syncFile fileid => exact OnId.steady hst h fun i => rfl
  | truncateFile fileid size => exact OnId.steady hst h fun i => rfl
  | deleteFile filepath =>
    cases filepath with
    | none => exact hrefl hst.2
    | some path => exact DeletesFile.steady hst h
  | statFile fileid =>
    rcases hst with ⟨-, -, he⟩ | ⟨path, -, he, -⟩
    · exact hrefl he
    · exact hrefl he
  | statPath path =>
    cases path with
    | none => exact hrefl hst.2
    | some path => exact hrefl hst.1
  | openDir dirpath =>
    cases dirpath with
    | none => exact hrefl hst.2
    | some path =>
      rcases hst with ⟨id, e, -, -, he⟩ | ⟨-, ⟨-, he⟩ | ⟨id, e, -, -, -, -, rfl⟩⟩
      · exact hrefl he
      · exact hrefl he
      · exact hsame rfl
  | readDir dirid name namemax => exact hrefl hst.1
  | closeDir dirid =>
    rcases hst with ⟨-, -, he⟩ | ⟨-, -, rfl⟩
    · exact hrefl he
    · exact hsame rfl
  | createDir dirpath =>
    cases dirpath with
    | none => exact hrefl hst.2
    | some path =>
      rcases hst with ⟨-, -, he⟩ | hst
      · exact hrefl he
      · exact hst.steady h
  | deleteDir dirpath =>
    cases dirpath with
    | none => exact hrefl hst.2
    | some path =>
      rcases hst with ⟨-, hst⟩ | ⟨id, e, -, hst⟩
      · exact hst.steady h
      · have hsteady := hst.steady (c := .deleteDir (some path)) (exclusive_of_opened h rfl)
        exact ⟨hsteady.exclusive, hsteady.descriptor⟩
  | createFile filepath =>
    cases filepath with
    | none => exact hrefl hst.2
    | some path =>
      rcases hst with ⟨-, -, he⟩ | hst
      · exact hrefl he
      · exact hst.steady h

/-- A call on an id in use is one on its descriptor. -/
theorem allows_descriptor {a : Except ℕ Reply} {c : StoreCall} (hst : d.Allows isDir d' a c)
    (hc : c.onId id = true) {x : Descriptor UInt8} (hx : d.descriptor? id = some x) :
    ∃ x', DescriptorActs x x' a c ∧ d'.descriptor? id = some x' := by
  cases c with
  | readFile fileid buffer =>
    obtain rfl : fileid = id := of_decide_eq_true hc
    exact OnId.descriptor_self hst hx
  | writeFile fileid buffer =>
    obtain rfl : fileid = id := of_decide_eq_true hc
    exact OnId.descriptor_self hst hx
  | seekFile fileid pos whence =>
    obtain rfl : fileid = id := of_decide_eq_true hc
    exact OnId.descriptor_self hst hx
  | syncFile fileid =>
    obtain rfl : fileid = id := of_decide_eq_true hc
    exact OnId.descriptor_self hst hx
  | truncateFile fileid size =>
    obtain rfl : fileid = id := of_decide_eq_true hc
    exact OnId.descriptor_self hst hx
  | _ => cases hc

/-- One call keeps every descriptor but that of the id it is on. -/
theorem Step.steady {l : Globals.ApiLabel U S σ φ} (hst : d.Step isDir l d') (h : d.Exclusive) :
    d'.Exclusive ∧ ∀ id x, l.1.onId id = false → l.1.Holds d.names id → d.descriptor? id = some x →
      d'.descriptor? id = some x := by
  rcases hst with ⟨c, a, rfl, hst⟩ | ⟨-, rfl⟩
  · have hsteady := allows_steady hst h
    exact ⟨hsteady.exclusive, hsteady.descriptor⟩
  · exact ⟨h, fun id x _ _ hx => hx⟩

/-- **Runs.**  As long as an id is in use, the calls on it make a run of its descriptor, whatever the
calls on other ids do. -/
theorem run_descriptor_of_files {ls : List (Globals.ApiLabel U S σ φ)}
    (hrun : Run (Guard (Step isDir) fun d l => l.1.Holds d.names id) d ls d') (h : d.Exclusive)
    {x : Descriptor UInt8} (hx : d.descriptor? id = some x) :
    ∃ x', Run DescriptorStep x (ls.filter fun l => l.1.onId id) x' ∧ d'.descriptor? id = some x' := by
  have hmine : ∀ (d : UserFiles E) (l : Globals.ApiLabel U S σ φ) d' x,
      d.Exclusive ∧ d.descriptor? id = some x →
      Guard (Step isDir) (fun d l => l.1.Holds d.names id) d l d' →
      l.1.onId id = true → ∃ x', DescriptorStep x l x' ∧ d'.Exclusive ∧ d'.descriptor? id = some x' := by
    rintro d l d' x ⟨h, hx⟩ ⟨-, hst⟩ hm
    have hsteady := hst.steady h
    rcases hst with ⟨c, a, rfl, hst⟩ | ⟨hno, -⟩
    · obtain ⟨x', hacts, hx'⟩ := allows_descriptor hst hm hx
      exact ⟨x', ⟨c, a, rfl, hacts⟩, hsteady.1, hx'⟩
    · cases hl : l.1 with
      | store c => exact absurd hl (hno c)
      | _ =>
        rw [hl] at hm
        cases hm
  have hothers : ∀ (d : UserFiles E) (l : Globals.ApiLabel U S σ φ) d' x,
      d.Exclusive ∧ d.descriptor? id = some x →
      Guard (Step isDir) (fun d l => l.1.Holds d.names id) d l d' →
      l.1.onId id = false → d'.Exclusive ∧ d'.descriptor? id = some x := by
    rintro d l d' x ⟨h, hx⟩ ⟨hh, hst⟩ hm
    have hsteady := hst.steady h
    exact ⟨hsteady.1, hsteady.2 id x hm hh hx⟩
  obtain ⟨x', hrun', -, hx'⟩ := hrun.filtered hmine hothers x ⟨h, hx⟩
  exact ⟨x', hrun', hx'⟩

end Steady

end UserFiles

/-! ### Names -/

/-- The path that the call is given. -/
def StoreCall.path? : StoreCall → Option String
  | openFile filepath => filepath
  | deleteFile filepath => filepath
  | statPath path => path
  | openDir dirpath => dirpath
  | createDir dirpath => dirpath
  | deleteDir dirpath => dirpath
  | createFile filepath => filepath
  | _ => none

namespace UserFiles

/-- What is open is found by its name, and a name is given to one id only. -/
structure Tidy (d : UserFiles E) : Prop where
  exclusive : d.Exclusive
  named : ∀ id e p, d.opened id = some (e, p) →
    ∃ name, d.names id = some name ∧ d.tree (parts name) = some e
  once : ∀ id id' name, d.names id = some name → d.names id' = some name → id = id'
  dotless : ∀ id name, d.names id = some name → Dotless name
  dirs_named : ∀ id name e, d.dirs id = some (name, e) → d.tree (parts name) = some e
  dirs_once : ∀ id id' name e e', d.dirs id = some (name, e) → d.dirs id' = some (name, e') → id = id'
  dirs_dotless : ∀ id name e, d.dirs id = some (name, e) → Dotless name

section Tidy

variable {isDir : E → Bool} {d d' : UserFiles E} {id : ℕ} {e : E} {p : ℕ} {path : String}

/-- An entry of an updated table is the new one, or was there. -/
theorem update_cases {ι α : Type} [DecidableEq ι] {t : ι → Option α} {i j : ι} {o : Option α} {y : α}
    (h : Function.update t i o j = some y) : j = i ∧ o = some y ∨ j ≠ i ∧ t j = some y := by
  by_cases hj : j = i
  · subst hj
    exact Or.inl ⟨rfl, (Function.update_self j o t).symm.trans h⟩
  · exact Or.inr ⟨hj, (Function.update_of_ne hj o t).symm.trans h⟩

/-- In a table with one name more, of an id and of a name that were not there, a name has one id. -/
theorem once_update {ι α β : Type} [DecidableEq ι] {t : ι → Option α} {i : ι} {x : α} {f : α → β}
    (h : ∀ j j' y y', t j = some y → t j' = some y' → f y = f y' → j = j')
    (hnew : ∀ j y, t j = some y → f y ≠ f x) :
    ∀ j j' y y', Function.update t i (some x) j = some y → Function.update t i (some x) j' = some y' →
      f y = f y' → j = j' := by
  intro j j' y y' hj hj' hf
  rcases update_cases hj with ⟨rfl, hx⟩ | ⟨-, hy⟩
  · cases hx
    rcases update_cases hj' with ⟨rfl, -⟩ | ⟨-, hy'⟩
    · rfl
    · exact absurd hf.symm (hnew j' y' hy')
  · rcases update_cases hj' with ⟨rfl, hx'⟩ | ⟨-, hy'⟩
    · cases hx'
      exact absurd hf (hnew j y hy)
    · exact h j j' y y' hy hy' hf

/-- A file that is open is found somewhere. -/
theorem Tidy.placed (h : d.Tidy) (ho : d.Opens e) : ∃ k, d.tree k = some e := by
  obtain ⟨id, ⟨e', p⟩, hid, rfl⟩ := ho
  obtain ⟨name, -, htree⟩ := h.named id e' p hid
  exact ⟨parts name, htree⟩

/-- Another tree, in which what is open is still found. -/
theorem Tidy.retree (h : d.Tidy) {t : Path → Option E} {bytes : E → List UInt8}
    (hfile : ∀ k, (∃ e, d.tree k = some e ∧ d.Opens e) → t k = d.tree k)
    (hdir : ∀ id name e, d.dirs id = some (name, e) → t (parts name) = d.tree (parts name)) :
    Tidy { d with bytes := bytes, tree := t } where
  exclusive := exclusive_of_opened h.exclusive rfl
  named := fun id e p ho => by
    obtain ⟨name, hname, htree⟩ := h.named id e p ho
    exact ⟨name, hname, (hfile _ ⟨e, htree, id, (e, p), ho, rfl⟩).trans htree⟩
  once := h.once
  dotless := h.dotless
  dirs_named := fun id name e hd => (hdir id name e hd).trans (h.dirs_named id name e hd)
  dirs_once := h.dirs_once
  dirs_dotless := h.dirs_dotless

theorem Tidy.openDir (h : d.Tidy) (hnew : ∀ id e, d.dirs id ≠ some (path, e))
    (htree : d.tree (parts path) = some e) (hdot : Dotless path) (id : ℕ) :
    Tidy { d with dirs := Function.update d.dirs id (some (path, e)) } where
  exclusive := h.exclusive
  named := h.named
  once := h.once
  dotless := h.dotless
  dirs_named := fun i name e' hi => by
    rcases update_cases hi with ⟨-, hx⟩ | ⟨-, hi⟩
    · cases hx
      exact htree
    · exact h.dirs_named i name e' hi
  dirs_once := fun i j name e₁ e₂ hi hj =>
    once_update (f := Prod.fst) (fun j j' y y' hj hj' hf => h.dirs_once j j' y'.1 y.2 y'.2 (hf ▸ hj) hj')
      (fun j y hj hf => hnew j y.2 (hj.trans (congrArg (fun n => some (n, y.2)) hf)))
      i j (name, e₁) (name, e₂) hi hj rfl
  dirs_dotless := fun i name e' hi => by
    rcases update_cases hi with ⟨-, hx⟩ | ⟨-, hi⟩
    · cases hx
      exact hdot
    · exact h.dirs_dotless i name e' hi

theorem Tidy.closeDir (h : d.Tidy) (id : ℕ) : (d.closeDir id).Tidy := by
  have hold : ∀ {i x}, (d.closeDir id).dirs i = some x → d.dirs i = some x := by
    intro i x hi
    rcases update_cases hi with ⟨-, hx⟩ | ⟨-, hi⟩
    · cases hx
    · exact hi
  exact ⟨h.exclusive, h.named, h.once, h.dotless, fun i name e hi => h.dirs_named i name e (hold hi),
    fun i j name e e' hi hj => h.dirs_once i j name e e' (hold hi) (hold hj),
    fun i name e hi => h.dirs_dotless i name e (hold hi)⟩

theorem Tidy.openFile (h : d.Tidy) (hnew : ∀ id, d.names id ≠ some path)
    (htree : d.tree (parts path) = some e) (hno : ¬ d.Opens e) (hdot : Dotless path) (id : ℕ) :
    Tidy { d with
      toOpenFiles := d.openAt id e
      names := Function.update d.names id (some path) } where
  exclusive := OpenFiles.Exclusive.openAt h.exclusive id hno
  named := fun i e' p hi => by
    rcases update_cases hi with ⟨rfl, hx⟩ | ⟨hne, hi⟩
    · cases hx
      exact ⟨path, Function.update_self .., htree⟩
    · obtain ⟨name, hname, ht⟩ := h.named i e' p hi
      exact ⟨name, (Function.update_of_ne hne ..).trans hname, ht⟩
  once := fun i j name hi hj =>
    once_update (f := fun n : String => n)
      (fun j j' y y' hj hj' hf => h.once j j' y' (hj.trans (congrArg some hf)) hj')
      (fun j y hj hf => hnew j (hj.trans (congrArg some hf))) i j name name hi hj rfl
  dotless := fun i name hi => by
    rcases update_cases hi with ⟨-, hx⟩ | ⟨-, hi⟩
    · cases hx
      exact hdot
    · exact h.dotless i name hi
  dirs_named := h.dirs_named
  dirs_once := h.dirs_once
  dirs_dotless := h.dirs_dotless

/-- An id is in use no more, with its name or without. -/
theorem Tidy.closeFile (h : d.Tidy) {names : ℕ → Option String} (hids : ∀ i, i ≠ id → names i = d.names i)
    (hid : ∀ name, names id = some name → d.names id = some name) (bytes : E → List UInt8) :
    Tidy { d with
      opened := Function.update d.opened id none
      bytes := bytes
      names := names } := by
  have hold : ∀ {i name}, names i = some name → d.names i = some name := by
    intro i name hi
    by_cases hne : i = id
    · subst hne
      exact hid name hi
    · exact (hids i hne).symm.trans hi
  refine ⟨fun i j x y hi hj => ?_, fun i e p hi => ?_,
    fun i j name hi hj => h.once i j name (hold hi) (hold hj),
    fun i name hi => h.dotless i name (hold hi), h.dirs_named, h.dirs_once, h.dirs_dotless⟩
  · exact h.exclusive i j x y (OpenFiles.opened_of_close hi).2 (OpenFiles.opened_of_close hj).2
  · obtain ⟨hne, hi⟩ := OpenFiles.opened_of_close hi
    obtain ⟨name, hname, ht⟩ := h.named i e p hi
    exact ⟨name, (hids i hne).trans hname, ht⟩

variable [DecidableEq E]

theorem OnId.tidy {a : Except ℕ Reply} {c : StoreCall} (hst : d.OnId d' id a c) (h : d.Tidy) : d'.Tidy := by
  have hex := hst.exclusive h.exclusive
  rcases hst with ⟨-, -, rfl⟩ | ⟨e, p, x, hopen, -, rfl⟩
  · exact h
  · refine ⟨hex, fun i e' p' hi => ?_, h.once, h.dotless, h.dirs_named, h.dirs_once, h.dirs_dotless⟩
    rcases update_cases hi with ⟨rfl, hx⟩ | ⟨-, hi⟩
    · cases hx
      exact h.named i e p hopen
    · exact h.named i e' p' hi

theorem ClosesFile.tidy {a : Except ℕ Unit} (hst : d.ClosesFile d' id a) (h : d.Tidy) : d'.Tidy := by
  rcases hst with ⟨-, -, rfl⟩ | ⟨e, p, -, ⟨-, rfl⟩ | ⟨-, bytes, rfl⟩⟩
  · exact h
  · refine h.closeFile (fun i hi => Function.update_of_ne hi ..) (fun name hn => ?_) _
    rw [Function.update_self] at hn
    cases hn
  · exact h.closeFile (fun _ _ => rfl) (fun _ hn => hn) _

theorem Creates.tidy {dir : Bool} {a : Except ℕ Reply} (hst : d.Creates isDir d' dir path a) (h : d.Tidy) :
    d'.Tidy := by
  rcases hst with ⟨-, rfl⟩ | ⟨-, e, -, ⟨-, rfl⟩ | ⟨t, hadds, rfl⟩⟩
  · exact h
  · exact h
  · -- what was found somewhere is found there
    have hkeep : ∀ {k e'}, d.tree k = some e' → t k = d.tree k := by
      intro k e' hk
      by_contra hne
      have := (hadds.only k hne).1
      rw [hk] at this
      cases this
    exact h.retree (fun k ⟨e', hk, _⟩ => hkeep hk) fun i name e' hi => hkeep (h.dirs_named i name e' hi)

theorem Removes.tidy {a : Except ℕ Reply} (hst : d.Removes d' path a) (h : d.Tidy) : d'.Tidy := by
  rcases hst with ⟨-, rfl⟩ | ⟨-, e, bytes, -, hun, rfl⟩
  · exact h
  · refine h.retree (fun k ⟨e', hk, ho⟩ => if_neg fun he => ?_) fun i name e' hi => if_neg fun he => ?_
    · rw [hk] at he
      cases he
      exact hun.file ho
    · rw [h.dirs_named i name e' hi] at he
      cases he
      exact hun.dir i _ hi rfl

/-- **One step** keeps what is open where its name says. -/
theorem allows_tidy {a : Except ℕ Reply} {c : StoreCall} (hst : d.Allows isDir d' a c)
    (hdot : ∀ path, c.path? = some path → Dotless path) (h : d.Tidy) : d'.Tidy := by
  have hrefl (he : d' = d) : d'.Tidy := by
    subst he
    exact h
  cases c with
  | openFile filepath =>
    cases filepath with
    | none => exact hrefl hst.2
    | some path =>
      rcases hst with ⟨id, -, -, he⟩ | ⟨hnew, ⟨-, he⟩ | ⟨id, e, -, htree, -, hno, -, rfl⟩⟩
      · exact hrefl he
      · exact hrefl he
      · exact h.openFile hnew htree hno (hdot path rfl) id
  | closeFile fileid =>
    obtain ⟨r, hcl, -⟩ := hst
    exact hcl.tidy h
  | readFile fileid buffer => exact OnId.tidy hst h
  | writeFile fileid buffer => exact OnId.tidy hst h
  | seekFile fileid pos whence => exact OnId.tidy hst h
  | syncFile fileid => exact OnId.tidy hst h
  | truncateFile fileid size => exact OnId.tidy hst h
  | deleteFile filepath =>
    cases filepath with
    | none => exact hrefl hst.2
    | some path =>
      rcases hst with ⟨-, hrem⟩ | ⟨i, hname, ⟨d₁, hcl, hrem⟩ | ⟨code, hcl, -⟩⟩
      · exact hrem.tidy h
      · exact hrem.tidy (hcl.tidy h)
      · exact hcl.tidy h
  | statFile fileid =>
    rcases hst with ⟨-, -, he⟩ | ⟨path, -, he, -⟩
    · exact hrefl he
    · exact hrefl he
  | statPath path =>
    cases path with
    | none => exact hrefl hst.2
    | some path => exact hrefl hst.1
  | openDir dirpath =>
    cases dirpath with
    | none => exact hrefl hst.2
    | some path =>
      rcases hst with ⟨id, e, -, -, he⟩ | ⟨hnew, ⟨-, he⟩ | ⟨id, e, -, htree, -, -, rfl⟩⟩
      · exact hrefl he
      · exact hrefl he
      · exact h.openDir hnew htree (hdot path rfl) id
  | readDir dirid name namemax => exact hrefl hst.1
  | closeDir dirid =>
    rcases hst with ⟨-, -, he⟩ | ⟨-, -, rfl⟩
    · exact hrefl he
    · exact h.closeDir dirid
  | createDir dirpath =>
    cases dirpath with
    | none => exact hrefl hst.2
    | some path =>
      rcases hst with ⟨-, -, he⟩ | hst
      · exact hrefl he
      · exact hst.tidy h
  | deleteDir dirpath =>
    cases dirpath with
    | none => exact hrefl hst.2
    | some path =>
      rcases hst with ⟨-, hst⟩ | ⟨id, e, -, hst⟩
      · exact hst.tidy h
      · exact hst.tidy (h.closeDir id)
  | createFile filepath =>
    cases filepath with
    | none => exact hrefl hst.2
    | some path =>
      rcases hst with ⟨-, -, he⟩ | hst
      · exact hrefl he
      · exact hst.tidy h

end Tidy

end UserFiles

end FatDrive
