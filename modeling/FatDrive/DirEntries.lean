import FatDrive.IdStore
import FatDrive.FatfsRawFiles

/-!
# FatDrive.DirEntries — what the two kinds of directories list, and the types of entries

`Filesystem.DirEntryData` is an entry as both backends list it; `entryType` reads its type from the
mode bits of its flags.  `FatfsDirIter` puts the discriminant of a type there, `FatfsSysDir` the
attribute byte of FatFs.

* `ofU8_toU8`: the bits the type is read from are those a type is converted to;
* `entryType_fatfs`, `entryType_fatfsSys`: neither backend stores these;
* `run_children`: what the cached children of a directory are, over every run of `iter`;
* `types_lost`: no entry that is listed has its type.
-/

namespace FatDrive

open Lib

namespace Filesystem

/-! ### Entries and their types -/

structure DirEntryData where
  name : String
  len : ℕ
  flags : ℕ
  deriving DecidableEq, Repr

inductive DirEntryType where
  | unknown | fifo | characterSpecial | directory | blockSpecial | regularFile | symbolicLink | socket
  deriving DecidableEq, Repr

def sIfifo : ℕ := 1
def sIfchr : ℕ := 2
def sIfdir : ℕ := 4
def sIfblk : ℕ := 6
def sIfreg : ℕ := 8
def sIflnk : ℕ := 10
def sIfsock : ℕ := 12

namespace DirEntryType

/-- The discriminant: `self as u64`. -/
def asU64 : DirEntryType → ℕ
  | unknown => 0
  | fifo => 1
  | characterSpecial => 2
  | directory => 3
  | blockSpecial => 4
  | regularFile => 5
  | symbolicLink => 6
  | socket => 7

/-- `From<u8> for DirEntryType`. -/
def ofU8 (inner : ℕ) : DirEntryType :=
  if inner = sIfifo then fifo
  else if inner = sIfchr then characterSpecial
  else if inner = sIfdir then directory
  else if inner = sIfblk then blockSpecial
  else if inner = sIfreg then regularFile
  else if inner = sIflnk then symbolicLink
  else if inner = sIfsock then socket
  else unknown

/-- `From<DirEntryType> for u8`. -/
def toU8 : DirEntryType → ℕ
  | fifo => sIfifo
  | characterSpecial => sIfchr
  | directory => sIfdir
  | blockSpecial => sIfblk
  | regularFile => sIfreg
  | symbolicLink => sIflnk
  | socket => sIfsock
  | unknown => 0

/-- The two conversions agree; the discriminants are other numbers. -/
theorem ofU8_toU8 (t : DirEntryType) : ofU8 t.toU8 = t := by
  cases t <;> rfl

end DirEntryType

namespace DirEntryData

def entryType (self : DirEntryData) : DirEntryType := .ofU8 ((self.flags &&& 0xf000) >>> 12)

/-- The type is that of an entry with or without the directory attribute. -/
def Decodes (isDir : Bool) (self : DirEntryData) : Prop :=
  self.entryType = if isDir then .directory else .regularFile

/-- The mask leaves the four bits above the twelfth. -/
theorem entryType_eq (self : DirEntryData) : self.entryType = .ofU8 ((self.flags >>> 12) % 16) := by
  have hmask : (self.flags &&& 0xf000) >>> 12 = (self.flags >>> 12) % 16 := by
    rw [Nat.shiftRight_and_distrib]
    exact Nat.and_two_pow_sub_one_eq_mod (self.flags >>> 12) 4
  rw [entryType, hmask]

/-- Mode bits of the type itself would be read as the type, whatever the bits below. -/
theorem entryType_of_toU8 {self : DirEntryData} {low : ℕ} (t : DirEntryType) (hlow : low < 2 ^ 12)
    (h : self.flags = t.toU8 <<< 12 ||| low) : self.entryType = t := by
  have hzero : low >>> 12 = 0 := by
    rw [Nat.shiftRight_eq_div_pow]
    exact Nat.div_eq_of_lt hlow
  have hmode : self.flags >>> 12 = t.toU8 := by
    rw [h, Nat.shiftRight_or_distrib, Nat.shiftLeft_shiftRight, hzero, Nat.or_zero]
  have hnibble : t.toU8 % 16 = t.toU8 := by cases t <;> rfl
  rw [entryType_eq, hmode, hnibble, DirEntryType.ofU8_toU8]

theorem not_decodes {self : DirEntryData} (h : self.entryType = .unknown) (isDir : Bool) :
    ¬ self.Decodes isDir := by
  unfold Decodes
  rw [h]
  cases isDir <;> simp

end DirEntryData

end Filesystem

open Filesystem

/-! ### The `fatfs` backend -/

/-- `FileAttributes::contains(DIRECTORY)`. -/
def DirEntry.hasDirectory (ent : DirEntry) : Bool := ent.attributes &&& 0x10 = 0x10

/-- `FileAttributes::contains(READ_ONLY)`. -/
def DirEntry.hasReadOnly (ent : DirEntry) : Bool := ent.attributes &&& 0x01 = 0x01

namespace FatfsDirIter

def typeBits (ent : DirEntry) : ℕ :=
  if ent.hasDirectory then DirEntryType.directory.asU64 <<< 12
  else DirEntryType.regularFile.asU64 <<< 12

def permissionsBits (ent : DirEntry) : ℕ := if ent.hasReadOnly then 0o444 else 0o666

def entryData (ent : DirEntry) : Filesystem.DirEntryData :=
  ⟨ent.fileName, ent.len, typeBits ent ||| permissionsBits ent⟩

/-- `FatfsDirIter::next`, where `inner` is what the iterator of the crate has still to yield.  An entry
that cannot be read ends the listing like the end of the directory. -/
def next : List (Except IoError DirEntry) → Option Filesystem.DirEntryData × List (Except IoError DirEntry)
  | [] => (none, [])
  | .ok ent :: inner => (some (entryData ent), inner)
  | .error _ :: inner => (none, inner)

/-- What is still to come after `n` calls. -/
def after (inner : List (Except IoError DirEntry)) : ℕ → List (Except IoError DirEntry)
  | 0 => inner
  | n + 1 => (next (after inner n)).2

theorem next_snd (inner : List (Except IoError DirEntry)) : (next inner).2 = inner.tail := by
  rcases inner with _ | ⟨ent | e, inner⟩ <;> rfl

theorem after_eq (inner : List (Except IoError DirEntry)) (n : ℕ) : after inner n = inner.drop n := by
  induction n with
  | zero => rfl
  | succ n ih => rw [after, next_snd, ih, List.tail_drop]

/-- The call after `n` others yields what the entry at that place gives. -/
theorem next_after {inner : List (Except IoError DirEntry)} {n : ℕ} {data : Filesystem.DirEntryData}
    (h : (next (after inner n)).1 = some data) :
    ∃ ent, inner[n]? = some (.ok ent) ∧ data = entryData ent := by
  rw [after_eq] at h
  rw [← List.head?_drop]
  rcases hdrop : inner.drop n with _ | ⟨e | ent, rest⟩
  · simp [hdrop, next] at h
  · simp [hdrop, next] at h
  · rw [hdrop, next, Option.some_inj] at h
    exact ⟨ent, rfl, h.symm⟩

/-- **The discriminant** of a type is not what a type is read from. -/
theorem entryType_entryData (ent : DirEntry) : (entryData ent).entryType = .unknown := by
  show DirEntryType.ofU8 (((typeBits ent ||| permissionsBits ent) &&& 0xf000) >>> 12) = _
  unfold typeBits permissionsBits
  cases ent.hasDirectory <;> cases ent.hasReadOnly <;> decide

end FatfsDirIter

/-! ### The FatFs backend -/

/-- `FILINFO`, as far as it is read. -/
structure FilInfo where
  /-- A C string in an array of fixed length. -/
  fname : List UInt8
  fsize : UInt32
  fattrib : UInt8
  deriving DecidableEq, Repr

/-- `AM_DIR`. -/
def FilInfo.isDir (fno : FilInfo) : Bool := fno.fattrib &&& 0x10 ≠ 0

/-- What the program uses of FatFs on an open directory, and `CStr::to_string_lossy`. -/
structure FatFsDirs (τ Dir : Type) where
  fReaddir : Dir × τ → (FResult × FilInfo) × Dir × τ
  toStringLossy : List UInt8 → String

/-- A `FatfsSysDir` with the fields that only `iter` uses. -/
structure FatfsSysListing (Dir : Type) extends FatfsSysDir Dir where
  children : List Filesystem.DirEntryData
  finishedReadingChildren : Bool

namespace FatfsSysListing

variable {τ Dir : Type} (ff : FatFsDirs τ Dir)

def fromInner (inner : Dir) : FatfsSysListing Dir := ⟨⟨inner⟩, [], false⟩

/-- The entry of a `FILINFO`. -/
def entryData (rawinfo : FilInfo) : Filesystem.DirEntryData :=
  ⟨ff.toStringLossy (rawinfo.fname.takeWhile (· ≠ 0)), rawinfo.fsize.toNat, rawinfo.fattrib.toNat⟩

def rawReaddir (s : Dir × τ) : Outcome IoError (Dir × τ) (Option Filesystem.DirEntryData) :=
  let r := ff.fReaddir s
  (FatfsSysDir.wrapped r.1.2 r.1.1 r.2).andThen fun rawinfo s =>
    if rawinfo.fname.headD 0 = 0 then .ok none s else .ok (some (entryData ff rawinfo)) s

/-- The loop of `load_children`, followed for a number of rounds, with the children pushed so far. -/
def readRest : ℕ → Dir × τ → List Filesystem.DirEntryData →
    Option (Outcome IoError ((Dir × τ) × List Filesystem.DirEntryData) Unit)
  | 0, _, _ => none
  | rounds + 1, s, children =>
    match rawReaddir ff s with
    | .ok (some ent) s => readRest rounds s (children ++ [ent])
    | .ok none s => some (.ok () (s, children))
    | .err e s => some (.err e (s, children))
    | .panicked s => some (.panicked (s, children))

/-- `load_children`; nothing if it is still reading after all the rounds. -/
def loadChildren (rounds : ℕ) (self : FatfsSysListing Dir) (v : τ) :
    Option (Outcome IoError (FatfsSysListing Dir × τ) Unit) :=
  if self.finishedReadingChildren then some (.ok () (self, v))
  else
    (readRest ff rounds (self.inner, v) self.children).map fun r =>
      match r with
      | .ok _ (s, children) => .ok () (⟨⟨s.1⟩, children, true⟩, s.2)
      | .err e (s, children) => .err e (⟨⟨s.1⟩, children, false⟩, s.2)
      | .panicked (s, children) => .panicked (⟨⟨s.1⟩, children, false⟩, s.2)

/-- `iter`: what `load_children` returns is dropped, the iterator is over what it left. -/
def iter (rounds : ℕ) (self : FatfsSysListing Dir) (v : τ) :
    Option (List Filesystem.DirEntryData × FatfsSysListing Dir × τ) :=
  (loadChildren ff rounds self v).map fun r => (r.state.1.children, r.state)

/-- An `iter` that returns, on the volume as it is found, with what its iterator yields in order. -/
def Step (self : FatfsSysListing Dir) (l : (ℕ × τ) × List Filesystem.DirEntryData)
    (self' : FatfsSysListing Dir) : Prop :=
  ∃ v, iter ff l.1.1 self l.1.2 = some (l.2, self', v)

variable {ff}

/-- The entry is that of a `FILINFO` that `f_readdir` has filled in. -/
def Listed (ff : FatFsDirs τ Dir) (data : Filesystem.DirEntryData) (rawinfo : FilInfo) : Prop :=
  (∃ s : Dir × τ, (ff.fReaddir s).1 = (.frOk, rawinfo)) ∧ data = entryData ff rawinfo

theorem rawReaddir_some {s s' : Dir × τ} {ent : Filesystem.DirEntryData}
    (h : rawReaddir ff s = .ok (some ent) s') : ∃ rawinfo, Listed ff ent rawinfo := by
  obtain ⟨rawinfo, t, hread, hent⟩ := Outcome.andThen_eq_ok.mp h
  obtain ⟨hok, hinfo, -⟩ := FatfsSysDir.wrapped_eq_ok.mp hread
  split at hent
  · cases hent
  · simp only [Outcome.ok.injEq, Option.some_inj] at hent
    exact ⟨rawinfo, ⟨s, Prod.ext hok hinfo⟩, hent.1.symm⟩

/-- Everything in the list is the entry of some `FILINFO`. -/
def AllListed (ff : FatFsDirs τ Dir) (children : List Filesystem.DirEntryData) : Prop :=
  ∀ data ∈ children, ∃ rawinfo, Listed ff data rawinfo

/-- The loop pushes entries that were read. -/
theorem readRest_listed {rounds : ℕ} {s : Dir × τ} {children : List Filesystem.DirEntryData}
    {r : Outcome IoError ((Dir × τ) × List Filesystem.DirEntryData) Unit}
    (h : readRest ff rounds s children = some r) (hc : AllListed ff children) :
    AllListed ff r.state.2 := by
  induction rounds generalizing s children with
  | zero => cases h
  | succ rounds ih =>
    rw [readRest] at h
    rcases hread : rawReaddir ff s with ⟨_ | ent, s'⟩ | ⟨e, s'⟩ | s' <;> simp only [hread] at h
    · cases h
      exact hc
    · refine ih h fun data hmem => ?_
      rcases List.mem_append.mp hmem with hmem | hmem
      · exact hc data hmem
      · rw [List.mem_singleton.mp hmem]
        exact rawReaddir_some hread
    · cases h
      exact hc
    · cases h
      exact hc

theorem loadChildren_listed {rounds : ℕ} {self : FatfsSysListing Dir} {v : τ}
    {r : Outcome IoError (FatfsSysListing Dir × τ) Unit} (h : loadChildren ff rounds self v = some r)
    (hc : AllListed ff self.children) : AllListed ff r.state.1.children := by
  unfold loadChildren at h
  split at h
  · cases h
    exact hc
  · obtain ⟨t, ht, hr⟩ := Option.map_eq_some_iff.mp h
    have hread := readRest_listed ht hc
    subst hr
    rcases t with ⟨_, x⟩ | ⟨e, x⟩ | x <;> exact hread

/-- **The cached children.**  After any calls of `iter` on a directory, every entry they have yielded,
and every child there is, is that of a `FILINFO` of FatFs. -/
theorem run_children {inner : Dir} {self : FatfsSysListing Dir}
    {ls : List ((ℕ × τ) × List Filesystem.DirEntryData)}
    (hrun : Run (Step ff) (fromInner inner) ls self) :
    AllListed ff self.children ∧ ∀ l ∈ ls, AllListed ff l.2 := by
  have hstart : AllListed ff (fromInner inner).children := fun data hmem => by cases hmem
  generalize fromInner inner = start at hrun hstart
  induction hrun with
  | nil s => exact ⟨hstart, by simp⟩
  | @cons s s₁ s' l ls hstep hrest ih =>
    obtain ⟨v, hiter⟩ := hstep
    obtain ⟨r, hr, heq⟩ := Option.map_eq_some_iff.mp hiter
    have hl := loadChildren_listed hr hstart
    simp only [Prod.mk.injEq] at heq
    obtain ⟨hitems, hself⟩ := heq
    rw [hself] at hl
    obtain ⟨hend, hlater⟩ := ih hl
    refine ⟨hend, fun l' hmem => ?_⟩
    rcases List.mem_cons.mp hmem with rfl | hmem
    · rw [← hitems, hself]
      exact hl
    · exact hlater l' hmem

/-- **The attribute byte** does not reach the bits a type is read from. -/
theorem entryType_entryData (rawinfo : FilInfo) : (entryData ff rawinfo).entryType = .unknown := by
  have hlow : rawinfo.fattrib.toNat >>> 12 = 0 := by
    rw [Nat.shiftRight_eq_div_pow]
    exact Nat.div_eq_of_lt (Nat.lt_trans rawinfo.fattrib.toNat_lt (by decide))
  rw [DirEntryData.entryType_eq]
  show DirEntryType.ofU8 (rawinfo.fattrib.toNat >>> 12 % 16) = _
  rw [hlow]
  rfl

end FatfsSysListing

/-- **Types are lost.**  Whatever the `fatfs` iterator yields, and whatever the iterators of a FatFs
directory yield over any calls of `iter`, is the entry of something that was read, and its type is
neither that of a directory nor that of a file. -/
theorem types_lost {τ Dir : Type} (ff : FatFsDirs τ Dir) :
    (∀ (inner : List (Except IoError DirEntry)) (n : ℕ) (data : Filesystem.DirEntryData),
      (FatfsDirIter.next (FatfsDirIter.after inner n)).1 = some data →
      ∃ ent, inner[n]? = some (.ok ent) ∧ data = FatfsDirIter.entryData ent ∧
        ¬ data.Decodes ent.hasDirectory) ∧
    ∀ (inner : Dir) (ls : List ((ℕ × τ) × List Filesystem.DirEntryData)) (self : FatfsSysListing Dir),
      Run (FatfsSysListing.Step ff) (.fromInner inner) ls self →
      ∀ l ∈ ls, ∀ data ∈ l.2,
        ∃ rawinfo, FatfsSysListing.Listed ff data rawinfo ∧ ¬ data.Decodes rawinfo.isDir := by
  constructor
  · intro inner n data h
    obtain ⟨ent, hent, rfl⟩ := FatfsDirIter.next_after h
    exact ⟨ent, hent, rfl, DirEntryData.not_decodes (FatfsDirIter.entryType_entryData ent) _⟩
  · intro inner ls self hrun l hl data hdata
    obtain ⟨rawinfo, hread, rfl⟩ := (FatfsSysListing.run_children hrun).2 l hl data hdata
    exact ⟨rawinfo, ⟨hread, rfl⟩,
      DirEntryData.not_decodes (FatfsSysListing.entryType_entryData rawinfo) _⟩

/-- FatFs on a directory whose entries are given by what is left of them to read. -/
def sampleDirs : FatFsDirs Unit (List FilInfo) where
  fReaddir s :=
    match s.1 with
    | [] => ((.frOk, ⟨[0], 0, 0⟩), s)
    | fno :: rest => ((.frOk, fno), (rest, s.2))
  toStringLossy bytes := String.ofList (bytes.map fun b => Char.ofNat b.toNat)

/-- A subdirectory `d`, and a file `a` of five bytes. -/
def sampleInfos : List FilInfo := [⟨[100, 0], 0, 0x10⟩, ⟨[97, 0], 5, 0x20⟩]

/-- The same in a listing of the `fatfs` crate. -/
def sampleEntries : List (Except IoError DirEntry) :=
  [.ok ⟨"d", false, 0, 0x10⟩, .ok ⟨"a", true, 5, 0x20⟩]

theorem types_lost_samples :
    (∃ ent, sampleEntries[0]? = some (.ok ent) ∧
      (⟨"d", 0, 0x31b6⟩ : Filesystem.DirEntryData) = FatfsDirIter.entryData ent ∧
      ¬ (⟨"d", 0, 0x31b6⟩ : Filesystem.DirEntryData).Decodes ent.hasDirectory) ∧
    ∃ rawinfo, FatfsSysListing.Listed sampleDirs ⟨"d", 0, 0x10⟩ rawinfo ∧
      ¬ (⟨"d", 0, 0x10⟩ : Filesystem.DirEntryData).Decodes rawinfo.isDir := by
  have hrun : Run (FatfsSysListing.Step sampleDirs) (.fromInner sampleInfos)
      [((3, ()), [⟨"d", 0, 0x10⟩, ⟨"a", 5, 0x20⟩])]
      ⟨⟨[]⟩, [⟨"d", 0, 0x10⟩, ⟨"a", 5, 0x20⟩], true⟩ := .single ⟨(), rfl⟩
  exact ⟨(types_lost sampleDirs).1 sampleEntries 0 _ rfl,
    (types_lost sampleDirs).2 sampleInfos _ _ hrun _ (List.mem_singleton_self _) _
      (List.mem_cons_self ..)⟩

/-- **A directory of unknown type**, in both backends; and a file. -/
theorem directory_unknown :
    (FatfsDirIter.next sampleEntries).1.map DirEntryData.entryType = some .unknown ∧
    (FatfsDirIter.next (FatfsDirIter.after sampleEntries 1)).1.map DirEntryData.entryType =
      some .unknown ∧
    (FatfsSysListing.iter sampleDirs 3 (.fromInner sampleInfos) ()).map
      (fun r => r.1.map DirEntryData.entryType) = some [.unknown, .unknown] := by
  decide +kernel

end FatDrive
