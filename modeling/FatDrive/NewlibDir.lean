import FatDrive.IdStoreReads
import FatDrive.UsbFsFiles

/-!
# FatDrive.NewlibDir — reading directories through the two interfaces

`usbFsReadDir` reads the next entry of a directory id, `_fatdrive_dirnext_r` that of a `DirStruct`.
Both copy the entry's name to a buffer of the caller; the end of a directory is an entry of type `0xF`
in the one, and meant to be an error on the next call in the other.

* `listing_never_ends`: no call ever returns that error;
* `names_meet_iff`: what the two copies leave in the buffer;
* `endless_sample`, `copies_apart`: an empty directory that goes on, and a name that does not end.
-/

namespace FatDrive

open Lib

variable {τ E : Type}

/-! ### `_fatdrive_dirnext_r` -/

def errnoEnoent : ℕ := 2
def nxFatdriveNameMax : ℕ := 255

structure DirStruct (E : Type) where
  dir : E
  index : ℕ
  deriving DecidableEq, Repr

/-- What `dir.to_dir().iter()` yields, in order, and the bytes a `DirEntry` has in memory. -/
structure FatfsDirEntries (τ E : Type) where
  iter : τ → E → List (Except IoError DirEntry)
  bytes : E → List UInt8

/-- The bytes of a `usize`. -/
def usizeBytes (n : ℕ) : List UInt8 := (List.range 8).map fun i => UInt8.ofNat (n / 256 ^ i)

/-- `name.as_bytes()`. -/
def asBytes (name : String) : List UInt8 := name.toUTF8.toList

/-- What `_fatdrive_dirnext_r` copies of a name. -/
def dirnextName (nameBytes : List UInt8) : List UInt8 :=
  nameBytes.take (min nameBytes.length nxFatdriveNameMax)

/-- `is_zeroed` of the bytes behind a pointer. -/
def isZeroed : Option (List UInt8) → ℕ
  | none => errnoEnoent
  | some structData =>
    if structData = List.replicate structData.length 0 then errnoEnoent else 0

section Calls

variable (crate : FatfsDirEntries τ E)

def DirStruct.bytes (d : DirStruct E) : List UInt8 := crate.bytes d.dir ++ usizeBytes d.index

/-- `_fatdrive_dirreset_r`; the two pointers may be null. -/
def fatdriveDirresetR : Option (Option (DirStruct E)) →
    Outcome ℕ (Option (Option (DirStruct E))) Unit
  | some (some dirStruct) => .ok () (some (some { dirStruct with index := 0 }))
  | dirState => .err nxFatdriveErrUnknown dirState

/-- `_fatdrive_dirnext_r`, with what the buffer for the name holds.  `stat_dirent` ends in an
`unimplemented!()`.  At the end of the directory the zeroed entry is a local, and is dropped. -/
def fatdriveDirnextR (v : τ) (dirState : Option (Option (DirStruct E)))
    (filename : Option (ℕ → UInt8)) (filestat : Bool) :
    Outcome ℕ (Option (Option (DirStruct E)) × Option (ℕ → UInt8)) Unit :=
  match dirState with
  | none => .err nxFatdriveErrUnknown (none, filename)
  | some dirStructPtr =>
    let ended := isZeroed (dirStructPtr.map (DirStruct.bytes crate))
    if ended ≠ 0 then .err ended (some dirStructPtr, filename)
    else
      match dirStructPtr with
      | none => .err errnoEnoent (some none, filename)
      | some dirStruct =>
        let moved : DirStruct E := { dirStruct with index := (dirStruct.index + 1) % 2 ^ 64 }
        match (crate.iter v dirStruct.dir)[dirStruct.index]? with
        | some (.ok p) =>
          if filestat then .panicked (some (some dirStruct), filename)
          else .ok () (some (some moved),
            filename.map fun mem => patch mem 0 (dirnextName (asBytes p.fileName)))
        | some (.error _) => .err nxFatdriveErrUnknown (some (some dirStruct), filename)
        | none => .ok () (some (some moved), filename)

/-- The state before the call after `k` calls, each with its own buffer. -/
def dirStateAfter (v : τ) (start : Option (Option (DirStruct E))) (bufs : ℕ → Option (ℕ → UInt8)) :
    ℕ → Option (Option (DirStruct E))
  | 0 => start
  | k + 1 => (fatdriveDirnextR crate v (dirStateAfter v start bufs k) (bufs k) false).state.1

/-- The call after `k` calls. -/
def dirnextCall (v : τ) (start : Option (Option (DirStruct E))) (bufs : ℕ → Option (ℕ → UInt8)) (k : ℕ) :
    Outcome ℕ (Option (Option (DirStruct E)) × Option (ℕ → UInt8)) Unit :=
  fatdriveDirnextR crate v (dirStateAfter crate v start bufs k) (bufs k) false

/-- The calls give the entries in order. -/
def ListsAll (v : τ) (start : Option (Option (DirStruct E))) (bufs : ℕ → Option (ℕ → UInt8))
    (ents : List DirEntry) : Prop :=
  ∀ (k : ℕ) (p : DirEntry), ents[k]? = some p → ∃ dirState,
    dirnextCall crate v start bufs k =
      .ok () (dirState, (bufs k).map fun mem => patch mem 0 (dirnextName (asBytes p.fileName)))

/-- After that many calls, every call returns an error. -/
def EndsAfter (v : τ) (start : Option (Option (DirStruct E))) (bufs : ℕ → Option (ℕ → UInt8))
    (n : ℕ) : Prop :=
  ∀ k, n ≤ k → ∃ errno x, dirnextCall crate v start bufs k = .err errno x

end Calls

variable {crate : FatfsDirEntries τ E} {v : τ} {dir : E} {ents : List DirEntry}
  {bufs : ℕ → Option (ℕ → UInt8)}

theorem isZeroed_eq_zero {structData : List UInt8} :
    isZeroed (some structData) = 0 ↔ ∃ b ∈ structData, b ≠ 0 := by
  simp only [isZeroed, List.eq_replicate_iff, true_and]
  split
  · next h => simpa [errnoEnoent] using h
  · next h => simpa using h

theorem usizeBytes_zero : ∀ b ∈ usizeBytes 0, b = 0 := by
  intro b hb
  obtain ⟨i, -, rfl⟩ := List.mem_map.mp hb
  rw [Nat.zero_div]
  rfl

/-- What is not zero at index 0 is not zero at any index. -/
theorem not_zeroed (hz : isZeroed (some (DirStruct.bytes crate ⟨dir, 0⟩)) = 0) (k : ℕ) :
    isZeroed (some (DirStruct.bytes crate ⟨dir, k⟩)) = 0 := by
  obtain ⟨b, hb, hne⟩ := isZeroed_eq_zero.mp hz
  refine isZeroed_eq_zero.mpr ⟨b, ?_, hne⟩
  rcases List.mem_append.mp hb with hb | hb
  · exact List.mem_append_left _ hb
  · exact absurd (usizeBytes_zero b hb) hne

/-- **One call** on a directory without errors: 0 is returned, entry or not, and the index moves on. -/
theorem dirnext_ok (hz : isZeroed (some (DirStruct.bytes crate ⟨dir, 0⟩)) = 0)
    (hall : crate.iter v dir = ents.map .ok) (k : ℕ) (filename : Option (ℕ → UInt8)) :
    fatdriveDirnextR crate v (some (some ⟨dir, k⟩)) filename false =
      .ok () (some (some ⟨dir, (k + 1) % 2 ^ 64⟩), filename.map fun mem =>
        (ents[k]?).elim mem fun p => patch mem 0 (dirnextName (asBytes p.fileName))) := by
  unfold fatdriveDirnextR
  simp only [Option.map_some, not_zeroed hz k, ne_eq, not_true_eq_false, if_false, hall,
    List.getElem?_map]
  cases ents[k]? with
  | none => simp
  | some p => simp

/-- The states of a listing. -/
theorem dirStateAfter_eq (hz : isZeroed (some (DirStruct.bytes crate ⟨dir, 0⟩)) = 0)
    (hall : crate.iter v dir = ents.map .ok) (k : ℕ) :
    dirStateAfter crate v (some (some ⟨dir, 0⟩)) bufs k = some (some ⟨dir, k % 2 ^ 64⟩) := by
  induction k with
  | zero => rfl
  | succ k ih =>
    have hmod : (k % 2 ^ 64 + 1) % 2 ^ 64 = (k + 1) % 2 ^ 64 := by omega
    rw [dirStateAfter, ih, dirnext_ok hz hall, Outcome.state_ok, hmod]

theorem dirnextCall_eq (hz : isZeroed (some (DirStruct.bytes crate ⟨dir, 0⟩)) = 0)
    (hall : crate.iter v dir = ents.map .ok) (k : ℕ) :
    dirnextCall crate v (some (some ⟨dir, 0⟩)) bufs k =
      .ok () (some (some ⟨dir, (k % 2 ^ 64 + 1) % 2 ^ 64⟩), (bufs k).map fun mem =>
        (ents[k % 2 ^ 64]?).elim mem fun p => patch mem 0 (dirnextName (asBytes p.fileName))) := by
  rw [dirnextCall, dirStateAfter_eq hz hall, dirnext_ok hz hall]

/-- **A listing never ends.**  The entries come in order, and then every call returns 0 as well: the
error is never returned. -/
theorem listing_never_ends (hz : isZeroed (some (DirStruct.bytes crate ⟨dir, 0⟩)) = 0)
    (hall : crate.iter v dir = ents.map .ok) {start : Option (Option (DirStruct E))}
    (hstart : start = some (some ⟨dir, 0⟩) ∨
      ∃ i, start = (fatdriveDirresetR (some (some ⟨dir, i⟩))).state)
    (bufs : ℕ → Option (ℕ → UInt8)) :
    (ents.length ≤ 2 ^ 64 → ListsAll crate v start bufs ents) ∧
      (∀ k, (dirnextCall crate v start bufs k).result = some (.ok ())) ∧
      ¬ EndsAfter crate v start bufs ents.length := by
  obtain rfl : start = some (some ⟨dir, 0⟩) := by
    rcases hstart with h | ⟨i, h⟩ <;> exact h
  refine ⟨fun hlen k p hp => ?_, fun k => ?_, fun hends => ?_⟩
  · have hk : k < ents.length := (List.getElem?_eq_some_iff.mp hp).1
    have hmod : k % 2 ^ 64 = k := Nat.mod_eq_of_lt (by omega)
    refine ⟨some (some ⟨dir, (k + 1) % 2 ^ 64⟩), ?_⟩
    rw [dirnextCall_eq hz hall, hmod, hp]
    rfl
  · rw [dirnextCall_eq hz hall]
    rfl
  · obtain ⟨errno, x, herr⟩ := hends ents.length (Nat.le_refl _)
    rw [dirnextCall_eq hz hall] at herr
    cases herr

/-- What the sample directory has in memory: its bytes are not all zero. -/
def sampleDirEntries (ents : List DirEntry) : FatfsDirEntries Unit Unit where
  iter _ _ := ents.map .ok
  bytes _ := [1]

/-- A directory with one entry, from the start and reset at the end. -/
theorem listing_never_ends_sample :
    (∀ k, (dirnextCall (sampleDirEntries [⟨"a", true, 0, 0x20⟩]) () (some (some ⟨(), 0⟩))
      (fun _ => none) k).result = some (.ok ())) ∧
    ¬ EndsAfter (sampleDirEntries [⟨"a", true, 0, 0x20⟩]) ()
      (fatdriveDirresetR (some (some ⟨(), 1⟩))).state (fun _ => none) 1 := by
  have hz : isZeroed (some (DirStruct.bytes (sampleDirEntries [⟨"a", true, 0, 0x20⟩]) ⟨(), 0⟩)) = 0 := by
    decide
  have hall : (sampleDirEntries [⟨"a", true, 0, 0x20⟩]).iter () () =
      [⟨"a", true, 0, 0x20⟩].map .ok := rfl
  exact ⟨(listing_never_ends hz hall (Or.inl rfl) _).2.1,
    (listing_never_ends hz hall (Or.inr ⟨1, rfl⟩) _).2.2⟩

/-- **An empty directory goes on.**  Its first, its second and its third call return 0. -/
theorem endless_sample :
    isZeroed (some (DirStruct.bytes (sampleDirEntries []) ⟨(), 0⟩)) = 0 ∧
    (List.range 3).map (fun k => (dirnextCall (sampleDirEntries []) () (some (some ⟨(), 0⟩))
      (fun _ => none) k).result) = [some (.ok ()), some (.ok ()), some (.ok ())] ∧
    ¬ EndsAfter (sampleDirEntries []) () (some (some ⟨(), 0⟩)) (fun _ => none) 0 := by
  refine ⟨by decide, by decide, fun h => ?_⟩
  obtain ⟨errno, x, herr⟩ := h 0 (Nat.le_refl 0)
  cases herr

/-! ### `usbFsReadDir` -/

/-- What `usbFsReadDir` copies of a name, with the terminator; the difference wraps. -/
def readDirName (nameBytes : List UInt8) (namemax : ℕ) : List UInt8 :=
  nameBytes.take (min (usizeSub namemax 1) nameBytes.length) ++ [0]

/-- With the type and the size that are stored, and what the buffer for the name holds. -/
def Globals.usbFsReadDir {U φ F D : Type} (crate : FatfsCrate φ F D) (g : Globals U φ F D)
    (dirid : ℕ) (name : ℕ → UInt8) (namemax : ℕ) :
    Outcome ℕ (Globals U φ F D) (ℕ × ℕ × (ℕ → UInt8)) :=
  g.withIdStore fun s w => (IdStore.readNextDirent crate s w dirid).bimap
    (fun current =>
      match current with
      | some ent => (ent.typeVal, ent.size, patch name 0 (readDirName (asBytes ent.name) namemax))
      | none => (0xF, 0, patch name 0 [0]))
    fun s => (s, w)

/-! ### Names in buffers -/

/-- The buffer holds these bytes and a terminator. -/
def HoldsString (mem : ℕ → UInt8) (bytes : List UInt8) : Prop :=
  slice mem 0 (bytes.length + 1) = bytes ++ [0]

/-- What is written fits the capacity, and if there is any, the buffer then holds the longest prefix
of the name that fits with its terminator. -/
def Fits (capacity : ℕ) (nameBytes written : List UInt8) (mem : ℕ → UInt8) : Prop :=
  written.length ≤ capacity ∧
    (1 ≤ capacity → HoldsString (patch mem 0 written) (nameBytes.take (capacity - 1)))

/-- Two buffers hold the same string. -/
def SameString (mem mem' : ℕ → UInt8) : Prop :=
  ∃ bytes, 0 ∉ bytes ∧ HoldsString mem bytes ∧ HoldsString mem' bytes

/-- Without one that is written, the terminator is what is there already. -/
theorem holdsString_patch {mem : ℕ → UInt8} {bytes : List UInt8} :
    HoldsString (patch mem 0 bytes) bytes ↔ mem bytes.length = 0 := by
  have hlast : patch mem 0 bytes bytes.length = mem bytes.length := patch_of_ge (by omega)
  unfold HoldsString
  rw [slice_add, slice_patch_self, Nat.zero_add, slice_succ, slice_zero, hlast]
  simp

theorem holdsString_terminated (mem : ℕ → UInt8) (bytes : List UInt8) :
    HoldsString (patch mem 0 (bytes ++ [0])) bytes := by
  have h := slice_patch_self mem 0 (bytes ++ [0])
  rwa [List.length_append, List.length_singleton] at h

/-- What lies in the buffer behind the string does not matter. -/
theorem holdsString_append (mem : ℕ → UInt8) (a b : List UInt8) :
    HoldsString (patch mem 0 (a ++ 0 :: b)) a := by
  have h := slice_patch_part mem 0 (l := a ++ 0 :: b) (k := 0) (n := a.length + 1) (by simp)
  rw [List.drop_zero, List.take_append, List.take_of_length_le (by omega)] at h
  simpa [HoldsString] using h

theorem HoldsString.getElem? {mem : ℕ → UInt8} {a : List UInt8} (h : HoldsString mem a) {i : ℕ}
    (hi : i ≤ a.length) : (a ++ [0])[i]? = some (mem i) := by
  have hi' := getElem?_slice mem 0 (n := a.length + 1) (i := i) (by omega)
  rwa [h, Nat.zero_add] at hi'

theorem HoldsString.length_le {mem : ℕ → UInt8} {a b : List UInt8} (ha : HoldsString mem a)
    (hb : HoldsString mem b) (hnb : 0 ∉ b) : b.length ≤ a.length := by
  by_contra hlt
  have hend : mem a.length = 0 := by
    have h := ha.getElem? (Nat.le_refl _)
    rw [List.getElem?_append_right (Nat.le_refl _), Nat.sub_self] at h
    exact (Option.some_inj.mp h).symm
  have hin := hb.getElem? (i := a.length) (by omega)
  rw [List.getElem?_append_left (by omega), hend] at hin
  exact hnb (List.mem_of_getElem? hin)

/-- A string in a buffer ends at its first zero. -/
theorem HoldsString.unique {mem : ℕ → UInt8} {a b : List UInt8} (ha : HoldsString mem a)
    (hb : HoldsString mem b) (hna : 0 ∉ a) (hnb : 0 ∉ b) : a = b := by
  have hlen : a.length = b.length := Nat.le_antisymm (hb.length_le ha hna) (ha.length_le hb hnb)
  have heq : a ++ [0] = b ++ [0] := by rw [← ha, ← hb, hlen]
  exact List.append_cancel_right heq

theorem take_capacity {nameBytes : List UInt8} {c : ℕ} :
    nameBytes.take (min c nameBytes.length) = nameBytes.take c := by
  rw [List.take_eq_take_iff]
  omega

/-- With room for a terminator, the longest prefix that fits before it is written. -/
theorem readDirName_of_pos (nameBytes : List UInt8) {namemax : ℕ} (h : namemax < 2 ^ 64)
    (hpos : 1 ≤ namemax) : readDirName nameBytes namemax = nameBytes.take (namemax - 1) ++ [0] := by
  rw [readDirName, usizeSub_of_le h hpos, take_capacity]

theorem dirnextName_eq (nameBytes : List UInt8) :
    dirnextName nameBytes = nameBytes.take nxFatdriveNameMax := by
  rw [dirnextName, Nat.min_comm, take_capacity]

theorem length_copied (nameBytes : List UInt8) :
    (nameBytes.take nxFatdriveNameMax).length = min nameBytes.length nxFatdriveNameMax := by
  rw [List.length_take, Nat.min_comm]

/-- The first copy fits any capacity but zero. -/
theorem readDirName_fits_iff (nameBytes : List UInt8) {namemax : ℕ} (h : namemax < 2 ^ 64)
    (mem : ℕ → UInt8) : Fits namemax nameBytes (readDirName nameBytes namemax) mem ↔ 1 ≤ namemax := by
  constructor
  · rintro ⟨hlen, -⟩
    rw [readDirName, List.length_append, List.length_singleton] at hlen
    omega
  · intro hpos
    rw [readDirName_of_pos nameBytes h hpos]
    refine ⟨?_, fun _ => holdsString_terminated mem _⟩
    rw [List.length_append, List.length_singleton, List.length_take]
    omega

/-- The second copy fits its capacity, and relies on the terminator being there. -/
theorem dirnextName_fits_iff (nameBytes : List UInt8) (mem : ℕ → UInt8) :
    Fits (nxFatdriveNameMax + 1) nameBytes (dirnextName nameBytes) mem ↔
      mem (min nameBytes.length nxFatdriveNameMax) = 0 := by
  have hlen := length_copied nameBytes
  unfold Fits
  rw [dirnextName_eq, Nat.add_sub_cancel, holdsString_patch, hlen]
  constructor
  · rintro ⟨-, h⟩
    exact h (by omega)
  · exact fun h => ⟨by omega, fun _ => h⟩

section Copies

variable {U φ F D : Type}

/-- What a call that returns an entry leaves in the buffer. -/
theorem usbFsReadDir_entry {crate : FatfsCrate φ F D} {g g' : Globals U φ F D}
    {dirid namemax typeVal size : ℕ} {name mem : ℕ → UInt8}
    (h : g.usbFsReadDir crate dirid name namemax = .ok (typeVal, size, mem) g')
    (hent : typeVal ≠ 0xF) :
    ∃ s s' ent, g.store? = some s ∧
      IdStore.readNextDirent crate s g.mounted dirid = .ok (some ent) s' ∧
      mem = patch name 0 (readDirName (asBytes ent.name) namemax) := by
  obtain ⟨s, y, -, hs, hin, -⟩ := Globals.withIdStore_eq_ok h
  obtain ⟨current, s', hread, hres, -⟩ := Outcome.bimap_eq_ok.mp hin
  cases current with
  | none =>
    simp only [Prod.mk.injEq] at hres
    exact absurd hres.1.symm hent
  | some ent =>
    simp only [Prod.mk.injEq] at hres
    exact ⟨s, s', ent, hs, hread, hres.2.2.symm⟩

theorem dirnext_entry {crate : FatfsDirEntries τ E} {v : τ} {dirStruct : DirStruct E} {filestat : Bool}
    {name mem : ℕ → UInt8} {dirState : Option (Option (DirStruct E))} {p : DirEntry}
    (h : fatdriveDirnextR crate v (some (some dirStruct)) (some name) filestat =
      .ok () (dirState, some mem))
    (hent : (crate.iter v dirStruct.dir)[dirStruct.index]? = some (.ok p)) :
    mem = patch name 0 (dirnextName (asBytes p.fileName)) := by
  unfold fatdriveDirnextR at h
  simp only [Option.map_some, hent] at h
  split at h
  · cases h
  · split at h
    · cases h
    · simp only [Outcome.ok.injEq, Prod.mk.injEq, Option.some_inj] at h
      exact h.2.2.symm

/-- At the same capacity the two strings differ exactly where the second does not end, and no zero is
part of the name. -/
theorem sameString_iff (nameBytes : List UInt8) (name name' : ℕ → UInt8) :
    SameString (patch name 0 (readDirName nameBytes (nxFatdriveNameMax + 1)))
        (patch name' 0 (dirnextName nameBytes)) ↔
      0 ∈ nameBytes.take nxFatdriveNameMax ∨ name' (min nameBytes.length nxFatdriveNameMax) = 0 := by
  have hmax : nxFatdriveNameMax + 1 < 2 ^ 64 := by decide
  rw [readDirName_of_pos nameBytes hmax (by omega), dirnextName_eq, Nat.add_sub_cancel,
    ← length_copied nameBytes]
  generalize nameBytes.take nxFatdriveNameMax = copied
  have hended := holdsString_terminated name copied
  by_cases hzero : 0 ∈ copied
  · obtain ⟨a, b, hsplit, hna⟩ := List.eq_append_cons_of_mem hzero
    refine iff_of_true ⟨a, hna, ?_, ?_⟩ (Or.inl hzero)
    · rw [hsplit, List.append_assoc, List.cons_append]
      exact holdsString_append name a _
    · rw [hsplit]
      exact holdsString_append name' a _
  · constructor
    · rintro ⟨bytes, hnb, hmem, hmem'⟩
      obtain rfl : bytes = copied := hmem.unique hended hnb hzero
      exact Or.inr (holdsString_patch.mp hmem')
    · rintro (h | h)
      · exact absurd h hzero
      · exact ⟨copied, hzero, hended, holdsString_patch.mpr h⟩

/-- **Names.**  What `usbFsReadDir` writes fits, and is the string it should be, exactly if the
capacity is not zero; what `_fatdrive_dirnext_r` writes fits, and is the string exactly if a zero is
in the buffer already, behind the bytes that are copied.  At the same capacity the strings are the
same exactly then, or if the copied bytes have a zero among them. -/
theorem names_meet_iff :
    (∀ {crate : FatfsCrate φ F D} {g g' : Globals U φ F D} {dirid namemax typeVal size : ℕ}
      {name mem : ℕ → UInt8}, namemax < 2 ^ 64 →
      g.usbFsReadDir crate dirid name namemax = .ok (typeVal, size, mem) g' → typeVal ≠ 0xF →
      ∃ s s' ent, g.store? = some s ∧
        IdStore.readNextDirent crate s g.mounted dirid = .ok (some ent) s' ∧
        mem = patch name 0 (readDirName (asBytes ent.name) namemax) ∧
        (Fits namemax (asBytes ent.name) (readDirName (asBytes ent.name) namemax) name ↔
          1 ≤ namemax)) ∧
    (∀ {crate : FatfsDirEntries τ E} {v : τ} {dirStruct : DirStruct E} {filestat : Bool}
      {name mem : ℕ → UInt8} {dirState : Option (Option (DirStruct E))} {p : DirEntry},
      fatdriveDirnextR crate v (some (some dirStruct)) (some name) filestat =
        .ok () (dirState, some mem) →
      (crate.iter v dirStruct.dir)[dirStruct.index]? = some (.ok p) →
      mem = patch name 0 (dirnextName (asBytes p.fileName)) ∧
        (Fits (nxFatdriveNameMax + 1) (asBytes p.fileName) (dirnextName (asBytes p.fileName)) name ↔
          name (min (asBytes p.fileName).length nxFatdriveNameMax) = 0)) ∧
    (∀ (nameBytes : List UInt8) (name name' : ℕ → UInt8),
      SameString (patch name 0 (readDirName nameBytes (nxFatdriveNameMax + 1)))
          (patch name' 0 (dirnextName nameBytes)) ↔
        0 ∈ nameBytes.take nxFatdriveNameMax ∨
          name' (min nameBytes.length nxFatdriveNameMax) = 0) := by
  refine ⟨fun hmax h hent => ?_, fun h hent => ?_, sameString_iff⟩
  · obtain ⟨s, s', ent, hs, hread, hmem⟩ := usbFsReadDir_entry h hent
    exact ⟨s, s', ent, hs, hread, hmem, readDirName_fits_iff _ hmax _⟩
  · exact ⟨dirnext_entry h hent, dirnextName_fits_iff _ _⟩

end Copies

/-- The root directory of the sample volume is open as id 0. -/
def rootListed : Globals Unit Volume ℕ ℕ where
  usbHsCtxPtr := { value := 0 }
  idStorePtr := { value := 1 }
  mounted := sampleMounted []
  contexts := .empty
  stores := (Heap.empty.alloc IdStore.rootOpen).2

/-- A buffer in which every byte is 9. -/
def stale : ℕ → UInt8 := fun _ => 9

/-- The first entry of a directory through the one interface, with room for one byte, and through the
other, into a buffer that was filled before. -/
theorem names_meet_sample :
    (∃ s s' ent, rootListed.store? = some s ∧
      IdStore.readNextDirent volumeCrate s rootListed.mounted 0 = .ok (some ent) s' ∧
      patch stale 0 (readDirName (asBytes "d") 1) = patch stale 0 (readDirName (asBytes ent.name) 1) ∧
      (Fits 1 (asBytes ent.name) (readDirName (asBytes ent.name) 1) stale ↔ 1 ≤ 1)) ∧
    (patch stale 0 (dirnextName (asBytes "d")) = patch stale 0 (dirnextName (asBytes "d")) ∧
      (Fits (nxFatdriveNameMax + 1) (asBytes "d") (dirnextName (asBytes "d")) stale ↔
        stale (min (asBytes "d").length nxFatdriveNameMax) = 0)) := by
  have hread : rootListed.usbFsReadDir volumeCrate 0 stale 1 =
      .ok (4, 0, patch stale 0 (readDirName (asBytes "d") 1))
        (rootListed.usbFsReadDir volumeCrate 0 stale 1).state := rfl
  have hent : ((sampleDirEntries IdStore.sampleEntries).iter () ())[0]? =
      some (.ok ⟨"d", false, 0, 0x10⟩) := rfl
  have hnext : fatdriveDirnextR (sampleDirEntries IdStore.sampleEntries) () (some (some ⟨(), 0⟩))
      (some stale) false = .ok () (some (some ⟨(), 1⟩), some (patch stale 0 (dirnextName (asBytes "d")))) :=
    rfl
  obtain ⟨hreads, hnexts, -⟩ := names_meet_iff (U := Unit) (φ := Volume) (F := ℕ) (D := ℕ)
    (τ := Unit) (E := Unit)
  exact ⟨hreads (by decide) hread (by decide), hnexts hnext hent⟩

/-- **Copies apart.**  With no room at all the name is written whole, and a byte more.  The other
interface leaves a short name in a filled buffer without an end, so that the two strings differ. -/
theorem copies_apart :
    (rootListed.usbFsReadDir volumeCrate 0 stale 0).isOk = true ∧
    (readDirName (asBytes "d") 0).length = 2 ∧
    ¬ Fits 0 (asBytes "d") (readDirName (asBytes "d") 0) stale ∧
    ¬ Fits (nxFatdriveNameMax + 1) (asBytes "d") (dirnextName (asBytes "d")) stale ∧
    ¬ SameString (patch stale 0 (readDirName (asBytes "d") (nxFatdriveNameMax + 1)))
      (patch stale 0 (dirnextName (asBytes "d"))) := by
  refine ⟨rfl, by decide +kernel, fun h => ?_, fun h => ?_, fun h => ?_⟩
  · exact absurd ((readDirName_fits_iff _ (by decide) _).mp h) (by decide)
  · exact absurd ((dirnextName_fits_iff _ _).mp h) (by decide)
  · exact absurd ((sameString_iff _ _ _).mp h) (by decide +kernel)

end FatDrive
