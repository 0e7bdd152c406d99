import FatDrive.UsbFsFiles

/-!
# FatDrive.NewlibSeek — seeking and truncating through the two interfaces

`_fatdrive_seek_r` and `_fatdrive_ftruncate_r` work on a `File` made anew from the entry of the
handle, where `usbFsSeekFile` and `usbFsTruncateFile` have a `File` that stays.

* `seeks_agree_iff`: when the two seeks land at the same place;
* `truncates_meet_iff`: when the two truncations leave the length that was asked for;
* `numbered_apart`, `lengths_ignored`: where they do not.
-/

namespace FatDrive

open Lib

/-! ### The newlib calls -/

/-- The `SeekFrom` of a position and a `dir`. -/
def seekFromDir (pos : ℤ) : ℤ → Option SeekFrom
  | 1 => some (.start (i64AsUsize pos))
  | 2 => some (.current pos)
  | 3 => some (.fromEnd pos)
  | _ => none

section Calls

variable {τ E Fl : Type} (crate : FatfsFileOps τ E Fl)

/-- The file of the entry at the offset, and from there to where the call wants to go. -/
def seekOn (flCtx : FileStruct E) (pos dir : ℤ) (v : τ) : Outcome ℕ (Fl × τ) ℕ :=
  ((crate.seek flCtx.offset (crate.toFile flCtx.fatfl, v)).mapErr LibnxErrMapper.map).andThen
    fun _ s =>
      match seekFromDir pos dir with
      | some sk => (crate.seekTo sk s).mapErr LibnxErrMapper.map
      | none => .err nxFatdriveErrUnknown s

/-- `_fatdrive_seek_r`.  An error is the `errno` it sets. -/
def fatdriveSeekR (fd : Option (FileStruct E)) (pos dir : ℤ) (v : τ) :
    Outcome ℕ (Option (FileStruct E) × τ) ℤ :=
  match fd with
  | none => .err nxFatdriveErrFileNotFound (none, v)
  | some flCtx =>
    match seekOn crate flCtx pos dir v with
    | .ok newoff s => .ok (asI64 newoff) (some { flCtx with offset := newoff }, crate.drop s)
    | .err e s => .err e (some flCtx, crate.drop s)
    | .panicked s => .panicked (some flCtx, crate.drop s)

/-- `_fatdrive_ftruncate_r`.  The length is not used. -/
def fatdriveFtruncateR (fd : Option (FileStruct E)) (_len : ℤ) (v : τ) :
    Outcome ℕ (Option (FileStruct E) × τ) Unit :=
  match fd with
  | none => .err nxFatdriveErrFileNotFound (none, v)
  | some flCtx =>
    match crate.truncate (crate.toFile flCtx.fatfl, v) with
    | .ok _ s => .ok () (some flCtx, crate.drop s)
    | .err e s => .err ((crate.rawOsError e).getD 0xFFFFFFFF) (some flCtx, crate.drop s)
    | .panicked s => .panicked (some flCtx, crate.drop s)

end Calls

/-! ### Where a seek lands -/

variable {φ F D E L C U : Type} {crate : FatfsFileOps φ E F} {view : FileView φ E F L C}
  {g g' : Globals U φ F D} {id o : ℕ} {fl : F} {st v : φ} {fd : FileStruct E}

/-- On a drive without faults: at the target, or at the end of the file if that is nearer. -/
def landing (len : ℕ) (target : ℤ) : Option ℕ :=
  if 0 ≤ target ∧ target < 2 ^ 63 then some (min target.toNat len) else none

/-- The seek by id succeeds and the file is there, or it fails and the file is where it was. -/
def LandsById (view : FileView φ E F L C) (id o : ℕ) (r : Outcome ℕ (Globals U φ F D) ℕ) :
    Option ℕ → Prop
  | some n => ∃ g' fl' st', r = .ok n g' ∧ g'.fileAt? id = some (fl', st') ∧ view.pos fl' = n
  | none => ∃ e g' fl' st', r = .err e g' ∧ g'.fileAt? id = some (fl', st') ∧ view.pos fl' = o

/-- The same of a seek of the newlib device, and the offset of the handle. -/
def LandsByHandle (o : ℕ) (r : Outcome ℕ (Option (FileStruct E) × φ) ℤ) : Option ℕ → Prop
  | some n => ∃ fd' v', r = .ok n (some fd', v') ∧ fd'.offset = n
  | none => ∃ e fd' v', r = .err e (some fd', v') ∧ fd'.offset = o

/-- Both succeed with the same new offset, or both fail and leave the offset as it was. -/
def SeeksAgree (view : FileView φ E F L C) (id o : ℕ) (r : Outcome ℕ (Globals U φ F D) ℕ)
    (r' : Outcome ℕ (Option (FileStruct E) × φ) ℤ) : Prop :=
  ∃ place, LandsById view id o r place ∧ LandsByHandle o r' place

theorem LandsById.unique {r : Outcome ℕ (Globals U φ F D) ℕ} {a b : Option ℕ}
    (ha : LandsById view id o r a) (hb : LandsById view id o r b) : a = b := by
  cases a with
  | none =>
    obtain ⟨e, g', fl', st', rfl, -⟩ := ha
    cases b with
    | none => rfl
    | some n =>
      obtain ⟨_, _, _, h, -⟩ := hb
      cases h
  | some m =>
    obtain ⟨g', fl', st', rfl, -⟩ := ha
    cases b with
    | none =>
      obtain ⟨_, _, _, _, h, -⟩ := hb
      cases h
    | some n =>
      obtain ⟨_, _, _, h, -⟩ := hb
      simp only [Outcome.ok.injEq] at h
      rw [h.1]

theorem LandsByHandle.unique {r : Outcome ℕ (Option (FileStruct E) × φ) ℤ} {a b : Option ℕ}
    (ha : LandsByHandle o r a) (hb : LandsByHandle o r b) : a = b := by
  cases a with
  | none =>
    obtain ⟨e, fd', v', rfl, -⟩ := ha
    cases b with
    | none => rfl
    | some n =>
      obtain ⟨_, _, h, -⟩ := hb
      cases h
  | some m =>
    obtain ⟨fd', v', rfl, -⟩ := ha
    cases b with
    | none =>
      obtain ⟨_, _, _, h, -⟩ := hb
      cases h
    | some n =>
      obtain ⟨_, _, h, -⟩ := hb
      simp only [Outcome.ok.injEq, Int.natCast_inj] at h
      rw [h.1]

/-- Two seeks that land where they do agree if the places are the same. -/
theorem seeksAgree_iff {r : Outcome ℕ (Globals U φ F D) ℕ}
    {r' : Outcome ℕ (Option (FileStruct E) × φ) ℤ} {a b : Option ℕ} (ha : LandsById view id o r a)
    (hb : LandsByHandle o r' b) : SeeksAgree view id o r r' ↔ a = b := by
  constructor
  · rintro ⟨place, hid, hhandle⟩
    rw [ha.unique hid, hb.unique hhandle]
  · rintro rfl
    exact ⟨a, ha, hb⟩

/-- A seek on a `File` lands where its target says. -/
theorem FatfsFileOps.SeeksInRange.lands (laws : crate.SeeksInRange view) (sf : SeekFrom) (fl : F)
    (v : φ) :
    (∃ n fl' v', landing (view.file fl).length (view.target fl sf) = some n ∧
      crate.seekTo sf (fl, v) = .ok n (fl', v') ∧ view.pos fl' = n ∧ view.file fl' = view.file fl) ∨
    ∃ e fl' v', landing (view.file fl).length (view.target fl sf) = none ∧
      crate.seekTo sf (fl, v) = .err e (fl', v') ∧ view.pos fl' = view.pos fl := by
  unfold landing
  by_cases hin : 0 ≤ view.target fl sf ∧ view.target fl sf < 2 ^ 63
  · obtain ⟨n, ⟨fl', v'⟩, hok⟩ := Outcome.isOk_iff.mp (laws.accepts (v := v) hin.1 hin.2)
    obtain ⟨-, hn, hpos, hfile⟩ := laws.seek_ok hok
    exact Or.inl ⟨n, fl', v', by rw [if_pos hin, hn], hok, hpos, hfile⟩
  · obtain ⟨e, fl', v', herr, hpos⟩ := laws.refuses (v := v) hin
    exact Or.inr ⟨e, fl', v', by rw [if_neg hin], herr, hpos⟩

theorem usbFsSeekFile_lands (laws : crate.SeeksInRange view) (hp : g.idStorePtr.poisoned = false)
    (hx : g.fileAt? id = some (fl, st)) (pos whence : ℕ) :
    LandsById view id (view.pos fl) (Globals.usbFsSeekFile crate g id pos whence)
      ((seekFromOf pos whence).bind fun sf => landing (view.file fl).length (view.target fl sf)) := by
  unfold Globals.usbFsSeekFile
  cases hsf : seekFromOf pos whence with
  | none =>
    obtain ⟨s, fs, hs, hf, hst⟩ := Globals.fileAt?_eq_some.mp hx
    have hs' : g.stores.get? g.idStorePtr.value = some s := hs
    simp only [Globals.withIdStore, Globals.getIdStore_eq hp hs, hs', IdStore.getFileHandle, hf]
    exact ⟨_, _, fl, st, rfl, Globals.fileAt?_eq_some.mpr ⟨s, fs, Globals.store?_put hs _, hf, hst⟩, rfl⟩
  | some sf =>
    obtain ⟨hres, hstate⟩ := Globals.onFile_of_fileAt
      (f := fun x => (crate.seekTo sf x).mapErr LibnxErrMapper.map) hp hx
    rcases laws.lands sf fl st with ⟨n, fl', v', hland, hok, hpos, -⟩ | ⟨e, fl', v', hland, herr, hpos⟩
    · rw [hok] at hres hstate
      obtain ⟨g', hg'⟩ := Outcome.result_eq_ok.mp hres
      rw [hg'] at hstate
      rw [Option.bind_some, hland]
      exact ⟨g', fl', v', hg', hstate, hpos⟩
    · rw [herr] at hres hstate
      obtain ⟨g', hg'⟩ := Outcome.result_eq_err.mp hres
      rw [hg'] at hstate
      rw [Option.bind_some, hland]
      exact ⟨_, g', fl', v', hg', hstate, hpos⟩

/-- The handle's file is made anew, and sought to the offset first. -/
theorem fatdriveSeekR_lands (laws : crate.SeeksInRange view) (hsz : view.Sized fl)
    (hoff : fd.offset = view.pos fl)
    (hlen : (view.file (crate.toFile fd.fatfl)).length = (view.file fl).length) (pos dir : ℤ) :
    LandsByHandle (view.pos fl) (fatdriveSeekR crate (some fd) pos dir v)
      ((seekFromDir pos dir).bind fun sf => landing (view.file fl).length (view.target fl sf)) := by
  have hle := hsz.pos_le
  have hlt := hsz.length_lt
  have hstart : landing (view.file (crate.toFile fd.fatfl)).length
      (view.target (crate.toFile fd.fatfl) (.start fd.offset)) = some (view.pos fl) := by
    rw [landing, FileView.target, hoff, hlen, if_pos (by omega), Int.toNat_natCast, Nat.min_eq_left hle]
  rcases laws.lands (.start fd.offset) (crate.toFile fd.fatfl) v with
    ⟨n, fl₁, v₁, hland, hok, hpos₁, hfile₁⟩ | ⟨e, fl₁, v₁, hland, -⟩
  · obtain rfl : view.pos fl = n := Option.some.inj (hstart.symm.trans hland)
    have hbase : crate.seek fd.offset (crate.toFile fd.fatfl, v) = .ok (view.pos fl) (fl₁, v₁) := hok
    rw [← hfile₁] at hlen
    simp only [fatdriveSeekR, seekOn, hbase, Outcome.mapErr, Outcome.andThen_ok]
    cases seekFromDir pos dir with
    | none => exact ⟨_, fd, _, rfl, hoff⟩
    | some sf =>
      have htarget : view.target fl₁ sf = view.target fl sf := by
        cases sf <;> simp only [FileView.target, hpos₁, hlen]
      rw [Option.bind_some, ← htarget, ← hlen]
      rcases laws.lands sf fl₁ v₁ with ⟨n, fl₂, v₂, hl, hok', -⟩ | ⟨e, fl₂, v₂, hl, herr, -⟩
      · have hn : n < 2 ^ 63 := by
          unfold landing at hl
          split at hl
          · rw [Option.some_inj] at hl
            omega
          · cases hl
        simp only [hok', hl]
        exact ⟨{ fd with offset := n }, _, by rw [asI64_of_lt hn], rfl⟩
      · simp only [herr, hl]
        exact ⟨_, fd, _, rfl, hoff⟩
  · cases hstart.symm.trans hland

/-! ### The two seeks -/

/-- The calls for which the two tables lead to the same place, for a file of length `s` that is at
`o`. -/
def SameSeek (o s r : ℕ) : ℤ → Prop
  | 0 => False
  | 1 => (o = 0 ∨ s ≤ r) ∧ o + r < 2 ^ 63
  | 2 => s ≤ o + r ∧ s + r < 2 ^ 63 ∨ 2 ^ 63 ≤ o + r
  | 3 => 2 ^ 63 ≤ s + r
  | _ => True

theorem seekFromOf_of_ge {pos w : ℕ} (h : 3 ≤ w) : seekFromOf pos w = none := by
  obtain ⟨k, rfl⟩ := Nat.exists_eq_add_of_le' h
  rfl

theorem seekFromDir_of_ne {pos dir : ℤ} (h₁ : dir ≠ 1) (h₂ : dir ≠ 2) (h₃ : dir ≠ 3) :
    seekFromDir pos dir = none := by
  unfold seekFromDir
  split <;> first | rfl | contradiction

theorem sameSeek_of_ne {o s r : ℕ} {dir : ℤ} (h₀ : dir ≠ 0) (h₁ : dir ≠ 1) (h₂ : dir ≠ 2)
    (h₃ : dir ≠ 3) : SameSeek o s r dir := by
  unfold SameSeek
  split <;> trivial

theorem bind_landing_some {a : Option SeekFrom} {sf : SeekFrom} {s : ℕ} {t : ℤ} (ha : a = some sf)
    (ht : view.target fl sf = t) : (a.bind fun sf => landing s (view.target fl sf)) = landing s t := by
  rw [ha, Option.bind_some, ht]

theorem bind_landing_none {a : Option SeekFrom} {s : ℕ} (ha : a = none) :
    (a.bind fun sf => landing s (view.target fl sf)) = none := by
  rw [ha, Option.bind_none]

/-- The two tables are numbered apart by one. -/
theorem landing_eq_iff {o s r whence : ℕ} (ho : o ≤ s) (hs : s < 2 ^ 32) (hr : r < 2 ^ 63) {dir : ℤ}
    (hd : dir = whence ∨ dir < 0 ∧ 3 ≤ whence) (hpos : view.pos fl = o)
    (hlen : (view.file fl).length = s) (hrel : relative r = r) (hcast : i64AsUsize r = r) :
    ((seekFromOf r whence).bind fun sf => landing s (view.target fl sf)) =
      ((seekFromDir r dir).bind fun sf => landing s (view.target fl sf)) ↔ SameSeek o s r dir := by
  have hstart : ∀ n, view.target fl (.start n) = n := fun n => rfl
  have hcurrent : ∀ d, view.target fl (.current d) = o + d := fun d => by rw [FileView.target, hpos]
  have hend : ∀ d, view.target fl (.fromEnd d) = s + d := fun d => by rw [FileView.target, hlen]
  by_cases h₀ : dir = 0
  · obtain rfl : whence = 0 := by omega
    subst h₀
    have hid : seekFromOf r 0 = some (.start r) := rfl
    have hhandle : seekFromDir r 0 = none := by simp [seekFromDir]
    rw [bind_landing_some hid (hstart r), bind_landing_none hhandle, landing, SameSeek]
    split
    · simp
    · omega
  by_cases h₁ : dir = 1
  · obtain rfl : whence = 1 := by omega
    subst h₁
    have hid : seekFromOf r 1 = some (.current r) := by rw [seekFromOf, hrel]
    have hhandle : seekFromDir r 1 = some (.start r) := by rw [seekFromDir, hcast]
    rw [bind_landing_some hid (hcurrent r), bind_landing_some hhandle (hstart r), landing, landing,
      SameSeek]
    split <;> split <;> simp <;> omega
  by_cases h₂ : dir = 2
  · obtain rfl : whence = 2 := by omega
    subst h₂
    have hid : seekFromOf r 2 = some (.fromEnd r) := by rw [seekFromOf, hrel]
    have hhandle : seekFromDir r 2 = some (.current r) := rfl
    rw [bind_landing_some hid (hend r), bind_landing_some hhandle (hcurrent r), landing, landing,
      SameSeek]
    split <;> split <;> simp <;> omega
  by_cases h₃ : dir = 3
  · obtain rfl : whence = 3 := by omega
    subst h₃
    have hid : seekFromOf r 3 = none := rfl
    have hhandle : seekFromDir r 3 = some (.fromEnd r) := rfl
    rw [bind_landing_none hid, bind_landing_some hhandle (hend r), landing, SameSeek]
    split <;> simp <;> omega
  have hwhence : seekFromOf r whence = none := seekFromOf_of_ge (by omega)
  rw [bind_landing_none hwhence, bind_landing_none (seekFromDir_of_ne h₁ h₂ h₃)]
  exact iff_of_true rfl (sameSeek_of_ne h₀ h₁ h₂ h₃)

/-- **The two seeks.**  A seek by id and a seek of the newlib device on the same file agree exactly
where the two tables happen to lead to the same place. -/
theorem seeks_agree_iff (laws : crate.SeeksInRange view) (hp : g.idStorePtr.poisoned = false)
    (hx : g.fileAt? id = some (fl, st)) (hsz : view.Sized fl) (hoff : fd.offset = view.pos fl)
    (hlen : (view.file (crate.toFile fd.fatfl)).length = (view.file fl).length) {r : ℕ}
    (hr : r < 2 ^ 63) {dir : ℤ} (hd : -2 ^ 31 ≤ dir) (hd' : dir < 2 ^ 31) :
    SeeksAgree view id (view.pos fl) (Globals.usbFsSeekFile crate g id r (i64AsUsize dir))
        (fatdriveSeekR crate (some fd) r dir v) ↔
      SameSeek (view.pos fl) (view.file fl).length r dir := by
  have hid := usbFsSeekFile_lands laws hp hx r (i64AsUsize dir)
  have hhandle := fatdriveSeekR_lands (v := v) laws hsz hoff hlen r dir
  have hwhence : dir = i64AsUsize dir ∨ dir < 0 ∧ 3 ≤ i64AsUsize dir := by
    by_cases hneg : dir < 0
    · have := i64AsUsize_of_neg (by omega) hneg
      omega
    · have := i64AsUsize_of_nonneg (x := dir) (by omega) (by omega)
      omega
  have hrel : relative r = r := by
    rw [relative, if_neg (by omega), asI64_of_lt hr]
  have hcast : i64AsUsize (r : ℤ) = r := by
    have := i64AsUsize_of_nonneg (x := (r : ℤ)) (by omega) (by omega)
    omega
  rw [seeksAgree_iff hid hhandle]
  exact landing_eq_iff hsz.pos_le hsz.length_lt hr hwhence rfl rfl hrel hcast

/-- From the end of the file both stay there. -/
theorem seeks_agree_at_end :
    SeeksAgree oneFileView 0 4
        (Globals.usbFsSeekFile OneFile.ops (Globals.openAt [1, 2, 3, 4] 4) 0 1 (i64AsUsize 2))
        (fatdriveSeekR OneFile.ops (some (handleAt 4 4)) (1 : ℕ) 2 (volumeWith [1, 2, 3, 4])) ↔
      SameSeek 4 4 1 2 :=
  seeks_agree_iff OneFile.ops_seeksInRange rfl (Globals.fileAt?_openAt [1, 2, 3, 4] 4)
    ⟨by decide, by decide⟩ rfl rfl (by decide) (by decide) (by decide)

/-- **Numbered apart by one.**  From position 2 of four bytes, by 1: a seek that counts from the start
is refused by the other interface, one that counts from the position counts from the start there, and
one that counts from the end counts from the position. -/
theorem numbered_apart :
    let byId (whence : ℕ) :=
      (Globals.usbFsSeekFile OneFile.ops (Globals.openAt [1, 2, 3, 4] 2) 0 1 whence).result
    let byHandle (dir : ℤ) :=
      (fatdriveSeekR OneFile.ops (some (handleAt 4 2)) 1 dir (volumeWith [1, 2, 3, 4])).result
    (byId 0 = some (.ok 1) ∧ byHandle 0 = some (.error nxFatdriveErrUnknown)) ∧
      (byId 1 = some (.ok 3) ∧ byHandle 1 = some (.ok 1)) ∧
      (byId 2 = some (.ok 4) ∧ byHandle 2 = some (.ok 3)) := by
  decide +kernel

/-! ### The two truncations -/

/-- **Truncation.**  By id the file is cut at the position of its handle, through newlib at its start,
whatever length is asked for. -/
theorem truncates_meet_iff (laws : crate.Truncates view) :
    (∀ (g g' : Globals U φ F D) (id m : ℕ) (fl : F) (st : φ), g.fileAt? id = some (fl, st) →
      m ≤ (view.bytes (fl, st)).length → Globals.usbFsTruncateFile crate g id m = .ok () g' →
      ∃ x, g'.fileAt? id = some x ∧
        (view.bytes x = (view.bytes (fl, st)).take m ↔
          min (view.pos fl) (view.bytes (fl, st)).length = m)) ∧
    ∀ (fd : FileStruct E) (v : φ) (m : ℕ) (s : Option (FileStruct E) × φ),
      m ≤ (view.fileBytes v (view.slot fd.fatfl)).length →
      fatdriveFtruncateR crate (some fd) m v = .ok () s →
      (view.fileBytes s.2 (view.slot fd.fatfl) = (view.fileBytes v (view.slot fd.fatfl)).take m ↔
        m = 0) := by
  constructor
  · intro g g' id m fl st hx hm h
    obtain ⟨x, y, -, hx', hres, hy⟩ := Globals.onFile_eq_ok h
    cases hx.symm.trans hx'
    obtain ⟨fl', st'⟩ := y
    have hcut : crate.truncate (fl, st) = .ok () (fl', st') := by
      cases htr : crate.truncate (fl, st) <;> simp_all [Outcome.mapErr]
    refine ⟨(fl', st'), hy, ?_⟩
    rw [laws.truncate_ok hcut, List.take_eq_take_iff]
    omega
  · intro fd v m s hm h
    obtain ⟨hpos, hslot⟩ := laws.toFile fd.fatfl
    simp only [fatdriveFtruncateR] at h
    cases htr : crate.truncate (crate.toFile fd.fatfl, v) with
    | ok u y =>
      obtain ⟨fl', v'⟩ := y
      simp only [htr, Outcome.ok.injEq, true_and] at h
      subst h
      -- a file made anew is at its start
      have hnil : view.fileBytes (crate.drop (fl', v')) (view.slot fd.fatfl) = [] := by
        rw [← hslot, laws.drop_stores htr, laws.truncate_ok htr, hpos, List.take_zero]
      show view.fileBytes (crate.drop (fl', v')) (view.slot fd.fatfl) = _ ↔ m = 0
      rw [hnil, eq_comm, List.take_eq_nil_iff, ← List.length_eq_zero_iff]
      omega
    | err e y => simp [htr] at h
    | panicked y => simp [htr] at h

/-- To two bytes of four, from position 1. -/
theorem truncates_meet_sample : ∃ g' s,
    Globals.usbFsTruncateFile OneFile.ops (Globals.openAt [1, 2, 3, 4] 1) 0 2 = .ok () g' ∧
    (∃ x, g'.fileAt? 0 = some x ∧ (oneFileView.bytes x = [1, 2] ↔ min 1 4 = 2)) ∧
    fatdriveFtruncateR OneFile.ops (some (handleAt 4 1)) (2 : ℕ) (volumeWith [1, 2, 3, 4]) = .ok () s ∧
    (oneFileView.fileBytes s.2 () = [1, 2] ↔ 2 = 0) :=
  ⟨_, _, rfl, (truncates_meet_iff OneFile.ops_truncates).1 _ _ 0 2 _ _
      (Globals.fileAt?_openAt [1, 2, 3, 4] 1) (by decide) rfl,
    rfl, (truncates_meet_iff (U := Unit) (D := Unit) OneFile.ops_truncates).2 (handleAt 4 1) _ 2 _
      (by decide) rfl⟩

/-- **The length is ignored.**  To two bytes of four, from position 4: by id nothing is cut, through
newlib everything is. -/
theorem lengths_ignored :
    (((Globals.usbFsTruncateFile OneFile.ops (Globals.openAt [1, 2, 3, 4] 4) 0 2).state.fileAt? 0).map
        oneFileView.bytes = some [1, 2, 3, 4] ∧
      (Globals.usbFsTruncateFile OneFile.ops (Globals.openAt [1, 2, 3, 4] 4) 0 2).isOk = true) ∧
    (oneFileView.fileBytes (fatdriveFtruncateR OneFile.ops (some (handleAt 4 4)) 2
        (volumeWith [1, 2, 3, 4])).state.2 () = [] ∧
      (fatdriveFtruncateR OneFile.ops (some (handleAt 4 4)) 2 (volumeWith [1, 2, 3, 4])).isOk = true) :=
  by decide +kernel

end FatDrive
