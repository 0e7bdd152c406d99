import FatDrive.BufScsi
import FatDrive.NewlibFile

/-!
# FatDrive.FileOps — seeking in and truncating a `File` of the `fatfs` crate

The calls on a `File` that read and write do not need, with the laws of seeking and truncating in
terms of what can be observed of a `File`, and a volume of one file that keeps to them.
-/

namespace FatDrive

open Lib

/-- The rest of what the program uses of `fatfs::File`, and of the `io::Error` it returns. -/
structure FatfsFileOps (τ E Fl : Type) extends FatfsFiles τ E Fl where
  seekCurrent : ℤ → Fl × τ → Outcome IoError (Fl × τ) ℕ
  seekEnd : ℤ → Fl × τ → Outcome IoError (Fl × τ) ℕ
  truncate : Fl × τ → Outcome IoError (Fl × τ) Unit
  rawOsError : IoError → Option ℕ

variable {τ E Fl L C : Type}

/-- `File::seek`. -/
def FatfsFileOps.seekTo (crate : FatfsFileOps τ E Fl) :
    SeekFrom → Fl × τ → Outcome IoError (Fl × τ) ℕ
  | .start absr => crate.seek absr
  | .current off => crate.seekCurrent off
  | .fromEnd off => crate.seekEnd off

/-! ### Laws -/

namespace FileView

variable (view : FileView τ E Fl L C)

/-- Where a seek wants to go, as an integer. -/
def target (fl : Fl) : SeekFrom → ℤ
  | .start absr => absr
  | .current off => view.pos fl + off
  | .fromEnd off => (view.file fl).length + off

/-- The bytes of the file, as seen through a `File`. -/
def bytes (x : Fl × τ) : List UInt8 :=
  slice (view.content x.2 (view.file x.1).firstCluster) 0 (view.file x.1).length

@[simp] theorem length_bytes (x : Fl × τ) : (view.bytes x).length = (view.file x.1).length :=
  length_slice ..

/-- A `File` is not past its end, and its length has 32 bits. -/
structure Sized (fl : Fl) : Prop where
  pos_le : view.pos fl ≤ (view.file fl).length
  length_lt : (view.file fl).length < 2 ^ 32

end FileView

/-- A seek that succeeds has gone to its target, or to the end of the file if that is nearer. -/
structure FatfsFileOps.Seeks (crate : FatfsFileOps τ E Fl) (view : FileView τ E Fl L C) : Prop where
  seek_ok : ∀ {sf n fl v fl' v'}, crate.seekTo sf (fl, v) = .ok n (fl', v') →
    0 ≤ view.target fl sf ∧ n = min (view.target fl sf).toNat (view.file fl).length ∧
      view.pos fl' = n ∧ view.file fl' = view.file fl

/-- On a drive without faults, the targets that succeed are those an `i64` can hold. -/
structure FatfsFileOps.SeeksInRange (crate : FatfsFileOps τ E Fl) (view : FileView τ E Fl L C) : Prop
    extends crate.Seeks view where
  accepts : ∀ {sf fl v}, 0 ≤ view.target fl sf → view.target fl sf < 2 ^ 63 →
    (crate.seekTo sf (fl, v)).isOk = true
  refuses : ∀ {sf fl v}, ¬ (0 ≤ view.target fl sf ∧ view.target fl sf < 2 ^ 63) →
    ∃ e fl' v', crate.seekTo sf (fl, v) = .err e (fl', v') ∧ view.pos fl' = view.pos fl

/-- A `File` is cut at its position, and what has been cut is stored when the `File` is dropped. -/
structure FatfsFileOps.Truncates (crate : FatfsFileOps τ E Fl) (view : FileView τ E Fl L C) : Prop where
  toFile : ∀ e, view.pos (crate.toFile e) = 0 ∧ view.fileSlot (crate.toFile e) = view.slot e
  truncate_ok : ∀ {fl v fl' v'}, crate.truncate (fl, v) = .ok () (fl', v') →
    view.bytes (fl', v') = (view.bytes (fl, v)).take (view.pos fl)
  drop_stores : ∀ {fl v fl' v'}, crate.truncate (fl, v) = .ok () (fl', v') →
    view.fileBytes (crate.drop (fl', v')) (view.fileSlot fl) = view.bytes (fl', v')

/-! ### A volume with one file -/

namespace OneFile

/-- Seek to a target, if it is one. -/
def seekTarget (target : ℤ) (s : OpenFile × OneFile) : Outcome IoError (OpenFile × OneFile) ℕ :=
  if 0 ≤ target ∧ target.toNat < 2 ^ 63 then
    .ok (min target.toNat s.1.recorded.length)
      ({ s.1 with pos := min target.toNat s.1.recorded.length }, s.2)
  else .err ⟨.invalidInput, none⟩ s

/-- Files of this volume that can be truncated. -/
def ops : FatfsFileOps OneFile (Recorded ℕ) OpenFile where
  toFatfsFiles := { oneFile with seek := fun p => seekTarget p }
  seekCurrent off s := seekTarget (s.1.pos + off) s
  seekEnd off s := seekTarget (s.1.recorded.length + off) s
  truncate s :=
    .ok () ({ s.1 with
      recorded := { s.1.recorded with length := min s.1.pos s.1.recorded.length }
      dirty := true }, s.2)
  rawOsError _ := none

theorem seekTo_ops (sf : SeekFrom) (s : OpenFile × OneFile) :
    ops.seekTo sf s = seekTarget (oneFileView.target s.1 sf) s := by
  cases sf <;> rfl

theorem ops_seeksInRange : ops.SeeksInRange oneFileView where
  seek_ok {sf n fl v fl' v'} h := by
    rw [seekTo_ops] at h
    unfold seekTarget at h
    split at h
    · next hin =>
      cases h
      exact ⟨hin.1, rfl, rfl, rfl⟩
    · cases h
  accepts {sf fl v} h h' := by
    have hin : 0 ≤ oneFileView.target fl sf ∧ (oneFileView.target fl sf).toNat < 2 ^ 63 := by omega
    rw [seekTo_ops, seekTarget, if_pos hin]
    rfl
  refuses {sf fl v} h := by
    have hout : ¬ (0 ≤ oneFileView.target fl sf ∧ (oneFileView.target fl sf).toNat < 2 ^ 63) := by
      omega
    rw [seekTo_ops, seekTarget, if_neg hout]
    exact ⟨_, fl, v, rfl, rfl⟩

theorem ops_truncates : ops.Truncates oneFileView where
  toFile e := ⟨rfl, rfl⟩
  truncate_ok {fl v fl' v'} h := by
    cases h
    show slice v.chain 0 (min fl.pos fl.recorded.length) = (slice v.chain 0 fl.recorded.length).take fl.pos
    rw [← take_slice _ _ (Nat.min_le_right ..), List.take_eq_take_iff, length_slice]
    omega
  drop_stores {fl v fl' v'} h := by
    cases h
    rfl

end OneFile

end FatDrive
