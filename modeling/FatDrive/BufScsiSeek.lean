import FatDrive.BufScsiRefine

/-!
# FatDrive.BufScsiSeek — where `seek` moves the cursor

`seek` computes its target in `usize`, with wrapping sums and differences, and never fails.

* `seek_ok`: a target that is not negative and whose address fits in `usize` is reached, also by the
  most negative offset;
* `seek_meets_iff`: for every other target `seek` should fail, and returns `Ok`;
* `seeks_address`: after seeks to such targets only, `rawIdx` does not overflow.
-/

namespace FatDrive

namespace OffsetScsiDevice

open Lib

variable {σ : Type} {m : ScsiCrate σ} {d d' : OffsetScsiDevice σ}

/-- The position a `seek` asks for, as an integer; `SeekFrom::End` is not implemented. -/
def target (d : OffsetScsiDevice σ) : SeekFrom → Option ℤ
  | .start absr => some absr
  | .current off => some (d.partitionIdx + off)
  | .fromEnd _ => none

/-- The position is in the partition and its address fits in `usize`. -/
def Addressable (d : OffsetScsiDevice σ) (t : ℤ) : Prop :=
  0 ≤ t ∧ d.partitionStart + t < 2 ^ 64

instance (d : OffsetScsiDevice σ) (t : ℤ) : Decidable (Addressable d t) :=
  inferInstanceAs (Decidable (_ ∧ _))

/-- What a `seek` to position `t` owes: to move there, or to fail and stay. -/
def SeekMeets (d : OffsetScsiDevice σ) (pos : SeekFrom) (t : ℤ) : Prop :=
  if d.Addressable t then d.seek pos = .ok t.toNat { d with partitionIdx := t.toNat }
  else ∃ e, d.seek pos = .err e d

theorem seek_ok (hidx : d.partitionIdx < 2 ^ 64) {pos : SeekFrom} {t : ℤ}
    (ht : d.target pos = some t) (hat : d.Addressable t) :
    d.seek pos = .ok t.toNat { d with partitionIdx := t.toNat } := by
  obtain ⟨h0, h1⟩ := hat
  cases pos with
  | start absr =>
    obtain rfl : (absr : ℤ) = t := Option.some.inj ht
    rfl
  | current off =>
    obtain rfl : d.partitionIdx + off = t := Option.some.inj ht
    have hidx' := seek_current_target hidx h0 (by omega)
    rw [seek, hidx', Int.toNat_natCast]
  | fromEnd off => cases ht

theorem seek_not_err {pos : SeekFrom} {e : IoError} : d.seek pos ≠ .err e d' := by
  intro h
  cases pos <;> cases h

/-- No `seek` fails, so one that meets its contract had to move. -/
theorem SeekMeets.addressable {pos : SeekFrom} {t : ℤ} (h : d.SeekMeets pos t) :
    d.Addressable t := by
  by_contra hnot
  unfold SeekMeets at h
  rw [if_neg hnot] at h
  obtain ⟨e, he⟩ := h
  exact seek_not_err he

/-- Seeks to addressable positions. -/
def SeekFits (d : OffsetScsiDevice σ) : Op → Prop
  | .seek pos => ∃ t, d.target pos = some t ∧ d.Addressable t
  | _ => False

/-- **Seeks to addressable positions** leave an address that does not overflow. -/
theorem seeks_address : ∀ (ops : List Op) (d : OffsetScsiDevice σ), d.pos < 2 ^ 64 →
    Along m SeekFits d ops → (execAll m d ops).rawIdx = (execAll m d ops).pos ∧
      (execAll m d ops).pos < 2 ^ 64
  | [], d, h, _ => ⟨usizeAdd_of_lt h, h⟩
  | op :: ops, d, h, ⟨hfit, hal⟩ => by
    cases op with
    | seek pos =>
      obtain ⟨t, ht, hat⟩ := hfit
      have hidx : d.partitionIdx < 2 ^ 64 := Nat.lt_of_le_of_lt (Nat.le_add_left _ _) h
      have hs : (d.exec m (.seek pos)).state = { d with partitionIdx := t.toNat } := by
        rw [exec, seek_ok hidx ht hat, Outcome.andThen_ok, Outcome.state_ok]
      refine seeks_address ops _ ?_ hal
      dsimp only
      rw [hs]
      obtain ⟨h0, h1⟩ := hat
      unfold OffsetScsiDevice.pos
      dsimp only
      omega
    | _ => exact hfit.elim

/-- **A `seek`** meets its contract exactly if its target is not negative and the address of it fits
in `usize`: to any other it moves, wrapped, and returns `Ok`.  Over seeks that meet it `rawIdx` does
not overflow. -/
theorem seek_meets_iff (d : OffsetScsiDevice σ) (hidx : d.partitionIdx < 2 ^ 64) :
    (∀ (pos : SeekFrom) (t : ℤ), d.target pos = some t →
      (d.SeekMeets pos t ↔ d.Addressable t)) ∧
    ∀ (m : ScsiCrate σ) (ops : List Op), d.pos < 2 ^ 64 → Along m SeekFits d ops →
      (execAll m d ops).rawIdx =
        (execAll m d ops).partitionStart + (execAll m d ops).partitionIdx := by
  refine ⟨fun pos t ht => ?_, fun m ops hd hal => (seeks_address ops d hd hal).1⟩
  refine ⟨fun h => h.addressable, fun hat => ?_⟩
  unfold SeekMeets
  rw [if_pos hat]
  exact seek_ok hidx ht hat

/-- From the middle of a partition: back over its start to the last position `i64` can go to. -/
theorem seek_meets_iff_back :
    (⟨(), ⟨[], 2⟩, 4, 2 ^ 63, 0, false⟩ : OffsetScsiDevice Unit).SeekMeets (.current (-2 ^ 63)) 0 :=
  ((seek_meets_iff (⟨(), ⟨[], 2⟩, 4, 2 ^ 63, 0, false⟩ : OffsetScsiDevice Unit) (by decide)).1
    _ _ rfl).mpr (by decide)

/-- **Seeks that wrap.**  One byte before the start, and to a position whose address does not fit:
both return `Ok`, and the second leaves an address before the partition. -/
theorem seek_wraps :
    (new (scriptedDisk 2) ⟨fun x => x.toUInt8, []⟩ 4).target (.current (-1)) = some (-1) ∧
    ¬ (new (scriptedDisk 2) ⟨fun x => x.toUInt8, []⟩ 4).SeekMeets (.current (-1)) (-1) ∧
    ((new (scriptedDisk 2) ⟨fun x => x.toUInt8, []⟩ 4).seek (.current (-1))).result =
      some (.ok (2 ^ 64 - 1)) ∧
    ¬ (new (scriptedDisk 2) ⟨fun x => x.toUInt8, []⟩ 4).SeekMeets (.start (2 ^ 64 - 2))
      ((2 ^ 64 - 2 : ℕ) : ℤ) ∧
    ((new (scriptedDisk 2) ⟨fun x => x.toUInt8, []⟩ 4).seek (.start (2 ^ 64 - 2))).state.rawIdx =
      2 := by
  exact ⟨rfl, fun h => absurd h.addressable (by decide), by decide,
    fun h => absurd h.addressable (by decide), by decide⟩

end OffsetScsiDevice

end FatDrive
