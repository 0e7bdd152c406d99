import FatDrive.FatfsRaw

/-!
# FatDrive.FatfsRawAdd — which slots `add_fs` looks at

The loop of `add_fs` starts at the default slot, tests the next number modulo 15 and indexes with a
number that is not reduced.  So it looks at the slots from the default one on only, at the last of
them unless the default is 0, and behind them it stops or is out of range.

* `addFsLoop_cases`: the loop stores into a slot looked at, or none of these is free and it stops or
  panics;
* `add_meets_iff`: where that is what `add_fs` owes.
-/

namespace FatDrive

open Lib

namespace FatfsSysContext

variable {σ : Type} {ctx : FatfsSysContext σ}

/-- The slot can be used: nothing is in it, or a device that is gone. -/
def Free (ctx : FatfsSysContext σ) (isConnected : σ → Bool) (i : Fin 15) : Prop :=
  isEmpty isConnected (ctx.drives i) = true

instance (ctx : FatfsSysContext σ) (isConnected : σ → Bool) (i : Fin 15) :
    Decidable (ctx.Free isConnected i) :=
  inferInstanceAs (Decidable (_ = true))

/-- What `add_fs` owes: to store the device in a free slot, changing no other, and return its number,
or to return `0xFF`, changing nothing, where no slot is free. -/
def AddMeets (ctx : FatfsSysContext σ) (isConnected : σ → Bool) (newFs : DeviceHandle σ) : Prop :=
  ∃ r ctx', ctx.addFs isConnected newFs = some (r, ctx') ∧
    ((∃ i, ctx.Free isConnected i ∧ r.toNat = i ∧ ctx' = ctx.setSlot i (some newFs)) ∨
      (∀ i, ¬ ctx.Free isConnected i) ∧ r = 0xFF ∧ ctx' = ctx)

/-- Where the loop leaves: before the last slot if it started at the first. -/
def scanEnd (ctx : FatfsSysContext σ) : ℕ := if ctx.defaultDisk = 0 then 14 else 15

/-- The loop looks at the slot. -/
def Scanned (ctx : FatfsSysContext σ) (i : Fin 15) : Prop :=
  ctx.defaultDisk.toNat ≤ i ∧ (i : ℕ) < ctx.scanEnd

instance (ctx : FatfsSysContext σ) (i : Fin 15) : Decidable (ctx.Scanned i) :=
  inferInstanceAs (Decidable (_ ∧ _))

theorem scanEnd_spec (ctx : FatfsSysContext σ) :
    ctx.defaultDisk.toNat = 0 ∧ ctx.scanEnd = 14 ∨ 0 < ctx.defaultDisk.toNat ∧ ctx.scanEnd = 15 := by
  unfold scanEnd
  by_cases h0 : ctx.defaultDisk = 0
  · rw [if_pos h0, h0]
    exact Or.inl ⟨rfl, rfl⟩
  · rw [if_neg h0]
    exact Or.inr ⟨Nat.pos_of_ne_zero fun h => h0 (UInt8.toNat_inj.mp h), rfl⟩

/-- The slots up to `idx` were not free: the loop stores into one of those it has yet to look at, or
finds none free there and stops, or is out of range.  Once it can look at all of them, the number of
rounds left does not matter. -/
theorem addFsLoop_cases (isConnected : σ → Bool) (newFs : DeviceHandle σ)
    (hlt : ctx.defaultDisk.toNat < 15) : ∀ (rounds idx : ℕ),
    ctx.defaultDisk.toNat ≤ idx → idx ≤ ctx.scanEnd → ctx.scanEnd < rounds + idx →
    (∃ i : Fin 15, ctx.Free isConnected i ∧ idx ≤ i ∧ (i : ℕ) < ctx.scanEnd ∧
      addFsLoop isConnected newFs ctx rounds idx =
        some (UInt8.ofNat i, ctx.setSlot i (some newFs))) ∨
    (∀ i : Fin 15, idx ≤ i → (i : ℕ) < ctx.scanEnd → ¬ ctx.Free isConnected i) ∧
      addFsLoop isConnected newFs ctx rounds idx =
        if ctx.defaultDisk.toNat ≤ 1 then some (0xFF, ctx) else none
  | 0, idx, _, hend, hrounds => by omega
  | rounds + 1, idx, hle, hend, hrounds => by
    have hspec := scanEnd_spec ctx
    rw [addFsLoop]
    by_cases hidx : idx = ctx.scanEnd
    · -- behind the last slot looked at
      refine Or.inr ⟨fun i hi hlti => by omega, ?_⟩
      by_cases h1 : ctx.defaultDisk.toNat ≤ 1
      · rw [if_pos h1, if_neg (by omega)]
      · have h15 : slot? idx = none := dif_neg (by omega)
        rw [if_neg h1, if_pos (by omega), h15]
    · have hslot : slot? idx = some ⟨idx, by omega⟩ := dif_pos (by omega)
      rw [if_pos (by omega), hslot]
      dsimp only
      by_cases hfree : isEmpty isConnected (ctx.drives ⟨idx, by omega⟩) = true
      · rw [if_pos hfree]
        exact Or.inl ⟨⟨idx, by omega⟩, hfree, Nat.le_refl _, by dsimp only; omega, rfl⟩
      · rw [if_neg hfree]
        rcases addFsLoop_cases isConnected newFs hlt rounds (idx + 1) (by omega) (by omega) (by omega) with
          ⟨i, hf, hi, hlti, he⟩ | ⟨hnone, he⟩
        · exact Or.inl ⟨i, hf, by omega, hlti, he⟩
        · refine Or.inr ⟨fun i hi hlti => ?_, he⟩
          by_cases heq : (i : ℕ) = idx
          · subst heq
            exact hfree
          · exact hnone i (by omega) hlti

/-- **`add_fs`** owes to use every free slot.  With a default slot in range it does so exactly if one
of the slots it looks at is free, or none is at all and it started at the first or the second. -/
theorem add_meets_iff (ctx : FatfsSysContext σ) (isConnected : σ → Bool) (newFs : DeviceHandle σ)
    (hlt : ctx.defaultDisk.toNat < 15) :
    ctx.AddMeets isConnected newFs ↔
      (∃ i, ctx.Free isConnected i ∧ ctx.Scanned i) ∨
        ctx.defaultDisk.toNat ≤ 1 ∧ ∀ i, ¬ ctx.Free isConnected i := by
  have hspec := scanEnd_spec ctx
  rcases addFsLoop_cases isConnected newFs hlt 15 ctx.defaultDisk.toNat (Nat.le_refl _) (by omega)
    (by omega) with ⟨i, hf, hi, hlti, he⟩ | ⟨hnone, he⟩
  · refine iff_of_true ⟨_, _, he, Or.inl ⟨i, hf, ?_, rfl⟩⟩ (Or.inl ⟨i, hf, hi, hlti⟩)
    rw [UInt8.toNat_ofNat']
    omega
  · have hno : ¬ ∃ i, ctx.Free isConnected i ∧ ctx.Scanned i := by
      rintro ⟨i, hf, hi, hlti⟩
      exact hnone i hi hlti hf
    rw [or_iff_right hno]
    unfold AddMeets addFs
    rw [he]
    constructor
    · rintro ⟨r, ctx', hr, hmeets⟩
      split at hr
      · next h1 =>
        cases hr
        refine ⟨h1, ?_⟩
        rcases hmeets with ⟨i, -, hi, -⟩ | ⟨hall, -, -⟩
        · -- `0xFF` is no slot
          have : (0xFF : UInt8).toNat = 255 := rfl
          omega
        · exact hall
      · cases hr
    · rintro ⟨h1, hall⟩
      rw [if_pos h1]
      exact ⟨_, _, rfl, Or.inr ⟨hall, rfl, rfl⟩⟩

/-! The device of a slot is its `ℕ`, connected unless it is 0. -/

/-- A drive of the pattern. -/
def patternDrive (n : ℕ) : DeviceHandle ℕ :=
  ⟨⟨512, fun st _ b => (.ok 0, b, st), fun st _ b => (.ok 0, b, st), fun b => b.inner.isEmpty,
    fun b => (.ok b.size, b.drained)⟩, ⟨n, ⟨[], 512⟩, 0, 0, 0, false⟩, ⟨⟨0⟩, .unlisted, 0⟩⟩

/-- Connected devices in every slot but one, which is empty. -/
def allButOne (free : Fin 15) (defaultDisk : UInt8) : FatfsSysContext ℕ :=
  ⟨fun i => if i = free then none else some (patternDrive 1), defaultDisk⟩

theorem add_meets_iff_last : (allButOne 14 3).AddMeets (fun n => n ≠ 0) (patternDrive 2) :=
  (add_meets_iff (allButOne 14 3) (fun n => n ≠ 0) (patternDrive 2) (by decide)).mpr
    (Or.inl ⟨14, by decide, by decide⟩)

/-- **Slots passed over.**  From slot 0 the last slot is not looked at, from slot 1 the first is not;
from slot 2 the loop runs out of the table. -/
theorem slots_passed_over :
    ((allButOne 14 0).addFs (fun n => n ≠ 0) (patternDrive 2)).map (·.1) = some 0xFF ∧
    ((allButOne 0 1).addFs (fun n => n ≠ 0) (patternDrive 2)).map (·.1) = some 0xFF ∧
    ((allButOne 0 2).addFs (fun n => n ≠ 0) (patternDrive 2)).map (·.1) = none ∧
    ¬ (allButOne 14 0).AddMeets (fun n => n ≠ 0) (patternDrive 2) ∧
    ¬ (allButOne 0 2).AddMeets (fun n => n ≠ 0) (patternDrive 2) := by
  have hret : ∀ ctx : FatfsSysContext ℕ, ctx.AddMeets (fun n => n ≠ 0) (patternDrive 2) →
      (∃ i, ctx.Free (fun n => n ≠ 0) i) →
      ∃ i : Fin 15, (ctx.addFs (fun n => n ≠ 0) (patternDrive 2)).map (·.1.toNat) = some ↑i := by
    rintro ctx ⟨r, ctx', hadd, ⟨i, -, hi, -⟩ | ⟨hall, -, -⟩⟩ ⟨i₀, h₀⟩
    · exact ⟨i, by rw [hadd, ← hi]; rfl⟩
    · exact absurd h₀ (hall i₀)
  refine ⟨by decide, by decide, by decide, fun h => ?_, fun h => ?_⟩
  · obtain ⟨i, hi⟩ := hret _ h ⟨14, by decide⟩
    revert i
    decide
  · obtain ⟨i, hi⟩ := hret _ h ⟨0, by decide⟩
    revert i
    decide

end FatfsSysContext

end FatDrive
