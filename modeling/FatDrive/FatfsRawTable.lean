import FatDrive.FatfsRaw

/-!
# FatDrive.FatfsRawTable — the slots and the default drive over whole runs

`IOCTL_ADD_FILESYSTEM` is 0xAD, and 0xAD has bits in common with the mask 0xD0 that `disk_ioctl`
tests first.  So no device is ever registered: `from_device` makes drive 13 the default one and
fails (`fromDevice_eq`, `never_registers`).

There are fifteen slots, while `get_idx` clamps to 15 and four bits of a command make a default
drive: `lookups_in_range` says which calls index out of range.
-/

namespace FatDrive

open Lib

variable {σ : Type}

namespace FatfsSysContext

variable {ctx ctx' : FatfsSysContext σ}

/-! ### Looking a slot up -/

theorem slot?_eq_some {idx : ℕ} {i : Fin 15} : slot? idx = some i ↔ idx = i.val := by
  unfold slot?
  split
  · next h =>
    constructor
    · intro he
      exact congrArg Fin.val (Option.some.inj he)
    · intro he
      exact congrArg some (Fin.ext he)
  · next h =>
    refine iff_of_false nofun ?_
    have := i.isLt
    omega

theorem slot?_isSome {idx : ℕ} : (slot? idx).isSome ↔ idx < 15 := by
  unfold slot?
  split
  · next h => exact iff_of_true rfl h
  · next h => exact iff_of_false Bool.false_ne_true h

theorem getIdx_lt_iff (pdrv : UInt8) :
    ctx.getIdx pdrv < 15 ↔ if pdrv > 0 then pdrv.toNat < 15 else ctx.defaultDisk.toNat < 15 := by
  unfold getIdx
  split
  · omega
  · exact Iff.rfl

@[simp] theorem getFilesystem_isSome (pdrv : UInt8) :
    (ctx.getFilesystem pdrv).isSome ↔ ctx.getIdx pdrv < 15 := by
  rw [getFilesystem, Option.isSome_map, slot?_isSome]

@[simp] theorem resetFilesystem_isSome (pdrv : UInt8) :
    (ctx.resetFilesystem pdrv).isSome ↔ ctx.getIdx pdrv < 15 := by
  rw [resetFilesystem, Option.isSome_map, slot?_isSome]

@[simp] theorem defaultDisk_setSlot (i : Fin 15) (dev : Option (DeviceHandle σ)) :
    (ctx.setSlot i dev).defaultDisk = ctx.defaultDisk := rfl

@[simp] theorem drives_setSlot_self (i : Fin 15) (dev : Option (DeviceHandle σ)) :
    (ctx.setSlot i dev).drives i = dev :=
  Function.update_self ..

theorem drives_setSlot_of_ne {i j : Fin 15} (h : j ≠ i) (dev : Option (DeviceHandle σ)) :
    (ctx.setSlot i dev).drives j = ctx.drives j :=
  Function.update_of_ne h ..

/-- What an operation on a drive does: nothing to an empty slot, and one slot changes otherwise. -/
theorem onDrive_eq_some {α : Type} {pdrv : UInt8} {absent a : α}
    {f : DeviceHandle σ → Option (α × DeviceHandle σ)}
    (h : ctx.onDrive pdrv absent f = some (a, ctx')) :
    ∃ i : Fin 15, ctx.getIdx pdrv = i.val ∧
      ((ctx.drives i = none ∧ a = absent ∧ ctx' = ctx) ∨
        ∃ dev dev', ctx.drives i = some dev ∧ f dev = some (a, dev') ∧
          ctx' = ctx.setSlot i (some dev')) := by
  unfold onDrive getFilesystem at h
  cases hi : slot? (ctx.getIdx pdrv) with
  | none =>
    rw [hi] at h
    cases h
  | some i =>
    refine ⟨i, slot?_eq_some.mp hi, ?_⟩
    rw [hi] at h
    dsimp only [Option.map_some] at h
    cases hd : ctx.drives i with
    | none =>
      rw [hd] at h
      cases h
      exact Or.inl ⟨rfl, rfl, rfl⟩
    | some dev =>
      rw [hd] at h
      obtain ⟨⟨a', dev'⟩, hf, hr⟩ := Option.map_eq_some_iff.mp h
      cases hr
      exact Or.inr ⟨dev, dev', rfl, hf, rfl⟩

/-! ### What a call does to the table -/

/-- The drive number whose slot the call looks up. -/
def Call.looksUp : Call σ → Option UInt8
  | .diskStatus _ pdrv => some pdrv
  | .diskInitialize _ pdrv => some pdrv
  | .diskRead pdrv _ _ _ => some pdrv
  | .diskWrite pdrv _ _ _ => some pdrv
  | .diskIoctl _ pdrv cmd _ =>
    if cmd = ctrlSync ∨ cmd = getSectorSize ∨ cmd = getSectorCount then some pdrv else none

/-- The number the call makes the default drive. -/
def Call.setsDefault : Call σ → Option UInt8
  | .diskIoctl _ _ cmd _ => if cmd &&& ioctlSetDefaultDisk ≠ 0 then some (cmd &&& 0xF) else none
  | _ => none

/-- A call that sets no default operates on the slot it looks up, or leaves the table alone. -/
structure Effect (c : Call σ) (ctx ctx' : FatfsSysContext σ) : Prop where
  defaultDisk : ctx'.defaultDisk = c.setsDefault.getD ctx.defaultDisk
  drives : ctx'.drives = ctx.drives ∨ ∃ pdrv dev, ∃ i : Fin 15, c.looksUp = some pdrv ∧
    ctx.getIdx pdrv = i.val ∧ ctx' = ctx.setSlot i dev ∧ (ctx.drives i = none → dev = none)

theorem Effect.refl {c : Call σ} (h : c.setsDefault = none) : Effect c ctx ctx :=
  ⟨by rw [h]; rfl, Or.inl rfl⟩

theorem Effect.onDrive {c : Call σ} {α : Type} {pdrv : UInt8} {absent a : α}
    {f : DeviceHandle σ → Option (α × DeviceHandle σ)} (hl : c.looksUp = some pdrv)
    (hd : c.setsDefault = none) (h : ctx.onDrive pdrv absent f = some (a, ctx')) :
    Effect c ctx ctx' := by
  obtain ⟨i, hi, ⟨-, -, rfl⟩ | ⟨dev, dev', hdev, -, rfl⟩⟩ := onDrive_eq_some h
  · exact .refl hd
  · refine ⟨by rw [hd]; rfl, Or.inr ⟨pdrv, some dev', i, hl, hi, rfl, ?_⟩⟩
    intro h0
    rw [h0] at hdev
    cases hdev

theorem Effect.diskStatus {c : Call σ} {pdrv s : UInt8} {isConnected : σ → Bool}
    (hl : c.looksUp = some pdrv) (hd : c.setsDefault = none)
    (h : ctx.diskStatus isConnected pdrv = some (s, ctx')) : Effect c ctx ctx' := by
  unfold FatfsSysContext.diskStatus at h
  split at h
  · cases h
  · dsimp only at h
    split at h
    · obtain ⟨ctx₁, hr, he⟩ := Option.map_eq_some_iff.mp h
      cases he
      obtain ⟨i, hi, rfl⟩ := Option.map_eq_some_iff.mp hr
      exact ⟨by rw [hd]; rfl,
        Or.inr ⟨pdrv, none, i, hl, slot?_eq_some.mp hi, rfl, fun _ => rfl⟩⟩
    · cases h
      exact .refl hd

/-- **All a call can do to the table.**  The branch of `IOCTL_ADD_FILESYSTEM` is never reached. -/
theorem exec_effect {c : Call σ} {a : Answer σ} (h : ctx.exec c = some (a, ctx')) :
    Effect c ctx ctx' := by
  cases c with
  | diskStatus isConnected pdrv =>
    obtain ⟨⟨s, ctx₁⟩, hs, he⟩ := Option.map_eq_some_iff.mp h
    cases he
    exact .diskStatus rfl rfl hs
  | diskInitialize isConnected pdrv =>
    obtain ⟨⟨s, ctx₁⟩, hi, he⟩ := Option.map_eq_some_iff.mp h
    obtain ⟨⟨s', ctx₂⟩, hs, he'⟩ := Option.map_eq_some_iff.mp hi
    cases he'
    cases he
    exact .diskStatus rfl rfl hs
  | diskRead pdrv bufPtr sector count =>
    obtain ⟨⟨r, ctx₁⟩, hr, he⟩ := Option.map_eq_some_iff.mp h
    cases he
    exact .onDrive rfl rfl hr
  | diskWrite pdrv bufPtr sector count =>
    obtain ⟨⟨r, ctx₁⟩, hr, he⟩ := Option.map_eq_some_iff.mp h
    cases he
    exact .onDrive rfl rfl hr
  | diskIoctl isConnected pdrv cmd buf =>
    obtain ⟨⟨r, ctx₁⟩, hr, he⟩ := Option.map_eq_some_iff.mp h
    cases he
    unfold diskIoctl at hr
    split at hr
    · next hmask =>
      cases hr
      exact ⟨by rw [Call.setsDefault, if_pos hmask]; rfl, Or.inl rfl⟩
    · next hmask =>
      have hd : (Call.diskIoctl isConnected pdrv cmd buf).setsDefault = none := if_neg hmask
      split at hr
      · next hcmd =>
        obtain ⟨⟨r', ctx₂⟩, hr', he'⟩ := Option.map_eq_some_iff.mp hr
        cases he'
        exact .onDrive (if_pos (Or.inl hcmd)) hd hr'
      · split at hr
        · next hcmd => exact .onDrive (if_pos (Or.inr (Or.inl hcmd))) hd hr
        · split at hr
          · cases hr
            exact .refl hd
          · split at hr
            · next hcmd => exact .onDrive (if_pos (Or.inr (Or.inr hcmd))) hd hr
            · split at hr
              · next hcmd =>
                rw [hcmd] at hmask
                exact absurd hmask (by decide)
              · split at hr <;> cases hr <;> exact .refl hd

/-- No call fills an empty slot. -/
theorem Effect.empty {c : Call σ} {i : Fin 15} (h : Effect c ctx ctx') (h0 : ctx.drives i = none) :
    ctx'.drives i = none := by
  rcases h.drives with hsame | ⟨pdrv, dev, j, -, -, rfl, hdev⟩
  · rw [hsame]
    exact h0
  · by_cases hij : i = j
    · subst hij
      rw [drives_setSlot_self]
      exact hdev h0
    · rw [drives_setSlot_of_ne hij]
      exact h0

/-! ### Registering a device -/

theorem fromDevice_eq (isConnected : σ → Bool) {handle : DeviceHandle σ}
    (hs : handle.partitionInfo.partitionType.supported = true) :
    FatfsSysFileSystem.fromDevice ctx isConnected handle =
      some (.error ⟨.other, none⟩, { ctx with defaultDisk := 13 }) := by
  have hmask : ioctlAddFilesystem &&& ioctlSetDefaultDisk ≠ 0 := by decide
  unfold FatfsSysFileSystem.fromDevice diskIoctl
  rw [if_pos hs, if_pos hmask]
  rfl

/-- Registering a device works: it is stored in a slot that was empty or held a disconnected device,
and the file system carries that slot's number; or there is no such slot, and registering fails.
Nothing else in the table changes. -/
def Registers (isConnected : σ → Bool) (ctx : FatfsSysContext σ) (handle : DeviceHandle σ) : Prop :=
  (∃ (i : Fin 15) (fs : FatfsSysFileSystem), isEmpty isConnected (ctx.drives i) = true ∧
    FatfsSysFileSystem.fromDevice ctx isConnected handle =
      some (.ok fs, ctx.setSlot i (some handle)) ∧ fs.idx.toNat = i.val) ∨
  ((∀ i, isEmpty isConnected (ctx.drives i) = false) ∧
    ∃ e, FatfsSysFileSystem.fromDevice ctx isConnected handle = some (.error e, ctx))

/-- In any table, registering works only where it is to fail and drive 13 is the default already. -/
theorem registers_iff {isConnected : σ → Bool} {handle : DeviceHandle σ}
    (hs : handle.partitionInfo.partitionType.supported = true) :
    Registers isConnected ctx handle ↔
      (∀ i, isEmpty isConnected (ctx.drives i) = false) ∧ ctx.defaultDisk = 13 := by
  unfold Registers
  rw [fromDevice_eq isConnected hs]
  constructor
  · rintro (⟨i, fs, -, he, -⟩ | ⟨hfull, e, he⟩)
    · cases he
    · have h13 := (Prod.mk.inj (Option.some.inj he)).2
      exact ⟨hfull, by rw [← h13]⟩
  · rintro ⟨hfull, h13⟩
    refine Or.inr ⟨hfull, ⟨.other, none⟩, ?_⟩
    rw [← h13]

/-- No slot is ever filled. -/
theorem run_empty {ls : List (Call σ × Answer σ)} (h : Run Step new ls ctx) (i : Fin 15) :
    ctx.drives i = none :=
  h.invariant (I := fun ctx => ctx.drives i = none) (fun _ _ _ h0 hs => (exec_effect hs).empty h0) rfl

/-- **No device is ever registered**, in whatever table the program reaches. -/
theorem never_registers {ls : List (Call σ × Answer σ)} (h : Run Step new ls ctx)
    {isConnected : σ → Bool} {handle : DeviceHandle σ}
    (hs : handle.partitionInfo.partitionType.supported = true) :
    ¬ Registers isConnected ctx handle := by
  intro hr
  have hfull := ((registers_iff hs).mp hr).1 0
  rw [run_empty h 0] at hfull
  cases hfull

/-- A connected device with a partition of 8 sectors of FAT32. -/
def fat32Handle : DeviceHandle Unit where
  scsi :=
    { blockSize := 512
      read := fun st _ b => (.ok 0, b, st)
      write := fun st _ b => (.ok 0, b, st)
      isEmpty := fun b => b.inner.isEmpty
      clear := fun b => (.ok 0, b.drained) }
  device := ⟨(), .withFakeCapacity 512, 512, 0, 0, false⟩
  partitionInfo := ⟨⟨1⟩, .fat32 0x0C, 8⟩

theorem never_registers_first :
    fat32Handle.partitionInfo.partitionType.supported = true ∧
      ¬ Registers (fun _ => true) new fat32Handle :=
  ⟨rfl, never_registers (.nil new) rfl⟩

/-- The table is empty, the device is connected and its partition supported, and it is not stored:
the default drive changes instead. -/
theorem unregistered :
    ¬ Registers (fun _ => true) new fat32Handle ∧
      FatfsSysFileSystem.fromDevice new (fun _ => true) fat32Handle =
        some (.error ⟨.other, none⟩, ⟨fun _ => none, 13⟩) := by
  refine ⟨?_, rfl⟩
  rintro (⟨i, fs, -, he, -⟩ | ⟨hfull, -⟩)
  · cases he
  · cases hfull 0

/-! ### Slot numbers -/

/-- The call looks up no drive from 15 on, and makes none the default. -/
def Call.InRange (c : Call σ) : Prop :=
  (∀ pdrv, c.looksUp = some pdrv → pdrv.toNat < 15) ∧ ∀ n, c.setsDefault = some n → n.toNat < 15

/-- The slots the call looks up are there, and the default drive is one of the table after it. -/
def IndexesInRange (ctx : FatfsSysContext σ) (c : Call σ) : Prop :=
  (∀ pdrv, c.looksUp = some pdrv → ctx.getIdx pdrv < 15 ∧ (ctx.getFilesystem pdrv).isSome ∧
    (ctx.resetFilesystem pdrv).isSome) ∧
  ∀ a ctx', ctx.exec c = some (a, ctx') → ctx'.defaultDisk.toNat < 15

theorem exec_setsDefault {c : Call σ} {n : UInt8} (h : c.setsDefault = some n) :
    ∃ a, ctx.exec c = some (a, { ctx with defaultDisk := n }) := by
  cases c with
  | diskIoctl isConnected pdrv cmd buf =>
    obtain ⟨hmask, hn⟩ := Option.ite_none_right_eq_some.mp h
    refine ⟨.ioctl .resOk buf, ?_⟩
    rw [exec, diskIoctl, if_pos hmask, ← Option.some.inj hn]
    rfl
  | diskStatus isConnected pdrv => cases h
  | diskInitialize isConnected pdrv => cases h
  | diskRead pdrv bufPtr sector count => cases h
  | diskWrite pdrv bufPtr sector count => cases h

theorem indexesInRange_iff (hd : ctx.defaultDisk.toNat < 15) (c : Call σ) :
    IndexesInRange ctx c ↔ c.InRange := by
  constructor
  · rintro ⟨hl, hs⟩
    refine ⟨fun pdrv hp => ?_, fun n hn => ?_⟩
    · have hidx := (getIdx_lt_iff pdrv).mp (hl pdrv hp).1
      split at hidx
      · exact hidx
      · next h0 =>
        have := UInt8.not_lt.mp h0
        have hle : pdrv.toNat ≤ 0 := this
        omega
    · obtain ⟨a, ha⟩ := exec_setsDefault hn
      exact hs a _ ha
  · rintro ⟨hl, hs⟩
    refine ⟨fun pdrv hp => ?_, fun a ctx' h => ?_⟩
    · have hidx : ctx.getIdx pdrv < 15 := by
        rw [getIdx_lt_iff]
        split
        · exact hl pdrv hp
        · exact hd
      exact ⟨hidx, (getFilesystem_isSome pdrv).mpr hidx, (resetFilesystem_isSome pdrv).mpr hidx⟩
    · rw [(exec_effect h).defaultDisk]
      cases hset : c.setsDefault with
      | none => exact hd
      | some n => exact hs n hset

/-- A call that looks up a slot out of range is not answered. -/
theorem exec_eq_none {c : Call σ} {pdrv : UInt8} (hl : c.looksUp = some pdrv)
    (h : 15 ≤ ctx.getIdx pdrv) : ctx.exec c = none := by
  have hslot : slot? (ctx.getIdx pdrv) = none := dif_neg (by omega)
  have hget : ctx.getFilesystem pdrv = none := by
    rw [getFilesystem, hslot]
    rfl
  have honDrive : ∀ {α : Type} (absent : α) (f : DeviceHandle σ → Option (α × DeviceHandle σ)),
      ctx.onDrive pdrv absent f = none := by
    intro α absent f
    rw [onDrive, hget]
  have hstatus : ∀ isConnected, ctx.diskStatus isConnected pdrv = none := by
    intro isConnected
    rw [diskStatus, hget]
  cases c with
  | diskStatus isConnected p =>
    cases hl
    rw [exec, hstatus]
    rfl
  | diskInitialize isConnected p =>
    cases hl
    rw [exec, diskInitialize, hstatus]
    rfl
  | diskRead p bufPtr sector count =>
    cases hl
    rw [exec, diskRead, honDrive]
    rfl
  | diskWrite p bufPtr sector count =>
    cases hl
    rw [exec, diskWrite, honDrive]
    rfl
  | diskIoctl isConnected p cmd buf =>
    obtain ⟨hcmd, hp⟩ := Option.ite_none_right_eq_some.mp hl
    cases hp
    rw [exec, diskIoctl]
    rcases hcmd with rfl | rfl | rfl
    · rw [if_neg (by decide), if_pos rfl, honDrive]
      rfl
    · rw [if_neg (by decide), if_neg (by decide), if_pos rfl, honDrive]
      rfl
    · rw [if_neg (by decide), if_neg (by decide), if_neg (by decide), if_neg (by decide),
        if_pos rfl, honDrive]
      rfl

/-- **Lookups stay in range**, along every run of calls that look up no drive from 15 on and make
none the default; and that is what the next call must keep to. -/
theorem lookups_in_range {ls : List (Call σ × Answer σ)}
    (h : Run (Guard Step fun _ l => l.1.InRange) new ls ctx) :
    ctx.defaultDisk.toNat < 15 ∧ ∀ c, IndexesInRange ctx c ↔ c.InRange := by
  have hd : ctx.defaultDisk.toNat < 15 := by
    refine h.invariant (I := fun ctx => ctx.defaultDisk.toNat < 15) ?_ (Nat.zero_lt_succ 14)
    rintro ctx l ctx' hd ⟨hc, hs⟩
    exact ((indexesInRange_iff hd l.1).mpr hc).2 l.2 ctx' hs
  exact ⟨hd, indexesInRange_iff hd⟩

/-- Drive 3 is made the default and asked for as drive 0. -/
theorem lookups_in_range_third :
    ∃ ctx : FatfsSysContext Unit,
      Run (Guard Step fun _ l => l.1.InRange) new
        [(.diskIoctl (fun _ => true) 0 0xD3 .null, .ioctl .resOk .null),
          (.diskStatus (fun _ => true) 0, .status staNoinit)] ctx ∧
        ctx.defaultDisk.toNat < 15 ∧
        ∀ c, IndexesInRange ctx c ↔ c.InRange := by
  have hrun : Run (Guard Step fun _ l => l.1.InRange) (new : FatfsSysContext Unit)
      [(.diskIoctl (fun _ => true) 0 0xD3 .null, .ioctl .resOk .null),
        (.diskStatus (fun _ => true) 0, .status staNoinit)]
      (FatfsSysContext.setSlot ⟨fun _ => none, 3⟩ 3 none) := by
    refine .cons ⟨⟨nofun, ?_⟩, rfl⟩ (.cons ⟨⟨?_, nofun⟩, rfl⟩ (.nil _))
    · rintro _ ⟨⟩
      decide
    · rintro _ ⟨⟩
      decide
  exact ⟨_, hrun, lookups_in_range hrun⟩

/-- **Two calls that index out of range**: command 0xDF makes drive 15 the default, after which
physical drive 0 cannot be asked for; and drive 15 cannot be asked for in the first place. -/
theorem out_of_range :
    ∃ ctx : FatfsSysContext Unit,
      Run Step new [(.diskIoctl (fun _ => true) 0 0xDF .null, .ioctl .resOk .null)] ctx ∧
        ctx.defaultDisk = 15 ∧ ctx.getIdx 0 = 15 ∧
        ctx.exec (.diskRead 0 [] 0 0) = none ∧
        (new : FatfsSysContext Unit).getIdx 15 = 15 ∧
        (new : FatfsSysContext Unit).exec (.diskRead 15 [] 0 0) = none :=
  ⟨⟨fun _ => none, 15⟩, .single rfl, rfl, rfl, exec_eq_none rfl (Nat.le_refl 15), rfl,
    exec_eq_none rfl (Nat.le_refl 15)⟩

end FatfsSysContext

end FatDrive
