import FatDrive.FatfsRawTable

/-!
# FatDrive.FatfsRawRequests — reads, writes and syncs at the slot they reach

A request for sectors is a `disk_read`, a `disk_write` or a `CTRL_SYNC`.  The default drive and the
number asked for decide the slot it reaches (`reached`); what it does there is `Call.onHandle`, and
the rest of the table has no part in it (`exec_request`).
-/

namespace FatDrive

open Lib

variable {σ : Type}

namespace FatfsSysContext

variable {ctx ctx' : FatfsSysContext σ}

/-- A read, a write or a sync. -/
def Call.isRequest : Call σ → Bool
  | .diskRead .. => true
  | .diskWrite .. => true
  | .diskIoctl _ _ cmd _ => cmd = ctrlSync
  | _ => false

/-- What a request does to the handle in its slot. -/
def Call.onHandle : Call σ → DeviceHandle σ → Option (Answer σ × DeviceHandle σ)
  | .diskRead _ bufPtr sector count, dev =>
    (readHandle dev bufPtr sector count).map fun r => (.read r.1.1 r.1.2, r.2)
  | .diskWrite _ bufPtr sector count, dev =>
    (writeHandle dev bufPtr sector count).map fun r => (.write r.1, r.2)
  | .diskIoctl _ _ _ buf, dev => (syncHandle dev).map fun r => (.ioctl r.1 buf, r.2)
  | _, _ => none

/-- The slot a call looks up. -/
def reached (ctx : FatfsSysContext σ) (c : Call σ) : Option (Fin 15) :=
  c.looksUp.bind fun pdrv => slot? (ctx.getIdx pdrv)

/-- The part of a trace that goes to slot `i`. -/
def ofSlot (ctx : FatfsSysContext σ) (i : Fin 15) (ls : List (Call σ × Answer σ)) :
    List (Call σ × Answer σ) :=
  ls.filter fun l => ctx.reached l.1 = some i

theorem reached_congr (hd : ctx'.defaultDisk = ctx.defaultDisk) (c : Call σ) :
    ctx'.reached c = ctx.reached c := by
  unfold reached getIdx
  rw [hd]

theorem onDrive_some {α : Type} {pdrv : UInt8} {i : Fin 15} {dev : DeviceHandle σ} {absent : α}
    {f : DeviceHandle σ → Option (α × DeviceHandle σ)} (hi : slot? (ctx.getIdx pdrv) = some i)
    (hdev : ctx.drives i = some dev) :
    ctx.onDrive pdrv absent f = (f dev).map fun r => (r.1, ctx.setSlot i (some r.2)) := by
  unfold onDrive getFilesystem
  rw [hi, Option.map_some, hdev]

/-- **A request is answered by the handle in its slot**, which is all that it changes. -/
theorem exec_request {c : Call σ} {i : Fin 15} {dev : DeviceHandle σ} (hr : c.isRequest = true)
    (hi : ctx.reached c = some i) (hdev : ctx.drives i = some dev) :
    ctx.exec c = (c.onHandle dev).map fun r => (r.1, ctx.setSlot i (some r.2)) := by
  obtain ⟨pdrv, hl, hslot⟩ := Option.bind_eq_some_iff.mp hi
  cases c with
  | diskStatus isConnected p => cases hr
  | diskInitialize isConnected p => cases hr
  | diskRead p bufPtr sector count =>
    cases hl
    rw [exec, diskRead, onDrive_some hslot hdev, Call.onHandle, Option.map_map, Option.map_map]
    rfl
  | diskWrite p bufPtr sector count =>
    cases hl
    rw [exec, diskWrite, onDrive_some hslot hdev, Call.onHandle, Option.map_map, Option.map_map]
    rfl
  | diskIoctl isConnected p cmd buf =>
    obtain rfl : cmd = ctrlSync := of_decide_eq_true hr
    obtain rfl : p = pdrv := by
      rw [Call.looksUp, if_pos (Or.inl rfl)] at hl
      exact Option.some.inj hl
    rw [exec, diskIoctl, if_neg (by decide), if_pos rfl, onDrive_some hslot hdev, Call.onHandle]
    simp only [Option.map_map]
    rfl

theorem defaultDisk_request {c : Call σ} {a : Answer σ} (hr : c.isRequest = true)
    (h : ctx.exec c = some (a, ctx')) : ctx'.defaultDisk = ctx.defaultDisk := by
  have hset : c.setsDefault = none := by
    cases c with
    | diskIoctl isConnected p cmd buf =>
      obtain rfl : cmd = ctrlSync := of_decide_eq_true hr
      have hmask : ¬ (ctrlSync &&& ioctlSetDefaultDisk ≠ 0) := by decide
      rw [Call.setsDefault, if_neg hmask]
    | diskStatus isConnected p => rfl
    | diskInitialize isConnected p => rfl
    | diskRead p bufPtr sector count => rfl
    | diskWrite p bufPtr sector count => rfl
  rw [(exec_effect h).defaultDisk, hset]
  rfl

/-- The step of a request, at its slot. -/
theorem step_request {c : Call σ} {a : Answer σ} {i : Fin 15} {dev : DeviceHandle σ}
    (hr : c.isRequest = true) (hi : ctx.reached c = some i) (hdev : ctx.drives i = some dev) :
    Step ctx (c, a) ctx' ↔
      ∃ dev', c.onHandle dev = some (a, dev') ∧ ctx' = ctx.setSlot i (some dev') := by
  unfold Step
  rw [exec_request hr hi hdev, Option.map_eq_some_iff]
  constructor
  · rintro ⟨⟨a', dev'⟩, ha, he⟩
    cases he
    exact ⟨dev', ha, rfl⟩
  · rintro ⟨dev', ha, rfl⟩
    exact ⟨(a, dev'), ha, rfl⟩

end FatfsSysContext

end FatDrive
