import FatDrive.NewlibContext

/-!
# FatDrive.NewlibPartitions — what `NewlibContext::open_partition` leaves when it fails

The state is taken out of the context once the partition table has been read, and put back only when
the file system is mounted.

* `getPartitions_kept`: reading the table keeps the state, whatever it returns;
* `openPartition_acquired`: all that follows in an acquired state whose table could be read;
* `open_atomic_iff`: a failure before the state is taken out leaves it, a later one does not.
-/

namespace FatDrive

open Lib

variable {σ ι φ : Type} {m : ScsiCrate σ} {mbr : MbrCrate}

/-- The same interface and client, whatever the client has transferred, or the same file system, or
still nothing. -/
inductive ClientState.Kept : ClientState σ ι φ → ClientState σ ι φ → Prop
  | uninitialized : Kept .uninitialized .uninitialized
  | acquired (iface : ι) (client client' : σ) : Kept (.acquired iface client) (.acquired iface client')
  | opened (iface : ι) (fs : φ) (ent : PartitionTableEntry) :
      Kept (.opened iface fs ent) (.opened iface fs ent)

theorem ClientState.Kept.refl : ∀ s : ClientState σ ι φ, s.Kept s
  | .uninitialized => .uninitialized
  | .acquired iface client => .acquired iface client client
  | .opened iface fs ent => .opened iface fs ent

/-- Reading the boot record never panics. -/
theorem readMbr_not_panicked {st' : σ} : ∀ (rounds : ℕ) (st : σ) (buf : VecNewtype),
    readMbr m rounds st buf ≠ some (.panicked st')
  | 0, st, buf => by
    rw [readMbr]
    split <;> simp
  | rounds + 1, st, buf => by
    rw [readMbr]
    split
    · split
      · exact readMbr_not_panicked rounds _ _
      · simp
    · simp

namespace NewlibContext

variable {newFs : OffsetScsiDevice σ → Except IoError φ} {rounds idx : ℕ}
  {ctx : NewlibContext σ ι φ}

/-- The table can be read, and `client` is left in the acquired state by that. -/
def ReadsTable (m : ScsiCrate σ) (mbr : MbrCrate) (rounds : ℕ) (ctx : NewlibContext σ ι φ)
    (entries : List PartitionTableEntry) (iface : ι) (client : σ) : Prop :=
  ctx.getPartitions m mbr rounds = some (.ok entries ⟨.acquired iface client⟩)

/-- Entry `idx` of the table is `ent`, and `fs` is the file system of the device that starts there. -/
def Mounts (m : ScsiCrate σ) (newFs : OffsetScsiDevice σ → Except IoError φ) (idx : ℕ)
    (entries : List PartitionTableEntry) (client : σ) (ent : PartitionTableEntry) (fs : φ) : Prop :=
  entries[idx]? = some ent ∧ newFs (.new m client (rawOffset ent m.blockSize)) = .ok fs

/-- What `open_partition` owes: to leave the state as it was, or to have opened entry `idx`. -/
def OpenMeets (m : ScsiCrate σ) (mbr : MbrCrate) (newFs : OffsetScsiDevice σ → Except IoError φ)
    (rounds : ℕ) (ctx : NewlibContext σ ι φ) (idx : ℕ) :
    Outcome ℕ (NewlibContext σ ι φ) Unit → Prop
  | .err _ ctx' => ctx.clientState.Kept ctx'.clientState
  | .ok _ ctx' => ∃ entries iface client ent fs, ReadsTable m mbr rounds ctx entries iface client ∧
      Mounts m newFs idx entries client ent fs ∧ ctx' = ⟨.opened iface fs ent⟩
  | .panicked _ => False

/-- **Reading the table** keeps the state, and succeeds in the acquired state only. -/
theorem getPartitions_kept {r : Outcome ℕ (NewlibContext σ ι φ) (List PartitionTableEntry)}
    (h : ctx.getPartitions m mbr rounds = some r) :
    ctx.clientState.Kept r.state.clientState ∧
      (r.isOk = true → ∃ entries iface client, r = .ok entries ⟨.acquired iface client⟩) := by
  unfold getPartitions at h
  split at h
  · cases h
    exact ⟨.refl _, fun hok => by cases hok⟩
  · cases h
    exact ⟨.refl _, fun hok => by cases hok⟩
  · next iface client hst =>
    obtain ⟨read, -, rfl⟩ := Option.map_eq_some_iff.mp h
    rw [hst]
    cases read with
    | err e client' => exact ⟨.acquired iface client client', fun hok => by cases hok⟩
    | panicked client' => exact ⟨.acquired iface client client', fun hok => by cases hok⟩
    | ok mbrBuff client' =>
      dsimp only
      split
      · exact ⟨.acquired iface client client', fun hok => by cases hok⟩
      · next entries _ =>
        exact ⟨.acquired iface client client', fun _ => ⟨entries, iface, client', rfl⟩⟩

theorem getPartitions_not_panicked {ctx' : NewlibContext σ ι φ} :
    ctx.getPartitions m mbr rounds ≠ some (.panicked ctx') := by
  intro h
  unfold getPartitions at h
  split at h
  · cases h
  · cases h
  · next iface client _ =>
    obtain ⟨read, hread, h⟩ := Option.map_eq_some_iff.mp h
    cases read with
    | err e client' => cases h
    | panicked client' => exact readMbr_not_panicked _ _ _ hread
    | ok mbrBuff client' =>
      dsimp only at h
      split at h <;> cases h

/-- What follows once the table has been read and the state taken out. -/
theorem openPartition_acquired {entries : List PartitionTableEntry} {iface : ι} {client : σ}
    (h : ReadsTable m mbr rounds ctx entries iface client) :
    ctx.openPartition m mbr newFs rounds idx = some (
      match entries[idx]? with
      | none => .err nxFatdriveErrUnknown ⟨.uninitialized⟩
      | some ent =>
        match newFs (.new m client (rawOffset ent m.blockSize)) with
        | .error e => .err (LibnxErrMapper.map e) ⟨.uninitialized⟩
        | .ok fs => .ok () ⟨.opened iface fs ent⟩) := by
  unfold openPartition
  rw [show ctx.getPartitions m mbr rounds = _ from h]
  rfl

/-- An acquired state can be opened: the entry asked for is, if it can be mounted. -/
theorem openPartition_usable {entries : List PartitionTableEntry} {iface : ι} {client : σ}
    {ent : PartitionTableEntry} {fs : φ} (h : ReadsTable m mbr rounds ctx entries iface client)
    (hmount : Mounts m newFs idx entries client ent fs) :
    ctx.openPartition m mbr newFs rounds idx = some (.ok () ⟨.opened iface fs ent⟩) := by
  rw [openPartition_acquired h, hmount.1]
  dsimp only
  rw [hmount.2]

/-- If the table cannot be read, nothing is taken out. -/
theorem openPartition_unread {r : Outcome ℕ (NewlibContext σ ι φ) Unit}
    (h : ctx.openPartition m mbr newFs rounds idx = some r)
    (hno : ¬ ∃ entries iface client, ReadsTable m mbr rounds ctx entries iface client) :
    ∃ code ctx', r = .err code ctx' ∧ ctx.clientState.Kept ctx'.clientState := by
  obtain ⟨r₁, hr₁, rfl⟩ := Option.map_eq_some_iff.mp h
  obtain ⟨hkept, hok⟩ := getPartitions_kept hr₁
  cases r₁ with
  | err e ctx' => exact ⟨e, ctx', rfl, hkept⟩
  | panicked ctx' => exact absurd hr₁ getPartitions_not_panicked
  | ok entries ctx' =>
    obtain ⟨entries', iface, client, heq⟩ := hok rfl
    rw [heq] at hr₁
    exact absurd ⟨_, _, _, hr₁⟩ hno

/-- A table that can be read was read in the acquired state, which the uninitialised one is not. -/
theorem ReadsTable.not_kept {entries : List PartitionTableEntry} {iface : ι} {client : σ}
    (h : ReadsTable m mbr rounds ctx entries iface client) :
    ¬ ctx.clientState.Kept .uninitialized := by
  have hst : ctx.clientState.Kept (.acquired iface client) := (getPartitions_kept h).1
  intro hkept
  cases hc : ctx.clientState <;> rw [hc] at hst hkept <;> cases hst
  cases hkept

/-- If the table can be read, the state left is that of the entry asked for, or none. -/
theorem openMeets_iff_of_readsTable {r : Outcome ℕ (NewlibContext σ ι φ) Unit}
    (h : ctx.openPartition m mbr newFs rounds idx = some r) {entries : List PartitionTableEntry}
    {iface : ι} {client : σ} (hread : ReadsTable m mbr rounds ctx entries iface client) :
    OpenMeets m mbr newFs rounds ctx idx r ↔ ∃ ent fs, Mounts m newFs idx entries client ent fs := by
  rw [openPartition_acquired hread] at h
  cases h
  constructor
  · intro hmeets
    split at hmeets
    · exact absurd hmeets hread.not_kept
    · next ent hent =>
      split at hmeets
      · exact absurd hmeets hread.not_kept
      · next fs hfs => exact ⟨ent, fs, hent, hfs⟩
  · rintro ⟨ent, fs, hent, hfs⟩
    rw [hent]
    dsimp only
    rw [hfs]
    exact ⟨entries, iface, client, ent, fs, hread, ⟨hent, hfs⟩, rfl⟩

/-- **`open_partition`** leaves the state as it was when it fails, and opens the entry asked for when
it does not, exactly if nothing can fail once the state is taken out: whenever the table can be read
it has the entry, and that can be mounted.  A state left acquired can be opened by another call. -/
theorem open_atomic_iff {r : Outcome ℕ (NewlibContext σ ι φ) Unit}
    (h : ctx.openPartition m mbr newFs rounds idx = some r) :
    (OpenMeets m mbr newFs rounds ctx idx r ↔ ∀ entries iface client,
      ReadsTable m mbr rounds ctx entries iface client →
      ∃ ent fs, Mounts m newFs idx entries client ent fs) ∧
    ∀ (newFs' : OffsetScsiDevice σ → Except IoError φ) (idx' : ℕ) entries iface client ent fs,
      ReadsTable m mbr rounds r.state entries iface client →
      Mounts m newFs' idx' entries client ent fs →
      r.state.openPartition m mbr newFs' rounds idx' = some (.ok () ⟨.opened iface fs ent⟩) := by
  refine ⟨?_, fun _ _ _ _ _ _ _ hread hmount => openPartition_usable hread hmount⟩
  by_cases htable : ∃ entries iface client, ReadsTable m mbr rounds ctx entries iface client
  · obtain ⟨entries, iface, client, hread⟩ := htable
    rw [openMeets_iff_of_readsTable h hread]
    constructor
    · intro hmount entries' iface' client' hread'
      cases hread'.symm.trans hread
      exact hmount
    · intro hall
      exact hall _ _ _ hread
  · obtain ⟨code, ctx', rfl, hkept⟩ := openPartition_unread h htable
    exact iff_of_true hkept fun entries iface client hread => absurd ⟨_, _, _, hread⟩ htable

/-- The table of the present drive. -/
theorem readsTable_present : ReadsTable presentSetUp.scsi presentSetUp.mbr presentSetUp.rounds
    acquiredState.toNewlibContext [⟨1⟩, ⟨0⟩, ⟨0⟩, ⟨0⟩] Globals.sampleInterface () :=
  presentSetUp_getPartitions

theorem open_atomic_iff_present :
    OpenMeets presentSetUp.scsi presentSetUp.mbr (fun _ => .ok ()) presentSetUp.rounds
      acquiredState.toNewlibContext 0 (.ok () mountedState.toNewlibContext) := by
  refine (open_atomic_iff presentSetUp_openPartition).1.mpr fun entries iface client hread => ?_
  have heq := hread.symm.trans readsTable_present
  cases heq
  exact ⟨⟨1⟩, (), rfl, rfl⟩

/-- **A client lost.**  The table has no fifth entry; or the file system cannot be mounted.  Either
way the acquired client is gone, and the next call has nothing to open. -/
theorem client_lost :
    (acquiredState.toNewlibContext.openPartition presentSetUp.scsi presentSetUp.mbr (fun _ => .ok ())
      presentSetUp.rounds 4 =
        some (.err nxFatdriveErrUnknown ⟨(.uninitialized : ClientState Unit Interface Unit)⟩)) ∧
    (acquiredState.toNewlibContext.openPartition presentSetUp.scsi presentSetUp.mbr
      (fun _ => .error ⟨.other, none⟩) presentSetUp.rounds 0 =
        some (.err (LibnxErrMapper.map (⟨.other, none⟩ : IoError)) ⟨.uninitialized⟩)) ∧
    ¬ OpenMeets presentSetUp.scsi presentSetUp.mbr (fun _ => .ok ()) presentSetUp.rounds
      acquiredState.toNewlibContext 4 (.err nxFatdriveErrUnknown ⟨.uninitialized⟩) ∧
    (⟨.uninitialized⟩ : NewlibContext Unit Interface Unit).openPartition presentSetUp.scsi
      presentSetUp.mbr (fun _ => .ok ()) presentSetUp.rounds 0 =
        some (.err nxFatdriveErrNotInitialized ⟨.uninitialized⟩) := by
  refine ⟨?_, ?_, fun hmeets => ?_, rfl⟩
  · rw [openPartition_acquired readsTable_present]
    rfl
  · rw [openPartition_acquired readsTable_present]
    rfl
  · cases hmeets

end NewlibContext

end FatDrive
