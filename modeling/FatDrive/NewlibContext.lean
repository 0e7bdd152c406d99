import FatDrive.UsbFsInit

/-!
# FatDrive.NewlibContext — acquiring a drive for the newlib device

A `NewlibContext` goes from holding nothing to a client and from there to a mounted file system.
`waitForUsbDrive` matches on this state, to return at once if there is a drive.  The pattern of its
first arm is a name and not a constructor, so that arm is taken in every state.

* `wait_ok`: a wait that succeeds has acquired an interface, and holds its client;
* `exec_acquired`: the other calls acquire nothing;
* `keepsDrive_iff`: the runs in which every step leaves a drive alone are those without a wait in a
  state that has one;
* `second_wait`: a second wait drops the file system that is mounted.
-/

namespace FatDrive

open Lib

/-- The context with its USB context, and the interfaces that `acquire_interface` has given so far,
the latest first. -/
structure NewlibState (U σ φ : Type) extends NewlibContext σ Interface φ where
  usbHsCtx : Option U
  acquired : List Interface

namespace SetUp

variable {U S σ φ : Type} (su : SetUp U S σ φ)

/-- The interface that `wait_for_usb_drive` goes on with. -/
def availableInterface : Except ℕ Interface := do
  su.create.mapError LibnxErrMapper.map
  su.wait.mapError LibnxErrMapper.map
  let interfaces ← su.queryAvailableInterfaces.mapError LibnxErrMapper.map
  match interfaces.getLast? with
  | none => .error nxFatdriveErrDriveNotFound
  | some iface => .ok iface

/-- The client on a session; `UsbClient::new` opens the two endpoints. -/
def newClient (session : S) : Except ℕ σ := do
  let (readEp, writeEp) ←
    (UsbClient.retrieveIfaceEndpoints (su.interface session)).mapError LibnxErrMapper.map
  (su.openEndpoint session readEp).mapError LibnxErrMapper.map
  (su.openEndpoint session writeEp).mapError LibnxErrMapper.map
  (su.newBlockDevice session).mapError LibnxErrMapper.map

end SetUp

namespace NewlibState

variable {U S σ φ : Type}

def new : NewlibState U σ φ where
  clientState := .uninitialized
  usbHsCtx := none
  acquired := []

def initUsbHsCtx (su : SetUp U S σ φ) (w : NewlibState U σ φ) : Outcome ℕ (NewlibState U σ φ) Unit :=
  if w.usbHsCtx.isSome then .ok () w
  else
    match su.usbHsInitialize with
    | .error e => .err (LibnxErrMapper.map e) w
    | .ok newctx => .ok () { w with usbHsCtx := some newctx }

def waitForUsbDrive (su : SetUp U S σ φ) (w : NewlibState U σ φ) :
    Outcome ℕ (NewlibState U σ φ) Unit :=
  match w.clientState with
  -- `ref Uninitialized`: binds the state, whatever it is; the arm that returns is never reached
  | _uninitialized =>
    match w.usbHsCtx with
    | none => .err nxFatdriveErrNotInitialized w
    | some _ =>
      match su.availableInterface with
      | .error code => .err code w
      | .ok iface =>
        match su.acquireInterface iface with
        | .error e => .err (LibnxErrMapper.map e) w
        | .ok session =>
          match su.newClient session with
          | .error code => .err code { w with acquired := iface :: w.acquired }
          | .ok client =>
            .ok () { w with acquired := iface :: w.acquired, clientState := .acquired iface client }

/-- The state with what a call on the context has left. -/
def withContext (w : NewlibState U σ φ) (ctx : NewlibContext σ Interface φ) : NewlibState U σ φ :=
  { w with toNewlibContext := ctx }

end NewlibState

/-- A call, with what it meets outside the program. -/
inductive ContextCall (U S σ φ : Type) where
  | initUsbHsCtx (su : SetUp U S σ φ)
  | waitForUsbDrive (su : SetUp U S σ φ)
  | getPartitions (su : SetUp U S σ φ)
  | openPartition (su : SetUp U S σ φ) (newFs : OffsetScsiDevice σ → Except IoError φ) (idx : ℕ)

namespace ContextCall

variable {U S σ φ : Type}

def isWait : ContextCall U S σ φ → Bool
  | waitForUsbDrive _ => true
  | _ => false

/-- The call, unless the loop that reads the boot record is left unfinished. -/
def exec (w : NewlibState U σ φ) : ContextCall U S σ φ → Option (Outcome ℕ (NewlibState U σ φ) Unit)
  | initUsbHsCtx su => some (w.initUsbHsCtx su)
  | waitForUsbDrive su => some (w.waitForUsbDrive su)
  | getPartitions su =>
    (w.toNewlibContext.getPartitions su.scsi su.mbr su.rounds).map fun r =>
      r.bimap (fun _ => ()) w.withContext
  | openPartition su newFs idx =>
    (w.toNewlibContext.openPartition su.scsi su.mbr newFs su.rounds idx).map fun r =>
      r.bimap (fun _ => ()) w.withContext

end ContextCall

variable {U S σ φ : Type}

def ContextStep (w : NewlibState U σ φ) (l : ContextCall U S σ φ × Option (Except ℕ Unit))
    (w' : NewlibState U σ φ) : Prop :=
  ∃ r, l.1.exec w = some r ∧ r.result = l.2 ∧ r.state = w'

/-- A wait in a state with a drive succeeds and keeps it, and only the state without one acquires. -/
structure KeepsDrive (w : NewlibState U σ φ) (l : ContextCall U S σ φ × Option (Except ℕ Unit))
    (w' : NewlibState U σ φ) : Prop where
  waits : l.1.isWait = true → w.clientState ≠ .uninitialized →
    l.2 = some (.ok ()) ∧ w'.clientState = w.clientState
  acquires : w'.acquired ≠ w.acquired → w.clientState = .uninitialized

/-- A wait is made only while there is no drive. -/
def WaitsWithoutDrive (w : NewlibState U σ φ) (l : ContextCall U S σ φ × Option (Except ℕ Unit)) :
    Prop :=
  l.1.isWait = true → w.clientState = .uninitialized

/-! ### What a call acquires -/

/-- A wait that succeeds has acquired an interface, whatever was held before. -/
theorem NewlibState.wait_ok {su : SetUp U S σ φ} {w w' : NewlibState U σ φ}
    (h : w.waitForUsbDrive su = .ok () w') :
    ∃ iface client, w'.acquired = iface :: w.acquired ∧ w'.clientState = .acquired iface client := by
  simp only [waitForUsbDrive] at h
  split at h
  · cases h
  · split at h
    · cases h
    · next iface hiface =>
      split at h
      · cases h
      · split at h
        · cases h
        · next client hclient =>
          cases h
          exact ⟨iface, client, rfl, rfl⟩

theorem ContextCall.exec_acquired {call : ContextCall U S σ φ} (hcall : call.isWait = false)
    {w : NewlibState U σ φ} {r : Outcome ℕ (NewlibState U σ φ) Unit} (h : call.exec w = some r) :
    r.state.acquired = w.acquired := by
  cases call with
  | waitForUsbDrive su => cases hcall
  | initUsbHsCtx su =>
    obtain rfl := Option.some.inj h
    unfold NewlibState.initUsbHsCtx
    split
    · rfl
    · split <;> rfl
  | getPartitions su =>
    obtain ⟨r', -, rfl⟩ := Option.map_eq_some_iff.mp h
    rw [Outcome.state_bimap]
    rfl
  | openPartition su newFs idx =>
    obtain ⟨r', -, rfl⟩ := Option.map_eq_some_iff.mp h
    rw [Outcome.state_bimap]
    rfl

/-! ### Runs -/

/-- A wait in a state with a drive never keeps it: to succeed, it must acquire another. -/
theorem keepsDrive_step {w w' : NewlibState U σ φ} {l : ContextCall U S σ φ × Option (Except ℕ Unit)}
    (h : ContextStep w l w') : KeepsDrive w l w' ↔ WaitsWithoutDrive w l := by
  obtain ⟨call, res⟩ := l
  obtain ⟨r, hr, hres, rfl⟩ := h
  constructor
  · intro hkeep hwait
    by_contra hdrive
    cases call with
    | waitForUsbDrive su =>
      obtain ⟨hok, -⟩ := hkeep.waits rfl hdrive
      obtain rfl := Option.some.inj hr
      obtain ⟨w', hw⟩ := Outcome.result_eq_ok.mp (hres.trans hok)
      obtain ⟨iface, client, hlog, -⟩ := NewlibState.wait_ok hw
      have hnew : (w.waitForUsbDrive su).state.acquired ≠ w.acquired := by
        rw [hw]
        show w'.acquired ≠ w.acquired
        rw [hlog]
        exact List.cons_ne_self _ _
      exact hdrive (hkeep.acquires hnew)
    | initUsbHsCtx su => cases hwait
    | getPartitions su => cases hwait
    | openPartition su newFs idx => cases hwait
  · intro hcond
    refine ⟨fun hwait hdrive => absurd (hcond hwait) hdrive, fun hnew => ?_⟩
    cases hwait : call.isWait with
    | true => exact hcond hwait
    | false => exact absurd (ContextCall.exec_acquired hwait hr) hnew

/-- **The runs that keep a drive** are those in which no wait is made while there is one. -/
theorem keepsDrive_iff (w w' : NewlibState U σ φ)
    (ls : List (ContextCall U S σ φ × Option (Except ℕ Unit))) :
    Run (fun w l w' => ContextStep w l w' ∧ KeepsDrive w l w') w ls w' ↔
      Run (Guard ContextStep WaitsWithoutDrive) w ls w' := by
  constructor
  · exact Run.mono fun _ _ _ h => ⟨(keepsDrive_step h.1).mp h.2, h.1⟩
  · exact Run.mono fun _ _ _ h => ⟨h.2, (keepsDrive_step h.2).mpr h.1⟩

/-! ### A second wait -/

/-- What the calls meet when a drive is there and all goes well. -/
def presentSetUp : SetUp Unit Unit Unit Unit := Globals.sampleSetUp (.ok () ())

/-- The context once the drive has been acquired, and once its partition has been mounted. -/
def acquiredState : NewlibState Unit Unit Unit where
  clientState := .acquired Globals.sampleInterface ()
  usbHsCtx := some ()
  acquired := [Globals.sampleInterface]

def mountedState : NewlibState Unit Unit Unit :=
  { acquiredState with clientState := .opened Globals.sampleInterface () ⟨1⟩ }

/-- The context after one more wait. -/
def reacquiredState : NewlibState Unit Unit Unit :=
  { acquiredState with acquired := [Globals.sampleInterface, Globals.sampleInterface] }

theorem presentSetUp_getPartitions :
    acquiredState.toNewlibContext.getPartitions presentSetUp.scsi presentSetUp.mbr presentSetUp.rounds =
      some (.ok [⟨1⟩, ⟨0⟩, ⟨0⟩, ⟨0⟩] ⟨.acquired Globals.sampleInterface ()⟩) :=
  NewlibContext.getPartitions_of_read (Globals.sampleSetUp_readMbr (.ok () ()))
    (Globals.sampleSetUp_fromBytes (.ok () ()))

theorem presentSetUp_openPartition :
    acquiredState.toNewlibContext.openPartition presentSetUp.scsi presentSetUp.mbr (fun _ => .ok ())
      presentSetUp.rounds 0 = some (.ok () mountedState.toNewlibContext) := by
  unfold NewlibContext.openPartition
  rw [presentSetUp_getPartitions]
  rfl

theorem run_mountedState :
    Run ContextStep NewlibState.new
      [(.initUsbHsCtx presentSetUp, some (.ok ())), (.waitForUsbDrive presentSetUp, some (.ok ())),
        (.openPartition presentSetUp (fun _ => .ok ()) 0, some (.ok ()))] mountedState := by
  let started : NewlibState Unit Unit Unit :=
    { clientState := .uninitialized, usbHsCtx := some (), acquired := [] }
  have hinit : ContextStep NewlibState.new (.initUsbHsCtx presentSetUp, some (.ok ())) started :=
    ⟨_, rfl, rfl, rfl⟩
  have hwait : ContextStep started (.waitForUsbDrive presentSetUp, some (.ok ())) acquiredState :=
    ⟨_, rfl, rfl, rfl⟩
  have hopen : ContextStep acquiredState
      (.openPartition presentSetUp (fun _ => .ok ()) 0, some (.ok ())) mountedState := by
    refine ⟨.ok () mountedState, ?_, rfl, rfl⟩
    simp only [ContextCall.exec, presentSetUp_openPartition, Option.map_some]
    rfl
  exact .cons hinit (.cons hwait (.single hopen))

/-- The mounted file system is gone, and the drive it was on has been acquired again. -/
theorem second_wait :
    ∃ ls : List (ContextCall Unit Unit Unit Unit × Option (Except ℕ Unit)),
      Run ContextStep NewlibState.new ls mountedState ∧
      ContextStep mountedState (.waitForUsbDrive presentSetUp, some (.ok ())) reacquiredState ∧
      ¬ KeepsDrive mountedState (.waitForUsbDrive presentSetUp, some (.ok ())) reacquiredState := by
  refine ⟨_, run_mountedState, ⟨_, rfl, rfl, rfl⟩, fun hkeep => ?_⟩
  obtain ⟨-, hsame⟩ := hkeep.waits rfl nofun
  cases hsame

end FatDrive
