import FatDrive.Lib.Locks

/-!
# FatDrive.UsbFsLocks — the entry points of `usbfs.rs` and the three global mutexes

`Entry.body` is each entry point of the C interface as the mutexes see it: which guards it binds, in
which order and scope, and where it operates on the shared `FileSystem` or on a `File` or `Dir`
opened from it.  Any number of threads call them, from a state in which no thread is in a call.

Every entry point takes `id_store_ptr` before the other two, except `usbFsInitialize`, which
publishes what it has set up in the order `usb_hs_ctx_ptr`, `fs_ptr`, `id_store_ptr`.

* `usbFsInitialize_deadlocks`: two threads that wait for each other for ever;
* `no_deadlock`: the mutexes never deadlock as long as `usbFsInitialize` does not publish while
  another thread holds `id_store_ptr` and goes on to take a mutex under it.
-/

namespace FatDrive

open Lib Threads

inductive GlobalMutex where
  | usbHsCtxPtr
  | fsPtr
  | idStorePtr
  deriving DecidableEq, Repr

/-- The entry points that take a mutex. -/
inductive Entry where
  | usbFsIsInitialized | usbFsInitialize | usbFsExit | usbFsIsReady
  | usbFsOpenFile | usbFsCloseFile | usbFsReadFile | usbFsWriteFile | usbFsSeekFile
  | usbFsSyncFile | usbFsTruncateFile | usbFsDeleteFile | usbFsStatFile | usbFsStatPath
  | usbFsStatFilesystem | usbFsOpenDir | usbFsReadDir | usbFsCloseDir | usbFsCreateDir
  | usbFsDeleteDir | usbFsCreateFile | usbFsDeviceUpdate | usbFsDeviceGetMountStatus
  deriving DecidableEq, Repr

namespace Entry

open Body GlobalMutex

def isInitialized : Body GlobalMutex := lock idStorePtr (lock usbHsCtxPtr (lock fsPtr ret))

/-- The guard of `get_service_ctx` is handed to the caller. -/
def isReady : Body GlobalMutex := call isInitialized (lock usbHsCtxPtr ret)

/-- `IdStore::open_file` and `IdStore::open_dir`. -/
def idStoreOpen : Body GlobalMutex := lock fsPtr (work ret)

/-- `IdStore::stat_path`: the guard of the file system is dropped with the block that finds the
parent, before the iteration. -/
def statPath : Body GlobalMutex := call (lock fsPtr (work ret)) (work ret)

/-- An entry point that operates on a handle of the store. -/
def onHandle : Body GlobalMutex := lock idStorePtr (work ret)

/-- `usbFsDeleteFile` and `usbFsDeleteDir` close an open handle before they take `fs_ptr`. -/
def deletePath : Body GlobalMutex := lock idStorePtr (work (lock fsPtr (work ret)))

def createPath : Body GlobalMutex := lock idStorePtr (lock fsPtr (work ret))

def body : Entry → Body GlobalMutex
  | usbFsIsInitialized => isInitialized
  -- the file system mounted on the way is not shared yet
  | usbFsInitialize => call isInitialized (lock usbHsCtxPtr (lock fsPtr (lock idStorePtr ret)))
  -- dropping the store closes its files, dropping the file system unmounts it
  | usbFsExit => lock idStorePtr (work (lock fsPtr (work (lock usbHsCtxPtr ret))))
  | usbFsIsReady => isReady
  | usbFsOpenFile => lock idStorePtr (call idStoreOpen ret)
  | usbFsCloseFile => onHandle
  | usbFsReadFile => onHandle
  | usbFsWriteFile => onHandle
  | usbFsSeekFile => onHandle
  | usbFsSyncFile => onHandle
  | usbFsTruncateFile => onHandle
  | usbFsDeleteFile => deletePath
  | usbFsStatFile => lock idStorePtr (call statPath ret)
  | usbFsStatPath => lock idStorePtr (call statPath ret)
  | usbFsStatFilesystem => lock fsPtr (work ret)
  | usbFsOpenDir => lock idStorePtr (call idStoreOpen ret)
  | usbFsReadDir => onHandle
  | usbFsCloseDir => onHandle
  | usbFsCreateDir => createPath
  | usbFsDeleteDir => deletePath
  | usbFsCreateFile => createPath
  | usbFsDeviceUpdate => call isReady ret
  | usbFsDeviceGetMountStatus => call isReady ret

end Entry

open GlobalMutex

variable {T : Type}

/-! ### What waits under what -/

/-- A mutex taken under another one is taken under `id_store_ptr` or under `usb_hs_ctx_ptr`. -/
def TakesInOrder : List GlobalMutex × List (Act GlobalMutex) → Prop
  | (h, .take _ :: _) => h = [] ∨ idStorePtr ∈ h ∨ usbHsCtxPtr ∈ h
  | _ => True

instance : (x : List GlobalMutex × List (Act GlobalMutex)) → Decidable (TakesInOrder x)
  | (_, .take _ :: _) => inferInstanceAs (Decidable (_ ∨ _ ∨ _))
  | (_, []) => inferInstanceAs (Decidable True)
  | (_, .drop _ :: _) => inferInstanceAs (Decidable True)
  | (_, .work :: _) => inferInstanceAs (Decidable True)

theorem takesInOrder (c : Entry) : ∀ p ∈ c.body.paths, ∀ x ∈ points [] p, TakesInOrder x := by
  cases c <;> decide

/-- A thread that waits while it holds a mutex is under `id_store_ptr`, or under `usb_hs_ctx_ptr`. -/
theorem waits_holding {s : Threads T GlobalMutex} {t : T} (hs : Attends Entry.body s t)
    {m n : GlobalMutex} (ho : s.owner m = some t) (hw : s.Waits t n) :
    s.Nests t idStorePtr ∨ s.Nests t usbHsCtxPtr := by
  obtain ⟨r, hr⟩ := hw
  obtain ⟨c, p, hp, h, hm, hown⟩ := hs.point hr
  rcases takesInOrder c p hp _ hm with h0 | hid | husb
  · have := (hown.2 m).mp ho
    rw [h0] at this
    cases this
  · exact Or.inl (nests_iff.mpr ⟨n, Waits.orders ⟨r, hr⟩ ((hown.2 _).mpr hid)⟩)
  · exact Or.inr (nests_iff.mpr ⟨n, Waits.orders ⟨r, hr⟩ ((hown.2 _).mpr husb)⟩)

/-! ### The condition -/

/-- What the thread does next keeps the two orders apart: `id_store_ptr` is taken on the way to
another mutex only while no other thread holds `usb_hs_ctx_ptr` on the way to another mutex, and the
other way round. -/
def TakesApart (s : Threads T GlobalMutex) (t : T) : List (Act GlobalMutex) → Prop
  | .take idStorePtr :: r => takenUnder idStorePtr r ≠ [] → ∀ u, u ≠ t → ¬ s.Nests u usbHsCtxPtr
  | .take usbHsCtxPtr :: r => takenUnder usbHsCtxPtr r ≠ [] → ∀ u, u ≠ t → ¬ s.Nests u idStorePtr
  | _ => True

/-- No step of `usbFsInitialize` publishes against a call under `id_store_ptr`. -/
def PublishesApart (s : Threads T GlobalMutex) : Move T Entry GlobalMutex → Prop
  | .start .. => True
  | .go t => TakesApart s t (s.todo t)

/-- A call goes on under `id_store_ptr` while another thread publishes. -/
def Crossed (s : Threads T GlobalMutex) : Prop :=
  ∃ t u, t ≠ u ∧ s.Nests t idStorePtr ∧ s.Nests u usbHsCtxPtr

/-- A deadlock is a crossing. -/
theorem Crossed.of_deadlocked {s : Threads T GlobalMutex} (hs : ∀ t, Attends Entry.body s t)
    {D : Set T} (hd : s.Deadlocked D) : Crossed s := by
  obtain ⟨u, v, hne, ⟨m, n, hu, hwu⟩, m', n', hv, hwv⟩ := hd.two
  rcases waits_holding (hs u) hu hwu with h₁ | h₁
  · rcases waits_holding (hs v) hv hwv with h₂ | h₂
    · exact absurd (Option.some.inj (h₁.1.symm.trans h₂.1)) hne
    · exact ⟨u, v, hne, h₁, h₂⟩
  · rcases waits_holding (hs v) hv hwv with h₂ | h₂
    · exact ⟨v, u, hne.symm, h₂, h₁⟩
    · exact absurd (Option.some.inj (h₁.1.symm.trans h₂.1)) hne

variable [DecidableEq T]

theorem fire_not_crossed {s s' : Threads T GlobalMutex} {l : Move T Entry GlobalMutex}
    (hs : ∀ t, Attends Entry.body s t) (hc : PublishesApart s l) (h : fire Entry.body s l = some s')
    (h0 : ¬ Crossed s) : ¬ Crossed s' := by
  rintro ⟨t, u, hne, ht, hu⟩
  rcases nests_step hs h ht with ht | ⟨r, rfl, htodo, hr⟩
  · rcases nests_step hs h hu with hu | ⟨r, rfl, hutodo, hr⟩
    · exact h0 ⟨t, u, hne, ht, hu⟩
    · -- the second thread begins to publish
      have hap : TakesApart s u (s.todo u) := hc
      rw [hutodo] at hap
      exact hap hr t hne ht
  · rcases nests_step hs h hu with hu | ⟨r', hl, -, -⟩
    · -- the first thread goes under `id_store_ptr`
      have hap : TakesApart s t (s.todo t) := hc
      rw [htodo] at hap
      exact hap hr u hne.symm hu
    · cases hl
      exact hne rfl

/-- **No deadlock**, for any number of threads and any interleaving of their calls, as long as
`usbFsInitialize` publishes apart from the calls under `id_store_ptr`. -/
theorem no_deadlock {ls : List (Move T Entry GlobalMutex)} {s : Threads T GlobalMutex}
    (h : Run (Guard (Fires (fire Entry.body)) PublishesApart) idle ls s) (D : Set T) :
    ¬ s.Deadlocked D := by
  have hinv : (∀ t, Attends Entry.body s t) ∧ ¬ Crossed s := by
    refine h.invariant (I := fun s => (∀ t, Attends Entry.body s t) ∧ ¬ Crossed s) ?_ ?_
    · rintro s l s' ⟨hs, h0⟩ ⟨hc, hf⟩
      exact ⟨fire_attends hs hf, fire_not_crossed hs hc hf h0⟩
    · refine ⟨idle_attends, ?_⟩
      rintro ⟨t, u, -, hn, -⟩
      have : (none : Option T) = some t := hn.1
      cases this
  intro hd
  exact hinv.2 (.of_deadlocked hinv.1 hd)

/-! ### Runs of two threads -/

instance {n : ℕ} (s : Threads (Fin n) GlobalMutex) (t : Fin n) :
    (todo : List (Act GlobalMutex)) → Decidable (TakesApart s t todo)
  | [] => inferInstanceAs (Decidable True)
  | .take idStorePtr :: r =>
    inferInstanceAs (Decidable (takenUnder idStorePtr r ≠ [] → ∀ u, u ≠ t → ¬ s.Nests u usbHsCtxPtr))
  | .take usbHsCtxPtr :: r =>
    inferInstanceAs (Decidable (takenUnder usbHsCtxPtr r ≠ [] → ∀ u, u ≠ t → ¬ s.Nests u idStorePtr))
  | .take fsPtr :: _ => inferInstanceAs (Decidable True)
  | .drop _ :: _ => inferInstanceAs (Decidable True)
  | .work :: _ => inferInstanceAs (Decidable True)

instance {n : ℕ} (s : Threads (Fin n) GlobalMutex) :
    (l : Move (Fin n) Entry GlobalMutex) → Decidable (PublishesApart s l)
  | .start .. => inferInstanceAs (Decidable True)
  | .go t => inferInstanceAs (Decidable (TakesApart s t (s.todo t)))

/-- `usbFsIsInitialized` to its end. -/
def queryWay : List (Act GlobalMutex) :=
  [.take idStorePtr, .take usbHsCtxPtr, .take fsPtr, .drop fsPtr, .drop usbHsCtxPtr,
    .drop idStorePtr]

/-- `usbFsInitialize` on a drive that is there. -/
def publishWay : List (Act GlobalMutex) :=
  queryWay ++ [.take usbHsCtxPtr, .take fsPtr, .take idStorePtr, .drop idStorePtr, .drop fsPtr,
    .drop usbHsCtxPtr]

/-- `usbFsOpenFile` of a file that is not open. -/
def openWay : List (Act GlobalMutex) :=
  [.take idStorePtr, .take fsPtr, .work, .drop fsPtr, .drop idStorePtr]

/-- The first thread sets up the drive and opens a file, and the second asks whether it is done. -/
theorem no_deadlock_setUp :
    ∃ s : Threads (Fin 2) GlobalMutex,
      Run (Guard (Fires (fire Entry.body)) PublishesApart) idle
        (.start 0 .usbFsInitialize publishWay :: List.replicate 12 (.go 0) ++
          [.start 0 .usbFsOpenFile openWay, .go 0, .go 0, .start 1 .usbFsIsInitialized queryWay]) s ∧
        s.owner idStorePtr = some 0 ∧ s.Waits 1 idStorePtr ∧ ¬ s.Deadlocked {0, 1} := by
  have hfin : (replay (fire Entry.body) (idle : Threads (Fin 2) GlobalMutex)
      (.start 0 .usbFsInitialize publishWay :: List.replicate 12 (.go 0) ++
        [.start 0 .usbFsOpenFile openWay, .go 0, .go 0,
          .start 1 .usbFsIsInitialized queryWay])).any
      (fun s => decide (s.owner idStorePtr = some 0 ∧ s.todo 1 = queryWay)) = true := by decide
  obtain ⟨s, hs, hat⟩ := (Option.any_eq_true _ _).mp hfin
  obtain ⟨ho, hw⟩ := of_decide_eq_true hat
  have hrun := run_replay (C := PublishesApart) (fire Entry.body) (by decide) hs
  exact ⟨s, hrun, ho, ⟨_, hw⟩, no_deadlock hrun {0, 1}⟩

/-- **The mutexes do deadlock.**  A thread in `usbFsInitialize` has found no drive set up; before it
publishes the one it has made ready, another thread enters `usbFsIsInitialized`. -/
theorem usbFsInitialize_deadlocks :
    ∃ (ls : List (Move (Fin 2) Entry GlobalMutex)) (s : Threads (Fin 2) GlobalMutex),
      Run (Fires (fire Entry.body)) idle ls s ∧ s.Deadlocked {0, 1} := by
  have hfin : (replay (fire Entry.body) (idle : Threads (Fin 2) GlobalMutex)
      (.start 0 .usbFsInitialize publishWay :: List.replicate 6 (.go 0) ++
        [.start 1 .usbFsIsInitialized queryWay, .go 1, .go 0, .go 0])).any
      (fun s => decide (s.owner usbHsCtxPtr = some 0 ∧ s.owner idStorePtr = some 1 ∧
        s.todo 0 = publishWay.drop 8 ∧ s.todo 1 = queryWay.drop 1)) = true := by decide
  obtain ⟨s, hs, hat⟩ := (Option.any_eq_true _ _).mp hfin
  obtain ⟨h0, h1, hw0, hw1⟩ := of_decide_eq_true hat
  refine ⟨_, s, run_of_replay (fire Entry.body) hs, ⟨0, Or.inl rfl⟩, ?_⟩
  rintro t (rfl | rfl)
  · exact ⟨idStorePtr, ⟨_, hw0⟩, 1, Or.inr rfl, by decide, h1⟩
  · exact ⟨usbHsCtxPtr, ⟨_, hw1⟩, 0, Or.inl rfl, by decide, h0⟩

end FatDrive
