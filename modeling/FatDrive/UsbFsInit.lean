import FatDrive.UsbFs
import FatDrive.Mounted
import FatDrive.Volume

/-!
# FatDrive.UsbFsInit — what a call of `usbFsInitialize` leaves behind

* `initialize_effect`: all that a call can do to the globals, by the step at which it stops;
* `initialize_unchanged_iff`: a call that fails leaves the pointers as they were exactly if it does
  not fail after it has published the context;
* `initialize_all_or_nothing`: the same over runs of set-ups and tear-downs, where all pointers are
  null or none is;
* `half_initialized`: a mount that fails leaves a context behind, and the next attempt loses it.
-/

namespace FatDrive

open Lib

namespace Globals

variable {U S σ φ F D : Type} {crate : FatfsCrate φ F D} {su : SetUp U S σ φ}
  {g g' : Globals U φ F D}

/-! ### What a call can do -/

/-- The call publishes a context: it is not turned away, and every step up to there succeeds. -/
structure Publishes (su : SetUp U S σ φ) (g : Globals U φ F D) (ctx : UsbFsServiceContext U)
    (innerDevice : σ) : Prop where
  needed : g.usbFsIsInitialized ≠ success
  prepared : su.prepare = .ok (ctx, innerDevice)
  unpoisoned : g.usbHsCtxPtr.poisoned = false

/-- The rest of the call, once the context is published. -/
theorem Publishes.initialize_eq {ctx : UsbFsServiceContext U} {inner : σ}
    (h : Publishes su g ctx inner) :
    g.usbFsInitialize su = (g.setCtx ctx).publishMounted (su.mount inner) := by
  have hlock : g.usbHsCtxPtr.lock = some g.usbHsCtxPtr.value :=
    Mutex.lock_eq_some.mpr ⟨h.unpoisoned, rfl⟩
  simp only [usbFsInitialize, if_neg h.needed, h.prepared, publishCtx, hlock]

/-- All that a call can do. -/
inductive InitEffect (su : SetUp U S σ φ) (g : Globals U φ F D) :
    Outcome ℕ (Globals U φ F D) Unit → Prop
  | already (h : g.usbFsIsInitialized = success) : InitEffect su g (.ok () g)
  | unprepared {e} (h : su.prepare = .error e) :
      InitEffect su g (.err (LibnxErrMapper.map e) g)
  | ctxPoisoned {ctx code} (h : g.usbHsCtxPtr.poisoned = true) :
      InitEffect su g (.err code { g with contexts := (g.contexts.alloc ctx).2 })
  | unmounted {ctx inner code} (h : Publishes su g ctx inner)
      (hm : ∀ fs, su.mount inner ≠ some (.ok fs ())) : InitEffect su g (.err code (g.setCtx ctx))
  | mountPanicked {ctx inner} (h : Publishes su g ctx inner)
      (hm : ∀ fs, su.mount inner ≠ some (.ok fs ())) :
      InitEffect su g (.panicked { g.setCtx ctx with usbHsCtxPtr := (g.setCtx ctx).usbHsCtxPtr.poison })
  | fsPoisoned {ctx inner fs code} (h : Publishes su g ctx inner)
      (hm : su.mount inner = some (.ok fs ())) (hp : g.mounted.fsPtr.poisoned = true) :
      InitEffect su g (.err code { g.setCtx ctx with
        mounted := ⟨g.mounted.fsPtr, (g.mounted.fileSystems.alloc fs).2⟩ })
  | storePoisoned {ctx inner fs code} (h : Publishes su g ctx inner)
      (hm : su.mount inner = some (.ok fs ())) (hf : g.mounted.fsPtr.poisoned = false)
      (hp : g.idStorePtr.poisoned = true) :
      InitEffect su g (.err code
        { (g.setCtx ctx).setFs fs with stores := (g.stores.alloc IdStore.new).2 })
  | done {ctx inner fs} (h : Publishes su g ctx inner) (hm : su.mount inner = some (.ok fs ()))
      (hf : g.mounted.fsPtr.poisoned = false) (hp : g.idStorePtr.poisoned = false) :
      InitEffect su g (.ok () (((g.setCtx ctx).setFs fs).setIdStore .new))

theorem publishes_effect {ctx : UsbFsServiceContext U} {inner : σ}
    {r : Outcome ℕ (Globals U φ F D) Unit} (h : Publishes su g ctx inner)
    (hr : g.usbFsInitialize su = some r) : InitEffect su g r := by
  rw [h.initialize_eq] at hr
  unfold publishMounted at hr
  split at hr
  · cases hr
  · next hm =>
    cases hr
    exact .unmounted h (by rw [hm]; exact nofun)
  · next hm =>
    cases hr
    exact .mountPanicked h (by rw [hm]; exact nofun)
  · next fs _ hm =>
    cases hr
    cases hf : g.mounted.fsPtr.poisoned with
    | true =>
      have hlock : (g.setCtx ctx).mounted.fsPtr.lock = none := Mutex.lock_eq_none.mpr hf
      rw [publishFs, hlock]
      exact .fsPoisoned h hm hf
    | false =>
      have hlock : (g.setCtx ctx).mounted.fsPtr.lock = some g.mounted.fsPtr.value :=
        Mutex.lock_eq_some.mpr ⟨hf, rfl⟩
      rw [publishFs, hlock, Outcome.andThen_ok]
      cases hs : g.idStorePtr.poisoned with
      | true =>
        have hlock : ((g.setCtx ctx).setFs fs).idStorePtr.lock = none := Mutex.lock_eq_none.mpr hs
        rw [publishIdStore, hlock]
        exact .storePoisoned h hm hf hs
      | false =>
        have hlock : ((g.setCtx ctx).setFs fs).idStorePtr.lock = some g.idStorePtr.value :=
          Mutex.lock_eq_some.mpr ⟨hs, rfl⟩
        rw [publishIdStore, hlock]
        exact .done h hm hf hs

/-- **All that a call can do.** -/
theorem initialize_effect {r : Outcome ℕ (Globals U φ F D) Unit}
    (hr : g.usbFsInitialize su = some r) : InitEffect su g r := by
  unfold usbFsInitialize at hr
  split at hr
  · next h =>
    cases hr
    exact .already h
  · next hi =>
    split at hr
    · next e h =>
      cases hr
      exact .unprepared h
    · next ctx inner hprep =>
      cases hc : g.usbHsCtxPtr.poisoned with
      | true =>
        rw [publishCtx, Mutex.lock_eq_none.mpr hc] at hr
        cases hr
        exact .ctxPoisoned hc
      | false =>
        refine publishes_effect ⟨hi, hprep, hc⟩ ?_
        rw [usbFsInitialize, if_neg hi, hprep]
        exact hr

/-! ### What a call leaves -/

/-- The three globals are the same. -/
structure SamePtrs (g g' : Globals U φ F D) : Prop where
  ctx : g'.usbHsCtxPtr = g.usbHsCtxPtr
  fs : g'.mounted.fsPtr = g.mounted.fsPtr
  store : g'.idStorePtr = g.idStorePtr

/-- A pointer is null or the address of a box. -/
structure Owned (g : Globals U φ F D) : Prop where
  ctx : g.usbHsCtxPtr.value ≠ 0 → g.contexts.Live g.usbHsCtxPtr.value
  fs : g.mounted.fsPtr.value ≠ 0 → g.mounted.fileSystems.Live g.mounted.fsPtr.value
  store : g.idStorePtr.value ≠ 0 → g.stores.Live g.idStorePtr.value

/-- The call publishes a context and then fails: the partition or the file system cannot be opened,
or one of the other two mutexes is poisoned. -/
def FailsLate (su : SetUp U S σ φ) (g : Globals U φ F D) : Prop :=
  ∃ ctx inner, Publishes su g ctx inner ∧
    ¬ ((∃ fs, su.mount inner = some (.ok fs ())) ∧ g.mounted.fsPtr.poisoned = false ∧
      g.idStorePtr.poisoned = false)

theorem Publishes.unique {ctx ctx' : UsbFsServiceContext U} {inner inner' : σ}
    (h : Publishes su g ctx inner) (h' : Publishes su g ctx' inner') :
    ctx' = ctx ∧ inner' = inner := by
  have he := h.prepared.symm.trans h'.prepared
  cases he
  exact ⟨rfl, rfl⟩

theorem not_failsLate {ctx : UsbFsServiceContext U} {inner : σ} (h : Publishes su g ctx inner)
    {fs : φ} (hm : su.mount inner = some (.ok fs ())) (hf : g.mounted.fsPtr.poisoned = false)
    (hp : g.idStorePtr.poisoned = false) : ¬ FailsLate su g := by
  rintro ⟨ctx', inner', h', hno⟩
  obtain ⟨rfl, rfl⟩ := h.unique h'
  exact hno ⟨⟨fs, hm⟩, hf, hp⟩

theorem failsLate_of_unmounted {ctx : UsbFsServiceContext U} {inner : σ}
    (h : Publishes su g ctx inner) (hm : ∀ fs, su.mount inner ≠ some (.ok fs ())) :
    FailsLate su g := by
  refine ⟨ctx, inner, h, ?_⟩
  rintro ⟨⟨fs, hfs⟩, -⟩
  exact hm fs hfs

/-- The address of a new context is not the old one. -/
theorem setCtx_ptr_ne (ho : Owned g) (ctx : UsbFsServiceContext U) :
    (g.contexts.alloc ctx).1 ≠ g.usbHsCtxPtr.value := by
  intro he
  have hlive : g.contexts.Live (g.contexts.alloc ctx).1 := by
    rw [he]
    refine ho.ctx ?_
    rw [← he]
    exact g.contexts.alloc_fst_ne_zero ctx
  exact g.contexts.not_live_alloc ctx hlive

/-- **One call that fails.** -/
theorem initialize_unchanged_iff (ho : Owned g) {c : ℕ}
    (hr : g.usbFsInitialize su = some (.err c g')) : SamePtrs g g' ↔ ¬ FailsLate su g := by
  have hne (ctx) : ¬ (g.setCtx ctx).usbHsCtxPtr = g.usbHsCtxPtr := fun h =>
    setCtx_ptr_ne ho ctx (congrArg Mutex.value h)
  cases initialize_effect hr with
  | unprepared h =>
    refine iff_of_true ⟨rfl, rfl, rfl⟩ ?_
    rintro ⟨ctx, inner, hpub, -⟩
    cases h.symm.trans hpub.prepared
  | ctxPoisoned h =>
    refine iff_of_true ⟨rfl, rfl, rfl⟩ ?_
    rintro ⟨ctx, inner, hpub, -⟩
    cases h.symm.trans hpub.unpoisoned
  | @unmounted ctx inner _ h hm =>
    exact iff_of_false (fun hs => hne ctx hs.ctx) (not_not_intro (failsLate_of_unmounted h hm))
  | @fsPoisoned ctx inner fs _ h hm hp =>
    refine iff_of_false (fun hs => hne ctx hs.ctx) (not_not_intro ⟨ctx, inner, h, ?_⟩)
    rintro ⟨-, hf, -⟩
    cases hp.symm.trans hf
  | @storePoisoned ctx inner fs _ h hm hf hp =>
    refine iff_of_false (fun hs => hne ctx hs.ctx) (not_not_intro ⟨ctx, inner, h, ?_⟩)
    rintro ⟨-, -, hp'⟩
    cases hp.symm.trans hp'

/-! ### Runs of set-ups and tear-downs -/

/-- All three pointers are null, or none is. -/
def AllOrNone (g : Globals U φ F D) : Prop :=
  (g.usbHsCtxPtr.value = 0 ∧ g.mounted.fsPtr.value = 0 ∧ g.idStorePtr.value = 0) ∨
    (g.usbHsCtxPtr.value ≠ 0 ∧ g.mounted.fsPtr.value ≠ 0 ∧ g.idStorePtr.value ≠ 0)

/-- A pointer that is not null changes. -/
def Overwrites (g g' : Globals U φ F D) : Prop :=
  g.usbHsCtxPtr.value ≠ 0 ∧ g'.usbHsCtxPtr.value ≠ g.usbHsCtxPtr.value ∨
  g.mounted.fsPtr.value ≠ 0 ∧ g'.mounted.fsPtr.value ≠ g.mounted.fsPtr.value ∨
  g.idStorePtr.value ≠ 0 ∧ g'.idStorePtr.value ≠ g.idStorePtr.value

/-- A call of `usbFsInitialize` that returns, or of `usbFsExit`. -/
inductive Cycle (U S σ φ : Type) where
  | init (su : SetUp U S σ φ)
  | exit

/-- One call; a `usbFsExit` goes through all its parts. -/
inductive CycleStep (crate : FatfsCrate φ F D) :
    Globals U φ F D → Cycle U S σ φ → Globals U φ F D → Prop
  | init {g su r} (h : usbFsInitialize su g = some r) (hr : r.result ≠ none) :
      CycleStep crate g (.init su) r.state
  | exit {g g₁ g₂ g₃} (h : usbFsExit crate true g = [g₁, g₂, g₃]) : CycleStep crate g .exit g₃

/-- No call of `usbFsInitialize` fails after it has published the context. -/
def Cycle.Whole (g : Globals U φ F D) : Cycle U S σ φ → Prop
  | .init su => ¬ FailsLate su g
  | .exit => True

theorem isInitialized_iff : g.usbFsIsInitialized = success ↔
    (g.idStorePtr.poisoned = false ∧ g.idStorePtr.value ≠ 0) ∧
    (g.usbHsCtxPtr.poisoned = false ∧ g.usbHsCtxPtr.value ≠ 0) ∧
    g.mounted.fsPtr.poisoned = false ∧ g.mounted.fsPtr.value ≠ 0 := by
  unfold usbFsIsInitialized Mutex.lock
  cases g.idStorePtr.poisoned with
  | true => simp [success, LibnxErrMapper.map, nxFatdriveErrPoissenedMutex]
  | false =>
    cases g.usbHsCtxPtr.poisoned with
    | true => simp [success, LibnxErrMapper.map, nxFatdriveErrPoissenedMutex]
    | false =>
      cases g.mounted.fsPtr.poisoned with
      | true => simp [success, LibnxErrMapper.map, nxFatdriveErrPoissenedMutex]
      | false => simp [success, nxFatdriveErrNotInitialized]

/-- No mutex is poisoned, and the set-up is complete or absent. -/
structure Settled (g : Globals U φ F D) : Prop where
  allOrNone : AllOrNone g
  ctx : g.usbHsCtxPtr.poisoned = false
  fs : g.mounted.fsPtr.poisoned = false
  store : g.idStorePtr.poisoned = false

theorem settled_initial : Settled (initial : Globals U φ F D) :=
  ⟨Or.inl ⟨rfl, rfl, rfl⟩, rfl, rfl, rfl⟩

/-- A settled state that is not set up has no pointers. -/
theorem Settled.null (h : Settled g) (hi : g.usbFsIsInitialized ≠ success) :
    g.usbHsCtxPtr.value = 0 ∧ g.mounted.fsPtr.value = 0 ∧ g.idStorePtr.value = 0 := by
  rcases h.allOrNone with hnull | ⟨hctx, hfs, hstore⟩
  · exact hnull
  · exact absurd (isInitialized_iff.mpr ⟨⟨h.store, hstore⟩, ⟨h.ctx, hctx⟩, h.fs, hfs⟩) hi

/-- **One call of `usbFsInitialize` in a settled state.**  No pointer is lost; if it returns, it
leaves all pointers or none exactly if it does not fail late. -/
theorem Settled.setUp (h : Settled g) {r : Outcome ℕ (Globals U φ F D) Unit}
    (hr : g.usbFsInitialize su = some r) :
    ¬ Overwrites g r.state ∧ (AllOrNone r.state ↔ ¬ FailsLate su g) ∧
      (¬ FailsLate su g → Settled r.state) := by
  have hsame {g' : Globals U φ F D} (hs : SamePtrs g g') (hno : ¬ FailsLate su g) :
      ¬ Overwrites g g' ∧ (AllOrNone g' ↔ ¬ FailsLate su g) ∧ (¬ FailsLate su g → Settled g') := by
    have hall : AllOrNone g' := by
      unfold AllOrNone
      rw [hs.ctx, hs.fs, hs.store]
      exact h.allOrNone
    refine ⟨?_, iff_of_true hall hno, fun _ => ⟨hall, hs.ctx ▸ h.ctx, hs.fs ▸ h.fs, hs.store ▸ h.store⟩⟩
    simp [Overwrites, hs.ctx, hs.fs, hs.store]
  -- a context and nothing else: the call has failed late
  have hhalf {g' : Globals U φ F D} {ctx inner} (hpub : Publishes su g ctx inner)
      (hm : ∀ fs, su.mount inner ≠ some (.ok fs ()))
      (hctx : g'.usbHsCtxPtr.value = (g.contexts.alloc ctx).1)
      (hfs : g'.mounted.fsPtr.value = g.mounted.fsPtr.value) :
      ¬ Overwrites g g' ∧ (AllOrNone g' ↔ ¬ FailsLate su g) ∧ (¬ FailsLate su g → Settled g') := by
    obtain ⟨hnctx, hnfs, hnstore⟩ := h.null hpub.needed
    have hlate : FailsLate su g := failsLate_of_unmounted hpub hm
    refine ⟨by simp [Overwrites, hnctx, hnfs, hnstore], iff_of_false ?_ (not_not_intro hlate),
      fun hno => absurd hlate hno⟩
    rintro (⟨h0, -⟩ | ⟨-, h0, -⟩)
    · exact g.contexts.alloc_fst_ne_zero ctx (hctx.symm.trans h0)
    · exact h0 (hfs.trans hnfs)
  cases initialize_effect hr with
  | already hi =>
    refine hsame ⟨rfl, rfl, rfl⟩ ?_
    rintro ⟨ctx, inner, hpub, -⟩
    exact hpub.needed hi
  | unprepared he =>
    refine hsame ⟨rfl, rfl, rfl⟩ ?_
    rintro ⟨ctx, inner, hpub, -⟩
    cases he.symm.trans hpub.prepared
  | ctxPoisoned hp => cases hp.symm.trans h.ctx
  | unmounted hpub hm => exact hhalf hpub hm rfl rfl
  | mountPanicked hpub hm => exact hhalf hpub hm rfl rfl
  | fsPoisoned hpub hm hp => cases hp.symm.trans h.fs
  | storePoisoned hpub hm hf hp => cases hp.symm.trans h.store
  | @done ctx inner fs hpub hm hf hp =>
    obtain ⟨hnctx, hnfs, hnstore⟩ := h.null hpub.needed
    have hall : AllOrNone (((g.setCtx ctx).setFs fs).setIdStore .new) :=
      Or.inr ⟨g.contexts.alloc_fst_ne_zero ctx, g.mounted.fileSystems.alloc_fst_ne_zero fs,
        g.stores.alloc_fst_ne_zero .new⟩
    refine ⟨by simp [Overwrites, hnctx, hnfs, hnstore],
      iff_of_true hall (not_failsLate hpub hm hf hp), fun _ => ⟨hall, h.ctx, h.fs, h.store⟩⟩

/-! What the parts of `usbFsExit` do to the pointers. -/

theorem exitIdStore_ptrs (h : exitIdStore crate g = some g') :
    g'.idStorePtr = g.idStorePtr.store 0 ∧ g'.usbHsCtxPtr = g.usbHsCtxPtr ∧
      g'.mounted.fsPtr = g.mounted.fsPtr := by
  unfold exitIdStore at h
  split at h
  · cases h
  · next hl =>
    cases h
    have h0 : g.idStorePtr.value = 0 := (Mutex.lock_eq_some.mp hl).2
    refine ⟨?_, rfl, rfl⟩
    rw [Mutex.store, ← h0]
  · next a ha hl =>
    cases h
    refine ⟨rfl, rfl, ?_⟩
    cases g.stores.get? a with
    | none => rfl
    | some s => exact IdStore.dropStore_fsPtr s g.mounted

theorem exitFs_ptrs (h : exitFs g = some g') :
    g'.idStorePtr = g.idStorePtr ∧ g'.usbHsCtxPtr = g.usbHsCtxPtr ∧
      g'.mounted.fsPtr = g.mounted.fsPtr.store 0 := by
  unfold exitFs at h
  split at h
  · cases h
  · next hl =>
    cases h
    have h0 : g.mounted.fsPtr.value = 0 := (Mutex.lock_eq_some.mp hl).2
    refine ⟨rfl, rfl, ?_⟩
    rw [Mutex.store, ← h0]
  · cases h
    exact ⟨rfl, rfl, rfl⟩

theorem exitCtx_ptrs (h : exitCtx g = some g') :
    g'.idStorePtr = g.idStorePtr ∧ g'.usbHsCtxPtr = g.usbHsCtxPtr.store 0 ∧
      g'.mounted = g.mounted := by
  unfold exitCtx at h
  split at h
  · cases h
  · next hl =>
    cases h
    have h0 : g.usbHsCtxPtr.value = 0 := (Mutex.lock_eq_some.mp hl).2
    refine ⟨rfl, ?_, rfl⟩
    rw [Mutex.store, ← h0]
  · cases h
    exact ⟨rfl, rfl, rfl⟩

theorem inTurn_cons_eq {part : Globals U φ F D → Option (Globals U φ F D)}
    {parts : List (Globals U φ F D → Option (Globals U φ F D))} {gs : List (Globals U φ F D)}
    (h : inTurn (part :: parts) g = g' :: gs) : part g = some g' ∧ inTurn parts g' = gs := by
  rw [inTurn] at h
  split at h
  · cases h
  · next g₁ hg₁ =>
    cases h
    exact ⟨hg₁, rfl⟩

theorem Settled.exit (h : Settled g) {g₁ g₂ g₃ : Globals U φ F D}
    (he : usbFsExit crate true g = [g₁, g₂, g₃]) : Settled g₃ := by
  obtain ⟨h₁, he⟩ := inTurn_cons_eq (he : inTurn _ g = _)
  obtain ⟨h₂, he⟩ := inTurn_cons_eq he
  obtain ⟨h₃, -⟩ := inTurn_cons_eq he
  obtain ⟨hs₁, hc₁, hf₁⟩ := exitIdStore_ptrs h₁
  obtain ⟨hs₂, hc₂, hf₂⟩ := exitFs_ptrs h₂
  obtain ⟨hs₃, hc₃, hm₃⟩ := exitCtx_ptrs h₃
  have hstore : g₃.idStorePtr = g.idStorePtr.store 0 := hs₃.trans (hs₂.trans hs₁)
  have hctx : g₃.usbHsCtxPtr = g.usbHsCtxPtr.store 0 := by rw [hc₃, hc₂, hc₁]
  have hfs : g₃.mounted.fsPtr = g.mounted.fsPtr.store 0 := by rw [hm₃, hf₂, hf₁]
  refine ⟨Or.inl ?_, ?_, ?_, ?_⟩
  · rw [hctx, hfs, hstore]
    exact ⟨rfl, rfl, rfl⟩
  · rw [hctx]
    exact h.ctx
  · rw [hfs]
    exact h.fs
  · rw [hstore]
    exact h.store

theorem settled_step {c : Cycle U S σ φ} (h : Settled g)
    (hst : Guard (CycleStep crate) (fun g c => c.Whole g) g c g') : Settled g' := by
  obtain ⟨hw, hst⟩ := hst
  cases hst with
  | init hr _ => exact (h.setUp hr).2.2 hw
  | exit he => exact h.exit he

/-- **All or nothing.**  A call that fails leaves the globals as they were exactly if it does not
fail late.  After set-ups none of which fails late and tear-downs, all pointers are null or none is;
the next set-up loses no pointer, and keeps to that exactly if it does not fail late either. -/
theorem initialize_all_or_nothing :
    (∀ (su : SetUp U S σ φ) (g g' : Globals U φ F D) (c : ℕ), Owned g →
      g.usbFsInitialize su = some (.err c g') → (SamePtrs g g' ↔ ¬ FailsLate su g)) ∧
    ∀ (cs : List (Cycle U S σ φ)) (g : Globals U φ F D),
      Run (Guard (CycleStep crate) fun g c => c.Whole g) initial cs g →
      AllOrNone g ∧ ∀ (su : SetUp U S σ φ) r, g.usbFsInitialize su = some r →
        ¬ Overwrites g r.state ∧ (AllOrNone r.state ↔ ¬ FailsLate su g) := by
  refine ⟨fun su g g' c ho hr => initialize_unchanged_iff ho hr, fun cs g hrun => ?_⟩
  have h : Settled g := hrun.invariant (fun g c g' h hst => settled_step h hst) settled_initial
  refine ⟨h.allOrNone, fun su r hr => ?_⟩
  obtain ⟨hkeep, hall, -⟩ := h.setUp hr
  exact ⟨hkeep, hall⟩

/-! ### A mount that fails -/

/-- A mass storage interface with its endpoints. -/
def sampleInterface : Interface where
  deviceDesc := ⟨8, 6, 80⟩
  info :=
    { interfaceDesc := ⟨8, 6, 80⟩
      inputEndpointDescs := [⟨0x02, .outward⟩]
      outputEndpointDescs := [⟨0x81, .inward⟩] }

/-- A boot record with one partition, which starts at block 1. -/
def bootRecord : List UInt8 :=
  List.replicate 446 0 ++ [0, 0, 0, 0, 0x0C, 0, 0, 0, 1, 0, 0, 0, 64, 0, 0, 0] ++ List.replicate 48 0 ++
    [0x55, 0xAA]

/-- The table of a boot record: four entries, each with its block address. -/
def bootTable (bytes : List UInt8) : Except MbrError (List PartitionTableEntry) :=
  if (bytes.drop 510).take 2 = [0x55, 0xAA] then
    .ok <| [454, 470, 486, 502].map fun off =>
      ⟨UInt32.ofNat (((bytes.drop off).take 4).foldr (fun b n => b.toNat + 256 * n) 0)⟩
  else .error ⟨.invalidMBRSuffix (bytes.getD 510 0) (bytes.getD 511 0)⟩

theorem bootTable_bootRecord : bootTable bootRecord = .ok [⟨1⟩, ⟨0⟩, ⟨0⟩, ⟨0⟩] := by decide +kernel

/-- A set-up in which all goes well up to the mount, which ends as `mounted` says. -/
def sampleSetUp (mounted : Outcome IoError Unit φ) : SetUp Unit Unit Unit φ where
  usbHsInitialize := .ok ()
  create := .ok ()
  wait := .ok ()
  queryAvailableInterfaces := .ok [sampleInterface]
  acquireInterface := fun _ => .ok ()
  interface := fun _ => sampleInterface
  openEndpoint := fun _ _ => .ok ()
  newBlockDevice := fun _ => .ok ()
  scsi :=
    { blockSize := 512
      read := fun st _ buf => (.ok 512, { buf with inner := buf.inner ++ bootRecord }, st)
      write := fun st _ buf => (.ok 512, buf.drained, st)
      isEmpty := fun buf => buf.inner.isEmpty
      clear := fun buf => (.ok 0, buf.drained) }
  mbr := { fromBytes := bootTable }
  rounds := 1
  newFs := fun _ => mounted

/-- A set-up in which no drive turns up. -/
def absentSetUp : SetUp Unit Unit Unit φ :=
  { sampleSetUp (.err ⟨.other, none⟩ ()) with queryAvailableInterfaces := .ok [] }

theorem sampleSetUp_readMbr (mounted : Outcome IoError Unit φ) :
    readMbr (sampleSetUp mounted).scsi 1 () (mbrBuffer (sampleSetUp mounted).scsi) =
      some (.ok ⟨bootRecord, 512⟩ ()) := by
  have hlen : ¬ bootRecord.length < 512 := by decide +kernel
  have h0 : (mbrBuffer (sampleSetUp mounted).scsi).inner.length < 512 := Nat.succ_pos 511
  rw [readMbr, if_pos h0]
  show readMbr _ 0 () ⟨bootRecord, 512⟩ = _
  rw [readMbr, if_neg hlen]

theorem sampleSetUp_fromBytes (mounted : Outcome IoError Unit φ) :
    (sampleSetUp mounted).mbr.fromBytes bootRecord = .ok [⟨1⟩, ⟨0⟩, ⟨0⟩, ⟨0⟩] := by
  simp only [sampleSetUp, bootTable_bootRecord]

theorem sampleSetUp_mount (mounted : Outcome IoError Unit φ) :
    (sampleSetUp mounted).mount () = some (mounted.mapErr fun e => LibnxErrMapper.map e) := by
  have hopen := openPartition_of_read (sampleSetUp_readMbr mounted) (sampleSetUp_fromBytes mounted)
    List.getElem?_cons_zero
  unfold SetUp.mount
  show (openPartition (sampleSetUp mounted).scsi (sampleSetUp mounted).mbr 1 () 0).map _ = _
  rw [hopen]
  rfl

theorem sampleSetUp_publishes (mounted : Outcome IoError Unit φ) {g : Globals Unit φ F D}
    (hn : g.usbFsIsInitialized ≠ success) (hp : g.usbHsCtxPtr.poisoned = false) :
    Publishes (sampleSetUp mounted) g ⟨(), sampleInterface.info⟩ () :=
  ⟨hn, rfl, hp⟩

/-- The state the failing set-up leaves. -/
def halfSet (g : Globals Unit Volume ℕ ℕ) : Globals Unit Volume ℕ ℕ :=
  g.setCtx ⟨(), sampleInterface.info⟩

theorem initialize_half {g : Globals Unit Volume ℕ ℕ} (hn : g.usbFsIsInitialized ≠ success)
    (hp : g.usbHsCtxPtr.poisoned = false) :
    g.usbFsInitialize (sampleSetUp (.err ⟨.other, none⟩ ())) =
      some (.err (LibnxErrMapper.map (⟨.other, none⟩ : IoError)) (halfSet g)) := by
  rw [(sampleSetUp_publishes _ hn hp).initialize_eq, sampleSetUp_mount]
  rfl

/-- **A half-initialised state.**  The mount fails twice.  Each attempt returns an error and leaves
a context behind; the second overwrites the pointer to the first, whose box is lost. -/
theorem half_initialized :
    (initial : Globals Unit Volume ℕ ℕ).usbFsInitialize (sampleSetUp (.err ⟨.other, none⟩ ())) =
      some (.err (LibnxErrMapper.map (⟨.other, none⟩ : IoError)) (halfSet initial)) ∧
    ¬ SamePtrs initial (halfSet initial) ∧ ¬ AllOrNone (halfSet initial) ∧
    (halfSet initial).usbFsInitialize (sampleSetUp (.err ⟨.other, none⟩ ())) =
      some (.err (LibnxErrMapper.map (⟨.other, none⟩ : IoError)) (halfSet (halfSet initial))) ∧
    Overwrites (halfSet initial) (halfSet (halfSet initial)) ∧
    (halfSet (halfSet initial)).contexts.Live (halfSet initial).usbHsCtxPtr.value := by
  refine ⟨initialize_half (by decide) rfl, fun h => ?_, ?_, initialize_half (by decide) rfl,
    Or.inl ⟨by decide, by decide⟩, by decide⟩
  · exact absurd (congrArg Mutex.value h.ctx) (by decide)
  · rintro (⟨h, -⟩ | ⟨-, h, -⟩)
    · exact absurd h (by decide)
    · exact h rfl

theorem initialize_sample {g : Globals Unit Volume ℕ ℕ} (v : Volume)
    (hn : g.usbFsIsInitialized ≠ success) (hp : g.usbHsCtxPtr.poisoned = false) :
    g.usbFsInitialize (sampleSetUp (.ok v ())) =
      some (((halfSet g).publishFs v).andThen fun _ g => g.publishIdStore .new) := by
  rw [(sampleSetUp_publishes _ hn hp).initialize_eq, sampleSetUp_mount]
  rfl

/-- The state a successful set-up leaves. -/
def wholeSet (v : Volume) (g : Globals Unit Volume ℕ ℕ) : Globals Unit Volume ℕ ℕ :=
  ((halfSet g).setFs v).setIdStore .new

theorem initialize_initial (v : Volume) :
    (initial : Globals Unit Volume ℕ ℕ).usbFsInitialize (sampleSetUp (.ok v ())) =
      some (.ok () (wholeSet v initial)) := by
  rw [initialize_sample v (by decide) rfl]
  rfl

/-- No drive, then a drive, then a tear-down. -/
theorem initialize_all_or_nothing_retry :
    (SamePtrs (initial : Globals Unit Volume ℕ ℕ) initial ↔
      ¬ FailsLate absentSetUp (initial : Globals Unit Volume ℕ ℕ)) ∧
    ∃ g : Globals Unit Volume ℕ ℕ, AllOrNone g ∧
      Run (Guard (CycleStep volumeCrate) fun g c => c.Whole g) initial
        [.init absentSetUp, .init (sampleSetUp (.ok (sampleVolume []) ())), .exit] g := by
  have habsent : (initial : Globals Unit Volume ℕ ℕ).usbFsInitialize absentSetUp =
    some (.err nxFatdriveErrDriveNotFound initial) := rfl
  have hearly : ¬ FailsLate absentSetUp (initial : Globals Unit Volume ℕ ℕ) := by
    rintro ⟨ctx, inner, hpub, -⟩
    cases hpub.prepared
  have hlate : ¬ FailsLate (sampleSetUp (.ok (sampleVolume []) ()))
      (initial : Globals Unit Volume ℕ ℕ) :=
    not_failsLate (sampleSetUp_publishes _ (by decide) rfl) (sampleSetUp_mount _) rfl rfl
  have hrun : ∃ g : Globals Unit Volume ℕ ℕ,
      Run (Guard (CycleStep volumeCrate) fun g c => c.Whole g) initial
        [.init absentSetUp, .init (sampleSetUp (.ok (sampleVolume []) ())), .exit] g :=
    ⟨_, .cons ⟨hearly, .init habsent nofun⟩ (.cons ⟨hlate, .init (initialize_initial _) nofun⟩
      (.cons ⟨trivial, .exit rfl⟩ (.nil _)))⟩
  have hnull : Owned (initial : Globals Unit Volume ℕ ℕ) :=
    ⟨absurd rfl, absurd rfl, absurd rfl⟩
  obtain ⟨g, hrun⟩ := hrun
  have key := @initialize_all_or_nothing Unit Unit Unit Volume ℕ ℕ volumeCrate
  exact ⟨key.1 absentSetUp initial initial _ hnull habsent, g, (key.2 _ g hrun).1, hrun⟩

end Globals

end FatDrive
