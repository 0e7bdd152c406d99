import FatDrive.UsbFsInit

/-!
# FatDrive.UsbFsLifetime — the file system outlives the handles into it

`Sound` is what the `'static` handles of the store rest on: the pointers are set in order, and
every handle borrows the file system behind `fs_ptr`.

* `sound_step_iff`: a call keeps it exactly if it is not a set-up that publishes a new file system
  past a store that holds handles;
* `run_sound`: over runs, and in the states that `usbFsExit` passes through;
* `stranded_handle`: a panic poisons the store, and the next set-up replaces the file system its
  handles borrow.
-/

namespace FatDrive

open Lib

/-! ### Handles -/

namespace IdStore

variable {φ F D : Type} {crate : FatfsCrate φ F D} {s : IdStore F D} {w : Mounted φ}

/-- Every handle borrows the file system at this address. -/
structure Borrows (s : IdStore F D) (fs : ℕ) : Prop where
  files : ∀ id f, s.fileHandleMap.lookup id = some f → f.fs = fs
  dirs : ∀ id d, s.dirHandleMap.lookup id = some d → d.fs = fs

def HoldsHandle (s : IdStore F D) : Prop :=
  (∃ id f, s.fileHandleMap.lookup id = some f) ∨ ∃ id d, s.dirHandleMap.lookup id = some d

theorem borrows_new (fs : ℕ) : (new : IdStore F D).Borrows fs := by
  constructor <;>
  · intro id x h
    cases (AList.lookup_empty id).symm.trans h

/-- A store without handles borrows whatever one likes. -/
theorem borrows_of_none (fs : ℕ) (hno : ¬ s.HoldsHandle) : s.Borrows fs where
  files := fun id f hf => absurd (Or.inl ⟨id, f, hf⟩) hno
  dirs := fun id d hd => absurd (Or.inr ⟨id, d, hd⟩) hno

theorem openFile_borrows (h : s.Borrows w.fsPtr.value) (path : String) :
    (openFile crate s w path).state.1.Borrows w.fsPtr.value := by
  rcases openFile_store crate s w path with hsame | ⟨st, fl, st', -, -, -, -, hins⟩
  · rw [hsame]
    exact h
  · rw [hins]
    refine ⟨fun id f hf => ?_, h.dirs⟩
    rcases lookup_insert_or hf with hf | ⟨-, rfl⟩
    · exact h.files id f hf
    · rfl

theorem openDir_borrows (h : s.Borrows w.fsPtr.value) (path : String) :
    (openDir crate s w path).state.1.Borrows w.fsPtr.value := by
  rcases openDir_store crate s w path with hsame | ⟨st, d, -, -, hins⟩
  · rw [hsame]
    exact h
  · rw [hins]
    refine ⟨h.files, fun id d hd => ?_⟩
    rcases lookup_insert_or hd with hd | ⟨-, rfl⟩
    · exact h.dirs id d hd
    · rfl

theorem closeFile_borrows {fs : ℕ} (h : s.Borrows fs) (id : ℕ) :
    (closeFile crate s w id).state.1.Borrows fs := by
  have hless : ∀ id' f, (s.fileHandleMap.erase id).lookup id' = some f → f.fs = fs :=
    fun id' f hf => h.files id' f (lookup_erase_iff.mp hf).2
  rcases closeFile_store crate s w id with hsame | hsame | hsame <;> rw [hsame]
  · exact h
  · exact ⟨hless, h.dirs⟩
  · exact ⟨hless, h.dirs⟩

theorem closeDir_borrows {fs : ℕ} (h : s.Borrows fs) (id : ℕ) :
    (closeDir crate s w id).state.1.Borrows fs := by
  rcases closeDir_store crate s w id with hsame | hsame <;> rw [hsame]
  · exact h
  · exact ⟨h.files, fun id' d hd => h.dirs id' d (lookup_erase_iff.mp hd).2⟩

end IdStore

namespace Globals

variable {U S σ φ F D α : Type} {crate : FatfsCrate φ F D} {su : SetUp U S σ φ}
  {g g' : Globals U φ F D}

/-! ### Operating on the store -/

theorem store?_eq_some {s : IdStore F D} (h : g.store? = some s) :
    g.idStorePtr.value ≠ 0 := by
  intro h0
  rw [store?, h0, Heap.get?_zero] at h
  cases h

theorem store?_put {u : IdStore F D} (h : g.store? = some u) (x : IdStore F D × Mounted φ) :
    (g.put g.idStorePtr.value x).store? = some x.1 := Heap.get?_set_self h x.1

theorem getIdStore_eq {u : IdStore F D} (hp : g.idStorePtr.poisoned = false)
    (h : g.store? = some u) : g.getIdStore = .ok g.idStorePtr.value :=
  Mutex.lockedPtr_eq_ok.mpr ⟨hp, rfl, store?_eq_some h⟩

/-- A call on a store that is there returns what is made of it, and puts it back; a panic poisons the
mutex. -/
theorem withIdStore_of_store {u : IdStore F D} (hp : g.idStorePtr.poisoned = false)
    (h : g.store? = some u) (f : IdStore F D → Mounted φ → Outcome ℕ (IdStore F D × Mounted φ) α) :
    (g.withIdStore f).result = (f u g.mounted).result ∧
      ((g.withIdStore f).state = g.put g.idStorePtr.value (f u g.mounted).state ∨
        (g.withIdStore f).state = { g.put g.idStorePtr.value (f u g.mounted).state with
          idStorePtr := g.idStorePtr.poison }) := by
  have hs : g.stores.get? g.idStorePtr.value = some u := h
  simp only [withIdStore, getIdStore_eq hp h, hs]
  cases f u g.mounted with
  | ok a y => exact ⟨rfl, Or.inl rfl⟩
  | err e y => exact ⟨rfl, Or.inl rfl⟩
  | panicked y => exact ⟨rfl, Or.inr rfl⟩

/-- A call that returns has been refused for want of a store, or has operated on it. -/
theorem withIdStore_returned {f : IdStore F D → Mounted φ → Outcome ℕ (IdStore F D × Mounted φ) α}
    {r : Except ℕ α} (h : (g.withIdStore f).result = some r) :
    ((∃ code, r = .error code) ∧ (g.withIdStore f).state = g ∧
        (g.idStorePtr.poisoned = false → g.store? = none)) ∨
      ∃ s, g.idStorePtr.poisoned = false ∧ g.store? = some s ∧ (f s g.mounted).result = some r ∧
        (g.withIdStore f).state = g.put g.idStorePtr.value (f s g.mounted).state := by
  unfold withIdStore at h ⊢
  cases hget : g.getIdStore with
  | error code =>
    simp only [hget, Outcome.result, Option.some_inj] at h
    refine Or.inl ⟨⟨code, h.symm⟩, rfl, fun hp => ?_⟩
    by_contra hs
    obtain ⟨s, hs⟩ := Option.ne_none_iff_exists'.mp hs
    cases hget.symm.trans (getIdStore_eq hp hs)
  | ok a =>
    obtain ⟨hp, rfl, -⟩ := Mutex.lockedPtr_eq_ok.mp hget
    simp only [hget] at h ⊢
    cases hs : g.stores.get? g.idStorePtr.value with
    | none => simp [hs, Outcome.result] at h
    | some s =>
      simp only [hs] at h ⊢
      cases hf : f s g.mounted with
      | ok b y => exact Or.inr ⟨s, hp, hs, by simpa [hf, Outcome.result] using h, by simp [hf]⟩
      | err e y => exact Or.inr ⟨s, hp, hs, by simpa [hf, Outcome.result] using h, by simp [hf]⟩
      | panicked y => simp [hf, Outcome.result] at h

theorem withIdStore_eq_ok {f : IdStore F D → Mounted φ → Outcome ℕ (IdStore F D × Mounted φ) α}
    {a : α} (h : g.withIdStore f = .ok a g') :
    ∃ s y, g.idStorePtr.poisoned = false ∧ g.store? = some s ∧ f s g.mounted = .ok a y ∧
      g' = g.put g.idStorePtr.value y := by
  obtain ⟨⟨code, hr⟩, -⟩ | ⟨s, hp, hs, hres, hstate⟩ :=
    withIdStore_returned (r := .ok a) (by rw [h]; rfl)
  · cases hr
  · obtain ⟨y, hy⟩ := Outcome.result_eq_ok.mp hres
    rw [h, hy] at hstate
    exact ⟨s, y, hp, hs, hy, hstate⟩

theorem withIdStore_eq_err {f : IdStore F D → Mounted φ → Outcome ℕ (IdStore F D × Mounted φ) α}
    {code : ℕ} (h : g.withIdStore f = .err code g') :
    (g' = g ∧ (g.idStorePtr.poisoned = false → g.store? = none)) ∨
      ∃ s y, g.idStorePtr.poisoned = false ∧ g.store? = some s ∧ f s g.mounted = .err code y ∧
        g' = g.put g.idStorePtr.value y := by
  obtain ⟨-, hstate, hnone⟩ | ⟨s, hp, hs, hres, hstate⟩ :=
    withIdStore_returned (r := .error code) (by rw [h]; rfl)
  · rw [h] at hstate
    exact Or.inl ⟨hstate, hnone⟩
  · obtain ⟨y, hy⟩ := Outcome.result_eq_err.mp hres
    rw [h, hy] at hstate
    exact Or.inr ⟨s, y, hp, hs, hy, hstate⟩

/-- What holds before a call on the store and after what it does to the store, poisoned or not,
holds after the call. -/
theorem withIdStore_state {I : Globals U φ F D → Prop}
    {f : IdStore F D → Mounted φ → Outcome ℕ (IdStore F D × Mounted φ) α} (h : I g)
    (hput : ∀ s, g.idStorePtr.poisoned = false → g.store? = some s →
      I (g.put g.idStorePtr.value (f s g.mounted).state))
    (hpoison : ∀ g, I g → I { g with idStorePtr := g.idStorePtr.poison }) :
    I (g.withIdStore f).state := by
  unfold withIdStore
  cases hget : g.getIdStore with
  | error code => exact h
  | ok a =>
    obtain ⟨hp, rfl, -⟩ := Mutex.lockedPtr_eq_ok.mp hget
    dsimp only
    cases hs : g.stores.get? g.idStorePtr.value with
    | none => exact h
    | some s =>
      have hx := hput s hp hs
      dsimp only
      cases hf : f s g.mounted with
      | ok r x => rw [hf] at hx; exact hx
      | err code x => rw [hf] at hx; exact hx
      | panicked x => rw [hf] at hx; exact hpoison _ hx

theorem withPath_state {I : Globals U φ F D → Prop} {filepath : Option String}
    {f : String → IdStore F D → Mounted φ → Outcome ℕ (IdStore F D × Mounted φ) α} (h : I g)
    (hput : ∀ path s, filepath = some path → g.idStorePtr.poisoned = false → g.store? = some s →
      I (g.put g.idStorePtr.value (f path s g.mounted).state))
    (hpoison : ∀ g, I g → I { g with idStorePtr := g.idStorePtr.poison }) :
    I (g.withPath filepath f).state := by
  cases filepath with
  | none => exact h
  | some path => exact withIdStore_state h (fun s hp hs => hput path s rfl hp hs) hpoison

/-! ### Soundness -/

/-- The pointers are set in order, and every handle of the store borrows the file system behind the
pointer, which is there. -/
structure Sound (g : Globals U φ F D) : Prop extends Owned g where
  storeNeedsFs : g.idStorePtr.value ≠ 0 → g.mounted.fsPtr.value ≠ 0
  fsNeedsCtx : g.mounted.fsPtr.value ≠ 0 → g.usbHsCtxPtr.value ≠ 0
  borrows : ∀ s, g.store? = some s → s.Borrows g.mounted.fsPtr.value

theorem sound_initial : Sound (initial : Globals U φ F D) where
  ctx := absurd rfl
  fs := absurd rfl
  store := absurd rfl
  storeNeedsFs := absurd rfl
  fsNeedsCtx := absurd rfl
  borrows := fun _ h => absurd rfl (store?_eq_some h)

/-- The pointers are the same, and what was boxed still is. -/
structure Grows (g g' : Globals U φ F D) : Prop where
  ctxPtr : g'.usbHsCtxPtr.value = g.usbHsCtxPtr.value
  fsPtr : g'.mounted.fsPtr.value = g.mounted.fsPtr.value
  storePtr : g'.idStorePtr.value = g.idStorePtr.value
  contexts : ∀ {a}, g.contexts.Live a → g'.contexts.Live a
  fileSystems : ∀ {a}, g.mounted.fileSystems.Live a → g'.mounted.fileSystems.Live a
  stores : ∀ {a s}, g.stores.get? a = some s → g'.stores.get? a = some s

theorem Sound.grows (h : Sound g) (hg : Grows g g') : Sound g' where
  ctx := fun h0 => by
    rw [hg.ctxPtr] at h0 ⊢
    exact hg.contexts (h.ctx h0)
  fs := fun h0 => by
    rw [hg.fsPtr] at h0 ⊢
    exact hg.fileSystems (h.fs h0)
  store := fun h0 => by
    rw [hg.storePtr] at h0 ⊢
    obtain ⟨s, hs⟩ := Heap.live_iff.mp (h.store h0)
    exact Heap.live_iff.mpr ⟨s, hg.stores hs⟩
  storeNeedsFs := fun h0 => by
    rw [hg.storePtr] at h0
    rw [hg.fsPtr]
    exact h.storeNeedsFs h0
  fsNeedsCtx := fun h0 => by
    rw [hg.fsPtr] at h0
    rw [hg.ctxPtr]
    exact h.fsNeedsCtx h0
  borrows := fun s hs => by
    have h0 : g.idStorePtr.value ≠ 0 := by
      rw [← hg.storePtr]
      exact store?_eq_some hs
    obtain ⟨u, hu⟩ := Heap.live_iff.mp (h.store h0)
    have hsu : g'.store? = some u := by
      rw [store?, hg.storePtr]
      exact hg.stores hu
    cases hs.symm.trans hsu
    rw [hg.fsPtr]
    exact h.borrows s hu

theorem Sound.poison (h : Sound g) : Sound { g with idStorePtr := g.idStorePtr.poison } :=
  h.grows ⟨rfl, rfl, rfl, fun h => h, fun h => h, fun h => h⟩

theorem Sound.put (h : Sound g) {s s' : IdStore F D} {w : Mounted φ} (hs : g.store? = some s)
    (hw : g.mounted.Moved (fun _ _ => True) w) (hb : s'.Borrows g.mounted.fsPtr.value) :
    Sound (g.put g.idStorePtr.value (s', w)) where
  ctx := h.ctx
  fs := fun h0 => by
    have hfs : w.fsPtr.value = g.mounted.fsPtr.value := hw.fsPtr
    show w.fileSystems.Live w.fsPtr.value
    rw [hfs]
    exact hw.live (h.fs (hfs ▸ h0))
  store := fun h0 => Heap.live_set.mpr (h.store h0)
  storeNeedsFs := fun h0 => by
    show w.fsPtr.value ≠ 0
    rw [hw.fsPtr]
    exact h.storeNeedsFs h0
  fsNeedsCtx := fun h0 => h.fsNeedsCtx (hw.fsPtr ▸ h0)
  borrows := fun u hu => by
    rw [store?_put hs] at hu
    cases hu
    show s'.Borrows w.fsPtr.value
    rw [hw.fsPtr]
    exact hb

/-! ### Setting up -/

theorem Sound.setCtx (h : Sound g) (ctx : UsbFsServiceContext U) : Sound (g.setCtx ctx) where
  ctx := fun _ => Heap.live_alloc.mpr (Or.inl rfl)
  fs := h.fs
  store := h.store
  storeNeedsFs := h.storeNeedsFs
  fsNeedsCtx := fun _ => g.contexts.alloc_fst_ne_zero ctx
  borrows := h.borrows

/-- A new file system may be published if no handle borrows the old one. -/
theorem Sound.setFs (h : Sound g) (hctx : g.usbHsCtxPtr.value ≠ 0) (fs : φ)
    (hno : ∀ s, g.store? = some s → ¬ s.HoldsHandle) : Sound (g.setFs fs) where
  ctx := h.ctx
  fs := fun _ => Heap.live_alloc.mpr (Or.inl rfl)
  store := h.store
  storeNeedsFs := fun _ => g.mounted.fileSystems.alloc_fst_ne_zero fs
  fsNeedsCtx := fun _ => hctx
  borrows := fun s hs => IdStore.borrows_of_none _ (hno s hs)

theorem Sound.setIdStore (h : Sound g) (hfs : g.mounted.fsPtr.value ≠ 0) :
    Sound (g.setIdStore .new) where
  ctx := h.ctx
  fs := h.fs
  store := fun _ => Heap.live_alloc.mpr (Or.inl rfl)
  storeNeedsFs := fun _ => hfs
  fsNeedsCtx := h.fsNeedsCtx
  borrows := fun s hs => by
    cases hs.symm.trans (g.stores.get?_alloc_self .new)
    exact IdStore.borrows_new _

/-- The set-up publishes a new file system past a store that holds handles. -/
def Strands (su : SetUp U S σ φ) (g : Globals U φ F D) : Prop :=
  ∃ ctx inner fs s, Publishes su g ctx inner ∧ su.mount inner = some (.ok fs ()) ∧
    g.mounted.fsPtr.poisoned = false ∧ g.store? = some s ∧ s.HoldsHandle

/-- With no poisoned mutex a store that is there keeps the set-up away. -/
theorem Sound.store?_eq_none (h : Sound g) (hn : g.usbFsIsInitialized ≠ success)
    (hc : g.usbHsCtxPtr.poisoned = false) (hf : g.mounted.fsPtr.poisoned = false)
    (hs : g.idStorePtr.poisoned = false) : g.store? = none := by
  refine Option.eq_none_iff_forall_ne_some.mpr fun s hst => hn ?_
  have hstore := store?_eq_some hst
  have hfs := h.storeNeedsFs hstore
  exact isInitialized_iff.mpr ⟨⟨hs, hstore⟩, ⟨hc, h.fsNeedsCtx hfs⟩, hf, hfs⟩

/-- A handle into the old file system does not borrow the new one. -/
theorem Sound.stranded (h : Sound g) {s : IdStore F D} (hs : g.store? = some s)
    (hh : s.HoldsHandle) (fs : φ) : ¬ s.Borrows (g.mounted.fileSystems.alloc fs).1 := by
  intro hb
  have hlive := h.fs (h.storeNeedsFs (store?_eq_some hs))
  have heq : (g.mounted.fileSystems.alloc fs).1 = g.mounted.fsPtr.value := by
    rcases hh with ⟨id, f, hf⟩ | ⟨id, d, hd⟩
    · exact (hb.files id f hf).symm.trans ((h.borrows s hs).files id f hf)
    · exact (hb.dirs id d hd).symm.trans ((h.borrows s hs).dirs id d hd)
  rw [← heq] at hlive
  exact g.mounted.fileSystems.not_live_alloc fs hlive

/-- **One set-up.** -/
theorem Sound.initialize_iff (h : Sound g) {r : Outcome ℕ (Globals U φ F D) Unit}
    (hr : g.usbFsInitialize su = some r) : Sound r.state ↔ ¬ Strands su g := by
  have hmount {ctx inner} (hpub : Publishes su g ctx inner)
      (hm : ∀ fs, su.mount inner ≠ some (.ok fs ())) : ¬ Strands su g := by
    rintro ⟨ctx', inner', fs, s, hpub', hm', -⟩
    obtain ⟨rfl, rfl⟩ := hpub.unique hpub'
    exact hm fs hm'
  cases initialize_effect hr with
  | already hi =>
    refine iff_of_true h ?_
    rintro ⟨ctx, inner, fs, s, hpub, -⟩
    exact hpub.needed hi
  | unprepared he =>
    refine iff_of_true h ?_
    rintro ⟨ctx, inner, fs, s, hpub, -⟩
    cases he.symm.trans hpub.prepared
  | ctxPoisoned hp =>
    refine iff_of_true (h.grows ⟨rfl, rfl, rfl, fun h => Heap.live_alloc.mpr (Or.inr h),
      fun h => h, fun h => h⟩) ?_
    rintro ⟨ctx, inner, fs, s, hpub, -⟩
    cases hp.symm.trans hpub.unpoisoned
  | unmounted hpub hm => exact iff_of_true (h.setCtx _) (hmount hpub hm)
  | mountPanicked hpub hm =>
    exact iff_of_true ((h.setCtx _).grows ⟨rfl, rfl, rfl, fun h => h, fun h => h, fun h => h⟩)
      (hmount hpub hm)
  | fsPoisoned hpub hm hp =>
    refine iff_of_true ((h.setCtx _).grows ⟨rfl, rfl, rfl, fun h => h,
      fun h => Heap.live_alloc.mpr (Or.inr h), fun h => h⟩) ?_
    rintro ⟨ctx, inner, fs, s, -, -, hf, -⟩
    cases hp.symm.trans hf
  | @storePoisoned ctx inner fs _ hpub hm hf hp =>
    have hgrow : Grows ((g.setCtx ctx).setFs fs)
        { (g.setCtx ctx).setFs fs with stores := (g.stores.alloc IdStore.new).2 } :=
      ⟨rfl, rfl, rfl, fun h => h, fun h => h, fun h => Heap.get?_alloc h _⟩
    constructor
    · rintro hsound ⟨ctx', inner', fs', s, -, -, -, hs, hh⟩
      have hs' : ({ (g.setCtx ctx).setFs fs with
          stores := (g.stores.alloc IdStore.new).2 } : Globals U φ F D).store? = some s :=
        Heap.get?_alloc hs _
      exact h.stranded hs hh fs (hsound.borrows s hs')
    · intro hno
      refine Sound.grows ((h.setCtx ctx).setFs (g.contexts.alloc_fst_ne_zero ctx) fs ?_) hgrow
      exact fun s hs hh => hno ⟨ctx, inner, fs, s, hpub, hm, hf, hs, hh⟩
  | @done ctx inner fs hpub hm hf hp =>
    have hnone : g.store? = none := h.store?_eq_none hpub.needed hpub.unpoisoned hf hp
    have hno : ∀ s, (g.setCtx ctx).store? = some s → ¬ s.HoldsHandle := fun s hs _ => by
      cases hnone.symm.trans hs
    refine iff_of_true (Sound.setIdStore ((h.setCtx ctx).setFs
      (g.contexts.alloc_fst_ne_zero ctx) fs hno) (g.mounted.fileSystems.alloc_fst_ne_zero fs)) ?_
    rintro ⟨ctx', inner', fs', s, -, -, -, hs, -⟩
    cases hnone.symm.trans hs

/-! ### Tearing down -/

theorem Sound.of_noStore (ho : Owned g) (h0 : g.idStorePtr.value = 0)
    (hfs : g.mounted.fsPtr.value ≠ 0 → g.usbHsCtxPtr.value ≠ 0) : Sound g where
  toOwned := ho
  storeNeedsFs := absurd h0
  fsNeedsCtx := hfs
  borrows := fun _ hs => absurd h0 (store?_eq_some hs)

theorem Sound.exitIdStore (h : Sound g) (he : exitIdStore crate g = some g') :
    Sound g' ∧ g'.idStorePtr.value = 0 := by
  obtain ⟨hstore, hctx, hfs⟩ := exitIdStore_ptrs he
  have h0 : g'.idStorePtr.value = 0 := by rw [hstore, Mutex.value_store]
  refine ⟨Sound.of_noStore ⟨fun hne => ?_, fun hne => ?_, absurd h0⟩ h0 ?_, h0⟩
  · rw [hctx] at hne ⊢
    unfold Globals.exitIdStore at he
    split at he <;> cases he <;> exact h.ctx hne
  · rw [hfs] at hne ⊢
    unfold Globals.exitIdStore at he
    split at he
    · cases he
    · cases he
      exact h.fs hne
    · next a _ _ =>
      cases he
      cases g.stores.get? a with
      | none => exact h.fs hne
      | some s =>
        exact (IdStore.dropStore_moved (within_true crate) s g.mounted).live (h.fs hne)
  · rw [hfs, hctx]
    exact h.fsNeedsCtx

theorem Sound.exitFs (h : Sound g) (h0 : g.idStorePtr.value = 0) (he : exitFs g = some g') :
    Sound g' ∧ g'.mounted.fsPtr.value = 0 ∧ g'.idStorePtr.value = 0 := by
  obtain ⟨hstore, hctx, hfs⟩ := exitFs_ptrs he
  have hs0 : g'.idStorePtr.value = 0 := by rw [hstore, h0]
  have hf0 : g'.mounted.fsPtr.value = 0 := by rw [hfs, Mutex.value_store]
  refine ⟨Sound.of_noStore ⟨fun hne => ?_, absurd hf0, absurd hs0⟩ hs0 (absurd hf0), hf0, hs0⟩
  rw [hctx] at hne ⊢
  unfold Globals.exitFs at he
  split at he <;> cases he <;> exact h.ctx hne

theorem Sound.exitCtx (h0 : g.idStorePtr.value = 0)
    (hf : g.mounted.fsPtr.value = 0) (he : exitCtx g = some g') : Sound g' := by
  obtain ⟨hstore, hctx, hm⟩ := exitCtx_ptrs he
  have hs0 : g'.idStorePtr.value = 0 := by rw [hstore, h0]
  have hf0 : g'.mounted.fsPtr.value = 0 := by rw [hm, hf]
  have hc0 : g'.usbHsCtxPtr.value = 0 := by rw [hctx, Mutex.value_store]
  exact Sound.of_noStore ⟨absurd hc0, absurd hf0, absurd hs0⟩ hs0 (absurd hf0)

/-- **A tear-down**, wherever it returns: the store goes first, then its file system. -/
theorem Sound.exit (h : Sound g) {logOpens : Bool} :
    ∀ y ∈ usbFsExit crate logOpens g, Sound y := by
  intro y hy
  unfold usbFsExit at hy
  split at hy
  · unfold inTurn at hy
    split at hy
    · cases hy
    · next g₁ h₁ =>
      obtain ⟨hg₁, h0⟩ := h.exitIdStore h₁
      rcases List.mem_cons.mp hy with rfl | hy
      · exact hg₁
      · unfold inTurn at hy
        split at hy
        · cases hy
        · next g₂ h₂ =>
          obtain ⟨hg₂, hf, hs⟩ := hg₁.exitFs h0 h₂
          rcases List.mem_cons.mp hy with rfl | hy
          · exact hg₂
          · unfold inTurn at hy
            split at hy
            · cases hy
            · next g₃ h₃ =>
              rcases List.mem_cons.mp hy with rfl | hy
              · exact Sound.exitCtx hs hf h₃
              · cases hy
  · cases hy

/-! ### Runs -/

/-- The calls. -/
inductive LifeCall (U S σ φ : Type) where
  | init (su : SetUp U S σ φ)
  | exit (logOpens : Bool)
  | openFile (filepath : Option String)
  | openDir (dirpath : Option String)
  | closeFile (fileid : ℕ)
  | closeDir (dirid : ℕ)

/-- One call, whatever it returns. -/
inductive LifeStep (crate : FatfsCrate φ F D) (g : Globals U φ F D) :
    LifeCall U S σ φ → Globals U φ F D → Prop
  | init {su r} (h : usbFsInitialize su g = some r) : LifeStep crate g (.init su) r.state
  | exit (logOpens : Bool) :
      LifeStep crate g (.exit logOpens) ((usbFsExit crate logOpens g).getLastD g)
  | openFile (filepath : Option String) :
      LifeStep crate g (.openFile filepath) (usbFsOpenFile crate g filepath).state
  | openDir (dirpath : Option String) :
      LifeStep crate g (.openDir dirpath) (usbFsOpenDir crate g dirpath).state
  | closeFile (fileid : ℕ) : LifeStep crate g (.closeFile fileid) (usbFsCloseFile crate g fileid).state
  | closeDir (dirid : ℕ) : LifeStep crate g (.closeDir dirid) (usbFsCloseDir crate g dirid).state

/-- The call is not a set-up that strands handles. -/
def LifeCall.Safe (g : Globals U φ F D) : LifeCall U S σ φ → Prop
  | .init su => ¬ Strands su g
  | _ => True

theorem Sound.openFile (h : Sound g) (filepath : Option String) :
    Sound (usbFsOpenFile crate g filepath).state :=
  withPath_state h (fun path s _ _ hs => h.put hs (IdStore.openFile_moved (within_true crate) path)
    (IdStore.openFile_borrows (h.borrows s hs) path)) fun _ h => h.poison

theorem Sound.openDir (h : Sound g) (dirpath : Option String) :
    Sound (usbFsOpenDir crate g dirpath).state :=
  withPath_state h (fun path s _ _ hs => h.put hs (IdStore.openDir_moved (within_true crate) path)
    (IdStore.openDir_borrows (h.borrows s hs) path)) fun _ h => h.poison

theorem Sound.closeFile (h : Sound g) (fileid : ℕ) :
    Sound (usbFsCloseFile crate g fileid).state :=
  withIdStore_state h (fun s _ hs => h.put hs (IdStore.closeFile_moved (within_true crate) fileid)
    (IdStore.closeFile_borrows (h.borrows s hs) fileid)) fun _ h => h.poison

theorem Sound.closeDir (h : Sound g) (dirid : ℕ) : Sound (usbFsCloseDir crate g dirid).state :=
  withIdStore_state h (fun s _ hs => h.put hs (IdStore.closeDir_moved (within_true crate) dirid)
    (IdStore.closeDir_borrows (h.borrows s hs) dirid)) fun _ h => h.poison

/-- **One call.** -/
theorem sound_step_iff (h : Sound g) {c : LifeCall U S σ φ} (hst : LifeStep crate g c g') :
    Sound g' ↔ c.Safe g := by
  cases hst with
  | init hr => exact h.initialize_iff hr
  | exit logOpens =>
    refine iff_of_true ?_ trivial
    rcases List.eq_nil_or_concat (usbFsExit crate logOpens g) with he | ⟨ys, y, he⟩
    · rw [he]
      exact h
    · have hy : y ∈ usbFsExit crate logOpens g := by simp [he]
      rw [he, List.concat_eq_append, List.getLastD_concat]
      exact h.exit y hy
  | openFile filepath => exact iff_of_true (h.openFile filepath) trivial
  | openDir dirpath => exact iff_of_true (h.openDir dirpath) trivial
  | closeFile fileid => exact iff_of_true (h.closeFile fileid) trivial
  | closeDir dirid => exact iff_of_true (h.closeDir dirid) trivial

/-- **Soundness over runs.**  After any calls none of which is a set-up that strands handles, the
pointers are set in order and every handle borrows the file system behind `fs_ptr`.  A tear-down
passes through such states only, and the next call leads to one exactly if it strands nothing. -/
theorem run_sound {cs : List (LifeCall U S σ φ)}
    (hrun : Run (Guard (LifeStep crate) fun g c => c.Safe g) initial cs g) :
    Sound g ∧ (∀ s, g.store? = some s → g.mounted.fileSystems.Live g.mounted.fsPtr.value) ∧
    (∀ logOpens, ∀ y ∈ usbFsExit crate logOpens g, Sound y) ∧
    ∀ (c : LifeCall U S σ φ) g', LifeStep crate g c g' → (Sound g' ↔ c.Safe g) := by
  have h : Sound g := hrun.invariant (I := Sound)
    (fun g c g' h hst => (sound_step_iff h hst.2).mpr hst.1) sound_initial
  refine ⟨h, fun s hs => ?_, fun logOpens => h.exit, fun c g' hst => sound_step_iff h hst⟩
  exact h.fs (h.storeNeedsFs (store?_eq_some hs))

/-- After a set-up, a file and a directory are opened. -/
def openSession (v : Volume) : Globals Unit Volume ℕ ℕ :=
  (usbFsOpenDir volumeCrate (usbFsOpenFile volumeCrate (wholeSet v initial) (some "a")).state
    (some "/")).state

theorem run_sound_session : Sound (openSession (sampleVolume [])) := by
  have hno : ¬ Strands (sampleSetUp (.ok (sampleVolume []) ()))
      (initial : Globals Unit Volume ℕ ℕ) := by
    rintro ⟨ctx, inner, fs, s, -, -, -, hs, -⟩
    exact store?_eq_some hs rfl
  have hrun : Run (Guard (LifeStep volumeCrate) fun g c => c.Safe g) initial
      [.init (sampleSetUp (.ok (sampleVolume []) ())), .openFile (some "a"), .openDir (some "/")]
      (openSession (sampleVolume [])) :=
    .cons ⟨hno, .init (initialize_initial _)⟩ (.cons ⟨trivial, .openFile _⟩
      (.cons ⟨trivial, .openDir _⟩ (.nil _)))
  exact (run_sound hrun).1

/-- The file is closed, and its flush panics. -/
def panickedSession : Globals Unit Volume ℕ ℕ :=
  (usbFsCloseFile volumeCrate (openSession (sampleVolume [.fine, .panics])) 0).state

/-- **A stranded handle.**  The panic poisons the store, which still holds a directory.  The
tear-down returns early, and the next set-up publishes another file system before it fails. -/
theorem stranded_handle :
    (usbFsCloseFile volumeCrate (openSession (sampleVolume [.fine, .panics])) 0).result = none ∧
    (usbFsExit volumeCrate true panickedSession).length = 0 ∧
    ∃ g, panickedSession.usbFsInitialize (sampleSetUp (.ok (sampleVolume []) ())) =
        some (.err nxFatdriveErrPoissenedMutex g) ∧
      g.mounted.fsPtr.value = 2 ∧
      (g.store?.bind fun s => s.dirHandleMap.lookup 1) = some ⟨1, 0⟩ ∧ ¬ Sound g := by
  have hfs : ((halfSet panickedSession).setFs (sampleVolume [])).mounted.fsPtr.value = 2 := by
    decide +kernel
  have hdir : (panickedSession.store?.bind fun s => s.dirHandleMap.lookup 1) = some ⟨1, 0⟩ := by
    decide +kernel
  obtain ⟨s, hs, hd⟩ := Option.bind_eq_some_iff.mp hdir
  have hs' := Heap.get?_alloc hs (.new : IdStore ℕ ℕ)
  refine ⟨by decide +kernel, by decide +kernel, _,
    initialize_sample _ (by decide +kernel) (by decide +kernel), hfs, ?_, fun h => ?_⟩
  · exact Option.bind_eq_some_iff.mpr ⟨s, hs', hd⟩
  · have heq : (1 : ℕ) = 2 := ((h.borrows s hs').dirs 1 _ hd).trans hfs
    cases heq

end Globals

end FatDrive
