import FatDrive.UsbFsLocks

/-!
# FatDrive.UsbFsExclusion — who works on the file system at the same time

Every section that operates on the shared `FileSystem`, or on a `File` or `Dir` opened from it, is
under `id_store_ptr`, except that of `usbFsStatFilesystem`, which is under `fs_ptr` alone.

* `statFilesystem_overlaps`: after a successful `usbFsInitialize` one thread is in
  `usbFsStatFilesystem` while another is in `usbFsReadFile`;
* `sections_exclude`: no two threads work at the same time as long as `usbFsStatFilesystem` keeps
  apart from the sections outside `fs_ptr`.
-/

namespace FatDrive

open Lib Threads GlobalMutex

variable {T : Type}

/-- Some work is done before `m` is taken. -/
def workBefore (m : GlobalMutex) : List (Act GlobalMutex) → Bool
  | [] => false
  | .work :: _ => true
  | .take m' :: r => m' ≠ m && workBefore m r
  | .drop _ :: r => workBefore m r

/-- The thread holds `id_store_ptr` and works next outside `fs_ptr`. -/
def WorksOutside (s : Threads T GlobalMutex) (t : T) : Prop :=
  s.owner idStorePtr = some t ∧ s.owner fsPtr ≠ some t ∧ workBefore fsPtr (s.todo t) = true

/-- The thread holds `fs_ptr` but not `id_store_ptr`, and is to work. -/
def WorksAlone (s : Threads T GlobalMutex) (t : T) : Prop :=
  s.owner fsPtr = some t ∧ s.owner idStorePtr ≠ some t ∧ .work ∈ s.todo t

/-! ### Where the sections are -/

/-- Work is done under `id_store_ptr` or `fs_ptr`, and `id_store_ptr` is not dropped before that. -/
def WorksLocked : List GlobalMutex × List (Act GlobalMutex) → Prop
  | (h, .work :: _) => idStorePtr ∈ h ∨ fsPtr ∈ h
  | (_, .drop idStorePtr :: r) => .work ∉ r
  | _ => True

instance : (x : List GlobalMutex × List (Act GlobalMutex)) → Decidable (WorksLocked x)
  | (_, []) => inferInstanceAs (Decidable True)
  | (_, .work :: _) => inferInstanceAs (Decidable (_ ∨ _))
  | (_, .drop idStorePtr :: _) => inferInstanceAs (Decidable (¬ _))
  | (_, .drop fsPtr :: _) => inferInstanceAs (Decidable True)
  | (_, .drop usbHsCtxPtr :: _) => inferInstanceAs (Decidable True)
  | (_, .take _ :: _) => inferInstanceAs (Decidable True)

theorem worksLocked (c : Entry) : ∀ p ∈ c.body.paths, ∀ x ∈ points [] p, WorksLocked x := by
  cases c <;> decide

theorem working_locked {s : Threads T GlobalMutex} {t : T} (hs : Attends Entry.body s t)
    (hw : s.Working t) : s.owner idStorePtr = some t ∨ s.owner fsPtr = some t := by
  obtain ⟨r, hr⟩ := hw
  obtain ⟨c, p, hp, h, hm, hown⟩ := hs.point hr
  exact (worksLocked c p hp _ hm).imp (hown.2 _).mpr (hown.2 _).mpr

/-! ### The condition -/

/-- What the thread does next keeps `usbFsStatFilesystem` apart from the sections outside `fs_ptr`:
it takes `fs_ptr` only while no other thread works next under `id_store_ptr` alone, and
`id_store_ptr` is taken for such a section only while it does not hold `fs_ptr`. -/
def StatsApart (s : Threads T GlobalMutex) (t : T) : List (Act GlobalMutex) → Prop
  | .take fsPtr :: r =>
    s.owner idStorePtr ≠ some t → .work ∈ r → ∀ u, u ≠ t → ¬ WorksOutside s u
  | .take idStorePtr :: r => workBefore fsPtr r = true → ∀ u, u ≠ t → ¬ WorksAlone s u
  | _ => True

def SectionsApart (s : Threads T GlobalMutex) : Move T Entry GlobalMutex → Prop
  | .start .. => True
  | .go t => StatsApart s t (s.todo t)

variable [DecidableEq T] {s s' : Threads T GlobalMutex} {l : Move T Entry GlobalMutex}

/-- How a thread comes to work outside `fs_ptr`: it takes `id_store_ptr`, or drops `fs_ptr`. -/
theorem worksOutside_step (hs : ∀ t, Attends Entry.body s t) (h : fire Entry.body s l = some s')
    {t : T} (ht : WorksOutside s' t) :
    WorksOutside s t ∨
      (∃ r, l = .go t ∧ s.todo t = .take idStorePtr :: r ∧ workBefore fsPtr r = true) ∨
      l = .go t ∧ s.owner fsPtr = some t := by
  obtain ⟨hid, hfs, hw⟩ := ht
  by_cases htl : t = l.thread
  · subst htl
    rcases fire_cases h with ⟨t, c, p, rfl, h0, hp, rfl⟩ | ⟨t, n, r, rfl, ht, hn, rfl⟩ |
      ⟨t, n, r, rfl, ht, rfl⟩ | ⟨t, r, rfl, ht, rfl⟩
    · have := (((hs t).owns_nil h0).2 idStorePtr).mp hid
      cases this
    · simp only [Move.thread, owner_advance, todo_advance_self] at hid hfs hw
      cases n with
      | idStorePtr => exact Or.inr (Or.inl ⟨r, rfl, ht, hw⟩)
      | fsPtr => exact absurd (owner_setOwner_self ..) hfs
      | usbHsCtxPtr =>
        refine Or.inl ⟨by rwa [owner_setOwner_of_ne (by decide)] at hid,
          by rwa [owner_setOwner_of_ne (by decide)] at hfs, ?_⟩
        show workBefore fsPtr (s.todo t) = true
        rw [ht]
        exact hw
    · simp only [Move.thread, owner_advance, todo_advance_self] at hid hfs hw
      by_cases hown : s.owner fsPtr = some t
      · exact Or.inr (Or.inr ⟨rfl, hown⟩)
      · refine Or.inl ⟨?_, hown, ?_⟩
        · by_cases hn : n = idStorePtr
          · subst hn
            rw [owner_setOwner_self] at hid
            cases hid
          · rwa [owner_setOwner_of_ne (Ne.symm hn)] at hid
        · show workBefore fsPtr (s.todo t) = true
          rw [ht]
          exact hw
    · refine Or.inl ⟨hid, hfs, ?_⟩
      show workBefore fsPtr (s.todo t) = true
      rw [ht]
      rfl
  · obtain ⟨htodo, hown⟩ := fire_others hs h htl
    exact Or.inl ⟨(hown _).mp hid, fun h => hfs ((hown _).mpr h), by rw [← htodo]; exact hw⟩

/-- How a thread comes to work under `fs_ptr` alone: it takes it. -/
theorem worksAlone_step (hs : ∀ t, Attends Entry.body s t) (h : fire Entry.body s l = some s')
    {t : T} (ht : WorksAlone s' t) :
    WorksAlone s t ∨
      ∃ r, l = .go t ∧ s.todo t = .take fsPtr :: r ∧ s.owner idStorePtr ≠ some t ∧ .work ∈ r := by
  obtain ⟨hfs, hid, hw⟩ := ht
  by_cases htl : t = l.thread
  · subst htl
    rcases fire_cases h with ⟨t, c, p, rfl, h0, hp, rfl⟩ | ⟨t, n, r, rfl, ht, hn, rfl⟩ |
      ⟨t, n, r, rfl, ht, rfl⟩ | ⟨t, r, rfl, ht, rfl⟩
    · have := (((hs t).owns_nil h0).2 fsPtr).mp hfs
      cases this
    · simp only [Move.thread, owner_advance, todo_advance_self] at hid hfs hw
      cases n with
      | idStorePtr => exact absurd (owner_setOwner_self ..) hid
      | fsPtr =>
        rw [owner_setOwner_of_ne (by decide)] at hid
        exact Or.inr ⟨r, rfl, ht, hid, hw⟩
      | usbHsCtxPtr =>
        refine Or.inl ⟨by rwa [owner_setOwner_of_ne (by decide)] at hfs,
          by rwa [owner_setOwner_of_ne (by decide)] at hid, ?_⟩
        show .work ∈ s.todo t
        rw [ht]
        exact List.mem_cons_of_mem _ hw
    · simp only [Move.thread, owner_advance, todo_advance_self] at hid hfs hw
      have hwork : .work ∈ s.todo t := by
        rw [ht]
        exact List.mem_cons_of_mem _ hw
      cases n with
      | idStorePtr =>
        -- `id_store_ptr` is dropped after the work
        obtain ⟨c, p, hp, hl, hm, -⟩ := (hs t).point ht
        exact absurd hw (worksLocked c p hp _ hm)
      | fsPtr =>
        rw [owner_setOwner_self] at hfs
        cases hfs
      | usbHsCtxPtr =>
        exact Or.inl ⟨by rwa [owner_setOwner_of_ne (by decide)] at hfs,
          by rwa [owner_setOwner_of_ne (by decide)] at hid, hwork⟩
    · simp only [Move.thread, owner_advance, todo_advance_self] at hid hfs hw
      refine Or.inl ⟨hfs, hid, ?_⟩
      show .work ∈ s.todo t
      rw [ht]
      exact List.mem_cons_self
  · obtain ⟨htodo, hown⟩ := fire_others hs h htl
    exact Or.inl ⟨(hown _).mp hfs, fun h => hid ((hown _).mpr h), by rw [← htodo]; exact hw⟩

/-- A thread works outside `fs_ptr` against one that works under `fs_ptr` alone. -/
def Exposed (s : Threads T GlobalMutex) : Prop := ∃ t u, WorksOutside s t ∧ WorksAlone s u

theorem fire_not_exposed (hs : ∀ t, Attends Entry.body s t) (hc : SectionsApart s l)
    (h : fire Entry.body s l = some s') (h0 : ¬ Exposed s) : ¬ Exposed s' := by
  rintro ⟨t, u, ht, hu⟩
  have hne : t ≠ u := by
    rintro rfl
    exact hu.2.1 ht.1
  rcases worksOutside_step hs h ht with ht | ⟨r, rfl, htodo, hr⟩ | ⟨rfl, hown⟩
  · rcases worksAlone_step hs h hu with hu | ⟨r, rfl, hutodo, hid, hr⟩
    · exact h0 ⟨t, u, ht, hu⟩
    · -- the second thread enters `usbFsStatFilesystem`
      have hap : StatsApart s u (s.todo u) := hc
      rw [hutodo] at hap
      exact hap hid hr t hne ht
  · rcases worksAlone_step hs h hu with hu | ⟨r', hl, -, -, -⟩
    · have hap : StatsApart s t (s.todo t) := hc
      rw [htodo] at hap
      exact hap hr u hne.symm hu
    · cases hl
      exact hne rfl
  · -- the first thread drops `fs_ptr`, so the second does not hold it
    rcases worksAlone_step hs h hu with hu | ⟨r', hl, -, -, -⟩
    · exact hne (Option.some.inj (hown.symm.trans hu.1))
    · cases hl
      exact hne rfl

/-- **Work on the file system is mutually exclusive**, for any number of threads and any
interleaving of their calls, as long as `usbFsStatFilesystem` keeps apart from the sections outside
`fs_ptr`. -/
theorem sections_exclude {ls : List (Move T Entry GlobalMutex)}
    (h : Run (Guard (Fires (fire Entry.body)) SectionsApart) idle ls s) {t u : T}
    (ht : s.Working t) (hu : s.Working u) : t = u := by
  obtain ⟨hs, h0⟩ : (∀ t, Attends Entry.body s t) ∧ ¬ Exposed s := by
    refine h.invariant (I := fun s => (∀ t, Attends Entry.body s t) ∧ ¬ Exposed s) ?_ ?_
    · rintro s l s' ⟨hs, h0⟩ ⟨hc, hf⟩
      exact ⟨fire_attends hs hf, fire_not_exposed hs hc hf h0⟩
    · refine ⟨idle_attends, ?_⟩
      rintro ⟨t, u, ht, -⟩
      have : (none : Option T) = some t := ht.1
      cases this
  by_contra hne
  -- one of them holds `id_store_ptr`, so the other holds `fs_ptr` alone
  have key : ∀ {t u : T}, t ≠ u → s.Working t → s.Working u → s.owner idStorePtr = some t → False := by
    intro t u hne ht hu hid
    have hidu : s.owner idStorePtr ≠ some u := fun h => hne (Option.some.inj (hid.symm.trans h))
    have hfsu : s.owner fsPtr = some u := (working_locked (hs u) hu).resolve_left hidu
    obtain ⟨r, hr⟩ := ht
    obtain ⟨r', hr'⟩ := hu
    refine h0 ⟨t, u, ⟨hid, fun h => hne (Option.some.inj (h.symm.trans hfsu)), ?_⟩, hfsu, hidu, ?_⟩
    · rw [hr]
      rfl
    · rw [hr']
      exact List.mem_cons_self
  rcases working_locked (hs t) ht with hid | hfs
  · exact key hne ht hu hid
  · rcases working_locked (hs u) hu with hid | hfs'
    · exact key (Ne.symm hne) hu ht hid
    · exact hne (Option.some.inj (hfs.symm.trans hfs'))

/-! ### Runs of two threads -/

instance (s : Threads T GlobalMutex) (t : T) : Decidable (WorksOutside s t) :=
  inferInstanceAs (Decidable (_ ∧ _ ∧ _))

instance (s : Threads T GlobalMutex) (t : T) : Decidable (WorksAlone s t) :=
  inferInstanceAs (Decidable (_ ∧ _ ∧ _))

instance {n : ℕ} (s : Threads (Fin n) GlobalMutex) (t : Fin n) :
    (todo : List (Act GlobalMutex)) → Decidable (StatsApart s t todo)
  | [] => inferInstanceAs (Decidable True)
  | .take fsPtr :: r =>
    inferInstanceAs (Decidable (s.owner idStorePtr ≠ some t → .work ∈ r → ∀ u, u ≠ t →
      ¬ WorksOutside s u))
  | .take idStorePtr :: r =>
    inferInstanceAs (Decidable (workBefore fsPtr r = true → ∀ u, u ≠ t → ¬ WorksAlone s u))
  | .take usbHsCtxPtr :: _ => inferInstanceAs (Decidable True)
  | .drop _ :: _ => inferInstanceAs (Decidable True)
  | .work :: _ => inferInstanceAs (Decidable True)

instance {n : ℕ} (s : Threads (Fin n) GlobalMutex) :
    (l : Move (Fin n) Entry GlobalMutex) → Decidable (SectionsApart s l)
  | .start .. => inferInstanceAs (Decidable True)
  | .go t => inferInstanceAs (Decidable (StatsApart s t (s.todo t)))

/-- `usbFsReadFile` of an open file. -/
def readWay : List (Act GlobalMutex) := [.take idStorePtr, .work, .drop idStorePtr]

/-- `usbFsStatFilesystem` of a mounted file system. -/
def statWay : List (Act GlobalMutex) := [.take fsPtr, .work, .drop fsPtr]

/-- `usbFsInitialize` to its end, then `usbFsOpenFile`, by one thread. -/
def setUp : List (Move (Fin 2) Entry GlobalMutex) :=
  .start 0 .usbFsInitialize publishWay :: List.replicate 12 (.go 0) ++
    .start 0 .usbFsOpenFile openWay :: List.replicate 5 (.go 0)

/-- One thread reads a file, and another one waits to do the same. -/
theorem sections_exclude_read :
    ∃ s : Threads (Fin 2) GlobalMutex,
      Run (Guard (Fires (fire Entry.body)) SectionsApart) idle
        (setUp ++ [.start 0 .usbFsReadFile readWay, .go 0, .start 1 .usbFsReadFile readWay]) s ∧
        s.Working 0 ∧ (s.Working 1 → (0 : Fin 2) = 1) := by
  have hfin : (replay (fire Entry.body) (idle : Threads (Fin 2) GlobalMutex)
      (setUp ++ [.start 0 .usbFsReadFile readWay, .go 0, .start 1 .usbFsReadFile readWay])).any
      (fun s => decide (s.todo 0 = readWay.drop 1)) = true := by decide
  obtain ⟨s, hs, hat⟩ := (Option.any_eq_true _ _).mp hfin
  have hw : s.Working 0 := ⟨_, of_decide_eq_true hat⟩
  have hrun := run_replay (C := SectionsApart) (fire Entry.body) (by decide) hs
  exact ⟨s, hrun, hw, fun h1 => sections_exclude hrun hw h1⟩

/-- **Two threads do work at the same time**: one counts the free clusters of the file system while
the other reads a file of it. -/
theorem statFilesystem_overlaps :
    ∃ s : Threads (Fin 2) GlobalMutex,
      Run (Fires (fire Entry.body)) idle
        (setUp ++ [.start 0 .usbFsReadFile readWay, .start 1 .usbFsStatFilesystem statWay, .go 0,
          .go 1]) s ∧ s.Working 0 ∧ s.Working 1 := by
  have hfin : (replay (fire Entry.body) (idle : Threads (Fin 2) GlobalMutex)
      (setUp ++ [.start 0 .usbFsReadFile readWay, .start 1 .usbFsStatFilesystem statWay, .go 0,
        .go 1])).any (fun s => decide (s.todo 0 = readWay.drop 1 ∧ s.todo 1 = statWay.drop 1)) =
      true := by decide
  obtain ⟨s, hs, hat⟩ := (Option.any_eq_true _ _).mp hfin
  obtain ⟨h0, h1⟩ := of_decide_eq_true hat
  exact ⟨s, run_of_replay (fire Entry.body) hs, ⟨_, h0⟩, _, h1⟩

end FatDrive
