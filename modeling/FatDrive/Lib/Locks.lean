import FatDrive.Lib.Runs
import Mathlib.Data.List.Nodup
import Mathlib.Logic.Function.Basic

/-!
# FatDrive.Lib.Locks — threads whose functions take mutexes

`Body` is a function as the mutexes see it: a guard is bound until the end of the function, a
section of work may be skipped, and any point may return early.  `Body.paths` are the ways through
it.  `Threads` runs any number of threads, each calling one function after the other; a mutex has
one owner or none.

* `Body.balanced`: a way through a function drops what it holds, and gives all of it back;
* `Threads.fire_others`: a step leaves alone what the other threads hold and have left to do;
* `Threads.run_attended`: along a run each thread stands at a point of a way through a function it
  called, and owns exactly the mutexes taken there;
* `Threads.orders_step`: a thread comes to take one mutex under another only by taking the outer;
* `Threads.Deadlocked.two`: two threads of a deadlock hold a mutex each while they wait.
-/

namespace FatDrive.Lib

variable {M : Type*}

/-- What a function does with the mutexes. -/
inductive Body (M : Type*) where
  | ret
  /-- Bind the guard of a mutex. -/
  | lock (m : M) (next : Body M)
  | work (next : Body M)
  | call (callee next : Body M)

/-- What a thread does at one point. -/
inductive Act (M : Type*) where
  | take (m : M)
  | drop (m : M)
  | work
  deriving DecidableEq, Repr

/-- The ways through a function.  The guards are dropped at its end, the last bound first. -/
def Body.paths : Body M → List (List (Act M))
  | ret => [[]]
  | lock m next => [] :: next.paths.map fun p => .take m :: (p ++ [.drop m])
  | work next => next.paths ++ next.paths.map fun p => .work :: p
  | call callee next => callee.paths.flatMap fun q => next.paths.map fun p => q ++ p

/-! ### What is held along a way -/

section Held

variable [DecidableEq M]

/-- What is held after an act. -/
def Act.after (h : List M) : Act M → List M
  | take m => m :: h
  | drop m => h.erase m
  | work => h

def heldAfter : List M → List (Act M) → List M := List.foldl Act.after

/-- Guards are dropped only while they are held. -/
def DropsHeld : List M → List (Act M) → Prop
  | _, [] => True
  | h, a :: r => (∀ m, a = .drop m → m ∈ h) ∧ DropsHeld (a.after h) r

/-- The points of a way: what is held there, and what is left to do. -/
def points : List M → List (Act M) → List (List M × List (Act M))
  | h, [] => [(h, [])]
  | h, a :: r => (h, a :: r) :: points (a.after h) r

theorem heldAfter_append (h : List M) (p q : List (Act M)) :
    heldAfter h (p ++ q) = heldAfter (heldAfter h p) q :=
  List.foldl_append

theorem dropsHeld_append : ∀ {p q : List (Act M)} {h : List M}, DropsHeld h p →
    DropsHeld (heldAfter h p) q → DropsHeld h (p ++ q)
  | [], _, _, _, hq => hq
  | _ :: _, _, _, hp, hq => ⟨hp.1, dropsHeld_append hp.2 hq⟩

/-- **Guards are balanced**: a way through a function drops only what is held, and in the end holds
what it held before. -/
theorem Body.balanced : ∀ (b : Body M) {p : List (Act M)}, p ∈ b.paths → ∀ h : List M,
    DropsHeld h p ∧ heldAfter h p = h := by
  intro b
  induction b with
  | ret =>
    intro p hp h
    obtain rfl := List.mem_singleton.mp hp
    exact ⟨trivial, rfl⟩
  | lock m next ih =>
    intro p hp h
    rcases List.mem_cons.mp hp with rfl | hp
    · exact ⟨trivial, rfl⟩
    · obtain ⟨q, hq, rfl⟩ := List.mem_map.mp hp
      obtain ⟨hd, hh⟩ := ih hq (m :: h)
      -- the function's guard is on top again when its own is dropped
      have hlast : DropsHeld (heldAfter (m :: h) q) [.drop m] := by
        rw [hh]
        exact ⟨by rintro _ ⟨⟩; exact .head h, trivial⟩
      refine ⟨⟨nofun, dropsHeld_append hd hlast⟩, ?_⟩
      show heldAfter (m :: h) (q ++ [.drop m]) = h
      rw [heldAfter_append, hh]
      exact List.erase_cons_head m h
  | work next ih =>
    intro p hp h
    rcases List.mem_append.mp hp with hp | hp
    · exact ih hp h
    · obtain ⟨q, hq, rfl⟩ := List.mem_map.mp hp
      obtain ⟨hd, hh⟩ := ih hq h
      exact ⟨⟨nofun, hd⟩, hh⟩
  | call callee next ih₁ ih₂ =>
    intro p hp h
    obtain ⟨q, hq, hp⟩ := List.mem_flatMap.mp hp
    obtain ⟨r, hr, rfl⟩ := List.mem_map.mp hp
    obtain ⟨hd₁, hh₁⟩ := ih₁ hq h
    obtain ⟨hd₂, hh₂⟩ := ih₂ hr h
    refine ⟨dropsHeld_append hd₁ (by rw [hh₁]; exact hd₂), ?_⟩
    rw [heldAfter_append, hh₁, hh₂]

theorem start_mem_points (h : List M) : ∀ p : List (Act M), (h, p) ∈ points h p
  | [] => .head _
  | _ :: _ => .head _

theorem next_mem_points {a : Act M} {h : List M} {r : List (Act M)} :
    ∀ {h₀ : List M} {p : List (Act M)}, (h, a :: r) ∈ points h₀ p → (a.after h, r) ∈ points h₀ p := by
  intro h₀ p
  induction p generalizing h₀ with
  | nil =>
    intro hm
    have := List.mem_singleton.mp hm
    cases this
  | cons b p ih =>
    intro hm
    rcases List.mem_cons.mp hm with heq | hm
    · cases heq
      exact List.mem_cons_of_mem _ (start_mem_points _ _)
    · exact List.mem_cons_of_mem _ (ih hm)

theorem held_of_mem_points {h : List M} : ∀ {h₀ : List M} {p : List (Act M)},
    (h, []) ∈ points h₀ p → h = heldAfter h₀ p := by
  intro h₀ p
  induction p generalizing h₀ with
  | nil =>
    intro hm
    exact (Prod.mk.inj (List.mem_singleton.mp hm)).1
  | cons b p ih =>
    intro hm
    rcases List.mem_cons.mp hm with heq | hm
    · cases heq
    · exact ih hm

theorem drop_of_mem_points {m : M} {h : List M} {r : List (Act M)} :
    ∀ {h₀ : List M} {p : List (Act M)}, DropsHeld h₀ p → (h, .drop m :: r) ∈ points h₀ p → m ∈ h := by
  intro h₀ p
  induction p generalizing h₀ with
  | nil =>
    intro _ hm
    have := List.mem_singleton.mp hm
    cases this
  | cons b p ih =>
    intro hd hm
    rcases List.mem_cons.mp hm with heq | hm
    · cases heq
      exact hd.1 m rfl
    · exact ih hd.2 hm

/-- The mutexes taken before `m` is dropped. -/
def takenUnder (m : M) : List (Act M) → List M
  | [] => []
  | .take m' :: r => m' :: takenUnder m r
  | .drop m' :: r => if m' = m then [] else takenUnder m r
  | .work :: r => takenUnder m r

end Held

/-! ### The system -/

/-- The owner of each mutex, and what each thread has left of its call. -/
structure Threads (T M : Type*) where
  owner : M → Option T
  todo : T → List (Act M)

/-- A thread calls a function, on one of the ways through it, or goes on. -/
inductive Move (T C M : Type*) where
  | start (t : T) (c : C) (p : List (Act M))
  | go (t : T)

def Move.thread {T C : Type*} : Move T C M → T
  | start t _ _ => t
  | go t => t

namespace Threads

variable {T C : Type*}

/-- No thread is in a call. -/
def idle : Threads T M := ⟨fun _ => none, fun _ => []⟩

/-- The thread has done what was next. -/
def advance [DecidableEq T] (s : Threads T M) (t : T) (r : List (Act M)) : Threads T M :=
  { s with todo := Function.update s.todo t r }

def setOwner [DecidableEq M] (s : Threads T M) (m : M) (o : Option T) : Threads T M :=
  { s with owner := Function.update s.owner m o }

section

variable [DecidableEq T]

@[simp] theorem owner_advance (s : Threads T M) (t : T) (r : List (Act M)) :
    (s.advance t r).owner = s.owner := rfl

@[simp] theorem todo_advance_self (s : Threads T M) (t : T) (r : List (Act M)) :
    (s.advance t r).todo t = r :=
  Function.update_self ..

theorem todo_advance_of_ne {s : Threads T M} {t u : T} (h : u ≠ t) (r : List (Act M)) :
    (s.advance t r).todo u = s.todo u :=
  Function.update_of_ne h ..

end

section

variable [DecidableEq M]

@[simp] theorem todo_setOwner (s : Threads T M) (m : M) (o : Option T) :
    (s.setOwner m o).todo = s.todo := rfl

@[simp] theorem owner_setOwner_self (s : Threads T M) (m : M) (o : Option T) :
    (s.setOwner m o).owner m = o :=
  Function.update_self ..

theorem owner_setOwner_of_ne {s : Threads T M} {m m' : M} (h : m' ≠ m) (o : Option T) :
    (s.setOwner m o).owner m' = s.owner m' :=
  Function.update_of_ne h ..

end

/-- The thread waits for the mutex, or is about to take it. -/
def Waits (s : Threads T M) (t : T) (m : M) : Prop := ∃ r, s.todo t = .take m :: r

/-- The thread is in a section of work. -/
def Working (s : Threads T M) (t : T) : Prop := ∃ r, s.todo t = .work :: r

/-- Each thread of the set waits for a mutex another one of the set holds. -/
def Deadlocked (s : Threads T M) (D : Set T) : Prop :=
  D.Nonempty ∧ ∀ t ∈ D, ∃ m, s.Waits t m ∧ ∃ u ∈ D, u ≠ t ∧ s.owner m = some u

/-- **Two threads of a deadlock hold a mutex each while they wait.** -/
theorem Deadlocked.two {s : Threads T M} {D : Set T} (h : s.Deadlocked D) :
    ∃ u v, u ≠ v ∧ (∃ m n, s.owner m = some u ∧ s.Waits u n) ∧
      ∃ m n, s.owner m = some v ∧ s.Waits v n := by
  obtain ⟨t, ht⟩ := h.1
  obtain ⟨m₁, -, u, hu, -, ho₁⟩ := h.2 t ht
  obtain ⟨m₂, hw₂, v, hv, hne, ho₂⟩ := h.2 u hu
  obtain ⟨m₃, hw₃, -⟩ := h.2 v hv
  exact ⟨u, v, hne.symm, ⟨m₁, m₂, ho₁, hw₂⟩, m₂, m₃, ho₂, hw₃⟩

/-! ### Where a thread stands -/

/-- The thread owns the mutexes of a list, and no others. -/
def Owns (s : Threads T M) (t : T) (h : List M) : Prop :=
  h.Nodup ∧ ∀ m, s.owner m = some t ↔ m ∈ h

/-- A step leaves alone what another thread owns. -/
theorem Owns.frame {s s' : Threads T M} {u : T} {h : List M} (ho : s.Owns u h)
    (hsame : ∀ m, s'.owner m = some u ↔ s.owner m = some u) : s'.Owns u h :=
  ⟨ho.1, fun m => (hsame m).trans (ho.2 m)⟩

section

variable [DecidableEq M]

/-- The thread is between two calls, or at a point of a way through the function it called. -/
def Attends (body : C → Body M) (s : Threads T M) (t : T) : Prop :=
  (s.todo t = [] ∧ s.Owns t []) ∨
    ∃ c, ∃ p ∈ (body c).paths, ∃ h, (h, s.todo t) ∈ points [] p ∧ s.Owns t h

variable {body : C → Body M}

theorem Attends.owns_nil {s : Threads T M} {t : T} (h : Attends body s t) (h0 : s.todo t = []) :
    s.Owns t [] := by
  rcases h with ⟨-, ho⟩ | ⟨c, p, hp, h, hm, ho⟩
  · exact ho
  · rw [h0] at hm
    have := held_of_mem_points hm
    rw [((body c).balanced hp []).2] at this
    rwa [this] at ho

/-- A thread with something to do is in a call. -/
theorem Attends.point {s : Threads T M} {t : T} (h : Attends body s t) {a : Act M}
    {r : List (Act M)} (ht : s.todo t = a :: r) :
    ∃ c, ∃ p ∈ (body c).paths, ∃ h, (h, a :: r) ∈ points [] p ∧ s.Owns t h := by
  rcases h with ⟨h0, -⟩ | h
  · rw [h0] at ht
    cases ht
  · rwa [ht] at h

theorem idle_attends (t : T) : Attends body (idle : Threads T M) t :=
  Or.inl ⟨rfl, List.nodup_nil, fun _ => iff_of_false nofun List.not_mem_nil⟩

/-- The thread holds `m` and goes on to take `m'` under it. -/
def Orders (s : Threads T M) (t : T) (m m' : M) : Prop :=
  s.owner m = some t ∧ m' ∈ takenUnder m (s.todo t)

instance [DecidableEq T] (s : Threads T M) (t : T) (m m' : M) : Decidable (s.Orders t m m') :=
  inferInstanceAs (Decidable (_ ∧ _))

/-- The thread holds `m` and goes on to take another mutex under it. -/
def Nests (s : Threads T M) (t : T) (m : M) : Prop :=
  s.owner m = some t ∧ takenUnder m (s.todo t) ≠ []

instance [DecidableEq T] (s : Threads T M) (t : T) (m : M) : Decidable (s.Nests t m) :=
  inferInstanceAs (Decidable (_ ∧ _))

theorem nests_iff {s : Threads T M} {t : T} {m : M} : s.Nests t m ↔ ∃ m', s.Orders t m m' := by
  constructor
  · rintro ⟨ho, hne⟩
    obtain ⟨m', hm⟩ := List.exists_mem_of_ne_nil _ hne
    exact ⟨m', ho, hm⟩
  · rintro ⟨m', ho, hm⟩
    exact ⟨ho, List.ne_nil_of_mem hm⟩

/-- A thread that waits while it holds a mutex takes the one under the other. -/
theorem Waits.orders {s : Threads T M} {t : T} {m m' : M} (hw : s.Waits t m')
    (ho : s.owner m = some t) : s.Orders t m m' := by
  obtain ⟨r, hr⟩ := hw
  refine ⟨ho, ?_⟩
  rw [hr]
  exact List.mem_cons_self

end

/-! ### Steps -/

section Steps

variable [DecidableEq T] [DecidableEq M] (body : C → Body M)

/-- A mutex that is owned is not taken, whoever asks for it. -/
def fire (s : Threads T M) : Move T C M → Option (Threads T M)
  | .start t c p => if s.todo t = [] ∧ p ∈ (body c).paths then some (s.advance t p) else none
  | .go t =>
    match s.todo t with
    | [] => none
    | .take m :: r => if s.owner m = none then some ((s.setOwner m (some t)).advance t r) else none
    | .drop m :: r => some ((s.setOwner m none).advance t r)
    | .work :: r => some (s.advance t r)

variable {body}

/-- All a step can do. -/
theorem fire_cases {s s' : Threads T M} {l : Move T C M} (h : fire body s l = some s') :
    (∃ t c p, l = .start t c p ∧ s.todo t = [] ∧ p ∈ (body c).paths ∧ s' = s.advance t p) ∨
    (∃ t m r, l = .go t ∧ s.todo t = .take m :: r ∧ s.owner m = none ∧
      s' = (s.setOwner m (some t)).advance t r) ∨
    (∃ t m r, l = .go t ∧ s.todo t = .drop m :: r ∧ s' = (s.setOwner m none).advance t r) ∨
    (∃ t r, l = .go t ∧ s.todo t = .work :: r ∧ s' = s.advance t r) := by
  cases l with
  | start t c p =>
    obtain ⟨hp, hs⟩ := Option.ite_none_right_eq_some.mp h
    exact Or.inl ⟨t, c, p, rfl, hp.1, hp.2, (Option.some.inj hs).symm⟩
  | go t =>
    simp only [fire] at h
    cases ht : s.todo t with
    | nil =>
      rw [ht] at h
      cases h
    | cons a r =>
      rw [ht] at h
      cases a with
      | take m =>
        obtain ⟨ho, hs⟩ := Option.ite_none_right_eq_some.mp h
        exact Or.inr (Or.inl ⟨t, m, r, rfl, ht, ho, (Option.some.inj hs).symm⟩)
      | drop m => exact Or.inr (Or.inr (Or.inl ⟨t, m, r, rfl, ht, (Option.some.inj h).symm⟩))
      | work => exact Or.inr (Or.inr (Or.inr ⟨t, r, rfl, ht, (Option.some.inj h).symm⟩))

/-- **A step is one thread's**: it leaves alone what the others hold and have left to do. -/
theorem fire_others {s s' : Threads T M} {l : Move T C M} (hs : ∀ t, Attends body s t)
    (h : fire body s l = some s') {u : T} (hu : u ≠ l.thread) :
    s'.todo u = s.todo u ∧ ∀ m, s'.owner m = some u ↔ s.owner m = some u := by
  rcases fire_cases h with ⟨t, c, p, rfl, -, -, rfl⟩ | ⟨t, n, r, rfl, ht, hn, rfl⟩ |
    ⟨t, n, r, rfl, ht, rfl⟩ | ⟨t, r, rfl, ht, rfl⟩
  · exact ⟨todo_advance_of_ne hu p, fun _ => Iff.rfl⟩
  · refine ⟨todo_advance_of_ne hu r, fun m => ?_⟩
    rw [owner_advance]
    by_cases hmn : m = n
    · subst hmn
      rw [owner_setOwner_self, hn]
      exact iff_of_false (fun h => hu (Option.some.inj h).symm) nofun
    · rw [owner_setOwner_of_ne hmn]
  · refine ⟨todo_advance_of_ne hu r, fun m => ?_⟩
    rw [owner_advance]
    by_cases hmn : m = n
    · -- the dropped mutex was the thread's own
      subst hmn
      obtain ⟨c, p, hp, hl, hm, hown⟩ := (hs t).point ht
      have hheld : m ∈ hl := drop_of_mem_points ((body c).balanced hp []).1 hm
      rw [owner_setOwner_self, (hown.2 m).mpr hheld]
      exact iff_of_false nofun (fun h => hu (Option.some.inj h).symm)
    · rw [owner_setOwner_of_ne hmn]
  · exact ⟨todo_advance_of_ne hu r, fun _ => Iff.rfl⟩

theorem fire_attends {s s' : Threads T M} {l : Move T C M} (hs : ∀ t, Attends body s t)
    (h : fire body s l = some s') : ∀ t, Attends body s' t := by
  intro u
  by_cases hu : u = l.thread
  · subst hu
    rcases fire_cases h with ⟨t, c, p, rfl, h0, hp, rfl⟩ | ⟨t, m, r, rfl, ht, ho, rfl⟩ |
      ⟨t, m, r, rfl, ht, rfl⟩ | ⟨t, r, rfl, ht, rfl⟩
    · refine Or.inr ⟨c, p, hp, [], ?_, (hs t).owns_nil h0⟩
      show ([], (s.advance t p).todo t) ∈ points [] p
      rw [todo_advance_self]
      exact start_mem_points [] p
    · obtain ⟨c, p, hp, hl, hm, hown⟩ := (hs t).point ht
      have hnew : m ∉ hl := by
        intro hmem
        rw [(hown.2 m).mpr hmem] at ho
        cases ho
      refine Or.inr ⟨c, p, hp, m :: hl, ?_, List.nodup_cons.mpr ⟨hnew, hown.1⟩, fun m' => ?_⟩
      · show (m :: hl, ((s.setOwner m (some t)).advance t r).todo t) ∈ points [] p
        rw [todo_advance_self]
        exact next_mem_points hm
      · show (s.setOwner m (some t)).owner m' = some t ↔ m' ∈ m :: hl
        by_cases hmm : m' = m
        · subst hmm
          simp
        · rw [owner_setOwner_of_ne hmm, hown.2 m']
          simp [hmm]
    · obtain ⟨c, p, hp, hl, hm, hown⟩ := (hs t).point ht
      refine Or.inr ⟨c, p, hp, hl.erase m, ?_, hown.1.erase m, fun m' => ?_⟩
      · show (hl.erase m, ((s.setOwner m none).advance t r).todo t) ∈ points [] p
        rw [todo_advance_self]
        exact next_mem_points hm
      · show (s.setOwner m none).owner m' = some t ↔ m' ∈ hl.erase m
        rw [hown.1.mem_erase_iff]
        by_cases hmm : m' = m
        · subst hmm
          simp
        · rw [owner_setOwner_of_ne hmm, hown.2 m']
          simp [hmm]
    · obtain ⟨c, p, hp, hl, hm, hown⟩ := (hs t).point ht
      refine Or.inr ⟨c, p, hp, hl, ?_, hown⟩
      show (hl, (s.advance t r).todo t) ∈ points [] p
      rw [todo_advance_self]
      exact next_mem_points hm
  · obtain ⟨htodo, hown⟩ := fire_others hs h hu
    rcases hs u with ⟨h0, ho⟩ | ⟨c, p, hp, hl, hm, ho⟩
    · exact Or.inl ⟨htodo.trans h0, ho.frame hown⟩
    · exact Or.inr ⟨c, p, hp, hl, by rw [htodo]; exact hm, ho.frame hown⟩

/-- **Where the threads stand along a run.** -/
theorem run_attended {s : Threads T M} {ls : List (Move T C M)}
    (h : Run (Fires (fire body)) idle ls s) (t : T) : Attends body s t :=
  h.invariant (I := fun s => ∀ t, Attends body s t) (fun _ _ _ hs hf => fire_attends hs hf)
    idle_attends t

/-! ### One mutex under another -/

/-- A thread comes to take one mutex under another by taking the outer one. -/
theorem orders_step {s s' : Threads T M} {l : Move T C M} (hs : ∀ t, Attends body s t)
    (h : fire body s l = some s') {u : T} {m m' : M} (ho : s'.Orders u m m') :
    s.Orders u m m' ∨ ∃ r, l = .go u ∧ s.todo u = .take m :: r ∧ m' ∈ takenUnder m r := by
  by_cases hu : u = l.thread
  · subst hu
    obtain ⟨hown, hunder⟩ := ho
    rcases fire_cases h with ⟨t, c, p, rfl, h0, hp, rfl⟩ | ⟨t, n, r, rfl, ht, hn, rfl⟩ |
      ⟨t, n, r, rfl, ht, rfl⟩ | ⟨t, r, rfl, ht, rfl⟩
    · -- between two calls nothing is held
      have := (((hs t).owns_nil h0).2 m).mp hown
      cases this
    · have hr : m' ∈ takenUnder m r := by
        simpa only [Move.thread, todo_advance_self] using hunder
      by_cases hmn : m = n
      · subst hmn
        exact Or.inr ⟨r, rfl, ht, hr⟩
      · refine Or.inl ⟨?_, ?_⟩
        · rwa [owner_advance, owner_setOwner_of_ne hmn] at hown
        · show m' ∈ takenUnder m (s.todo t)
          rw [ht]
          exact List.mem_cons_of_mem _ hr
    · have hmn : m ≠ n := by
        rintro rfl
        rw [owner_advance, owner_setOwner_self] at hown
        cases hown
      refine Or.inl ⟨?_, ?_⟩
      · rwa [owner_advance, owner_setOwner_of_ne hmn] at hown
      · show m' ∈ takenUnder m (s.todo t)
        rw [ht, takenUnder, if_neg (Ne.symm hmn)]
        simpa only [Move.thread, todo_advance_self] using hunder
    · refine Or.inl ⟨hown, ?_⟩
      show m' ∈ takenUnder m (s.todo t)
      rw [ht, takenUnder]
      simpa only [Move.thread, todo_advance_self] using hunder
  · obtain ⟨htodo, hown⟩ := fire_others hs h hu
    exact Or.inl ⟨(hown m).mp ho.1, by rw [← htodo]; exact ho.2⟩

theorem nests_step {s s' : Threads T M} {l : Move T C M} (hs : ∀ t, Attends body s t)
    (h : fire body s l = some s') {u : T} {m : M} (hn : s'.Nests u m) :
    s.Nests u m ∨ ∃ r, l = .go u ∧ s.todo u = .take m :: r ∧ takenUnder m r ≠ [] := by
  obtain ⟨m', ho⟩ := nests_iff.mp hn
  rcases orders_step hs h ho with ho | ⟨r, hl, hu, hr⟩
  · exact Or.inl (nests_iff.mpr ⟨m', ho⟩)
  · exact Or.inr ⟨r, hl, hu, List.ne_nil_of_mem hr⟩

end Steps

end Threads

end FatDrive.Lib
