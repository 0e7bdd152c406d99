import FatDrive.Lib.Locks
import FatDrive.Lib.Programs

/-!
# FatDrive.Lib.Serial — calls that do all their work under one mutex

Threads share a state and call functions that take a mutex `m` first and drop it last.  What a call
does to the state is a program of atomic steps, made while its thread holds `m`; other threads may go
on between any two of them.  A call may also be refused before it takes the mutex.

* `Phase`: a thread is idle, waits for `m`, or is inside;
* `step_serial`: one step of any thread, from a state that `Serialised` relates to the calls that have
  returned;
* `run_serial`: any interleaving has the outcome of the calls made one after the other, in the order in
  which they return;
* `Serialised.progress`: as long as a thread is in a call, a thread that is in one can go on with it.
-/

namespace FatDrive.Lib

open Threads

variable {T M C Q A R S : Type}

/-- The way takes the mutex first and drops it last, and does neither in between. -/
def Bracketed (m : M) (p : List (Act M)) : Prop :=
  ∃ q, p = .take m :: (q ++ [.drop m]) ∧ .take m ∉ q ∧ .drop m ∉ q

/-- A way that is bracketed, as a check. -/
def isBracketed [DecidableEq M] (m : M) : List (Act M) → Bool
  | .take n :: r => n = m ∧ r.getLast? = some (.drop m) ∧ .take m ∉ r.dropLast ∧ .drop m ∉ r.dropLast
  | _ => false

theorem bracketed_of_check [DecidableEq M] {m : M} {p : List (Act M)} (h : isBracketed m p = true) :
    Bracketed m p := by
  cases p with
  | nil => cases h
  | cons a r =>
    cases a with
    | take n =>
      obtain ⟨rfl, hlast, hnot⟩ := of_decide_eq_true h
      refine ⟨r.dropLast, ?_, hnot⟩
      rw [List.dropLast_append_getLast? _ hlast]
    | drop n => cases h
    | work => cases h

/-- No point of the way takes a mutex that is held there. -/
def TakesFree [DecidableEq M] (p : List (Act M)) : Prop :=
  ∀ x ∈ points [] p, ∀ n ∈ x.1, x.2.head? ≠ some (.take n)

instance [DecidableEq M] (p : List (Act M)) : Decidable (TakesFree p) :=
  inferInstanceAs (Decidable (∀ x ∈ points [] p, ∀ n ∈ x.1, x.2.head? ≠ some (.take n)))

theorem act_mem_of_mem_points [DecidableEq M] {a : Act M} {h : List M} {r : List (Act M)} :
    ∀ {h₀ : List M} {p : List (Act M)}, (h, a :: r) ∈ points h₀ p → a ∈ p := by
  intro h₀ p
  induction p generalizing h₀ with
  | nil =>
    intro hm
    have := List.mem_singleton.mp hm
    cases this
  | cons b p ih =>
    intro hm
    rcases List.mem_cons.mp hm with heq | hm
    · cases heq
      exact List.mem_cons_self ..
    · exact List.mem_cons_of_mem _ (ih hm)

/-- Threads that share a state; `task` is the call that a thread is in, with what is left of its work. -/
structure Sharing (T M C Q A R S : Type) where
  threads : Threads T M
  shared : S
  task : T → Option (C × Program Q A R)

namespace Sharing

/-- No thread is in a call. -/
def idle (shared : S) : Sharing T M C Q A R S := ⟨.idle, shared, fun _ => none⟩

end Sharing

/-- What a thread does next. -/
inductive Turn (T C R : Type) where
  | call (t : T) (c : C)
  /-- Go on with the mutexes. -/
  | move (t : T)
  /-- Make a step of the work. -/
  | act (t : T)
  | ret (t : T) (c : C) (r : R)

def Turn.thread : Turn T C R → T
  | call t _ => t
  | move t => t
  | act t => t
  | ret t _ _ => t

/-- The call that returns. -/
def Turn.returned : Turn T C R → Option (T × C × R)
  | ret t c r => some (t, c, r)
  | _ => none

/-- The calls in the order in which they return. -/
def returns (ls : List (Turn T C R)) : List (T × C × R) := ls.filterMap Turn.returned

/-! ### Where a thread stands -/

section Stands

variable (m : M) (refuses : C → Option R) (work : C → Program Q A R) (answer : S → Q → Option (A × S))

/-- One call after the other. -/
def SerialStep (s : S) (l : T × C × R) (s' : S) : Prop :=
  refuses l.2.1 = some l.2.2 ∧ s' = s ∨
    refuses l.2.1 = none ∧ (work l.2.1).run answer s = some (l.2.2, s')

/-- The thread is idle, waits for the mutex, or is inside. -/
inductive Phase (s : Sharing T M C Q A R S) (t : T) : Prop
  | idle (h : s.threads.todo t = []) (ht : s.task t = none) (ho : s.threads.owner m ≠ some t)
  | waiting {c q} (h : s.threads.todo t = .take m :: (q ++ [.drop m])) (hq : .take m ∉ q ∧ .drop m ∉ q)
      (ht : s.task t = some (c, work c)) (hr : refuses c = none) (ho : s.threads.owner m ≠ some t)
  | inside {c w q} (h : s.threads.todo t = q ++ [.drop m]) (hq : .take m ∉ q ∧ .drop m ∉ q)
      (ht : s.task t = some (c, w)) (hr : refuses c = none) (ho : s.threads.owner m = some t)

/-- What the returned calls have made of the shared state is `base`; the thread inside has begun its
work there. -/
structure Serialised (base : S) (s : Sharing T M C Q A R S) : Prop where
  phase : ∀ t, Phase m refuses work s t
  free : s.threads.owner m = none → s.shared = base
  held : ∀ {t c w}, s.threads.owner m = some t → s.task t = some (c, w) →
    w.run answer s.shared = (work c).run answer base

variable {m refuses work answer} {s s' : Sharing T M C Q A R S} {base : S} {t u : T}

/-- A step leaves a thread alone. -/
theorem Phase.frame (h : Phase m refuses work s u) (htodo : s'.threads.todo u = s.threads.todo u)
    (htask : s'.task u = s.task u)
    (howner : s'.threads.owner m = some u ↔ s.threads.owner m = some u) :
    Phase m refuses work s' u := by
  cases h with
  | idle h ht ho => exact .idle (htodo.trans h) (htask.trans ht) fun h' => ho (howner.mp h')
  | waiting h hq ht hr ho =>
    exact .waiting (htodo.trans h) hq (htask.trans ht) hr fun h' => ho (howner.mp h')
  | inside h hq ht hr ho =>
    exact .inside (htodo.trans h) hq (htask.trans ht) hr (howner.mpr ho)

theorem serialised_idle (base : S) :
    Serialised m refuses work answer base (Sharing.idle base : Sharing T M C Q A R S) where
  phase := fun _ => .idle rfl rfl (by simp [Sharing.idle, Threads.idle])
  free := fun _ => rfl
  held := fun h => by cases h

/-- When no thread is in a call, the shared state is what the calls have made of it. -/
theorem Serialised.shared_eq (h : Serialised m refuses work answer base s) (h0 : ∀ t, s.task t = none) :
    s.shared = base := by
  refine h.free (Option.eq_none_iff_forall_ne_some.mpr fun t ho => ?_)
  cases h.phase t with
  | idle _ _ hno => exact hno ho
  | waiting _ _ _ _ hno => exact hno ho
  | inside _ _ ht _ _ =>
    rw [h0 t] at ht
    cases ht

end Stands

/-! ### Steps -/

section Steps

variable [DecidableEq T] [DecidableEq M] (body : C → Body M) (m : M) (refuses : C → Option R)
  (work : C → Program Q A R) (answer : S → Q → Option (A × S))

/-- One step of one thread. -/
inductive TurnStep (s : Sharing T M C Q A R S) : Turn T C R → Sharing T M C Q A R S → Prop
  | refused {t c r} (hr : refuses c = some r) (h0 : s.threads.todo t = []) :
      TurnStep s (.ret t c r) s
  | call {t c p th} (hr : refuses c = none) (hp : p ≠ [])
      (hf : fire body s.threads (.start t c p) = some th) :
      TurnStep s (.call t c) ⟨th, s.shared, Function.update s.task t (some (c, work c))⟩
  | move {t a rest th} (h : s.threads.todo t = a :: rest) (ha : a ≠ .drop m)
      (hf : fire body s.threads (.go t) = some th) : TurnStep s (.move t) { s with threads := th }
  | act {t c q next a shared} (ho : s.threads.owner m = some t)
      (ht : s.task t = some (c, .ask q next)) (ha : answer s.shared q = some (a, shared)) :
      TurnStep s (.act t) ⟨s.threads, shared, Function.update s.task t (some (c, next a))⟩
  | ret {t c r rest th} (h : s.threads.todo t = .drop m :: rest) (ht : s.task t = some (c, .done r))
      (hf : fire body s.threads (.go t) = some th) :
      TurnStep s (.ret t c r) ⟨th, s.shared, Function.update s.task t none⟩

variable {body m refuses work answer} {s s' : Sharing T M C Q A R S} {base : S} {t u : T}

/-- A call begins. -/
theorem Serialised.call (h : Serialised m refuses work answer base s) {c : C} {p : List (Act M)}
    {th : Threads T M} (hb : Bracketed m p) (hr : refuses c = none)
    (hf : fire body s.threads (.start t c p) = some th) :
    Serialised m refuses work answer base ⟨th, s.shared, Function.update s.task t (some (c, work c))⟩ := by
  obtain ⟨⟨htodo, -⟩, rfl⟩ : (s.threads.todo t = [] ∧ p ∈ (body c).paths) ∧
      th = s.threads.advance t p := by
    obtain ⟨hp, hs⟩ := Option.ite_none_right_eq_some.mp hf
    exact ⟨hp, (Option.some.inj hs).symm⟩
  have hno : s.threads.owner m ≠ some t := by
    cases h.phase t with
    | idle _ _ ho => exact ho
    | waiting h' _ _ _ ho => exact ho
    | inside h' _ _ _ _ =>
      rw [htodo] at h'
      exact absurd h'.symm (List.append_ne_nil_of_right_ne_nil _ (List.cons_ne_nil _ _))
  refine ⟨fun u => ?_, h.free, fun {u c' w} ho ht => ?_⟩
  · by_cases hu : u = t
    · subst hu
      obtain ⟨q, rfl, hq⟩ := hb
      exact .waiting (todo_advance_self ..) hq (Function.update_self ..) hr hno
    · exact (h.phase u).frame (todo_advance_of_ne hu p) (Function.update_of_ne hu ..) Iff.rfl
  · have hu : u ≠ t := by
      rintro rfl
      exact hno ho
    exact h.held ho ((Function.update_of_ne hu ..).symm.trans ht)

omit [DecidableEq M] in
/-- The thread inside makes a step of its work. -/
theorem Serialised.act (h : Serialised m refuses work answer base s) {c : C} {q : Q}
    {next : A → Program Q A R} {a : A} {shared : S} (ho : s.threads.owner m = some t)
    (ht : s.task t = some (c, .ask q next)) (ha : answer s.shared q = some (a, shared)) :
    Serialised m refuses work answer base
      ⟨s.threads, shared, Function.update s.task t (some (c, next a))⟩ := by
  refine ⟨fun u => ?_, fun hn => ?_, fun {u c' w} ho' ht' => ?_⟩
  · by_cases hu : u = t
    · subst hu
      cases h.phase u with
      | idle _ _ hno => exact absurd ho hno
      | waiting _ _ _ _ hno => exact absurd ho hno
      | inside h' hq ht' hr _ =>
        cases ht.symm.trans ht'
        exact .inside h' hq (Function.update_self ..) hr ho
    · exact (h.phase u).frame rfl (Function.update_of_ne hu ..) Iff.rfl
  · cases ho.symm.trans hn
  · cases ho.symm.trans ho'
    have htask : some (c', w) = some (c, next a) := ht'.symm.trans (Function.update_self ..)
    cases htask
    rw [← h.held ho ht, Program.run, ha]
    rfl

/-- A thread goes on with the mutexes, but does not drop `m`. -/
theorem Serialised.move (h : Serialised m refuses work answer base s) {a : Act M} {rest : List (Act M)}
    {th : Threads T M} (htodo : s.threads.todo t = a :: rest) (ha : a ≠ .drop m)
    (hf : fire body s.threads (.go t) = some th) :
    Serialised m refuses work answer base { s with threads := th } := by
  -- a thread inside goes on inside, and `m` stays with it
  have hinside {c w q} (hp : s.threads.todo t = q ++ [.drop m]) (hq : .take m ∉ q ∧ .drop m ∉ q)
      (ht : s.task t = some (c, w)) (hr : refuses c = none) (ho : s.threads.owner m = some t)
      (htodo' : th.todo t = rest) (howner : th.owner m = s.threads.owner m) :
      Phase m refuses work { s with threads := th } t := by
    rw [htodo] at hp
    cases q with
    | nil =>
      cases hp
      exact absurd rfl ha
    | cons b q =>
      cases hp
      exact .inside htodo' ⟨List.not_mem_of_not_mem_cons hq.1, List.not_mem_of_not_mem_cons hq.2⟩ ht hr
        (howner.trans ho)
  have hsame (htodo' : th.todo t = rest) (hothers : ∀ u, u ≠ t → th.todo u = s.threads.todo u)
      (howner : th.owner m = s.threads.owner m) (hne : a ≠ .take m) :
      Serialised m refuses work answer base { s with threads := th } := by
    refine ⟨fun u => ?_, fun hn => h.free (howner.symm.trans hn),
      fun ho ht => h.held (howner.symm.trans ho) ht⟩
    by_cases hu : u = t
    · subst hu
      cases h.phase u with
      | idle h' _ _ =>
        rw [htodo] at h'
        cases h'
      | waiting h' _ _ _ _ =>
        rw [htodo] at h'
        cases h'
        exact absurd rfl hne
      | inside h' hq ht hr ho => exact hinside h' hq ht hr ho htodo' howner
    · refine (h.phase u).frame (hothers u hu) rfl ?_
      rw [show th.owner m = _ from howner]
  rcases fire_cases hf with ⟨_, _, _, hl, -⟩ | ⟨t', n, r, hl, ht', hn, rfl⟩ |
    ⟨t', n, r, hl, ht', rfl⟩ | ⟨t', r, hl, ht', rfl⟩
  · cases hl
  · cases hl
    cases htodo.symm.trans ht'
    by_cases hnm : n = m
    · -- the thread that waited is inside, and begins its work
      subst hnm
      refine ⟨fun u => ?_, fun hnone => ?_, fun {u c w} ho ht => ?_⟩
      · by_cases hu : u = t
        · subst hu
          cases h.phase u with
          | idle h' _ _ =>
            rw [htodo] at h'
            cases h'
          | waiting h' hq ht hr _ =>
            rw [htodo] at h'
            cases h'
            exact .inside (todo_advance_self ..) hq ht hr (owner_setOwner_self ..)
          | inside h' hq ht hr ho =>
            rw [hn] at ho
            cases ho
        · refine (h.phase u).frame (todo_advance_of_ne hu _) rfl ?_
          rw [owner_advance, owner_setOwner_self, hn]
          exact iff_of_false (fun he => hu (Option.some.inj he).symm) nofun
      · rw [owner_advance, owner_setOwner_self] at hnone
        cases hnone
      · rw [owner_advance, owner_setOwner_self] at ho
        cases ho
        cases h.phase t with
        | idle h' _ _ =>
          rw [htodo] at h'
          cases h'
        | waiting h' hq ht' hr _ =>
          cases ht.symm.trans ht'
          show (work c).run answer s.shared = _
          rw [h.free hn]
        | inside h' hq ht' hr ho =>
          rw [hn] at ho
          cases ho
    · refine hsame (todo_advance_self ..) (fun u hu => todo_advance_of_ne hu _) ?_ fun he => ?_
      · rw [owner_advance, owner_setOwner_of_ne (Ne.symm hnm)]
      · cases he
        exact hnm rfl
  · cases hl
    cases htodo.symm.trans ht'
    have hnm : m ≠ n := by
      rintro rfl
      exact ha rfl
    refine hsame (todo_advance_self ..) (fun u hu => todo_advance_of_ne hu _) ?_ nofun
    rw [owner_advance, owner_setOwner_of_ne hnm]
  · cases hl
    cases htodo.symm.trans ht'
    exact hsame (todo_advance_self ..) (fun u hu => todo_advance_of_ne hu _) rfl nofun

/-- A call returns: it has been made where the calls before it have led to. -/
theorem Serialised.ret (h : Serialised m refuses work answer base s) {c : C} {r : R}
    {rest : List (Act M)} {th : Threads T M} (htodo : s.threads.todo t = .drop m :: rest)
    (ht : s.task t = some (c, .done r)) (hf : fire body s.threads (.go t) = some th) :
    SerialStep refuses work answer base (t, c, r) s.shared ∧
      Serialised m refuses work answer s.shared ⟨th, s.shared, Function.update s.task t none⟩ := by
  have hth : th = (s.threads.setOwner m none).advance t rest := by
    simp only [fire, htodo, Option.some.injEq] at hf
    exact hf.symm
  subst hth
  cases h.phase t with
  | idle h' _ _ =>
    rw [htodo] at h'
    cases h'
  | waiting h' _ _ _ _ =>
    rw [htodo] at h'
    cases h'
  | @inside c' w q h' hq ht' hr ho =>
    cases ht.symm.trans ht'
    rw [htodo] at h'
    have hrest : rest = [] := by
      cases q with
      | nil =>
        cases h'
        rfl
      | cons b q =>
        cases h'
        exact absurd (List.mem_cons_self ..) hq.2
    subst hrest
    refine ⟨Or.inr ⟨hr, (h.held ho ht).symm⟩, fun u => ?_, fun _ => rfl, fun ho' _ => ?_⟩
    · by_cases hu : u = t
      · subst hu
        refine .idle (todo_advance_self ..) (Function.update_self ..) ?_
        rw [owner_advance, owner_setOwner_self]
        exact (Option.some_ne_none u).symm
      · refine (h.phase u).frame (todo_advance_of_ne hu _) (Function.update_of_ne hu ..) ?_
        rw [owner_advance, owner_setOwner_self, ho]
        exact iff_of_false (Option.some_ne_none u).symm fun he => hu (Option.some.inj he).symm
    · rw [owner_advance, owner_setOwner_self] at ho'
      cases ho'

/-- **One step** of any thread: if it returns a call, the call is made after those before it. -/
theorem step_serial (hb : ∀ c, ∀ p ∈ (body c).paths, p ≠ [] → Bracketed m p)
    (h : Serialised m refuses work answer base s) {l : Turn T C R}
    (hst : TurnStep body m refuses work answer s l s') :
    ∃ base', Run (SerialStep refuses work answer) base (returns [l]) base' ∧
      Serialised m refuses work answer base' s' := by
  cases hst with
  | refused hr h0 => exact ⟨base, .single (Or.inl ⟨hr, rfl⟩), h⟩
  | call hr hp hf =>
    have hmem := (Option.ite_none_right_eq_some.mp hf).1.2
    exact ⟨base, .nil base, h.call (hb _ _ hmem hp) hr hf⟩
  | move htodo ha hf => exact ⟨base, .nil base, h.move htodo ha hf⟩
  | act ho ht ha => exact ⟨base, .nil base, h.act ho ht ha⟩
  | ret htodo ht hf =>
    obtain ⟨hserial, hinv⟩ := h.ret htodo ht hf
    exact ⟨s.shared, .single hserial, hinv⟩

/-- **Interleavings are serial.**  However the steps of any number of threads are interleaved, the
calls return what they return when they are made one after the other, in the order in which they
return, and leave what is left then. -/
theorem run_serial (hb : ∀ c, ∀ p ∈ (body c).paths, p ≠ [] → Bracketed m p) {ls : List (Turn T C R)}
    (hrun : Run (TurnStep body m refuses work answer) s ls s')
    (h : Serialised m refuses work answer base s) :
    ∃ base', Run (SerialStep refuses work answer) base (returns ls) base' ∧
      Serialised m refuses work answer base' s' := by
  induction hrun generalizing base with
  | nil s => exact ⟨base, .nil base, h⟩
  | @cons s s₁ s' l ls hst _ ih =>
    obtain ⟨base₁, hfirst, h₁⟩ := step_serial hb h hst
    obtain ⟨base', hrest, h'⟩ := ih h₁
    have hcons : returns (l :: ls) = returns [l] ++ returns ls := List.filterMap_append (l := [l])
    rw [hcons]
    exact ⟨base', hfirst.append hrest, h'⟩

/-! ### Progress -/

theorem fire_start {th : Threads T M} {c : C} {p : List (Act M)} (h : th.todo t = [])
    (hp : p ∈ (body c).paths) : fire body th (.start t c p) = some (th.advance t p) := by
  simp only [fire, h, hp, and_self, if_true]

theorem fire_take {th : Threads T M} {n : M} {r : List (Act M)} (h : th.todo t = .take n :: r)
    (ho : th.owner n = none) :
    fire body th (.go t) = some ((th.setOwner n (some t)).advance t r) := by
  simp only [fire, h, ho, if_true]

theorem fire_drop {th : Threads T M} {n : M} {r : List (Act M)} (h : th.todo t = .drop n :: r) :
    fire body th (.go t) = some ((th.setOwner n none).advance t r) := by
  simp only [fire, h]

theorem fire_work {th : Threads T M} {r : List (Act M)} (h : th.todo t = .work :: r) :
    fire body th (.go t) = some (th.advance t r) := by
  simp only [fire, h]

theorem attends_step (hs : ∀ t, Attends body s.threads t) {l : Turn T C R}
    (hst : TurnStep body m refuses work answer s l s') : ∀ t, Attends body s'.threads t := by
  cases hst with
  | refused hr h0 => exact hs
  | call hr hp hf => exact fire_attends hs hf
  | move htodo ha hf => exact fire_attends hs hf
  | act ho ht ha => exact hs
  | ret htodo ht hf => exact fire_attends hs hf

omit [DecidableEq T] in
/-- A thread that holds a mutex is inside. -/
theorem Serialised.inside_of_owner (hb : ∀ c, ∀ p ∈ (body c).paths, p ≠ [] → Bracketed m p)
    (hs : ∀ t, Attends body s.threads t) (h : Serialised m refuses work answer base s) {n : M}
    (ho : s.threads.owner n = some t) : s.threads.owner m = some t := by
  cases h.phase t with
  | idle h0 _ _ =>
    have := (((hs t).owns_nil h0).2 n).mp ho
    cases this
  | inside _ _ _ _ ho' => exact ho'
  | waiting htodo _ _ _ _ =>
    -- at the start of the way nothing is held
    obtain ⟨c, p, hp, hl, hm, hown⟩ := (hs t).point htodo
    have hne : p ≠ [] := by
      rintro rfl
      have := List.mem_singleton.mp hm
      cases this
    obtain ⟨q', rfl, hq'⟩ := hb c p hp hne
    rcases List.mem_cons.mp hm with heq | hm
    · obtain ⟨rfl, -⟩ := Prod.mk.inj heq
      have := (hown.2 n).mp ho
      cases this
    · rcases List.mem_append.mp (act_mem_of_mem_points hm) with hin | hin
      · exact absurd hin hq'.1
      · have := List.mem_singleton.mp hin
        cases this

/-- **Progress.**  While a thread is in a call, some thread that is in one can take its next step in it, if
no function takes a mutex that it holds and no work of a call gets stuck.  A thread with something to do
does not begin a call. -/
theorem Serialised.progress (hb : ∀ c, ∀ p ∈ (body c).paths, p ≠ [] → Bracketed m p)
    (hfree : ∀ c, ∀ p ∈ (body c).paths, TakesFree p) (hs : ∀ t, Attends body s.threads t)
    (h : Serialised m refuses work answer base s)
    (hwork : ∀ c, refuses c = none → (work c).run answer base ≠ none) (ht : s.task t ≠ none) :
    ∃ l s', s.threads.todo l.thread ≠ [] ∧ TurnStep body m refuses work answer s l s' := by
  have hbusy {u : T} {a : Act M} {rest : List (Act M)} (hx : s.threads.todo u = a :: rest) :
      s.threads.todo u ≠ [] := by
    rw [hx]
    exact List.cons_ne_nil a rest
  cases hm : s.threads.owner m with
  | none =>
    cases h.phase t with
    | idle _ h0 _ => exact absurd h0 ht
    | inside _ _ _ _ ho =>
      rw [hm] at ho
      cases ho
    | waiting htodo _ _ _ _ =>
      exact ⟨.move t, _, hbusy htodo, .move htodo (by simp) (fire_take htodo hm)⟩
  | some u =>
    cases h.phase u with
    | idle _ _ hno => exact absurd hm hno
    | waiting _ _ _ _ hno => exact absurd hm hno
    | @inside c w q htodo hq htask hr _ =>
      cases q with
      | nil =>
        cases w with
        | done r => exact ⟨.ret u c r, _, hbusy htodo, .ret htodo htask (fire_drop htodo)⟩
        | ask q next =>
          have hrun : (Program.ask q next).run answer s.shared ≠ none := by
            rw [h.held hm htask]
            exact hwork c hr
          cases ha : answer s.shared q with
          | none =>
            simp only [Program.run, ha, Option.bind_none] at hrun
            exact absurd rfl hrun
          | some x => exact ⟨.act u, _, hbusy htodo, .act hm htask ha⟩
      | cons a q =>
        cases a with
        | take n =>
          have hn : s.threads.owner n = none := by
            refine Option.eq_none_iff_forall_ne_some.mpr fun v hv => ?_
            have hin := h.inside_of_owner hb hs hv
            rw [hm] at hin
            cases hin
            obtain ⟨c', p, hp, hl, hpt, hown⟩ := (hs u).point htodo
            exact hfree c' p hp _ hpt n ((hown.2 n).mp hv) rfl
          exact ⟨.move u, _, hbusy htodo, .move htodo (by simp) (fire_take htodo hn)⟩
        | drop n =>
          have hne : (Act.drop n : Act M) ≠ .drop m := by
            rintro ⟨⟩
            exact hq.2 (List.mem_cons_self ..)
          exact ⟨.move u, _, hbusy htodo, .move htodo hne (fire_drop htodo)⟩
        | work => exact ⟨.move u, _, hbusy htodo, .move htodo (by simp) (fire_work htodo)⟩

end Steps

end FatDrive.Lib
