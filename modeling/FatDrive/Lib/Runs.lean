import Mathlib.Data.List.Basic

/-!
# FatDrive.Lib.Runs — labelled steps, runs, and what holds along them

A system is given by a step relation `step : S → L → S → Prop`.  `Run step s ls s'` chains steps
under the trace `ls`.  `Guard step C` keeps the steps whose label is allowed in the state before it,
so "every run whose steps all meet `C`" is a run of `Guard step C`.

* `Run.invariant`: what one step keeps, a run keeps;
* `Run.history`: the same for a predicate that also sees the trace so far;
* `Run.simulates`: a step-by-step simulation lifts to runs, labels included;
* `Run.filtered`: a simulation that answers the labels of one party only, and sees nothing of the
  others, gives a run of that party's part of the trace;
* `run_answers`: calls on a machine that answers each in one way make a run;
* `after_of_mended`, `mended_of_after`: what some calls spoil and others mend;
* `run_replay`: labels a machine accepts one after the other make a run.
-/

namespace FatDrive.Lib

variable {S L : Type*} {step : S → L → S → Prop}

/-- Chains of steps, with their labels in order. -/
inductive Run (step : S → L → S → Prop) : S → List L → S → Prop
  | nil (s : S) : Run step s [] s
  | cons {s s₁ s' : S} {l : L} {ls : List L} :
      step s l s₁ → Run step s₁ ls s' → Run step s (l :: ls) s'

/-- The steps of a system whose label is allowed by `C` in the state it starts from. -/
def Guard (step : S → L → S → Prop) (C : S → L → Prop) (s : S) (l : L) (s' : S) : Prop :=
  C s l ∧ step s l s'

theorem Run.single {s s' : S} {l : L} (h : step s l s') : Run step s [l] s' :=
  .cons h (.nil _)

theorem Run.exists_cons {s s₁ : S} {l : L} {ls : List L} (h : step s l s₁)
    (h' : ∃ s', Run step s₁ ls s') : ∃ s', Run step s (l :: ls) s' := by
  obtain ⟨s', hs⟩ := h'
  exact ⟨s', .cons h hs⟩

/-- A run of a concatenated trace passes through a state between the two parts. -/
theorem Run.split {s s' : S} : ∀ {ls ls' : List L}, Run step s (ls ++ ls') s' →
    ∃ s₁, Run step s ls s₁ ∧ Run step s₁ ls' s' := by
  intro ls
  induction ls generalizing s with
  | nil => intro ls' h; exact ⟨s, .nil s, h⟩
  | cons l ls ih =>
    intro ls' h
    cases h with
    | cons h₁ h₂ =>
      obtain ⟨s₁, h₃, h₄⟩ := ih h₂
      exact ⟨s₁, .cons h₁ h₃, h₄⟩

theorem Run.append {s s₁ s' : S} {ls ls' : List L} (h : Run step s ls s₁) (h' : Run step s₁ ls' s') :
    Run step s (ls ++ ls') s' := by
  induction h with
  | nil => exact h'
  | cons hst _ ih => exact .cons hst (ih h')

theorem Run.last {s s' : S} {ls : List L} {l : L} (h : Run step s (ls ++ [l]) s') :
    ∃ s₁, Run step s ls s₁ ∧ step s₁ l s' := by
  obtain ⟨s₁, h₁, h₂⟩ := h.split
  cases h₂ with
  | cons hl hn =>
    cases hn
    exact ⟨s₁, h₁, hl⟩

theorem Run.mono {step' : S → L → S → Prop} (hs : ∀ s l s', step s l s' → step' s l s')
    {s s' : S} {ls : List L} (h : Run step s ls s') : Run step' s ls s' := by
  induction h with
  | nil => exact .nil _
  | cons h _ ih => exact .cons (hs _ _ _ h) ih

/-- **Invariant rule.** -/
theorem Run.invariant {I : S → Prop} (hs : ∀ s l s', I s → step s l s' → I s')
    {s s' : S} {ls : List L} (h : Run step s ls s') (h0 : I s) : I s' := by
  induction h with
  | nil => exact h0
  | cons h _ ih => exact ih (hs _ _ _ h0 h)

/-- **History rule**: an invariant of the trace so far and the state it led to. -/
theorem Run.history {s : S} {H : List L → S → Prop} (h0 : H [] s)
    (hs : ∀ ls s₁ l s₂, H ls s₁ → step s₁ l s₂ → H (ls ++ [l]) s₂)
    {ls : List L} {s' : S} (h : Run step s ls s') : H ls s' := by
  have key : ∀ {s₁ s' : S} {ls' : List L}, Run step s₁ ls' s' → ∀ ls, H ls s₁ → H (ls ++ ls') s' := by
    intro s₁ s' ls' h
    induction h with
    | nil => intro ls hl; simpa using hl
    | @cons s s₁ s' l ls' h _ ih =>
      intro ls hl
      have := ih (ls ++ [l]) (hs ls s l s₁ hl h)
      simpa using this
  simpa using key h [] h0

/-- **Simulation rule**: if related states answer every step with an equally labelled step into
related states, every run is answered by a run with the same trace. -/
theorem Run.simulates {T : Type*} {astep : T → L → T → Prop} {R : S → T → Prop}
    (hs : ∀ s l s' t, R s t → step s l s' → ∃ t', astep t l t' ∧ R s' t')
    {s s' : S} {ls : List L} (h : Run step s ls s') :
    ∀ t, R s t → ∃ t', Run astep t ls t' ∧ R s' t' := by
  induction h with
  | nil => intro t hR; exact ⟨t, .nil t, hR⟩
  | cons h _ ih =>
    intro t hR
    obtain ⟨t₁, ht, hR₁⟩ := hs _ _ _ t hR h
    obtain ⟨t', hr, hR'⟩ := ih t₁ hR₁
    exact ⟨t', .cons ht hr, hR'⟩

/-- **Projection rule**: if the steps of one party are answered with equally labelled steps, and
related states stay related under the others' steps, that party's part of a run is a run. -/
theorem Run.filtered {T : Type*} {astep : T → L → T → Prop} {R : S → T → Prop} {mine : L → Bool}
    (hs : ∀ s l s' t, R s t → step s l s' → mine l = true → ∃ t', astep t l t' ∧ R s' t')
    (hn : ∀ s l s' t, R s t → step s l s' → mine l = false → R s' t)
    {s s' : S} {ls : List L} (h : Run step s ls s') :
    ∀ t, R s t → ∃ t', Run astep t (ls.filter mine) t' ∧ R s' t' := by
  induction h with
  | nil => intro t hR; exact ⟨t, .nil t, hR⟩
  | @cons s s₁ s' l ls h _ ih =>
    intro t hR
    cases hm : mine l with
    | true =>
      obtain ⟨t₁, ht, hR₁⟩ := hs _ _ _ t hR h hm
      obtain ⟨t', hr, hR'⟩ := ih t₁ hR₁
      refine ⟨t', ?_, hR'⟩
      rw [List.filter_cons_of_pos hm]
      exact .cons ht hr
    | false =>
      obtain ⟨t', hr, hR'⟩ := ih t (hn _ _ _ t hR h hm)
      refine ⟨t', ?_, hR'⟩
      rw [List.filter_cons_of_neg (by rw [hm]; decide)]
      exact hr

/-! ### Machines that answer each call in one way -/

section Calls

variable {C A : Type*} (next : S → C → S) (answer : S → C → A)

/-- A call with its answer. -/
def CallStep (s : S) (l : C × A) (s' : S) : Prop := answer s l.1 = l.2 ∧ next s l.1 = s'

/-- The state after a list of calls. -/
def after (s : S) (cs : List C) : S := cs.foldl next s

/-- A list of calls with what each was answered. -/
def answers : S → List C → List (C × A)
  | _, [] => []
  | s, c :: cs => (c, answer s c) :: answers (next s c) cs

theorem answers_map_fst : ∀ (s : S) (cs : List C), (answers next answer s cs).map Prod.fst = cs
  | _, [] => rfl
  | s, c :: cs => congrArg (c :: ·) (answers_map_fst (next s c) cs)

/-- `P` holds of every call of the list in the state it is made in. -/
def Along (P : S → C → Prop) : S → List C → Prop
  | _, [] => True
  | s, c :: cs => P s c ∧ Along P (next s c) cs

instance instDecidableAlong (P : S → C → Prop) [∀ s c, Decidable (P s c)] :
    (s : S) → (cs : List C) → Decidable (Along next P s cs)
  | _, [] => inferInstanceAs (Decidable True)
  | s, c :: cs =>
    @instDecidableAnd _ _ (inferInstanceAs (Decidable (P s c)))
      (instDecidableAlong P (next s c) cs)

theorem along_true : ∀ {s : S} (cs : List C), Along next (fun _ _ => True) s cs
  | _, [] => trivial
  | _, _ :: cs => ⟨trivial, along_true cs⟩

theorem Along.and {P Q : S → C → Prop} : ∀ {cs : List C} {s : S}, Along next P s cs →
    Along next Q s cs → Along next (fun s c => P s c ∧ Q s c) s cs
  | [], _, _, _ => trivial
  | _ :: _, _, h, h' => ⟨⟨h.1, h'.1⟩, Along.and h.2 h'.2⟩

/-- A list of calls is a run. -/
theorem run_answers {P : S → C → Prop} : ∀ {s : S} {cs : List C}, Along next P s cs →
    Run (Guard (CallStep next answer) fun s l => P s l.1) s (answers next answer s cs)
      (after next s cs)
  | s, [], _ => .nil s
  | _, _ :: _, h => .cons ⟨h.1, rfl, rfl⟩ (run_answers h.2)

/-- The invariant rule for lists of calls. -/
theorem Along.invariant {P : S → C → Prop} {I : S → Prop} (hI : ∀ s c, I s → P s c → I (next s c))
    {s : S} {cs : List C} (h : Along next P s cs) (hs : I s) : I (after next s cs) := by
  refine (run_answers next (fun _ _ => ()) h).invariant (fun s l s' hs hstep => ?_) hs
  obtain ⟨hP, -, rfl⟩ := hstep
  exact hI s l.1 hs hP

/-- Some call of the list has `Q`, in the state it is made in. -/
def Sometime (Q : S → C → Prop) : S → List C → Prop
  | _, [] => False
  | s, c :: cs => Q s c ∨ Sometime Q (next s c) cs

/-- Every call of the list that spoils something is followed by one that mends it. -/
def Mended (spoils mends : S → C → Prop) : S → List C → Prop
  | _, [] => True
  | s, c :: cs => (spoils s c → Sometime next mends (next s c) cs) ∧ Mended spoils mends (next s c) cs

variable {next} {I P : S → Prop} {K spoils mends : S → C → Prop}

/-- **Mending rule**: what is mended by some calls and kept by all that do not spoil it holds in the
end, if every call that spoils it is followed by one that mends it. -/
theorem after_of_mended (hI : ∀ s c, I s → K s c → I (next s c))
    (hmend : ∀ s c, I s → K s c → mends s c → P (next s c))
    (hkeep : ∀ s c, I s → K s c → ¬ spoils s c → P s → P (next s c)) :
    ∀ {cs : List C} {s : S}, Along next K s cs → I s → (P s ∨ Sometime next mends s cs) →
      Mended next spoils mends s cs → P (after next s cs)
  | [], _, _, _, hP, _ => hP.resolve_right id
  | c :: cs, s, hK, hs, hP, hM => by
    show P (after next (next s c) cs)
    refine after_of_mended hI hmend hkeep hK.2 (hI s c hs hK.1) ?_ hM.2
    by_cases hm : mends s c
    · exact Or.inl (hmend s c hs hK.1 hm)
    by_cases hsp : spoils s c
    · exact Or.inr (hM.1 hsp)
    rcases hP with hP | hm' | hlater
    · exact Or.inl (hkeep s c hs hK.1 hsp hP)
    · exact absurd hm' hm
    · exact Or.inr hlater

/-- The converse, where only calls that mend restore what has been spoiled. -/
theorem mended_of_after (hI : ∀ s c, I s → K s c → I (next s c))
    (hspoil : ∀ s c, I s → K s c → spoils s c → ¬ P (next s c))
    (hback : ∀ s c, I s → K s c → ¬ mends s c → P (next s c) → P s) :
    ∀ {cs : List C} {s : S}, Along next K s cs → I s → P (after next s cs) →
      (P s ∨ Sometime next mends s cs) ∧ Mended next spoils mends s cs
  | [], _, _, _, hP => ⟨Or.inl hP, trivial⟩
  | c :: cs, s, hK, hs, hP => by
    obtain ⟨hnow, hM⟩ := mended_of_after hI hspoil hback hK.2 (hI s c hs hK.1) hP
    refine ⟨?_, fun hsp => hnow.resolve_left (hspoil s c hs hK.1 hsp), hM⟩
    by_cases hm : mends s c
    · exact Or.inr (Or.inl hm)
    rcases hnow with hP' | hlater
    · exact Or.inl (hback s c hs hK.1 hm hP')
    · exact Or.inr (Or.inr hlater)

end Calls

/-! ### Machines that accept a label or refuse it -/

section Replay

variable {L : Type*} (next : S → L → Option S)

/-- The step of a machine that accepts the label. -/
def Fires (s : S) (l : L) (s' : S) : Prop := next s l = some s'

/-- The state after a list of labels, if each is accepted. -/
def replay : S → List L → Option S
  | s, [] => some s
  | s, l :: ls => (next s l).bind fun s' => replay s' ls

/-- `C` holds of every label of the list in the state it is accepted in. -/
def Throughout (C : S → L → Prop) : S → List L → Prop
  | _, [] => True
  | s, l :: ls => C s l ∧ (next s l).elim True fun s' => Throughout C s' ls

instance instDecidableThroughout (C : S → L → Prop) [∀ s l, Decidable (C s l)] :
    (s : S) → (ls : List L) → Decidable (Throughout next C s ls)
  | _, [] => inferInstanceAs (Decidable True)
  | s, l :: ls =>
    @instDecidableAnd _ _ (inferInstanceAs (Decidable (C s l)))
      (match next s l with
      | none => inferInstanceAs (Decidable True)
      | some s' => instDecidableThroughout C s' ls)

/-- Accepted labels are a run. -/
theorem run_replay {C : S → L → Prop} : ∀ {ls : List L} {s s' : S}, Throughout next C s ls →
    replay next s ls = some s' → Run (Guard (Fires next) C) s ls s'
  | [], s, s', _, h => by
    cases h
    exact .nil s
  | l :: ls, s, s', hc, h => by
    obtain ⟨s₁, h₁, h₂⟩ := Option.bind_eq_some_iff.mp h
    have hrest : Throughout next C s₁ ls := by
      have := hc.2
      rwa [h₁] at this
    exact .cons ⟨hc.1, h₁⟩ (run_replay hrest h₂)

theorem run_of_replay {ls : List L} {s s' : S} (h : replay next s ls = some s') :
    Run (Fires next) s ls s' := by
  have hall : ∀ (ls : List L) (s : S), Throughout next (fun _ _ => True) s ls := by
    intro ls
    induction ls with
    | nil => intro s; trivial
    | cons l ls ih =>
      intro s
      refine ⟨trivial, ?_⟩
      cases next s l with
      | none => trivial
      | some s' => exact ih s'
  exact (run_replay next (hall ls s) h).mono fun _ _ _ hg => hg.2

end Replay

end FatDrive.Lib
