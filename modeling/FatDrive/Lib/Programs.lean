import Mathlib.Data.Option.Defs

/-!
# FatDrive.Lib.Programs — programs that ask an environment questions

A `Program Q A α` returns an `α`, or asks a question and goes on with the answer.  `run` lets a
machine with states `S` answer; a question it cannot answer ends the run without a result.

* `run_invariant`: what every answer keeps, a run keeps;
* `run_related`: machines that answer alike in related states give alike runs.
-/

namespace FatDrive.Lib

inductive Program (Q A α : Type) where
  | done (a : α)
  | ask (q : Q) (next : A → Program Q A α)

namespace Program

variable {Q A α S T : Type}

def run (answer : S → Q → Option (A × S)) : Program Q A α → S → Option (α × S)
  | done a, s => some (a, s)
  | ask q next, s => (answer s q).bind fun r => (next r.1).run answer r.2

variable {answer : S → Q → Option (A × S)} {answer' : T → Q → Option (A × T)}

/-- **Invariant rule.** -/
theorem run_invariant {I : S → Prop} (hs : ∀ s q a s', I s → answer s q = some (a, s') → I s')
    (p : Program Q A α) : ∀ {s s' : S} {a : α}, I s → p.run answer s = some (a, s') → I s' := by
  induction p with
  | done a =>
    intro s s' a' h0 h
    simp only [run, Option.some.injEq, Prod.mk.injEq] at h
    rw [← h.2]
    exact h0
  | ask q next ih =>
    intro s s' a h0 h
    simp only [run, Option.bind_eq_some_iff] at h
    obtain ⟨⟨b, s₁⟩, hb, h⟩ := h
    exact ih b (hs s q b s₁ h0 hb) h

/-- The same answer, and related states; or no answer from either machine. -/
def Alike {α : Type} (R : S → T → Prop) : Option (α × S) → Option (α × T) → Prop :=
  Option.Rel fun x y => x.1 = y.1 ∧ R x.2 y.2

theorem Alike.map {α β : Type} {R : S → T → Prop} {x : Option (α × S)} {y : Option (α × T)}
    (h : Alike R x y) (f : α → β) :
    Alike R (x.map fun r => (f r.1, r.2)) (y.map fun r => (f r.1, r.2)) := by
  cases h with
  | some h => exact .some ⟨congrArg f h.1, h.2⟩
  | none => exact .none

/-- **Relational rule.** -/
theorem run_related {R : S → T → Prop}
    (hs : ∀ s t q, R s t → Alike R (answer s q) (answer' t q)) (p : Program Q A α) :
    ∀ {s : S} {t : T}, R s t → Alike R (p.run answer s) (p.run answer' t) := by
  induction p with
  | done a =>
    intro s t hR
    exact .some ⟨rfl, hR⟩
  | ask q next ih =>
    intro s t hR
    have hq := hs s t q hR
    show Alike R ((answer s q).bind _) ((answer' t q).bind _)
    revert hq
    cases answer s q with
    | none =>
      cases answer' t q with
      | none =>
        intro _
        exact .none
      | some y =>
        intro hq
        cases hq
    | some x =>
      cases answer' t q with
      | none =>
        intro hq
        cases hq
      | some y =>
        rintro (⟨ha, hR'⟩ | _)
        show Alike R ((next x.1).run answer x.2) ((next y.1).run answer' y.2)
        rw [← ha]
        exact ih x.1 hR'

end Program

end FatDrive.Lib
