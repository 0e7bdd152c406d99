import FatDrive.Lib.Runs
import Mathlib.Data.List.ReduceOption

/-!
# FatDrive.Lib.Prefixes — a sequence shown prefix by prefix

`Shown whole` says how much of a sequence has been shown so far, `Shows whole` is the system that
shows it: at any time as much as before, or more, and all of it once that is known to be all.

* `Shows.prefixes`, `Shows.pairwise`: what a run shows are prefixes, none shorter than one before;
* `Shows.eq_whole`: a run from where all is known shows all, every time.
-/

namespace FatDrive.Lib

variable {α : Type*} {whole : List α}

/-- A prefix of `whole`, and all of it where it is known to be complete. -/
structure Shown (whole : List α) where
  items : List α
  complete : Bool
  items_prefix : items <+: whole
  items_eq : complete = true → items = whole

/-- Nothing has been shown. -/
def Shown.nothing (whole : List α) : Shown whole := ⟨[], false, List.nil_prefix, nofun⟩

/-- All has been shown. -/
def Shown.all (whole : List α) : Shown whole := ⟨whole, true, List.prefix_rfl, fun _ => rfl⟩

/-- Show what there is by now, or nothing. -/
inductive Shows (whole : List α) : Shown whole → Option (List α) → Shown whole → Prop
  | more {s s' : Shown whole} : s.items <+: s'.items → (s.complete = true → s'.complete = true) →
      Shows whole s (some s'.items) s'
  | quiet (s : Shown whole) : Shows whole s none s

variable {s s' : Shown whole} {ls : List (Option (List α))}

theorem Shows.prefixes (hrun : Run (Shows whole) s ls s') {items : List α}
    (hmem : some items ∈ ls) : s.items <+: items ∧ items <+: whole := by
  induction hrun with
  | nil s => simp at hmem
  | @cons s s₁ s' l ls hstep hrest ih =>
    cases hstep with
    | more hle hcomp =>
      rcases List.mem_cons.mp hmem with heq | hmem
      · rw [Option.some_inj.mp heq]
        exact ⟨hle, s₁.items_prefix⟩
      · exact ⟨hle.trans (ih hmem).1, (ih hmem).2⟩
    | quiet => exact ih (by simpa using hmem)

/-- What is shown later has what was shown before as a prefix. -/
theorem Shows.pairwise (hrun : Run (Shows whole) s ls s') :
    ls.reduceOption.Pairwise (· <+: ·) := by
  induction hrun with
  | nil s => exact List.Pairwise.nil
  | @cons s s₁ s' l ls hstep hrest ih =>
    cases hstep with
    | more hle hcomp =>
      rw [List.reduceOption_cons_of_some]
      refine List.Pairwise.cons (fun items hmem => ?_) ih
      exact (prefixes hrest (List.reduceOption_mem_iff.mp hmem)).1
    | quiet => exact ih

theorem Shows.complete (hrun : Run (Shows whole) s ls s') (hs : s.complete = true) :
    s'.complete = true := by
  refine hrun.invariant (I := fun s => s.complete = true) (fun s l s' hs hstep => ?_) hs
  cases hstep with
  | more hle hcomp => exact hcomp hs
  | quiet => exact hs

/-- **From where all is known** all is shown. -/
theorem Shows.eq_whole (hrun : Run (Shows whole) s ls s') (hs : s.complete = true) {items : List α}
    (hmem : some items ∈ ls) : items = whole := by
  obtain ⟨hle, hpre⟩ := prefixes hrun hmem
  rw [s.items_eq hs] at hle
  exact hpre.eq_of_length (Nat.le_antisymm hpre.length_le hle.length_le)

end FatDrive.Lib
