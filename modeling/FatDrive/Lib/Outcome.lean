import Mathlib.Logic.Basic

/-!
# FatDrive.Lib.Outcome — results of calls that mutate a state

A call on a state `S` returns a value, returns an error, or panics; in each case it leaves the
state it has reached so far, as a Rust method on `&mut self` does.  `andThen` continues with the
value (the `?` operator), `mapErr` rewrites the error.  `Ends Q E` says where a call ends that does
not panic, `Returns Q E` also what it returns; `andThen` of each is its rule for sequences.
-/

namespace FatDrive.Lib

/-- The outcome of a call: the state it leaves, with a value, an error or a panic. -/
inductive Outcome (ε S α : Type*) where
  | ok (a : α) (s : S)
  | err (e : ε) (s : S)
  | panicked (s : S)
  deriving DecidableEq, Repr

namespace Outcome

variable {ε ε' S α γ : Type*}

/-- The state the call leaves. -/
def state : Outcome ε S α → S
  | ok _ s => s
  | err _ s => s
  | panicked s => s

/-- What the call hands back: a value, an error, or nothing when it panics. -/
def result : Outcome ε S α → Option (Except ε α)
  | ok a _ => some (.ok a)
  | err e _ => some (.error e)
  | panicked _ => none

theorem result_eq_ok {r : Outcome ε S α} {a : α} : r.result = some (.ok a) ↔ ∃ s, r = ok a s := by
  cases r with
  | ok b s =>
    constructor
    · intro h
      cases h
      exact ⟨s, rfl⟩
    · rintro ⟨_, h⟩
      cases h
      rfl
  | err e s => exact ⟨nofun, by rintro ⟨_, h⟩; cases h⟩
  | panicked s => exact ⟨nofun, by rintro ⟨_, h⟩; cases h⟩

theorem result_eq_err {r : Outcome ε S α} {e : ε} :
    r.result = some (.error e) ↔ ∃ s, r = err e s := by
  cases r with
  | ok a s => exact ⟨nofun, by rintro ⟨_, h⟩; cases h⟩
  | err b s =>
    constructor
    · intro h
      cases h
      exact ⟨s, rfl⟩
    · rintro ⟨_, h⟩
      cases h
      rfl
  | panicked s => exact ⟨nofun, by rintro ⟨_, h⟩; cases h⟩

def isErr : Outcome ε S α → Bool
  | err _ _ => true
  | _ => false

def isOk : Outcome ε S α → Bool
  | ok _ _ => true
  | _ => false

theorem isOk_iff {r : Outcome ε S α} : r.isOk = true ↔ ∃ a s, r = ok a s := by
  cases r with
  | ok a s => exact iff_of_true rfl ⟨a, s, rfl⟩
  | err e s => exact iff_of_false Bool.false_ne_true (by rintro ⟨_, _, h⟩; cases h)
  | panicked s => exact iff_of_false Bool.false_ne_true (by rintro ⟨_, _, h⟩; cases h)

theorem isErr_iff {r : Outcome ε S α} : r.isErr = true ↔ ∃ e s, r = err e s := by
  cases r with
  | ok a s => exact iff_of_false Bool.false_ne_true (by rintro ⟨_, _, h⟩; cases h)
  | err e s => exact iff_of_true rfl ⟨e, s, rfl⟩
  | panicked s => exact iff_of_false Bool.false_ne_true (by rintro ⟨_, _, h⟩; cases h)

theorem isOk_of_result {T : Type*} {r : Outcome ε S α} {r' : Outcome ε T α}
    (h : r.result = r'.result) : r.isOk = r'.isOk := by
  cases r <;> cases r' <;> first | rfl | cases h

/-- Go on with the value, leave with the error or the panic. -/
def andThen (r : Outcome ε S α) (f : α → S → Outcome ε S γ) : Outcome ε S γ :=
  match r with
  | ok a s => f a s
  | err e s => err e s
  | panicked s => panicked s

def mapErr (f : ε → ε') : Outcome ε S α → Outcome ε' S α
  | ok a s => ok a s
  | err e s => err (f e) s
  | panicked s => panicked s

/-- Rewrite the value and the state. -/
def bimap {T : Type*} (f : α → γ) (g : S → T) : Outcome ε S α → Outcome ε T γ
  | ok a s => ok (f a) (g s)
  | err e s => err e (g s)
  | panicked s => panicked (g s)

@[simp] theorem state_bimap {T : Type*} (f : α → γ) (g : S → T) (r : Outcome ε S α) :
    (r.bimap f g).state = g r.state := by
  cases r <;> rfl

theorem bimap_bimap {T T' δ : Type*} (f : α → γ) (f' : γ → δ) (g : S → T) (g' : T → T')
    (r : Outcome ε S α) : (r.bimap f g).bimap f' g' = r.bimap (fun a => f' (f a)) fun s => g' (g s) := by
  cases r <;> rfl

theorem result_bimap_id {T : Type*} (g : S → T) (r : Outcome ε S α) :
    (r.bimap (fun a => a) g).result = r.result := by
  cases r <;> rfl

@[simp] theorem state_mapErr (f : ε → ε') (r : Outcome ε S α) : (r.mapErr f).state = r.state := by
  cases r <;> rfl

@[simp] theorem isOk_mapErr (f : ε → ε') (r : Outcome ε S α) : (r.mapErr f).isOk = r.isOk := by
  cases r <;> rfl

theorem bimap_eq_ok {T : Type*} {f : α → γ} {g : S → T} {r : Outcome ε S α} {c : γ} {t : T} :
    r.bimap f g = ok c t ↔ ∃ a s, r = ok a s ∧ f a = c ∧ g s = t := by
  cases r with
  | ok a s =>
    constructor
    · intro h
      cases h
      exact ⟨a, s, rfl, rfl, rfl⟩
    · rintro ⟨_, _, h, rfl, rfl⟩
      cases h
      rfl
  | err e s => exact ⟨nofun, by rintro ⟨_, _, h, -⟩; cases h⟩
  | panicked s => exact ⟨nofun, by rintro ⟨_, _, h, -⟩; cases h⟩

@[simp] theorem state_ok (a : α) (s : S) : (ok a s : Outcome ε S α).state = s := rfl
@[simp] theorem state_err (e : ε) (s : S) : (err e s : Outcome ε S α).state = s := rfl
@[simp] theorem state_panicked (s : S) : (panicked s : Outcome ε S α).state = s := rfl

@[simp] theorem andThen_ok (a : α) (s : S) (f : α → S → Outcome ε S γ) :
    (ok a s : Outcome ε S α).andThen f = f a s := rfl
@[simp] theorem andThen_err (e : ε) (s : S) (f : α → S → Outcome ε S γ) :
    (err e s : Outcome ε S α).andThen f = err e s := rfl
@[simp] theorem andThen_panicked (s : S) (f : α → S → Outcome ε S γ) :
    (panicked s : Outcome ε S α).andThen f = panicked s := rfl

/-- A composite call that returns a value has passed through a value of its first part. -/
theorem andThen_eq_ok {r : Outcome ε S α} {f : α → S → Outcome ε S γ} {c : γ} {s' : S} :
    r.andThen f = ok c s' ↔ ∃ a s, r = ok a s ∧ f a s = ok c s' := by
  cases r with
  | ok a s => exact ⟨fun h => ⟨a, s, rfl, h⟩, by rintro ⟨_, _, ⟨rfl, rfl⟩, h⟩; exact h⟩
  | err e s => exact ⟨nofun, by rintro ⟨_, _, h, -⟩; cases h⟩
  | panicked s => exact ⟨nofun, by rintro ⟨_, _, h, -⟩; cases h⟩

/-- A transitive relation between states passes through a composite call. -/
theorem andThen_rel {R : S → S → Prop} (ht : ∀ a b c, R a b → R b c → R a c) {s₀ : S}
    {r : Outcome ε S α} {f : α → S → Outcome ε S γ} (hr : R s₀ r.state)
    (hf : ∀ a s, r = ok a s → R s (f a s).state) : R s₀ (r.andThen f).state := by
  cases r with
  | ok a s => exact ht _ _ _ hr (hf a s rfl)
  | err e s => exact hr
  | panicked s => exact hr

/-- A predicate of the state reached passes through a composite call. -/
theorem andThen_state {I : S → Prop} {r : Outcome ε S α} {f : α → S → Outcome ε S γ}
    (hr : I r.state) (hf : ∀ a s, r = ok a s → I (f a s).state) : I (r.andThen f).state := by
  cases r with
  | ok a s => exact hf a s rfl
  | err e s => exact hr
  | panicked s => exact hr

/-! ### Calls that do not panic -/

/-- The call does not panic: with a value it ends in `Q`, with an error in a state in `E`. -/
def Ends (Q : α → S → Prop) (E : S → Prop) : Outcome ε S α → Prop
  | ok a s => Q a s
  | err _ s => E s
  | panicked _ => False

section Ends

variable {Q : α → S → Prop} {E : S → Prop} {r : Outcome ε S α}

theorem Ends.mono {Q' : α → S → Prop} (h : r.Ends Q E) (hQ : ∀ a s, Q a s → Q' a s) :
    r.Ends Q' E := by
  cases r with
  | ok a s => exact hQ a s h
  | err e s => exact h
  | panicked s => exact h

/-- **Sequencing rule.** -/
theorem Ends.andThen {f : α → S → Outcome ε S γ} {Q' : γ → S → Prop} (h : r.Ends Q E)
    (hf : ∀ a s, Q a s → (f a s).Ends Q' E) : (r.andThen f).Ends Q' E := by
  cases r with
  | ok a s => exact hf a s h
  | err e s => exact h
  | panicked s => exact h

/-- Where values end is among the states of `E`, the call ends there. -/
theorem Ends.state (h : r.Ends Q E) (hQ : ∀ a s, Q a s → E s) : E r.state := by
  cases r with
  | ok a s => exact hQ a s h
  | err e s => exact h
  | panicked s => exact h.elim

theorem Ends.result_ne_none (h : r.Ends Q E) : r.result ≠ none := by
  cases r with
  | ok a s => simp [result]
  | err e s => simp [result]
  | panicked s => exact h.elim

end Ends

/-- The call does not panic: what it returns, and the state it leaves, are as `Q` says of a value or as
`E` says of an error. -/
def Returns (Q : α → S → Prop) (E : ε → S → Prop) : Outcome ε S α → Prop
  | ok a s => Q a s
  | err e s => E e s
  | panicked _ => False

section Returns

variable {Q : α → S → Prop} {E : ε → S → Prop} {r : Outcome ε S α}

theorem Returns.mono {Q' : α → S → Prop} {E' : ε → S → Prop} (h : r.Returns Q E)
    (hQ : ∀ a s, Q a s → Q' a s) (hE : ∀ e s, E e s → E' e s) : r.Returns Q' E' := by
  cases r with
  | ok a s => exact hQ a s h
  | err e s => exact hE e s h
  | panicked s => exact h

theorem Returns.and {Q' : α → S → Prop} {E' : ε → S → Prop} (h : r.Returns Q E)
    (h' : r.Returns Q' E') :
    r.Returns (fun a s => Q a s ∧ Q' a s) fun e s => E e s ∧ E' e s := by
  cases r with
  | ok a s => exact ⟨h, h'⟩
  | err e s => exact ⟨h, h'⟩
  | panicked s => exact h

/-- **Sequencing rule.** -/
theorem Returns.andThen {f : α → S → Outcome ε S γ} {Q' : γ → S → Prop} (h : r.Returns Q E)
    (hf : ∀ a s, Q a s → (f a s).Returns Q' E) : (r.andThen f).Returns Q' E := by
  cases r with
  | ok a s => exact hf a s h
  | err e s => exact h
  | panicked s => exact h

theorem Returns.mapErr {f : ε → ε'} {E' : ε' → S → Prop} (h : r.Returns Q E)
    (hE : ∀ e s, E e s → E' (f e) s) : (r.mapErr f).Returns Q E' := by
  cases r with
  | ok a s => exact h
  | err e s => exact hE e s h
  | panicked s => exact h

theorem Returns.bimap {T : Type*} {f : α → γ} {g : S → T} {Q' : γ → T → Prop} {E' : ε → T → Prop}
    (h : r.Returns Q E) (hQ : ∀ a s, Q a s → Q' (f a) (g s)) (hE : ∀ e s, E e s → E' e (g s)) :
    (r.bimap f g).Returns Q' E' := by
  cases r with
  | ok a s => exact hQ a s h
  | err e s => exact hE e s h
  | panicked s => exact h

/-- What holds of every state the call may leave holds of the one it leaves. -/
theorem Returns.state {I : S → Prop} (h : r.Returns Q E) (hQ : ∀ a s, Q a s → I s)
    (hE : ∀ e s, E e s → I s) : I r.state := by
  cases r with
  | ok a s => exact hQ a s h
  | err e s => exact hE e s h
  | panicked s => exact h.elim

theorem Returns.result_ne_none (h : r.Returns Q E) : r.result ≠ none := by
  cases r with
  | ok a s => simp [result]
  | err e s => simp [result]
  | panicked s => exact h.elim

theorem returns_of_result (h : r.result ≠ none) :
    r.Returns (fun a s => r = ok a s) fun e s => r = err e s := by
  cases r with
  | ok a s => rfl
  | err e s => rfl
  | panicked s => exact h rfl

/-- A composite call panics only if a part of it does. -/
theorem result_andThen_ne_none {f : α → S → Outcome ε S γ} (h : r.result ≠ none)
    (hf : ∀ a s, (f a s).result ≠ none) : (r.andThen f).result ≠ none := by
  cases r with
  | ok a s => exact hf a s
  | err e s => simp [result]
  | panicked s => exact absurd rfl h

end Returns

end Outcome

end FatDrive.Lib
