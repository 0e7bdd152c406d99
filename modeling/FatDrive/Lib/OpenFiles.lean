import FatDrive.Lib.Descriptor
import Mathlib.Data.Int.Notation
import Mathlib.Logic.Function.Basic

/-!
# FatDrive.Lib.OpenFiles — files that are open under ids

What a set of open files is for its users: the contents of every file, and for each id in use the file
with a place in it.  The descriptor of an id is the contents of its file, with that place.  An operation
on an id changes its descriptor, `openAt` and `close` take ids in and out of use.

* `Exclusive`: no file is open under two ids, which `openAt` alone can break;
* `descriptor_put_of_ne`: an operation on another id leaves a descriptor then.
-/

namespace FatDrive.Lib

variable {I E β : Type*}

namespace Descriptor

/-- A seek to a target, or to the end if that is nearer. -/
structure Seeks (d : Descriptor β) (target : ℤ) (n : ℕ) (d' : Descriptor β) : Prop where
  target_nonneg : 0 ≤ target
  count_eq : n = min target.toNat d.bytes.length
  bytes_eq : d'.bytes = d.bytes
  cursor_eq : d'.cursor = n

/-- What is left when the sequence is cut at the cursor. -/
def cut (d : Descriptor β) : Descriptor β := ⟨d.bytes.take d.cursor, d.cursor⟩

end Descriptor

structure OpenFiles (I E β : Type*) where
  bytes : E → List β
  opened : I → Option (E × ℕ)

namespace OpenFiles

variable (d : OpenFiles I E β)

def descriptor? (id : I) : Option (Descriptor β) := (d.opened id).map fun x => ⟨d.bytes x.1, x.2⟩

/-- No file is open under two ids. -/
def Exclusive : Prop :=
  ∀ id id' x x', d.opened id = some x → d.opened id' = some x' → x.1 = x'.1 → id = id'

/-- The file is open. -/
def Opens (e : E) : Prop := ∃ id x, d.opened id = some x ∧ x.1 = e

variable {d}

theorem descriptor?_eq_none {id : I} : d.descriptor? id = none ↔ d.opened id = none :=
  Option.map_eq_none_iff

theorem descriptor?_of_opened {id : I} {e : E} {p : ℕ} (h : d.opened id = some (e, p)) :
    d.descriptor? id = some ⟨d.bytes e, p⟩ := by
  rw [descriptor?, h]
  rfl

variable [DecidableEq I] [DecidableEq E]

variable (d) in
/-- An operation on the file of an id has left its descriptor so. -/
def put (id : I) (e : E) (x : Descriptor β) : OpenFiles I E β where
  bytes := Function.update d.bytes e x.bytes
  opened := Function.update d.opened id (some (e, x.cursor))

variable (d) in
def openAt (id : I) (e : E) : OpenFiles I E β :=
  { d with opened := Function.update d.opened id (some (e, 0)) }

variable (d) in
def close (id : I) : OpenFiles I E β := { d with opened := Function.update d.opened id none }

variable (d) in
/-- The contents of a file may have become anything. -/
def spoil (e : E) (bytes : List β) : OpenFiles I E β :=
  { d with bytes := Function.update d.bytes e bytes }

/-! ### Descriptors -/

@[simp] theorem descriptor_put_self (id : I) (e : E) (x : Descriptor β) :
    (d.put id e x).descriptor? id = some x := by
  simp [descriptor?, put]

/-- An operation that changes nothing. -/
theorem put_same {id : I} {e : E} {p : ℕ} (ho : d.opened id = some (e, p)) :
    d.put id e ⟨d.bytes e, p⟩ = d := by
  simp only [put, Function.update_eq_self, ← ho]

theorem descriptor_put_of_ne (h : d.Exclusive) {id id' : I} {e : E} {p : ℕ}
    (ho : d.opened id = some (e, p)) (hne : id' ≠ id) (x : Descriptor β) :
    (d.put id e x).descriptor? id' = d.descriptor? id' := by
  show (Function.update d.opened id _ id').map _ = (d.opened id').map _
  rw [Function.update_of_ne hne]
  cases ho' : d.opened id' with
  | none => rfl
  | some y =>
    -- the file of the other id is another one
    have hfile : y.1 ≠ e := fun he => hne (h id' id y (e, p) ho' ho he)
    simp only [Option.map_some, put, Function.update_of_ne hfile]

omit [DecidableEq E] in
theorem descriptor_openAt_of_ne {id id' : I} (hne : id' ≠ id) (e : E) :
    (d.openAt id e).descriptor? id' = d.descriptor? id' := by
  show (Function.update d.opened id _ id').map _ = _
  rw [Function.update_of_ne hne]
  rfl

omit [DecidableEq E] in
theorem descriptor_openAt_self (id : I) (e : E) :
    (d.openAt id e).descriptor? id = some ⟨d.bytes e, 0⟩ := by
  simp [descriptor?, openAt]

omit [DecidableEq E] in
theorem descriptor_close_of_ne {id id' : I} (hne : id' ≠ id) :
    (d.close id).descriptor? id' = d.descriptor? id' := by
  show (Function.update d.opened id _ id').map _ = _
  rw [Function.update_of_ne hne]
  rfl

omit [DecidableEq I] in
/-- A file that is not open has no descriptor to spoil. -/
theorem descriptor_spoil {e : E} (h : ¬ d.Opens e) (bytes : List β) (id : I) :
    (d.spoil e bytes).descriptor? id = d.descriptor? id := by
  unfold descriptor?
  cases ho : d.opened id with
  | none => simp only [spoil, ho, Option.map_none]
  | some x =>
    have hfile : x.1 ≠ e := fun he => h ⟨id, x, ho, he⟩
    simp only [spoil, ho, Option.map_some, Function.update_of_ne hfile]

omit [DecidableEq I] in
theorem spoil_same (e : E) : d.spoil e (d.bytes e) = d := by
  simp only [spoil, Function.update_eq_self]

/-! ### Files that are open once -/

theorem Exclusive.put (h : d.Exclusive) {id : I} {e : E} {p : ℕ} (ho : d.opened id = some (e, p))
    (x : Descriptor β) : (d.put id e x).Exclusive := by
  have hfile : ∀ {j : I} {y : E × ℕ}, (d.put id e x).opened j = some y →
      ∃ z, d.opened j = some z ∧ z.1 = y.1 := by
    intro j y hy
    by_cases hj : j = id
    · subst hj
      cases (Function.update_self j _ d.opened).symm.trans hy
      exact ⟨(e, p), ho, rfl⟩
    · exact ⟨y, (Function.update_of_ne hj _ d.opened).symm.trans hy, rfl⟩
  intro i j y y' hi hj he
  obtain ⟨z, hz, hzy⟩ := hfile hi
  obtain ⟨z', hz', hzy'⟩ := hfile hj
  exact h i j z z' hz hz' ((hzy.trans he).trans hzy'.symm)

omit [DecidableEq E] in
theorem Exclusive.openAt (h : d.Exclusive) (id : I) {e : E} (hno : ¬ d.Opens e) :
    (d.openAt id e).Exclusive := by
  intro i j y y' hi hj he
  by_cases hid : i = id
  · subst hid
    by_cases hjd : j = i
    · exact hjd.symm
    · cases (Function.update_self i _ d.opened).symm.trans hi
      exact absurd ⟨j, y', (Function.update_of_ne hjd _ d.opened).symm.trans hj, he.symm⟩ hno
  · have hi' : d.opened i = some y := (Function.update_of_ne hid _ d.opened).symm.trans hi
    by_cases hjd : j = id
    · subst hjd
      cases (Function.update_self j _ d.opened).symm.trans hj
      exact absurd ⟨i, y, hi', he⟩ hno
    · exact h i j y y' hi' ((Function.update_of_ne hjd _ d.opened).symm.trans hj) he

omit [DecidableEq E] in
theorem opened_of_close {id i : I} {x : E × ℕ} (h : (d.close id).opened i = some x) :
    i ≠ id ∧ d.opened i = some x := by
  by_cases hi : i = id
  · subst hi
    cases (Function.update_self i _ d.opened).symm.trans h
  · exact ⟨hi, (Function.update_of_ne hi _ d.opened).symm.trans h⟩

omit [DecidableEq E] in
theorem Exclusive.close (h : d.Exclusive) (id : I) : (d.close id).Exclusive :=
  fun i j y y' hi hj he => h i j y y' (opened_of_close hi).2 (opened_of_close hj).2 he

omit [DecidableEq E] in
/-- Once its only id is closed, a file is not open. -/
theorem Exclusive.not_opens (h : d.Exclusive) {id : I} {e : E} {p : ℕ} (ho : d.opened id = some (e, p)) :
    ¬ (d.close id).Opens e := by
  rintro ⟨i, x, hi, he⟩
  obtain ⟨hne, hi'⟩ := opened_of_close hi
  exact hne (h i id x (e, p) hi' ho he)

end OpenFiles

end FatDrive.Lib
