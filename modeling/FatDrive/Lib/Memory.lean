import Mathlib.Data.List.AList
import Mathlib.Data.Nat.Notation
import Mathlib.Data.Set.Insert

/-!
# FatDrive.Lib.Memory — poisoned mutexes, boxed objects, and tables searched by value

`Mutex` is a cell that stays poisoned once a holder has panicked.  `Heap` holds boxed objects at
addresses: `alloc` gives out addresses never given out before, none of them null, `free` takes an
object away.  `AList.findKey?` searches a table for a key with a given value.
-/

namespace FatDrive.Lib

section Tables

variable {α : Type*}

/-- A key of an insertion was a key before, or is the one inserted. -/
theorem mem_insert_or {t : AList fun _ : ℕ => α} {n id : ℕ} {v : α}
    (h : id ∈ t.insert n v) : id ∈ t ∨ id = n := ((AList.mem_insert t).mp h).symm

theorem lookup_insert_or {t : AList fun _ : ℕ => α} {n id : ℕ} {v u : α}
    (h : (t.insert n v).lookup id = some u) : t.lookup id = some u ∨ id = n ∧ u = v := by
  by_cases hid : id = n
  · subst hid
    rw [AList.lookup_insert] at h
    cases h
    exact Or.inr ⟨rfl, rfl⟩
  · rw [AList.lookup_insert_ne hid] at h
    exact Or.inl h

theorem lookup_erase_iff {t : AList fun _ : ℕ => α} {n id : ℕ} {u : α} :
    (t.erase n).lookup id = some u ↔ id ≠ n ∧ t.lookup id = some u := by
  by_cases hid : id = n
  · subst hid
    rw [AList.lookup_erase]
    simp
  · simp [AList.lookup_erase_ne hid, hid]

theorem dlookup_kreplace (a b : ℕ) (v : α) : ∀ l : List (Sigma fun _ : ℕ => α),
    (l.kreplace a v).dlookup b = if b = a then (l.dlookup a).map fun _ => v else l.dlookup b
  | [] => by split <;> rfl
  | ⟨k, u⟩ :: l => by
    unfold List.kreplace
    by_cases hk : a = k
    · subst hk
      rw [List.lookmap_cons_some _ _ (dif_pos rfl)]
      by_cases hb : b = a
      · subst hb
        simp
      · simp [hb]
    · rw [List.lookmap_cons_none _ _ (dif_neg hk)]
      have ih := dlookup_kreplace a b v l
      unfold List.kreplace at ih
      by_cases hb : b = k
      · subst hb
        simp [Ne.symm hk]
      · have hskip : ∀ c, c ≠ k → ∀ l : List (Sigma fun _ : ℕ => α),
            List.dlookup c (⟨k, u⟩ :: l) = List.dlookup c l :=
          fun c hc l => List.dlookup_cons_ne l ⟨k, u⟩ hc
        rw [hskip b hb, hskip b hb, hskip a hk]
        exact ih

theorem lookup_replace (t : AList fun _ : ℕ => α) (a b : ℕ) (v : α) :
    (t.replace a v).lookup b = if b = a then (t.lookup a).map fun _ => v else t.lookup b :=
  dlookup_kreplace a b v t.entries

/-! What a table holds after an operation, at every key. -/

theorem lookup_insert_apply (t : AList fun _ : ℕ => α) (n id : ℕ) (v : α) :
    (t.insert n v).lookup id = if id = n then some v else t.lookup id := by
  by_cases hid : id = n
  · rw [if_pos hid, hid, AList.lookup_insert]
  · rw [if_neg hid, AList.lookup_insert_ne hid]

theorem lookup_erase_apply (t : AList fun _ : ℕ => α) (n id : ℕ) :
    (t.erase n).lookup id = if id = n then none else t.lookup id := by
  by_cases hid : id = n
  · rw [if_pos hid, hid, AList.lookup_erase]
  · rw [if_neg hid, AList.lookup_erase_ne hid]

end Tables

/-- A mutex, looked at between calls: nobody holds it. -/
structure Mutex (α : Type*) where
  value : α
  poisoned : Bool := false
  deriving Repr

namespace Mutex

variable {α ε : Type*}

/-- The value behind the mutex, refused for ever once a holder has panicked. -/
def lock (x : Mutex α) : Option α := if x.poisoned then none else some x.value

/-- The pointer behind a mutex, unless it is null. -/
def lockedPtr (x : Mutex ℕ) (poisoned null : ε) : Except ε ℕ :=
  match x.lock with
  | none => .error poisoned
  | some 0 => .error null
  | some a => .ok a

/-- A holder panics. -/
def poison (x : Mutex α) : Mutex α := { x with poisoned := true }

/-- A holder stores a value. -/
def store (x : Mutex α) (v : α) : Mutex α := { x with value := v }

@[simp] theorem value_poison (x : Mutex α) : x.poison.value = x.value := rfl
@[simp] theorem value_store (x : Mutex α) (v : α) : (x.store v).value = v := rfl
@[simp] theorem poisoned_store (x : Mutex α) (v : α) : (x.store v).poisoned = x.poisoned := rfl

theorem lock_eq_some {x : Mutex α} {v : α} : x.lock = some v ↔ x.poisoned = false ∧ x.value = v := by
  unfold lock
  cases x.poisoned <;> simp

theorem lock_eq_none {x : Mutex α} : x.lock = none ↔ x.poisoned = true := by
  unfold lock
  cases x.poisoned <;> simp

theorem lockedPtr_eq_ok {x : Mutex ℕ} {poisoned null : ε} {a : ℕ} :
    x.lockedPtr poisoned null = .ok a ↔ x.poisoned = false ∧ x.value = a ∧ a ≠ 0 := by
  unfold lockedPtr lock
  cases x.poisoned with
  | true => simp
  | false => cases h : x.value <;> simp <;> omega

end Mutex

/-- Boxed objects by address.  Addresses below `next` have been given out; null never is. -/
structure Heap (α : Type*) where
  cells : AList fun _ : ℕ => α
  next : ℕ
  next_pos : 0 < next
  lt_next : ∀ a ∈ cells, 0 < a ∧ a < next

namespace Heap

variable {α : Type*}

def empty : Heap α := ⟨∅, 1, Nat.one_pos, fun a h => absurd h (AList.notMem_empty a)⟩

/-- The object at an address. -/
def get? (h : Heap α) (a : ℕ) : Option α := h.cells.lookup a

/-- `Box::into_raw(Box::new(v))`. -/
def alloc (h : Heap α) (v : α) : ℕ × Heap α :=
  (h.next, ⟨h.cells.insert h.next v, h.next + 1, Nat.succ_pos _, by
    intro a ha
    rcases (AList.mem_insert _).mp ha with rfl | ha
    · exact ⟨h.next_pos, Nat.lt_succ_self _⟩
    · exact ⟨(h.lt_next a ha).1, Nat.lt_succ_of_lt (h.lt_next a ha).2⟩⟩)

/-- The object at `a` changes. -/
def set (h : Heap α) (a : ℕ) (v : α) : Heap α :=
  ⟨h.cells.replace a v, h.next, h.next_pos, fun b hb => h.lt_next b (AList.mem_replace.mp hb)⟩

/-- `drop(Box::from_raw(a))`. -/
def free (h : Heap α) (a : ℕ) : Heap α :=
  ⟨h.cells.erase a, h.next, h.next_pos, fun b hb => h.lt_next b (AList.mem_erase.mp hb).2⟩

/-- An object lives at the address. -/
def Live (h : Heap α) (a : ℕ) : Prop := a ∈ h.cells

instance (h : Heap α) (a : ℕ) : Decidable (h.Live a) := inferInstanceAs (Decidable (a ∈ h.cells))

theorem live_iff {h : Heap α} {a : ℕ} : h.Live a ↔ ∃ v, h.get? a = some v := by
  unfold Live get?
  rw [← AList.lookup_isSome, Option.isSome_iff_exists]

theorem get?_set (h : Heap α) (a b : ℕ) (v : α) :
    (h.set a v).get? b = if b = a then (h.get? a).map fun _ => v else h.get? b :=
  lookup_replace h.cells a b v

/-- An object that is there changes. -/
theorem get?_set_self {h : Heap α} {a : ℕ} {u : α} (hu : h.get? a = some u) (v : α) :
    (h.set a v).get? a = some v := by
  rw [get?_set, if_pos rfl, hu, Option.map_some]

theorem get?_set_ne {a b : ℕ} (hab : b ≠ a) (h : Heap α) (v : α) :
    (h.set a v).get? b = h.get? b := by
  rw [get?_set, if_neg hab]

theorem get?_alloc_self (h : Heap α) (v : α) : (h.alloc v).2.get? (h.alloc v).1 = some v :=
  AList.lookup_insert h.cells

/-- Allocation disturbs nothing. -/
theorem get?_alloc {h : Heap α} {a : ℕ} {u : α} (hu : h.get? a = some u) (v : α) :
    (h.alloc v).2.get? a = some u := by
  have hmem : a ∈ h.cells := AList.lookup_isSome.mp (Option.isSome_iff_exists.mpr ⟨u, hu⟩)
  have ha : a ≠ h.next := Nat.ne_of_lt (h.lt_next a hmem).2
  exact (AList.lookup_insert_ne ha).trans hu

@[simp] theorem get?_zero (h : Heap α) : h.get? 0 = none :=
  AList.lookup_eq_none.mpr fun h0 => Nat.lt_irrefl 0 (h.lt_next 0 h0).1

@[simp] theorem not_live_zero (h : Heap α) : ¬ h.Live 0 := fun h0 =>
  absurd (h.lt_next 0 h0).1 (Nat.lt_irrefl 0)

theorem alloc_fst_ne_zero (h : Heap α) (v : α) : (h.alloc v).1 ≠ 0 :=
  Nat.pos_iff_ne_zero.mp h.next_pos

/-- A new address is not in use. -/
theorem not_live_alloc (h : Heap α) (v : α) : ¬ h.Live (h.alloc v).1 := fun hl =>
  absurd (h.lt_next _ hl).2 (Nat.lt_irrefl _)

theorem live_alloc {h : Heap α} {v : α} {a : ℕ} :
    (h.alloc v).2.Live a ↔ a = (h.alloc v).1 ∨ h.Live a := AList.mem_insert _

@[simp] theorem live_set {h : Heap α} {a b : ℕ} {v : α} : (h.set a v).Live b ↔ h.Live b :=
  AList.mem_replace

end Heap

/-! ### Searching a table by value -/

section FindKey

variable {α : Type*} [DecidableEq α]

/-- Some key whose value is `v`. -/
def findKey? (t : AList fun _ : ℕ => α) (v : α) : Option ℕ :=
  t.entries.findSome? fun kv => if kv.2 = v then some kv.1 else none

theorem lookup_of_findKey? {t : AList fun _ : ℕ => α} {v : α} {k : ℕ} (h : findKey? t v = some k) :
    t.lookup k = some v := by
  obtain ⟨⟨k', v'⟩, hmem, hk⟩ := List.exists_of_findSome?_eq_some h
  split at hk
  · next hv =>
    cases hk
    subst hv
    exact AList.mem_lookup_iff.mpr hmem
  · cases hk

theorem findKey?_eq_none {t : AList fun _ : ℕ => α} {v : α} :
    findKey? t v = none ↔ ∀ k, t.lookup k ≠ some v := by
  unfold findKey?
  rw [List.findSome?_eq_none_iff]
  constructor
  · intro h k hk
    have := h ⟨k, v⟩ (AList.mem_lookup_iff.mp hk)
    simp at this
  · rintro h ⟨k, v'⟩ hmem
    have hl : t.lookup k = some v' := AList.mem_lookup_iff.mpr hmem
    rw [if_neg]
    rintro rfl
    exact h k hl

end FindKey

/-- The values of a table are told apart by nothing but their keys: no value occurs twice. -/
def NoTwice {α : Type*} (t : AList fun _ : ℕ => α) : Prop :=
  ∀ k k' v, t.lookup k = some v → t.lookup k' = some v → k = k'

namespace NoTwice

variable {α : Type*} {t : AList fun _ : ℕ => α}

theorem empty : NoTwice (∅ : AList fun _ : ℕ => α) := by
  intro k k' v h
  rw [AList.lookup_empty] at h
  cases h

theorem erase (h : NoTwice t) (a : ℕ) : NoTwice (t.erase a) := by
  intro k k' v hk hk'
  by_cases hka : k = a
  · rw [hka, AList.lookup_erase] at hk
    cases hk
  · by_cases hka' : k' = a
    · rw [hka', AList.lookup_erase] at hk'
      cases hk'
    · rw [AList.lookup_erase_ne hka] at hk
      rw [AList.lookup_erase_ne hka'] at hk'
      exact h k k' v hk hk'

/-- A value no key has may be stored anywhere. -/
theorem insert (h : NoTwice t) (a : ℕ) {v : α} (hv : ∀ k, t.lookup k ≠ some v) :
    NoTwice (t.insert a v) := by
  intro k k' u hk hk'
  by_cases hka : k = a <;> by_cases hka' : k' = a
  · rw [hka, hka']
  · rw [hka, AList.lookup_insert] at hk
    rw [AList.lookup_insert_ne hka'] at hk'
    cases hk
    exact absurd hk' (hv k')
  · rw [hka', AList.lookup_insert] at hk'
    rw [AList.lookup_insert_ne hka] at hk
    cases hk'
    exact absurd hk (hv k)
  · rw [AList.lookup_insert_ne hka] at hk
    rw [AList.lookup_insert_ne hka'] at hk'
    exact h k k' u hk hk'

end NoTwice

end FatDrive.Lib
