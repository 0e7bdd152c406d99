import FatDrive.Lib.FlatMem

/-!
# FatDrive.Lib.WriteBehind — a memory that lags behind the stores made to it

`put` makes one store.  `stored put g ws` is what the stores of `ws`, in order, make of `g`; `Trails put g
ws n g'` says that `g'` is what the first of them have made of `g`, at least `n`, and none of the others.
A cache that holds stores back but never lets a later one overtake an earlier one keeps the memory behind
it trailing.

* `Trails.append`, `Trails.mono`, `Trails.map`: with more stores, with less asked of them, seen otherwise;
* `stored_placed`: a list laid down cell by cell;
* `durable`: how many of the stores of a log were made before its last flush.
-/

namespace FatDrive.Lib

variable {G G' W W' L : Type*} {put : G → W → G} {put' : G' → W' → G'} {f g : G} {ws : List W} {n k : ℕ}

/-- What is left after the stores, in order. -/
def stored (put : G → W → G) (g : G) (ws : List W) : G := ws.foldl put g

@[simp] theorem stored_nil (put : G → W → G) (g : G) : stored put g [] = g := rfl

theorem stored_append (put : G → W → G) (g : G) (ws vs : List W) :
    stored put g (ws ++ vs) = stored put (stored put g ws) vs := List.foldl_append ..

theorem stored_snoc (put : G → W → G) (g : G) (ws : List W) (w : W) :
    stored put g (ws ++ [w]) = put (stored put g ws) w := stored_append put g ws _

/-- Stores that do, as seen through `h`, what others do. -/
theorem stored_map {h : G → G'} {φ : W → W'} (hput : ∀ g, ∀ w ∈ ws, h (put g w) = put' (h g) (φ w))
    (g : G) :
    h (stored put g ws) = stored put' (h g) (ws.map φ) := by
  induction ws generalizing g with
  | nil => rfl
  | cons w ws ih =>
    have hrest := ih (fun g v hv => hput g v (List.mem_cons_of_mem w hv)) (put g w)
    rw [hput g w List.mem_cons_self] at hrest
    exact hrest

/-! ### Trailing -/

/-- What the first of the stores have made of `f`: at least `n` of them. -/
def Trails (put : G → W → G) (f : G) (ws : List W) (n : ℕ) (g : G) : Prop :=
  ∃ k, n ≤ k ∧ k ≤ ws.length ∧ g = stored put f (ws.take k)

theorem trails_stored (put : G → W → G) (f : G) (ws : List W) :
    Trails put f ws ws.length (stored put f ws) :=
  ⟨ws.length, Nat.le_refl _, Nat.le_refl _, by rw [List.take_length]⟩

theorem Trails.mono (h : Trails put f ws n g) (hk : k ≤ n) : Trails put f ws k g := by
  obtain ⟨j, h1, h2, h3⟩ := h
  exact ⟨j, Nat.le_trans hk h1, h2, h3⟩

theorem Trails.le_length (h : Trails put f ws n g) : n ≤ ws.length := by
  obtain ⟨j, h1, h2, -⟩ := h
  exact Nat.le_trans h1 h2

/-- What trails some stores trails them with more behind. -/
theorem Trails.append (h : Trails put f ws n g) (vs : List W) : Trails put f (ws ++ vs) n g := by
  obtain ⟨j, h1, h2, h3⟩ := h
  refine ⟨j, h1, ?_, ?_⟩
  · rw [List.length_append]
    omega
  · rw [h3, List.take_append_of_le_length h2]

theorem Trails.map (ht : Trails put f ws n g) (h : G → G') (φ : W → W')
    (hput : ∀ g, ∀ w ∈ ws, h (put g w) = put' (h g) (φ w)) :
    Trails put' (h f) (ws.map φ) n (h g) := by
  obtain ⟨k, h1, h2, h3⟩ := ht
  refine ⟨k, h1, by rwa [List.length_map], ?_⟩
  rw [h3, ← List.map_take]
  exact stored_map (fun g w hw => hput g w (List.mem_of_mem_take hw)) f

/-! ### Stores of cells -/

section Cells

variable {α β : Type*} [DecidableEq α]

/-- The store of one cell. -/
def setCell (g : α → β) (w : α × β) : α → β := Function.update g w.1 w.2

/-- The stores that lay a list down from an address on. -/
def placed (a : ℕ) : List β → List (ℕ × β)
  | [] => []
  | b :: l => (a, b) :: placed (a + 1) l

@[simp] theorem placed_nil (a : ℕ) : placed a ([] : List β) = [] := rfl

@[simp] theorem length_placed (a : ℕ) (l : List β) : (placed a l).length = l.length := by
  induction l generalizing a with
  | nil => rfl
  | cons b l ih => rw [placed, List.length_cons, ih, List.length_cons]

theorem append_placed_cons (ws : List (ℕ × β)) (a : ℕ) (b : β) (l : List β) :
    ws ++ placed a (b :: l) = ws ++ [(a, b)] ++ placed (a + 1) l := by
  rw [placed, List.append_assoc]
  rfl

/-- Storing a list cell by cell lays it down. -/
theorem stored_placed (f : ℕ → β) (a : ℕ) (l : List β) : stored setCell f (placed a l) = patch f a l := by
  induction l generalizing f a with
  | nil => rw [placed_nil, stored_nil, patch_nil]
  | cons b l ih =>
    rw [patch_cons, ← ih (Function.update f a b) (a + 1)]
    rfl

end Cells

/-! ### Flushed stores -/

/-- How many stores are sure to be there after the entries of a log, if `n` of the `k` before it are: those
made before the last flush. -/
def durable (size : L → ℕ) (isFlush : L → Bool) : ℕ → ℕ → List L → ℕ
  | n, _, [] => n
  | n, k, l :: ls => durable size isFlush (if isFlush l then k else n) (k + size l) ls

end FatDrive.Lib
