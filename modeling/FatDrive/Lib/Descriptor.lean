import FatDrive.Lib.FlatMem

/-!
# FatDrive.Lib.Descriptor — a byte sequence with a cursor

What an open file is for its user: a sequence and a place in it.  A write stores at the cursor,
extending the sequence where it passes the end, a read returns what is there; both advance by what
they moved, which may be less than asked for.

* `Writes`, `Reads`: one write or read;
* `splice_slice`: storing in a sequence that lies in a flat memory.
-/

namespace FatDrive.Lib

variable {β : Type*}

/-- `l` with `data` stored from index `i` on. -/
def splice (l : List β) (i : ℕ) (data : List β) : List β :=
  l.take i ++ data ++ l.drop (i + data.length)

theorem length_splice {l : List β} {i : ℕ} (data : List β) (h : i ≤ l.length) :
    (splice l i data).length = max l.length (i + data.length) := by
  simp only [splice, List.length_append, List.length_take, List.length_drop]
  omega

theorem take_slice (f : ℕ → β) (a : ℕ) {n k : ℕ} (h : k ≤ n) : (slice f a n).take k = slice f a k := by
  obtain ⟨r, rfl⟩ : ∃ r, n = k + r := ⟨n - k, by omega⟩
  rw [slice_add, List.take_append_of_le_length (by simp), List.take_of_length_le (by simp)]

/-- Storing in the first `n` cells of a memory, at or before their end. -/
theorem splice_slice (f : ℕ → β) {n i : ℕ} (data : List β) (h : i ≤ n) :
    splice (slice f 0 n) i data = slice (patch f i data) 0 (max n (i + data.length)) := by
  obtain ⟨r, hr⟩ : ∃ r, max n (i + data.length) = i + data.length + r :=
    ⟨max n (i + data.length) - (i + data.length), by omega⟩
  have hbefore : slice (patch f i data) 0 i = slice f 0 i := by
    refine slice_congr fun x _ hx => patch_of_lt (by omega)
  have hafter : slice (patch f i data) (i + data.length) r = slice f (i + data.length) r := by
    refine slice_congr fun x hx _ => patch_of_ge hx
  have hrest : n - (i + data.length) = r := by omega
  rw [hr, slice_add, slice_add, Nat.zero_add, Nat.zero_add, hbefore, slice_patch_self, hafter]
  unfold splice
  rw [take_slice f 0 h, drop_slice, hrest, Nat.zero_add]

structure Descriptor (β : Type*) where
  bytes : List β
  cursor : ℕ

namespace Descriptor

/-- A write of the first `n` bytes of `buff`. -/
structure Writes (d : Descriptor β) (buff : List β) (n : ℕ) (d' : Descriptor β) : Prop where
  count_le : n ≤ buff.length
  bytes_eq : d'.bytes = splice d.bytes d.cursor (buff.take n)
  cursor_eq : d'.cursor = d.cursor + n

/-- A read of `data` into a buffer with room for `room` bytes; it is empty only if there is no room, or
nothing to read. -/
structure Reads (d : Descriptor β) (room : ℕ) (data : List β) (d' : Descriptor β) : Prop where
  count_le : data.length ≤ room
  data_eq : data = (d.bytes.drop d.cursor).take data.length
  progress : data = [] → room = 0 ∨ d.bytes.length ≤ d.cursor
  bytes_eq : d'.bytes = d.bytes
  cursor_eq : d'.cursor = d.cursor + data.length

end Descriptor

end FatDrive.Lib
