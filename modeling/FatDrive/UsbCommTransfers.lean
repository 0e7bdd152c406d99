import FatDrive.UsbComm

/-!
# FatDrive.UsbCommTransfers — what the two transfers hand over

Both directions copy through a zeroed shim as large as the room, or as the buffer.

* `drainLoop_bytes`, `outTransfer_presents`: `outTransfer` gives the endpoint the bytes of the buffer,
  in order, in one block;
* `fillLoop_eq`, `inTransfer_ok`: `inTransfer` appends the whole shim, delivered bytes and zeros, and
  returns the number of bytes delivered;
* `inTransfer_fills`: so the buffer is full after it, or as it was;
* `transfers_meet_iff`: so what one side sends is what the other appends exactly if it fills the room.
-/

namespace FatDrive

open Lib

variable {ε ε' : Type}

/-- The same host, logging the blocks written to its endpoint. -/
def UsbHost.recorded (h : UsbHost ε) : UsbHost (ε × List (List UInt8)) where
  read := fun st n => ((h.read st.1 n).1, (h.read st.1 n).2, st.2)
  write := fun st data => ((h.write st.1 data).1, (h.write st.1 data).2, st.2 ++ [data])
  allocZeroed := fun st size align => h.allocZeroed st.1 size align

namespace UsbClient

variable {h : UsbHost ε} {st st' : ε} {b : VecNewtype} {k : ℕ}

/-- A shim of `n` bytes can be made. -/
def HasShim (h : UsbHost ε) (st : ε) (n : ℕ) : Prop :=
  n + 0x1000 ≤ 2 ^ 64 ∧ h.allocZeroed st n 0x1000 = true

/-- What `inTransfer` owes: append what the endpoint delivers and return how much it was, or fail
and append nothing. -/
def InMeets (h : UsbHost ε) (st : ε) (b : VecNewtype) : Prop :=
  match inTransfer h st b with
  | (.ok n, b', _) => ∃ data st', h.read st (b.capacity - b.size) = (.ok data, st') ∧
      n = data.length ∧ b' = { b with inner := b.inner ++ data }
  | (.error _, b', _) => b' = b

/-- The bytes `outTransfer` hands to the endpoint. -/
def presented (h : UsbHost ε) (st : ε) (c : VecNewtype) : List UInt8 :=
  (outTransfer h.recorded (st, []) c).2.2.2.flatten

/-! ### The shim -/

/-- A zeroed shim of `n` bytes. -/
def zeroShim (n : ℕ) : AlignedBuffer := ⟨⟨n, 0x1000⟩, List.replicate n 0, List.length_replicate⟩

theorem fromSizeAlign_eq (hs : HasShim h st k) : Layout.fromSizeAlign k 0x1000 = some ⟨k, 0x1000⟩ :=
  if_pos hs.1

theorem fromLayout_eq (hs : HasShim h st k) :
    AlignedBuffer.fromLayout h st ⟨k, 0x1000⟩ = some (zeroShim k) :=
  if_pos hs.2

theorem noShim (hs : ¬ HasShim h st k) : Layout.fromSizeAlign k 0x1000 = none ∨
    Layout.fromSizeAlign k 0x1000 = some ⟨k, 0x1000⟩ ∧
      AlignedBuffer.fromLayout h st ⟨k, 0x1000⟩ = none := by
  by_cases hl : k + 0x1000 ≤ 2 ^ 64
  · exact Or.inr ⟨if_pos hl, if_neg fun ha => hs ⟨hl, ha⟩⟩
  · exact Or.inl (if_neg hl)

/-- Delivered bytes are stored from the start of the shim on; the rest stays zero. -/
theorem deliver_zeroShim {data : List UInt8} (hle : data.length ≤ k) :
    ((zeroShim k).deliver data).bytes = data ++ List.replicate (k - data.length) 0 := by
  unfold zeroShim AlignedBuffer.deliver
  dsimp only
  rw [List.take_of_length_le hle, List.drop_replicate]

/-- What is pulled is stored in the block, which keeps its size. -/
theorem pullBytes_layout {buffer shim : AlignedBuffer} {n : ℕ}
    (hp : pullBytes h st buffer = (.ok n, shim, st')) : shim.layout = buffer.layout := by
  unfold pullBytes at hp
  split at hp
  · simp at hp
  · split at hp
    · simp at hp
    · split at hp
      · simp only [Prod.mk.injEq] at hp
        rw [← hp.2.1]
        rfl
      · simp at hp

/-! ### `in_transfer` -/

/-- The copy loop appends the shim, from its index on, until the buffer is full. -/
theorem fillLoop_eq (shim : AlignedBuffer) : ∀ (n idx : ℕ) (b : VecNewtype),
    b.size + n = b.capacity → idx + n = shim.bytes.length →
    fillLoop shim n idx b = { b with inner := b.inner ++ shim.bytes.drop idx }
  | 0, idx, b, _, hs => by
    rw [List.drop_eq_nil_of_le (by omega), List.append_nil]
    rfl
  | n + 1, idx, b, hroom, hs => by
    have hidx : idx < shim.bytes.length := by omega
    have hlt : b.size < b.capacity := by omega
    rw [fillLoop, if_pos hlt, List.getElem?_eq_getElem hidx]
    dsimp only
    rw [VecNewtype.pushByte_of_lt hlt, Outcome.state_ok, fillLoop_eq shim n (idx + 1) _ ?_ (by omega)]
    · -- the byte pushed is the first of the rest
      dsimp only
      rw [List.append_assoc, List.singleton_append, List.getElem_cons_drop]
    · simp only [VecNewtype.size, VecNewtype.capacity, List.length_append,
        List.length_singleton] at hroom ⊢
      omega

section In

variable (hk : 0 < k) (hroom : b.size + k = b.capacity) (hcap : b.capacity < 2 ^ 64)
include hroom hcap

theorem toGet_eq : usizeSub b.capacity b.size = k := by
  rw [usizeSub_of_le hcap (by omega)]
  omega

/-- Without a shim nothing is asked of the endpoint. -/
theorem inTransfer_noShim (hs : ¬ HasShim h st k) : ∃ e, inTransfer h st b = (.error e, b, st) := by
  unfold inTransfer
  rw [toGet_eq hroom hcap]
  dsimp only
  rcases noShim hs with hl | ⟨hl, ha⟩
  · rw [hl]
    exact ⟨_, rfl⟩
  · rw [hl]
    dsimp only
    rw [ha]
    exact ⟨_, rfl⟩

/-- **`inTransfer` fills the room or fails.**  Whatever the endpoint delivers, the whole shim is
appended, and nothing is when it fails. -/
theorem inTransfer_fills (h : UsbHost ε) (st : ε) :
    (∃ n bytes st', inTransfer h st b = (.ok n, { b with inner := b.inner ++ bytes }, st') ∧
      bytes.length = k) ∨
    ∃ e st', inTransfer h st b = (.error e, b, st') := by
  by_cases hs : HasShim h st k
  · unfold inTransfer
    rw [toGet_eq hroom hcap]
    simp only [fromSizeAlign_eq hs, fromLayout_eq hs]
    rcases hpull : pullBytes h st (zeroShim k) with ⟨e | n, shim, st'⟩
    · exact Or.inr ⟨_, st', rfl⟩
    · have hlen : shim.bytes.length = k := by
        rw [shim.length_bytes, pullBytes_layout hpull]
        rfl
      refine Or.inl ⟨n, shim.bytes, st', ?_, hlen⟩
      show (Except.ok n, fillLoop shim k 0 b, st') = _
      rw [fillLoop_eq shim k 0 b hroom (by omega), List.drop_zero]
  · obtain ⟨e, he⟩ := inTransfer_noShim hroom hcap hs
    exact Or.inr ⟨e, st, he⟩

include hk

theorem inTransfer_err (hs : HasShim h st k) {e : LibnxError}
    (hr : h.read st k = (.error e, st')) :
    inTransfer h st b = (.error ⟨.usbTransferError .inward⟩, b, st') := by
  have hsize : ¬ (zeroShim k).size = 0 := Nat.ne_of_gt hk
  have hpull : pullBytes h st (zeroShim k) =
      (.error s!"Read Error: {e.debug}", zeroShim k, st') := by
    unfold pullBytes
    rw [if_neg hsize, if_neg (by simp [zeroShim, AlignedBuffer.alignment])]
    rw [show (zeroShim k).size = k from rfl, hr]
  unfold inTransfer
  rw [toGet_eq hroom hcap]
  simp only [fromSizeAlign_eq hs, fromLayout_eq hs, hpull]

/-- **What `inTransfer` appends**: the bytes delivered, and zeros up to its capacity. -/
theorem inTransfer_ok (hs : HasShim h st k) {data : List UInt8}
    (hr : h.read st k = (.ok data, st')) (hle : data.length ≤ k) :
    inTransfer h st b = (.ok data.length, { b with
      inner := b.inner ++ (data ++ List.replicate (k - data.length) 0) }, st') := by
  have hsize : ¬ (zeroShim k).size = 0 := Nat.ne_of_gt hk
  have hpull : pullBytes h st (zeroShim k) = (.ok data.length, (zeroShim k).deliver data, st') := by
    unfold pullBytes
    rw [if_neg hsize, if_neg (by simp [zeroShim, AlignedBuffer.alignment])]
    rw [show (zeroShim k).size = k from rfl, hr]
  have hlen : ((zeroShim k).deliver data).bytes.length = k := AlignedBuffer.length_bytes _
  have hfill := fillLoop_eq ((zeroShim k).deliver data) k 0 b hroom (by omega)
  rw [List.drop_zero, deliver_zeroShim hle] at hfill
  unfold inTransfer
  rw [toGet_eq hroom hcap]
  simp only [fromSizeAlign_eq hs, fromLayout_eq hs, hpull, hfill]

variable (hle : ∀ data st', h.read st k = (.ok data, st') → data.length ≤ k)
include hle

/-- `inTransfer` meets what it owes exactly if the endpoint fills the room whenever it delivers. -/
theorem inMeets_iff : InMeets h st b ↔
    (HasShim h st k → ∀ data st', h.read st k = (.ok data, st') → data.length = k) := by
  have hgap : b.capacity - b.size = k := by omega
  by_cases hs : HasShim h st k
  · rcases hr : h.read st k with ⟨res, st'⟩
    cases res with
    | error e =>
      refine iff_of_true ?_ (fun _ data st₁ hd => by cases hd)
      unfold InMeets
      rw [inTransfer_err hk hroom hcap hs hr]
    | ok data =>
      have hdata := hle data st' hr
      unfold InMeets
      rw [inTransfer_ok hk hroom hcap hs hr hdata, hgap, hr]
      dsimp only
      constructor
      · rintro ⟨data', st₁, heq, -, hb⟩ - data₂ st₂ heq₂
        cases heq
        cases heq₂
        -- the zeros appended have no room to be
        have hlen := congrArg (fun b : VecNewtype => b.inner.length) hb
        simp only [List.length_append, List.length_replicate] at hlen
        omega
      · intro hall
        have hfull := hall hs data st' rfl
        refine ⟨data, st', rfl, rfl, ?_⟩
        rw [hfull, Nat.sub_self, List.replicate_zero, List.append_nil]
  · obtain ⟨e, he⟩ := inTransfer_noShim hroom hcap hs
    refine iff_of_true ?_ (fun h => absurd h hs)
    unfold InMeets
    rw [he]

/-- Exactly what is delivered is appended exactly if it fills the room. -/
theorem inTransfer_inner_iff (hs : HasShim h st k) {data : List UInt8}
    (hr : h.read st k = (.ok data, st')) :
    (inTransfer h st b).2.1.inner = b.inner ++ data ↔ data.length = k := by
  rw [inTransfer_ok hk hroom hcap hs hr (hle data st' hr)]
  dsimp only
  rw [List.append_cancel_left_eq]
  constructor
  · intro heq
    have hlen := congrArg List.length heq
    simp only [List.length_append, List.length_replicate] at hlen
    have := hle data st' hr
    omega
  · intro heq
    rw [heq, Nat.sub_self, List.replicate_zero, List.append_nil]

end In

/-! ### `out_transfer` -/

/-- The copy loop stores the bytes it pulls one after the other. -/
theorem drainLoop_bytes : ∀ (n idx : ℕ) (shim : AlignedBuffer) (c : VecNewtype), c.size ≤ n →
    idx + c.size ≤ shim.bytes.length → ∃ shim' : AlignedBuffer, shim'.layout = shim.layout ∧
      drainLoop n idx shim c = (.ok shim', c.drained) ∧
      shim'.bytes = shim.bytes.take idx ++ c.inner ++ shim.bytes.drop (idx + c.size)
  | 0, idx, shim, c, hn, hlen => by
    have h0 : c.inner = [] := List.eq_nil_of_length_eq_zero (Nat.le_zero.mp hn)
    refine ⟨shim, rfl, by rw [drainLoop, VecNewtype.drained_eq_self h0], ?_⟩
    rw [VecNewtype.size, h0, List.append_nil, List.length_nil, Nat.add_zero, List.take_append_drop]
  | n + 1, idx, shim, ⟨inner, fakeSize⟩, hn, hlen => by
    cases inner with
    | nil => exact ⟨shim, rfl, rfl, by simp [VecNewtype.size]⟩
    | cons bt rest =>
      simp only [VecNewtype.size, List.length_cons] at hn hlen
      have hidx : idx < shim.bytes.length := by omega
      obtain ⟨shim', hl, hd, hb⟩ := drainLoop_bytes n (idx + 1) (shim.set idx bt) ⟨rest, fakeSize⟩
        (by simp only [VecNewtype.size]; omega)
        (by simp only [VecNewtype.size, AlignedBuffer.set, List.length_set]; omega)
      refine ⟨shim', hl, ?_, ?_⟩
      · simpa [drainLoop, VecNewtype.size, VecNewtype.pullByte, VecNewtype.drained] using hd
      · have htake : (shim.bytes.set idx bt).take (idx + 1) = shim.bytes.take idx ++ [bt] := by
          rw [List.take_succ_eq_append_getElem (by rw [List.length_set]; exact hidx),
            List.getElem_set_self, List.take_set_of_le (Nat.le_refl _)]
        rw [hb]
        simp only [AlignedBuffer.set, VecNewtype.size, List.length_cons]
        rw [htake, List.drop_set_of_lt (by omega), Nat.add_assoc, Nat.add_comm 1]
        simp only [List.append_assoc, List.cons_append, List.nil_append]

/-- **What `outTransfer` presents**: the bytes of the buffer, in order, if a shim can be made. -/
theorem outTransfer_presents (h : UsbHost ε) (st : ε) (c : VecNewtype) :
    presented h st c = c.inner ↔ c.inner = [] ∨ HasShim h st c.size := by
  by_cases hs : HasShim h st c.size
  · refine iff_of_true ?_ (Or.inr hs)
    have hs' : HasShim h.recorded (st, []) c.size := hs
    obtain ⟨shim', hl, hd, hb⟩ := drainLoop_bytes c.size 0 (zeroShim c.size) c (Nat.le_refl _)
      (by simp [zeroShim])
    have hbytes : shim'.bytes = c.inner := by
      rw [hb, Nat.zero_add, List.drop_eq_nil_of_le (by simp [zeroShim]), List.take_zero,
        List.nil_append, List.append_nil]
    have hsize : shim'.size = c.size := by
      unfold AlignedBuffer.size
      rw [hl]
      rfl
    have halign : ¬ shim'.alignment ≠ 0x1000 := by
      unfold AlignedBuffer.alignment
      rw [hl]
      simp [zeroShim]
    unfold presented outTransfer
    simp only [fromSizeAlign_eq hs', fromLayout_eq hs', hd]
    unfold pushBytes
    by_cases h0 : c.size = 0
    · rw [if_pos (by rw [hsize]; exact h0)]
      exact (List.eq_nil_of_length_eq_zero h0).symm
    · rw [if_neg (by rw [hsize]; exact h0), if_neg halign]
      simp only [UsbHost.recorded]
      cases (h.write st shim'.bytes).1 <;> simp [hbytes]
  · have hnone : presented h st c = [] := by
      unfold presented outTransfer
      have hs' : ¬ HasShim h.recorded (st, []) c.size := hs
      rcases noShim hs' with hl | ⟨hl, ha⟩
      · rw [hl]
        rfl
      · rw [hl]
        dsimp only
        rw [ha]
        rfl
    rw [hnone]
    constructor
    · intro h0
      exact Or.inl h0.symm
    · rintro (h0 | h0)
      · exact h0.symm
      · exact absurd h0 hs

/-- **The two transfers.**  With room for `k` bytes, `inTransfer` appends what the endpoint delivers
exactly if that is `k` bytes, whenever it delivers anything; what `outTransfer` presents is the
buffer, whenever a shim can be made; and what it presents on one side is what the other appends
exactly if it is as long as the room. -/
theorem transfers_meet_iff (h : UsbHost ε) (st : ε) (b : VecNewtype) (k : ℕ) (hk : 0 < k)
    (hroom : b.size + k = b.capacity) (hcap : b.capacity < 2 ^ 64)
    (hle : ∀ data st', h.read st k = (.ok data, st') → data.length ≤ k) :
    (InMeets h st b ↔
      (HasShim h st k → ∀ data st', h.read st k = (.ok data, st') → data.length = k)) ∧
    (∀ {ε' : Type} (h' : UsbHost ε') (st' : ε') (c : VecNewtype),
      presented h' st' c = c.inner ↔ c.inner = [] ∨ HasShim h' st' c.size) ∧
    (∀ {ε' : Type} (h' : UsbHost ε') (st' : ε') (c : VecNewtype) (st₁ : ε), HasShim h st k →
      HasShim h' st' c.size → h.read st k = (.ok (presented h' st' c), st₁) →
      ((inTransfer h st b).2.1.inner = b.inner ++ c.inner ↔ c.size = k)) := by
  refine ⟨inMeets_iff hk hroom hcap hle, fun h' st' c => outTransfer_presents h' st' c,
    fun h' st' c st₁ hs hs' hr => ?_⟩
  have hpres : presented h' st' c = c.inner := (outTransfer_presents h' st' c).mpr (Or.inr hs')
  rw [hpres] at hr
  exact inTransfer_inner_iff hk hroom hcap hle hs hr

/-- Two ends of a pipe: what is written is read, as much of it as is there. -/
def pipe : UsbHost (List UInt8) where
  read := fun st n => (.ok (st.take n), st.drop n)
  write := fun st data => (.ok data.length, st ++ data)
  allocZeroed := fun _ _ _ => true

theorem transfers_meet_iff_full : InMeets pipe [1, 2] ⟨[7], 3⟩ := by
  have hle : ∀ data st', pipe.read [1, 2] 2 = (.ok data, st') → data.length ≤ 2 := by
    intro data st' h
    cases h
    decide
  refine (transfers_meet_iff pipe [1, 2] ⟨[7], 3⟩ 2 (by decide) rfl (by decide) hle).1.mpr ?_
  intro _ data st' h
  cases h
  rfl

/-- **A short transfer.**  One byte is sent and delivered into room for two: `inTransfer` returns 1
and appends a zero the other side never sent. -/
theorem short_transfer :
    presented pipe [] ⟨[1], 2⟩ = [1] ∧
    inTransfer pipe (outTransfer pipe [] ⟨[1], 2⟩).2.2 ⟨[7], 3⟩ = (.ok 1, ⟨[7, 1, 0], 3⟩, []) ∧
    ¬ InMeets pipe [1] ⟨[7], 3⟩ := by
  refine ⟨rfl, rfl, fun hmeets => ?_⟩
  obtain ⟨data, st', hr, -, hb⟩ := hmeets
  cases hr
  exact absurd hb (by decide)

end UsbClient

end FatDrive
