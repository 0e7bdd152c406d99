import FatDrive.FlatMedium

/-!
# FatDrive.BufScsiCache — what the calls of `OffsetScsiDevice` do to the bytes it shows

`view` is the medium with the buffered block laid over it: the bytes the device shows.  `Coherent`
is the cache invariant.  `Keeps d d'`: `d'` is coherent, shows the same bytes and has the same
cursor.

* `flush_ok`: a flush that returns `Ok` keeps the view and makes the medium equal to it;
* `fillBuf_ok`: a `fillBuf` that returns `Ok` keeps the view, leaves the block under the cursor in
  the buffer, and returns the view from the cursor to the end of that block;
* `readLoop_ok`, `writeLoop_ok`: by induction over the bytes, what `read` and `write` return and
  leave.
Only successful calls are described here; failing ones are in `FatDrive.BufScsiFault`.
-/

namespace FatDrive.OffsetScsiDevice

open Lib

variable {σ : Type}

/-- The byte address under the cursor. -/
def pos (d : OffsetScsiDevice σ) : ℕ := d.partitionStart + d.partitionIdx

/-- The medium with the buffered block laid over it. -/
def view (m : ScsiCrate σ) (medium : σ → ℕ → UInt8) (d : OffsetScsiDevice σ) : ℕ → UInt8 :=
  patch (medium d.device) (m.blockSize * d.loadedBlockNumber) d.blockBuffer.inner

/-- The cache invariant: the buffer holds nothing or one whole block of the medium, and what is not
marked for flushing is the medium's. -/
structure Coherent (m : ScsiCrate σ) (M : ℕ) (medium : σ → ℕ → UInt8) (d : OffsetScsiDevice σ) :
    Prop where
  cap : d.blockBuffer.fakeSize = m.blockSize
  full : d.blockBuffer.inner ≠ [] → d.blockBuffer.inner.length = m.blockSize ∧
    m.blockSize * d.loadedBlockNumber + m.blockSize ≤ M
  pending : d.needsFlush = true → m.blockSize * d.loadedBlockNumber + m.blockSize ≤ M
  clean : d.needsFlush = false → view m medium d = medium d.device

/-- `d'` is coherent, shows the bytes `d` shows and has its cursor. -/
structure Keeps (m : ScsiCrate σ) (M : ℕ) (medium : σ → ℕ → UInt8) (d d' : OffsetScsiDevice σ) :
    Prop where
  coherent : Coherent m M medium d'
  view_eq : view m medium d' = view m medium d
  start_eq : d'.partitionStart = d.partitionStart
  idx_eq : d'.partitionIdx = d.partitionIdx

variable {m : ScsiCrate σ} {M : ℕ} {medium : σ → ℕ → UInt8} {d d₁ d' : OffsetScsiDevice σ}

theorem Keeps.refl (hc : Coherent m M medium d) : Keeps m M medium d d := ⟨hc, rfl, rfl, rfl⟩

theorem Keeps.trans (h₁ : Keeps m M medium d d₁) (h₂ : Keeps m M medium d₁ d') :
    Keeps m M medium d d' :=
  ⟨h₂.coherent, h₂.view_eq.trans h₁.view_eq, h₂.start_eq.trans h₁.start_eq,
    h₂.idx_eq.trans h₁.idx_eq⟩

theorem Keeps.pos_eq (h : Keeps m M medium d d') : d'.pos = d.pos := by
  unfold pos
  rw [h.start_eq, h.idx_eq]

theorem view_of_empty (h : d.blockBuffer.inner = []) : view m medium d = medium d.device := by
  unfold view
  rw [h, patch_nil]

theorem coherent_new (st : σ) (start : ℕ) : Coherent m M medium (new m st start) where
  cap := rfl
  full := fun h => absurd rfl h
  pending := nofun
  clean := fun _ => view_of_empty rfl

@[simp] theorem view_new (st : σ) (start : ℕ) : view m medium (new m st start) = medium st :=
  view_of_empty rfl

/-! ### The block under the cursor -/

/-- The cursor is less than a block from the start of its block, wherever it is. -/
theorem offsetFromCurBlock_lt (h0 : 0 < m.blockSize) (d : OffsetScsiDevice σ) :
    d.offsetFromCurBlock m < m.blockSize := by
  have hraw : d.rawIdx < 2 ^ 64 := Nat.mod_lt _ (Nat.two_pow_pos 64)
  have hle : d.rawIdx % m.blockSize ≤ d.rawIdx := Nat.mod_le _ _
  have hlt : d.rawIdx % m.blockSize < m.blockSize := Nat.mod_lt _ h0
  have hcur : d.curBlockRawIdx m = d.rawIdx - d.rawIdx % m.blockSize := usizeSub_of_le hraw hle
  unfold offsetFromCurBlock
  rw [hcur, usizeSub_of_le hraw (Nat.sub_le _ _)]
  omega

/-- With a whole block in the buffer the slice from the cursor on is in range. -/
theorem rest_eq (h0 : 0 < m.blockSize) (hlen : d.blockBuffer.inner.length = m.blockSize) :
    d.rest m = .ok (d.blockBuffer.inner.drop (d.offsetFromCurBlock m)) d := by
  have hlt := offsetFromCurBlock_lt h0 d
  exact if_pos (by omega)

/-- What a store in range leaves: the device as it was, or with another byte under the cursor. -/
theorem storeByte_cases {byte : UInt8} (h : d.storeByte m byte = some d') :
    d' = d ∨ ∃ old, d.blockBuffer.inner[d.offsetFromCurBlock m]? = some old ∧ old ≠ byte ∧
      d' = { d with
        blockBuffer := { d.blockBuffer with
          inner := d.blockBuffer.inner.set (d.offsetFromCurBlock m) byte }
        needsFlush := true } := by
  unfold storeByte at h
  dsimp only at h
  split at h
  · simp at h
  · next old hold =>
    split at h
    · next hne =>
      simp only [Option.some.injEq] at h
      exact Or.inr ⟨old, hold, hne, h.symm⟩
    · simp only [Option.some.injEq] at h
      exact Or.inl h.symm

/-! ### Addresses: inside the medium nothing wraps and nothing is truncated -/

section Addresses

variable (hm : FlatMedium m M medium)
include hm

theorem block_le {p : ℕ} (h : p < M) : m.blockSize * (p / m.blockSize) + m.blockSize ≤ M := by
  obtain ⟨k, hk⟩ := hm.blockSize_dvd
  have hlt : p / m.blockSize < k := by
    rw [Nat.div_lt_iff_lt_mul hm.blockSize_pos, Nat.mul_comm, ← hk]
    exact h
  calc m.blockSize * (p / m.blockSize) + m.blockSize
      = m.blockSize * (p / m.blockSize + 1) := (Nat.mul_succ _ _).symm
    _ ≤ m.blockSize * k := Nat.mul_le_mul_left _ hlt
    _ = M := hk.symm

theorem rawIdx_eq (h : d.pos < M) : d.rawIdx = d.pos := by
  have := hm.size_le
  exact usizeAdd_of_lt (by unfold pos at h; omega)

theorem curBlockRawIdx_eq (h : d.pos < M) :
    d.curBlockRawIdx m = m.blockSize * (d.pos / m.blockSize) := by
  have h64 : d.pos < 2 ^ 64 := by have := hm.size_le; omega
  have hd := Nat.div_add_mod d.pos m.blockSize
  unfold curBlockRawIdx
  rw [rawIdx_eq hm h, usizeSub_of_le h64 (Nat.mod_le _ _)]
  omega

theorem curBlockNumber_eq (h : d.pos < M) : d.curBlockNumber m = d.pos / m.blockSize := by
  unfold curBlockNumber
  rw [curBlockRawIdx_eq hm h, Nat.mul_div_cancel_left _ hm.blockSize_pos]

theorem offsetFromCurBlock_eq (h : d.pos < M) : d.offsetFromCurBlock m = d.pos % m.blockSize := by
  have h64 : d.pos < 2 ^ 64 := by have := hm.size_le; omega
  have hd := Nat.div_add_mod d.pos m.blockSize
  unfold offsetFromCurBlock
  rw [rawIdx_eq hm h, curBlockRawIdx_eq hm h, usizeSub_of_le h64 (by omega)]
  omega

theorem asU32_block {n : ℕ} (h : m.blockSize * n + m.blockSize ≤ M) :
    asU32 (m.blockSize * n) = m.blockSize * n := by
  have := hm.size_le
  have := hm.blockSize_pos
  exact asU32_of_lt (by omega)

theorem bufferedBlock_eq (h : m.blockSize * d.loadedBlockNumber + m.blockSize ≤ M) :
    asU32 (d.bufferedBlockRawIdx m) = m.blockSize * d.loadedBlockNumber := by
  have := hm.size_le
  have := hm.blockSize_pos
  unfold bufferedBlockRawIdx
  rw [usizeMul_of_lt (by omega), asU32_block hm h]

end Addresses

/-! ### `flush` -/

/-- What a flush that returns `Ok` has done. -/
theorem flush_eq_ok (h : d.flush m = .ok () d') :
    (d.needsFlush = false ∧ d' = d) ∨
    (d.needsFlush = true ∧ ∃ n buf st,
      m.write d.device (asU32 (d.bufferedBlockRawIdx m)) d.blockBuffer = (.ok n, buf, st) ∧
      d' = { d with device := st, blockBuffer := buf, needsFlush := false }) := by
  unfold flush at h
  split at h
  · next hn =>
    split at h
    · next n buf st hw =>
      cases h
      exact Or.inr ⟨hn, n, buf, st, hw, rfl⟩
    · cases h
  · next hn =>
    cases h
    exact Or.inl ⟨by simpa using hn, rfl⟩

/-- **A flush that returns `Ok`** keeps what is shown, and the medium now holds it. -/
theorem flush_ok (hm : FlatMedium m M medium) (hc : Coherent m M medium d)
    (h : d.flush m = .ok () d') :
    Keeps m M medium d d' ∧ medium d'.device = view m medium d ∧ d'.needsFlush = false ∧
      d'.loadedBlockNumber = d.loadedBlockNumber := by
  rcases flush_eq_ok h with ⟨hn, rfl⟩ | ⟨hn, n, buf, st, hw, rfl⟩
  · exact ⟨.refl hc, (hc.clean hn).symm, hn, rfl⟩
  · have hin := hc.pending hn
    rw [bufferedBlock_eq hm hin] at hw
    have hlen : d.blockBuffer.inner.length ≤ m.blockSize := by
      by_cases h0 : d.blockBuffer.inner = []
      · simp [h0]
      · exact Nat.le_of_eq (hc.full h0).1
    obtain ⟨rfl, hmed⟩ := hm.write_ok (Nat.dvd_mul_right _ _) (by omega) hw
    -- the buffer is drained, so what is shown is the medium, and that is the old view
    exact ⟨⟨⟨hc.cap, fun h0 => absurd rfl h0, nofun, fun _ => view_of_empty rfl⟩,
      (view_of_empty rfl).trans hmed, rfl, rfl⟩, hmed, rfl, rfl⟩

/-! ### `fill_buf` -/

theorem clearBuffer_eq (hm : BufferLaws m) :
    d.clearBuffer m = .ok () { d with blockBuffer := d.blockBuffer.drained } := by
  obtain ⟨n, hn⟩ := hm.clear_eq d.blockBuffer
  unfold clearBuffer
  rw [hn]

/-- After eviction the buffer is empty or holds the block under the cursor. -/
theorem evict_ok (hm : FlatMedium m M medium) (hc : Coherent m M medium d) (hpos : d.pos < M)
    (h : d.evict m = .ok () d') :
    Keeps m M medium d d' ∧
      (d'.blockBuffer.inner = [] ∧ d'.needsFlush = false ∨
        d'.loadedBlockNumber = d.pos / m.blockSize) := by
  unfold evict at h
  rw [curBlockNumber_eq hm hpos] at h
  split at h
  · obtain ⟨_, d₁, hf, hcl⟩ := Outcome.andThen_eq_ok.mp h
    obtain ⟨hk, -, hn, hl⟩ := flush_ok hm hc hf
    rw [clearBuffer_eq hm.toBufferLaws] at hcl
    cases hcl
    -- nothing is pending after the flush, so emptying the buffer shows the same bytes
    have hview : view m medium { d₁ with blockBuffer := d₁.blockBuffer.drained } =
        view m medium d₁ := (view_of_empty rfl).trans (hk.coherent.clean hn).symm
    refine ⟨hk.trans ⟨⟨hk.coherent.cap, fun h0 => absurd rfl h0, ?_, fun _ => view_of_empty rfl⟩,
      hview, rfl, rfl⟩, Or.inl ⟨rfl, hn⟩⟩
    intro hp
    exact absurd (hp.symm.trans hn) (by decide)
  · next heq =>
    cases h
    exact ⟨.refl hc, Or.inr (by simpa using Eq.symm (not_not.mp heq))⟩

/-- After loading the buffer holds the block under the cursor. -/
theorem load_ok (hm : FlatMedium m M medium) (hc : Coherent m M medium d) (hpos : d.pos < M)
    (hb : d.blockBuffer.inner = [] ∧ d.needsFlush = false ∨
      d.loadedBlockNumber = d.pos / m.blockSize)
    (h : d.load m = .ok () d') :
    Keeps m M medium d d' ∧ d'.loadedBlockNumber = d.pos / m.blockSize ∧
      d'.blockBuffer.inner =
        slice (view m medium d) (m.blockSize * (d.pos / m.blockSize)) m.blockSize ∧
      d'.needsFlush = d.needsFlush := by
  have hle := block_le hm hpos
  unfold load at h
  rw [curBlockNumber_eq hm hpos, curBlockRawIdx_eq hm hpos, asU32_block hm hle,
    hm.isEmpty_eq] at h
  dsimp only at h
  by_cases h0 : d.blockBuffer.inner = []
  · rw [h0, List.isEmpty_nil, if_pos rfl] at h
    split at h
    · next n buf st hr =>
      cases h
      obtain ⟨rfl, hmed⟩ := hm.read_ok (Nat.dvd_mul_right _ _) hle h0 hc.cap hr
      have hshow : view m medium d = medium d.device := view_of_empty h0
      refine ⟨⟨⟨hc.cap, fun _ => ⟨length_slice _ _ _, hle⟩, fun _ => hle, fun _ => ?_⟩, ?_, rfl,
        rfl⟩, rfl, by rw [hshow], rfl⟩
      · simp only [view, hmed, patch_slice_self]
      · rw [hshow]
        simp only [view, hmed, patch_slice_self]
    · cases h
  · have hne : d.blockBuffer.inner.isEmpty = false := by simpa using h0
    rw [hne, if_neg (by decide)] at h
    cases h
    have hl : d.loadedBlockNumber = d.pos / m.blockSize := hb.resolve_left (fun hb => h0 hb.1)
    refine ⟨.refl hc, hl, ?_, rfl⟩
    have hlen := (hc.full h0).1
    rw [← hl, ← hlen]
    simp only [view, hlen]
    rw [← hlen, slice_patch_self]

/-- **A `fillBuf` that returns `Ok`**: nothing shown has changed, the buffer holds the block under
the cursor, and the slice runs from the cursor to the end of that block. -/
theorem fillBuf_ok (hm : FlatMedium m M medium) (hc : Coherent m M medium d) (hpos : d.pos < M)
    {bytes : List UInt8} (h : d.fillBuf m = .ok bytes d') :
    Keeps m M medium d d' ∧ d'.loadedBlockNumber = d.pos / m.blockSize ∧
      d'.blockBuffer.inner =
        slice (view m medium d) (m.blockSize * (d.pos / m.blockSize)) m.blockSize ∧
      bytes = slice (view m medium d) d.pos (m.blockSize - d.pos % m.blockSize) := by
  obtain ⟨_, d₁, he, h⟩ := Outcome.andThen_eq_ok.mp h
  obtain ⟨_, d₂, hl, h⟩ := Outcome.andThen_eq_ok.mp h
  obtain ⟨hk₁, hb⟩ := evict_ok hm hc hpos he
  rw [← hk₁.pos_eq] at hb
  obtain ⟨hk₂, hnum, hbuf, -⟩ := load_ok hm hk₁.coherent (by rw [hk₁.pos_eq]; exact hpos) hb hl
  have hk := hk₁.trans hk₂
  have hpos₂ : d₂.pos < M := by rw [hk.pos_eq]; exact hpos
  rw [hk₁.pos_eq] at hnum hbuf
  rw [hk₁.view_eq] at hbuf
  unfold rest at h
  rw [offsetFromCurBlock_eq hm hpos₂, hk.pos_eq] at h
  split at h
  · cases h
    refine ⟨hk, hnum, hbuf, ?_⟩
    rw [hbuf, drop_slice, Nat.div_add_mod]
  · cases h

/-! ### The cursor -/

/-- Moving the cursor keeps the cache coherent and what it shows. -/
theorem Coherent.moved (hc : Coherent m M medium d) (n : ℕ) :
    Coherent m M medium { d with partitionIdx := n } :=
  ⟨hc.cap, hc.full, hc.pending, hc.clean⟩

@[simp] theorem view_consume (n : ℕ) : view m medium (d.consume n) = view m medium d := rfl

@[simp] theorem partitionStart_consume (n : ℕ) :
    (d.consume n).partitionStart = d.partitionStart := rfl

theorem partitionIdx_consume {n : ℕ} (h : d.pos + n < 2 ^ 64) :
    (d.consume n).partitionIdx = d.partitionIdx + n :=
  usizeAdd_of_lt (by unfold pos at h; omega)

theorem pos_consume {n : ℕ} (h : d.pos + n < 2 ^ 64) : (d.consume n).pos = d.pos + n := by
  unfold pos
  rw [partitionIdx_consume h, partitionStart_consume, Nat.add_assoc]

/-! ### `read` -/

/-- **A `read` that returns `Ok`** inside the medium fills the whole buffer with the bytes shown
from the cursor on, and moves the cursor behind them. -/
theorem readLoop_ok (hm : FlatMedium m M medium) :
    ∀ (cells : List UInt8) (i n : ℕ) (d d' : OffsetScsiDevice σ), Coherent m M medium d →
      d.pos + cells.length ≤ M → (readLoop m cells i d).2 = .ok n d' →
      (readLoop m cells i d).1 = slice (view m medium d) d.pos cells.length ∧
        n = i + cells.length ∧ Coherent m M medium d' ∧ view m medium d' = view m medium d ∧
        d'.partitionStart = d.partitionStart ∧ d'.partitionIdx = d.partitionIdx + cells.length
  | [], i, n, d, d', hc, _, h => by
    cases h
    exact ⟨rfl, rfl, hc, rfl, rfl, rfl⟩
  | cell :: cells, i, n, d, d', hc, hin, h => by
    simp only [List.length_cons] at hin
    have hM := hm.size_le
    have hpos : d.pos < M := by omega
    have hmod := Nat.mod_lt d.pos hm.blockSize_pos
    rw [readLoop] at h ⊢
    cases hf : d.fillBuf m with
    | err e d₁ => rw [hf] at h; cases h
    | panicked d₁ => rw [hf] at h; cases h
    | ok bytes d₁ =>
      obtain ⟨hk, -, -, hbytes⟩ := fillBuf_ok hm hc hpos hf
      -- the slice is not empty, its first byte is the one under the cursor
      rw [show m.blockSize - d.pos % m.blockSize = (m.blockSize - d.pos % m.blockSize - 1) + 1 by
        omega, slice_succ] at hbytes
      subst hbytes
      rw [hf] at h
      dsimp only at h ⊢
      have hp : d₁.pos + 1 < 2 ^ 64 := by rw [hk.pos_eq]; omega
      obtain ⟨h1, h2, h3, h4, h5, h6⟩ := readLoop_ok hm cells (i + 1) n (d₁.consume 1) d'
        (hk.coherent.moved _) (by rw [pos_consume hp, hk.pos_eq]; omega) h
      rw [pos_consume hp, view_consume, hk.view_eq, hk.pos_eq] at h1
      rw [partitionIdx_consume hp, hk.idx_eq] at h6
      refine ⟨?_, by simp only [List.length_cons]; omega, h3, ?_, ?_,
        by simp only [List.length_cons]; omega⟩
      · rw [h1, List.length_cons, slice_succ]
      · rw [h4, view_consume, hk.view_eq]
      · rw [h5, partitionStart_consume, hk.start_eq]

/-! ### `write` -/

/-- Storing a byte under the cursor, in the block just filled, sets that byte of what is shown. -/
theorem storeByte_spec (hm : FlatMedium m M medium) (hc : Coherent m M medium d) (hpos : d.pos < M)
    (hnum : d.loadedBlockNumber = d.pos / m.blockSize)
    (hlen : d.blockBuffer.inner.length = m.blockSize) (byte : UInt8) :
    ∃ d₁, d.storeByte m byte = some d₁ ∧ Coherent m M medium d₁ ∧
      view m medium d₁ = Function.update (view m medium d) d.pos byte ∧
      d₁.partitionStart = d.partitionStart ∧ d₁.partitionIdx = d.partitionIdx := by
  have hmod := Nat.mod_lt d.pos hm.blockSize_pos
  have hdm := Nat.div_add_mod d.pos m.blockSize
  have hi : d.pos % m.blockSize < d.blockBuffer.inner.length := by omega
  have hin := block_le hm hpos
  unfold storeByte
  rw [offsetFromCurBlock_eq hm hpos]
  dsimp only
  rw [List.getElem?_eq_getElem hi]
  dsimp only
  by_cases hb : d.blockBuffer.inner[d.pos % m.blockSize] = byte
  · -- nothing to store: the byte is shown already
    refine ⟨d, by rw [if_neg (not_not.mpr hb)], hc, ?_, rfl, rfl⟩
    have hshown : view m medium d d.pos = byte := by
      refine patch_of_mem (by rw [hnum]; omega) ?_
      rw [hnum, show d.pos - m.blockSize * (d.pos / m.blockSize) = d.pos % m.blockSize by omega,
        List.getElem?_eq_getElem hi, hb]
    rw [← hshown, Function.update_eq_self]
  · refine ⟨_, if_pos hb, ⟨hc.cap, fun _ => ?_, fun _ => ?_, nofun⟩, ?_, rfl, rfl⟩
    · exact ⟨by simpa using hlen, by rw [hnum]; exact hin⟩
    · dsimp only
      rw [hnum]
      exact hin
    · simp only [view]
      rw [patch_set _ _ _ _ hi, hnum, hdm]

/-- **A `write` that returns `Ok`** inside the medium stores all its bytes from the cursor on and
moves the cursor behind them. -/
theorem writeLoop_ok (hm : FlatMedium m M medium) :
    ∀ (bytes : List UInt8) (i n : ℕ) (d d' : OffsetScsiDevice σ), Coherent m M medium d →
      d.pos + bytes.length ≤ M → writeLoop m bytes i d = .ok n d' →
      n = i + bytes.length ∧ Coherent m M medium d' ∧
        view m medium d' = patch (view m medium d) d.pos bytes ∧
        d'.partitionStart = d.partitionStart ∧ d'.partitionIdx = d.partitionIdx + bytes.length
  | [], i, n, d, d', hc, _, h => by
    cases h
    exact ⟨rfl, hc, (patch_nil _ _).symm, rfl, rfl⟩
  | byte :: bytes, i, n, d, d', hc, hin, h => by
    simp only [List.length_cons] at hin
    have hM := hm.size_le
    have hpos : d.pos < M := by omega
    rw [writeLoop] at h
    obtain ⟨_, d₁, hf, h⟩ := Outcome.andThen_eq_ok.mp h
    obtain ⟨hk, hnum, hbuf, -⟩ := fillBuf_ok hm hc hpos hf
    have hlen : d₁.blockBuffer.inner.length = m.blockSize := by rw [hbuf, length_slice]
    have hne : m.isEmpty d₁.blockBuffer = false := by
      have := hm.blockSize_pos
      rw [hm.isEmpty_eq, List.isEmpty_eq_false_iff, ← List.length_pos_iff]
      omega
    obtain ⟨d₂, hs, hc₂, hv₂, hst₂, hid₂⟩ := storeByte_spec hm hk.coherent
      (by rw [hk.pos_eq]; exact hpos) (by rw [hk.pos_eq]; exact hnum) hlen byte
    rw [if_neg (by simp [hne]), hs] at h
    dsimp only at h
    have hp₂ : d₂.pos = d.pos := by
      unfold pos
      rw [hst₂, hid₂, hk.start_eq, hk.idx_eq]
    have hp : d₂.pos + 1 < 2 ^ 64 := by omega
    obtain ⟨h2, h3, h4, h5, h6⟩ := writeLoop_ok hm bytes (i + 1) n (d₂.consume 1) d'
      (hc₂.moved _) (by rw [pos_consume hp]; omega) h
    rw [pos_consume hp, view_consume, hp₂, hv₂, hk.pos_eq, hk.view_eq] at h4
    rw [partitionIdx_consume hp, hid₂, hk.idx_eq] at h6
    refine ⟨by simp only [List.length_cons]; omega, h3, ?_, ?_,
      by simp only [List.length_cons]; omega⟩
    · rw [h4, patch_cons]
    · rw [h5, partitionStart_consume, hst₂, hk.start_eq]

end FatDrive.OffsetScsiDevice
