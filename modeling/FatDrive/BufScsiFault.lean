import FatDrive.BufScsiInvariant

/-!
# FatDrive.BufScsiFault — the cache over a device whose transfers fail

* `flush_cases`, `evict_cases`, `load_cases`: all that `flush` and the two parts of `fillBuf` can do
  over a faulty medium;
* `Shape`: what every state has, whatever the transfers do: the buffer holds nothing or one whole
  block, and the number recorded for it is that of a block of the medium;
* `fillBuf_shape`, `shape_kept`: every call keeps it, failing ones included.
-/

namespace FatDrive.OffsetScsiDevice

open Lib

variable {σ : Type} {m : ScsiCrate σ} {M : ℕ} {medium : σ → ℕ → UInt8} {start : ℕ}
  {d d₁ d' : OffsetScsiDevice σ}

/-- What every state has, whatever the transfers do. -/
structure Shape (m : ScsiCrate σ) (M start : ℕ) (d : OffsetScsiDevice σ) : Prop where
  cap : d.blockBuffer.fakeSize = m.blockSize
  length : d.blockBuffer.inner ≠ [] → d.blockBuffer.inner.length = m.blockSize
  loaded_in : 0 < M → m.blockSize * d.loadedBlockNumber + m.blockSize ≤ M
  touched : d.blockBuffer.inner ≠ [] ∨ d.needsFlush = true → 0 < M
  reach : d.needsFlush = true → start < m.blockSize * d.loadedBlockNumber + m.blockSize
  start_eq : d.partitionStart = start
  cursor_lt : d.partitionIdx < 2 ^ 64

theorem Shape.pending (hs : Shape m M start d) (hn : d.needsFlush = true) :
    m.blockSize * d.loadedBlockNumber + m.blockSize ≤ M :=
  hs.loaded_in (hs.touched (Or.inr hn))

theorem Shape.length_le (hs : Shape m M start d) : d.blockBuffer.inner.length ≤ m.blockSize := by
  by_cases h0 : d.blockBuffer.inner = []
  · simp [h0]
  · exact Nat.le_of_eq (hs.length h0)

theorem Shape.start_le (hs : Shape m M start d) : start ≤ d.pos := by
  unfold pos
  rw [hs.start_eq]
  exact Nat.le_add_right _ _

/-! ### What the parts of a call can do -/

section Cases

variable (hm : FaultyMedium m M medium)
include hm

/-- All that a flush can do: nothing, write the block back, or fail with the block kept or lost. -/
theorem flush_cases (hs : Shape m M start d) :
    (d.needsFlush = false ∧ d.flush m = .ok () d) ∨
    (d.needsFlush = true ∧ ∃ st, medium st = view m medium d ∧ d.flush m =
      .ok () { d with device := st, blockBuffer := d.blockBuffer.drained, needsFlush := false }) ∨
    (d.needsFlush = true ∧ ∃ buf st, medium st = medium d.device ∧
      (buf = d.blockBuffer ∨ buf = d.blockBuffer.drained) ∧
      d.flush m = .err ⟨.other, none⟩ { d with device := st, blockBuffer := buf }) := by
  unfold flush
  by_cases hn : d.needsFlush = true
  · have hin := hs.pending hn
    have hlen := hs.length_le
    rw [if_pos hn, bufferedBlock_eq hm.toFlatMedium hin]
    rcases hw : m.write d.device (m.blockSize * d.loadedBlockNumber) d.blockBuffer with
      ⟨res, buf, st⟩
    cases res with
    | ok n =>
      obtain ⟨rfl, hmed⟩ := hm.write_ok (Nat.dvd_mul_right _ _) (by omega) hw
      exact Or.inr (Or.inl ⟨hn, st, hmed, rfl⟩)
    | error e =>
      obtain ⟨hbuf, hmed⟩ := hm.write_err hw
      exact Or.inr (Or.inr ⟨hn, buf, st, hmed, hbuf, rfl⟩)
  · rw [if_neg hn]
    exact Or.inl ⟨by simpa using hn, rfl⟩

/-- All that the first part of `fillBuf` can do: nothing in the block of the cursor; elsewhere give
the block up, written back if it had to be, or fail as a flush does. -/
theorem evict_cases (hs : Shape m M start d) (hpos : d.pos < M) :
    (d.loadedBlockNumber = d.pos / m.blockSize ∧ d.evict m = .ok () d) ∨
    (∃ st, (d.needsFlush = false ∧ medium st = medium d.device ∨ medium st = view m medium d) ∧
      d.evict m =
      .ok () { d with device := st, blockBuffer := d.blockBuffer.drained, needsFlush := false }) ∨
    (d.needsFlush = true ∧ ∃ buf st, medium st = medium d.device ∧
      (buf = d.blockBuffer ∨ buf = d.blockBuffer.drained) ∧
      d.evict m = .err ⟨.other, none⟩ { d with device := st, blockBuffer := buf }) := by
  unfold evict
  rw [curBlockNumber_eq hm.toFlatMedium hpos]
  by_cases hb : d.pos / m.blockSize = d.loadedBlockNumber
  · rw [if_neg (not_not.mpr hb)]
    exact Or.inl ⟨hb.symm, rfl⟩
  · rw [if_pos hb]
    rcases flush_cases hm hs with ⟨hn, hf⟩ | ⟨-, st, hmed, hf⟩ | ⟨hn, buf, st, hmed, hbuf, hf⟩
    · refine Or.inr (Or.inl ⟨d.device, Or.inl ⟨hn, rfl⟩, ?_⟩)
      rw [hf, Outcome.andThen_ok, clearBuffer_eq hm.toBufferLaws, ← hn]
    · refine Or.inr (Or.inl ⟨st, Or.inr hmed, ?_⟩)
      rw [hf, Outcome.andThen_ok, clearBuffer_eq hm.toBufferLaws]
      rfl
    · refine Or.inr (Or.inr ⟨hn, buf, st, hmed, hbuf, ?_⟩)
      rw [hf, Outcome.andThen_err]

/-- All that the second part of `fillBuf` can do: keep a buffer that holds something, fill an empty
one and record the number of its block, or fail, with the block appended or not. -/
theorem load_cases (hs : Shape m M start d) (hpos : d.pos < M) :
    (d.blockBuffer.inner ≠ [] ∧ d.load m = .ok () d) ∨
    (d.blockBuffer.inner = [] ∧ ∃ n buf st, medium st = medium d.device ∧
      m.read d.device (asU32 (d.curBlockRawIdx m)) d.blockBuffer = (.ok n, buf, st) ∧
      buf = { d.blockBuffer with
        inner := slice (medium d.device) (m.blockSize * (d.pos / m.blockSize)) m.blockSize } ∧
      d.load m = .ok () { d with
        device := st
        blockBuffer := buf
        loadedBlockNumber := d.pos / m.blockSize }) ∨
    (d.blockBuffer.inner = [] ∧ ∃ e buf st, medium st = medium d.device ∧
      m.read d.device (asU32 (d.curBlockRawIdx m)) d.blockBuffer = (.error e, buf, st) ∧
      (buf = d.blockBuffer ∨ buf = { d.blockBuffer with
        inner := slice (medium d.device) (m.blockSize * (d.pos / m.blockSize)) m.blockSize }) ∧
      d.load m = .err (readError e.cause) { d with device := st, blockBuffer := buf }) := by
  have hle := block_le hm.toFlatMedium hpos
  unfold load
  rw [curBlockNumber_eq hm.toFlatMedium hpos, curBlockRawIdx_eq hm.toFlatMedium hpos,
    asU32_block hm.toFlatMedium hle, hm.isEmpty_eq]
  dsimp only
  by_cases h0 : d.blockBuffer.inner = []
  · rw [h0, List.isEmpty_nil, if_pos rfl]
    rcases hr : m.read d.device (m.blockSize * (d.pos / m.blockSize)) d.blockBuffer with
      ⟨res, buf, st⟩
    cases res with
    | ok n =>
      obtain ⟨rfl, hmed⟩ := hm.read_ok (Nat.dvd_mul_right _ _) hle h0 hs.cap hr
      exact Or.inr (Or.inl ⟨rfl, n, _, st, hmed, rfl, rfl, rfl⟩)
    | error e =>
      obtain ⟨hbuf, hmed⟩ := hm.read_err (Nat.dvd_mul_right _ _) hle h0 hs.cap hr
      exact Or.inr (Or.inr ⟨rfl, e, buf, st, hmed, rfl, hbuf, rfl⟩)
  · rw [if_neg (by simpa using h0)]
    exact Or.inl ⟨h0, rfl⟩

end Cases

/-! ### `Shape` is kept -/

/-- The block given up, written back or not. -/
theorem Shape.givenUp (hs : Shape m M start d) (st : σ) : Shape m M start
    { d with device := st, blockBuffer := d.blockBuffer.drained, needsFlush := false } where
  cap := hs.cap
  length := fun h => absurd rfl h
  loaded_in := hs.loaded_in
  touched := by
    rintro (h | h)
    · exact absurd rfl h
    · cases h
  reach := nofun
  start_eq := hs.start_eq
  cursor_lt := hs.cursor_lt

/-- A flush that failed. -/
theorem Shape.flushFailed (hs : Shape m M start d) (hn : d.needsFlush = true) (st : σ)
    {buf : VecNewtype} (hbuf : buf = d.blockBuffer ∨ buf = d.blockBuffer.drained) :
    Shape m M start { d with device := st, blockBuffer := buf } where
  cap := by rcases hbuf with rfl | rfl <;> exact hs.cap
  length := by
    rcases hbuf with rfl | rfl
    · exact hs.length
    · exact fun h => absurd rfl h
  loaded_in := hs.loaded_in
  touched := fun _ => hs.touched (Or.inr hn)
  reach := hs.reach
  start_eq := hs.start_eq
  cursor_lt := hs.cursor_lt

theorem Shape.moved (hs : Shape m M start d) {n : ℕ} (hn : n < 2 ^ 64) :
    Shape m M start { d with partitionIdx := n } :=
  ⟨hs.cap, hs.length, hs.loaded_in, hs.touched, hs.reach, hs.start_eq, hn⟩

theorem Shape.consumed (hs : Shape m M start d) (n : ℕ) : Shape m M start (d.consume n) :=
  hs.moved (Nat.mod_lt _ (by decide))

section ShapeKept

variable (hm : FaultyMedium m M medium)
include hm

theorem shape_new (st : σ) : Shape m M start (new m st start) where
  cap := rfl
  length := fun h => absurd rfl h
  loaded_in := fun h0 => by
    have h := block_le hm.toFlatMedium h0
    rwa [Nat.zero_div] at h
  touched := by
    rintro (h | h)
    · exact absurd rfl h
    · cases h
  reach := nofun
  start_eq := rfl
  cursor_lt := Nat.two_pow_pos 64

theorem flush_shape (hs : Shape m M start d) : Shape m M start (d.flush m).state := by
  rcases flush_cases hm hs with ⟨-, hf⟩ | ⟨-, st, -, hf⟩ | ⟨hn, buf, st, -, hbuf, hf⟩ <;> rw [hf]
  · exact hs
  · exact hs.givenUp st
  · exact hs.flushFailed hn st hbuf

theorem evict_shape (hs : Shape m M start d) (hpos : d.pos < M) :
    Shape m M start (d.evict m).state := by
  rcases evict_cases hm hs hpos with ⟨-, he⟩ | ⟨st, -, he⟩ | ⟨hn, buf, st, -, hbuf, he⟩ <;> rw [he]
  · exact hs
  · exact hs.givenUp st
  · exact hs.flushFailed hn st hbuf

theorem load_shape (hs : Shape m M start d) (hpos : d.pos < M) :
    Shape m M start (d.load m).state := by
  have hM : 0 < M := by omega
  rcases load_cases hm hs hpos with
    ⟨-, hl⟩ | ⟨-, n, buf, st, -, -, rfl, hl⟩ | ⟨h0, e, buf, st, -, -, hbuf, hl⟩ <;> rw [hl]
  · exact hs
  · refine ⟨hs.cap, fun _ => length_slice _ _ _, fun _ => block_le hm.toFlatMedium hpos,
      fun _ => hM, fun _ => ?_, hs.start_eq, hs.cursor_lt⟩
    -- the cursor is in the partition, and in the block
    have hlt := Nat.lt_mul_div_succ d.pos hm.blockSize_pos
    have := hs.start_le
    dsimp only [Outcome.state_ok]
    rw [Nat.mul_add, Nat.mul_one] at hlt
    omega
  · rcases hbuf with rfl | rfl
    · exact ⟨hs.cap, hs.length, hs.loaded_in, fun _ => hM, hs.reach, hs.start_eq, hs.cursor_lt⟩
    · exact ⟨hs.cap, fun _ => length_slice _ _ _, hs.loaded_in, fun _ => hM, hs.reach, hs.start_eq,
        hs.cursor_lt⟩

/-- After the first part of `fillBuf` the buffer is empty with nothing pending, or it is the one of
the block of the cursor. -/
theorem evict_block (hs : Shape m M start d) (hpos : d.pos < M) (h : d.evict m = .ok () d') :
    Shape m M start d' ∧ d'.pos = d.pos ∧
      (d'.blockBuffer.inner = [] ∧ d'.needsFlush = false ∨
        d'.loadedBlockNumber = d.pos / m.blockSize) := by
  have hshape := evict_shape hm hs hpos
  have hcur := evict_cursor (m := m) d
  rw [h] at hshape hcur
  refine ⟨hshape, hcur.pos_eq, ?_⟩
  rcases evict_cases hm hs hpos with ⟨hl, he⟩ | ⟨st, -, he⟩ | ⟨-, buf, st, -, -, he⟩ <;>
    rw [he] at h <;> cases h
  · exact Or.inr hl
  · exact Or.inl ⟨rfl, rfl⟩

/-- **`fillBuf` keeps the shape**, and where it returns `Ok` the buffer holds one whole block, under
the number of the block of the cursor. -/
theorem fillBuf_shape (hs : Shape m M start d) (hpos : d.pos < M) :
    Shape m M start (d.fillBuf m).state ∧ ∀ bytes d', d.fillBuf m = .ok bytes d' →
      d'.loadedBlockNumber = d.pos / m.blockSize ∧ d'.blockBuffer.inner.length = m.blockSize := by
  constructor
  · refine Outcome.andThen_state (evict_shape hm hs hpos) (fun _ d₁ he => ?_)
    obtain ⟨hs₁, hp₁, -⟩ := evict_block hm hs hpos he
    refine Outcome.andThen_state (load_shape hm hs₁ (by omega)) (fun _ d₂ hl => ?_)
    have hs₂ := load_shape hm hs₁ (by omega)
    rw [hl] at hs₂
    rw [rest_state]
    exact hs₂
  · intro bytes d' h
    obtain ⟨_, d₁, he, h⟩ := Outcome.andThen_eq_ok.mp h
    obtain ⟨_, d₂, hl, h⟩ := Outcome.andThen_eq_ok.mp h
    have hd : d₂ = d' := by
      have := rest_state (m := m) d₂
      rw [h] at this
      exact this.symm
    subst hd
    obtain ⟨hs₁, hp₁, hb⟩ := evict_block hm hs hpos he
    rcases load_cases hm hs₁ (by omega) with
      ⟨h0, hl'⟩ | ⟨-, n, buf, st, -, -, rfl, hl'⟩ | ⟨-, e, buf, st, -, -, -, hl'⟩ <;>
      rw [hl'] at hl <;> cases hl
    · exact ⟨hb.resolve_left (fun hb => h0 hb.1), hs₁.length h0⟩
    · exact ⟨by rw [← hp₁], length_slice _ _ _⟩

theorem storeByte_shape (hs : Shape m M start d) (hpos : d.pos < M)
    (hnum : d.loadedBlockNumber = d.pos / m.blockSize) {byte : UInt8}
    (h : d.storeByte m byte = some d') : Shape m M start d' := by
  have hM : 0 < M := by omega
  rcases storeByte_cases h with rfl | ⟨old, hold, -, rfl⟩
  · exact hs
  · refine ⟨hs.cap, fun h0 => ?_, hs.loaded_in, fun _ => hM, fun _ => ?_, hs.start_eq, hs.cursor_lt⟩
    · have hne : d.blockBuffer.inner ≠ [] := by
        intro hnil
        simp [hnil] at hold
      simpa using hs.length hne
    · have hlt := Nat.lt_mul_div_succ d.pos hm.blockSize_pos
      have := hs.start_le
      dsimp only
      rw [Nat.mul_add, Nat.mul_one, ← hnum] at hlt
      omega

/-- Every call keeps the shape. -/
theorem shape_kept (C : OffsetScsiDevice σ → Prop) (B : ℕ → UInt8 → Prop) :
    Kept m M C B (Shape m M start) where
  fill := fun _ hs hpos _ => (fillBuf_shape hm hs hpos).1
  store := by
    intro d bytes d₁ byte d₂ hs hpos _ hf _ hst
    have hs₁ := (fillBuf_shape hm hs hpos).1
    have hcur := fillBuf_cursor (m := m) d
    obtain ⟨hnum, -⟩ := (fillBuf_shape hm hs hpos).2 bytes d₁ hf
    rw [hf, Outcome.state_ok] at hs₁ hcur
    have hp : d₁.pos = d.pos := hcur.pos_eq
    exact storeByte_shape hm hs₁ (by omega) (by rw [hp]; exact hnum) hst
  moved := fun _ _ hn hs => hs.moved hn
  flush := fun _ hs => flush_shape hm hs

end ShapeKept

end FatDrive.OffsetScsiDevice
