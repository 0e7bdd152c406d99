import FatDrive.ScriptedDisk
import FatDrive.BufScsiCache

/-!
# FatDrive.BufScsiFaultFree — `OffsetScsiDevice` over a device that has no faults

On a medium whose transfers succeed (`FaultFreeMedium`), a device that is `Healthy` (coherent, and
with something in the buffer where it is marked for flushing) stays so, and no call inside the
medium fails.

* `read_faultFree`: a read fills its buffer with the bytes shown from the cursor on;
* `write_faultFree`: a write lays its bytes over what is shown;
* `flush_faultFree`: after a flush the medium holds what is shown.
-/

namespace FatDrive

open Lib

variable {σ : Type}

/-- A flat medium that has no faults: transfers of whole blocks succeed. -/
structure FaultFreeMedium (m : ScsiCrate σ) (M : ℕ) (medium : σ → ℕ → UInt8) : Prop extends
    FlatMedium m M medium where
  read_isOk : ∀ st {a b}, m.blockSize ∣ a → a + m.blockSize ≤ M → b.inner = [] →
    b.fakeSize = m.blockSize → ∃ n b' st', m.read st a b = (.ok n, b', st')
  write_isOk : ∀ st {a b}, m.blockSize ∣ a → a + m.blockSize ≤ M →
    b.inner.length = m.blockSize → ∃ n b' st', m.write st a b = (.ok n, b', st')

/-- A disk that has no faults; its state is its content. -/
def flatDisk (bs : ℕ) : ScsiCrate (ℕ → UInt8) where
  blockSize := bs
  read := fun st a b =>
    (.ok (b.capacity - b.size), { b with inner := b.inner ++ slice st a (b.capacity - b.size) }, st)
  write := fun st a b => (.ok b.size, b.drained, patch st a b.inner)
  isEmpty := fun b => b.inner.isEmpty
  clear := fun b => (.ok b.size, b.drained)

theorem flatDisk_faultFree {bs M : ℕ} (h0 : 0 < bs) (hd : bs ∣ M) (hM : M ≤ 2 ^ 32) :
    FaultFreeMedium (flatDisk bs) M id where
  blockSize_pos := h0
  blockSize_dvd := hd
  size_le := hM
  isEmpty_eq := fun _ => rfl
  clear_eq := fun b => ⟨b.size, rfl⟩
  read_ok := by
    intro st a b n b' st' _ _ hb hc h
    have hroom : b.capacity - b.size = bs := by
      simp [VecNewtype.size, VecNewtype.capacity, hb, hc, flatDisk]
    cases h
    simp [hroom, hb, flatDisk]
  write_ok := by
    intro st a b n b' st' _ _ h
    cases h
    exact ⟨rfl, rfl⟩
  read_isOk := fun _ _ _ _ _ _ _ => ⟨_, _, _, rfl⟩
  write_isOk := fun _ _ _ _ _ _ => ⟨_, _, _, rfl⟩

namespace OffsetScsiDevice

/-- Coherent, and something is buffered where a flush is pending. -/
structure Healthy (m : ScsiCrate σ) (M : ℕ) (medium : σ → ℕ → UInt8) (d : OffsetScsiDevice σ) :
    Prop extends Coherent m M medium d where
  loaded : d.needsFlush = true → d.blockBuffer.inner ≠ []

variable {m : ScsiCrate σ} {M : ℕ} {medium : σ → ℕ → UInt8} {d : OffsetScsiDevice σ}

theorem healthy_new (st : σ) (start : ℕ) : Healthy m M medium (new m st start) where
  toCoherent := coherent_new st start
  loaded := nofun

theorem Healthy.moved (h : Healthy m M medium d) (n : ℕ) :
    Healthy m M medium { d with partitionIdx := n } :=
  ⟨h.toCoherent.moved n, h.loaded⟩

variable (hm : FaultFreeMedium m M medium)
include hm

theorem flush_isOk (h : Healthy m M medium d) :
    ∃ d', d.flush m = .ok () d' ∧ Healthy m M medium d' := by
  obtain ⟨d', hf⟩ : ∃ d', d.flush m = .ok () d' := by
    unfold flush
    split
    · next hn =>
      obtain ⟨hlen, hin⟩ := h.full (h.loaded hn)
      obtain ⟨n, buf, st, hw⟩ := hm.write_isOk d.device (Nat.dvd_mul_right _ _) hin hlen
      rw [bufferedBlock_eq hm.toFlatMedium hin, hw]
      exact ⟨_, rfl⟩
    · exact ⟨d, rfl⟩
  obtain ⟨hk, -, hn, -⟩ := flush_ok hm.toFlatMedium h.toCoherent hf
  exact ⟨d', hf, hk.coherent, fun hp => absurd (hp.symm.trans hn) (by decide)⟩

theorem evict_isOk (h : Healthy m M medium d) (hpos : d.pos < M) :
    ∃ d', d.evict m = .ok () d' ∧ Healthy m M medium d' := by
  by_cases hb : d.curBlockNumber m ≠ d.loadedBlockNumber
  · obtain ⟨d₁, hf, -⟩ := flush_isOk hm h
    obtain ⟨-, -, hn, -⟩ := flush_ok hm.toFlatMedium h.toCoherent hf
    have he : d.evict m = .ok () { d₁ with blockBuffer := d₁.blockBuffer.drained } := by
      rw [evict, if_pos hb, hf, Outcome.andThen_ok, clearBuffer_eq hm.toBufferLaws]
    refine ⟨_, he, (evict_ok hm.toFlatMedium h.toCoherent hpos he).1.coherent, ?_⟩
    intro hp
    exact absurd (hp.symm.trans hn) (by decide)
  · exact ⟨d, if_neg hb, h⟩

theorem load_isOk (h : Healthy m M medium d) (hpos : d.pos < M)
    (hb : d.blockBuffer.inner = [] ∧ d.needsFlush = false ∨
      d.loadedBlockNumber = d.pos / m.blockSize) :
    ∃ d', d.load m = .ok () d' ∧ Healthy m M medium d' := by
  obtain ⟨d', hl⟩ : ∃ d', d.load m = .ok () d' := by
    have hle := block_le hm.toFlatMedium hpos
    unfold load
    rw [curBlockRawIdx_eq hm.toFlatMedium hpos, asU32_block hm.toFlatMedium hle, hm.isEmpty_eq]
    dsimp only
    split
    · next h0 =>
      obtain ⟨n, buf, st, hr⟩ := hm.read_isOk d.device (Nat.dvd_mul_right _ _) hle
        (List.isEmpty_iff.mp h0) h.cap
      rw [hr]
      exact ⟨_, rfl⟩
    · exact ⟨d, rfl⟩
  obtain ⟨hk, -, hbuf, -⟩ := load_ok hm.toFlatMedium h.toCoherent hpos hb hl
  refine ⟨d', hl, hk.coherent, fun _ h0 => ?_⟩
  -- a whole block is loaded
  have hlen := congrArg List.length hbuf
  have := hm.blockSize_pos
  rw [h0, length_slice, List.length_nil] at hlen
  omega

theorem fillBuf_isOk (h : Healthy m M medium d) (hpos : d.pos < M) :
    ∃ bytes d', d.fillBuf m = .ok bytes d' ∧ Healthy m M medium d' := by
  obtain ⟨d₁, he, h₁⟩ := evict_isOk hm h hpos
  obtain ⟨hk₁, hb⟩ := evict_ok hm.toFlatMedium h.toCoherent hpos he
  have hpos₁ : d₁.pos < M := by rw [hk₁.pos_eq]; exact hpos
  rw [← hk₁.pos_eq] at hb
  obtain ⟨d₂, hl, h₂⟩ := load_isOk hm h₁ hpos₁ hb
  obtain ⟨-, -, hbuf, -⟩ := load_ok hm.toFlatMedium h₁.toCoherent hpos₁ hb hl
  refine ⟨d₂.blockBuffer.inner.drop (d₂.offsetFromCurBlock m), d₂, ?_, h₂⟩
  rw [fillBuf, he, Outcome.andThen_ok, hl, Outcome.andThen_ok]
  exact rest_eq hm.blockSize_pos (by rw [hbuf, length_slice])

theorem readLoop_isOk : ∀ (cells : List UInt8) (i : ℕ) (d : OffsetScsiDevice σ),
    Healthy m M medium d → d.pos + cells.length ≤ M →
    ∃ n d', (readLoop m cells i d).2 = .ok n d' ∧ Healthy m M medium d'
  | [], i, d, h, _ => ⟨i, d, rfl, h⟩
  | cell :: cells, i, d, h, hin => by
    simp only [List.length_cons] at hin
    have hM := hm.size_le
    have hpos : d.pos < M := by omega
    obtain ⟨bytes, d₁, hf, h₁⟩ := fillBuf_isOk hm h hpos
    have hk := (fillBuf_ok hm.toFlatMedium h.toCoherent hpos hf).1
    rw [readLoop, hf]
    cases bytes with
    | nil => exact ⟨_, _, rfl, h₁⟩
    | cons byte bytes =>
      have hp : d₁.pos + 1 < 2 ^ 64 := by rw [hk.pos_eq]; omega
      exact readLoop_isOk cells (i + 1) (d₁.consume 1) (h₁.moved _)
        (by rw [pos_consume hp, hk.pos_eq]; omega)

theorem storeByte_healthy {d' : OffsetScsiDevice σ} {byte : UInt8} (h : Healthy m M medium d)
    (hpos : d.pos < M) (hnum : d.loadedBlockNumber = d.pos / m.blockSize)
    (hlen : d.blockBuffer.inner.length = m.blockSize) (hs : d.storeByte m byte = some d') :
    Healthy m M medium d' := by
  obtain ⟨d₁, hs₁, hc₁, -, -, -⟩ := storeByte_spec hm.toFlatMedium h.toCoherent hpos hnum hlen byte
  obtain rfl : d₁ = d' := Option.some.inj (hs₁.symm.trans hs)
  refine ⟨hc₁, fun _ h0 => ?_⟩
  -- storing keeps the length of the buffer
  have hlen₁ : d₁.blockBuffer.inner.length = d.blockBuffer.inner.length := by
    rcases storeByte_cases hs₁ with rfl | ⟨old, -, -, rfl⟩
    · rfl
    · exact List.length_set
  have := hm.blockSize_pos
  rw [h0, List.length_nil] at hlen₁
  omega

theorem writeLoop_isOk : ∀ (bytes : List UInt8) (i : ℕ) (d : OffsetScsiDevice σ),
    Healthy m M medium d → d.pos + bytes.length ≤ M →
    ∃ n d', writeLoop m bytes i d = .ok n d' ∧ Healthy m M medium d'
  | [], i, d, h, _ => ⟨i, d, rfl, h⟩
  | byte :: bytes, i, d, h, hin => by
    simp only [List.length_cons] at hin
    have hM := hm.size_le
    have hpos : d.pos < M := by omega
    obtain ⟨slc, d₁, hf, h₁⟩ := fillBuf_isOk hm h hpos
    obtain ⟨hk, hnum, hbuf, -⟩ := fillBuf_ok hm.toFlatMedium h.toCoherent hpos hf
    have hlen : d₁.blockBuffer.inner.length = m.blockSize := by rw [hbuf, length_slice]
    have hpos₁ : d₁.pos < M := by rw [hk.pos_eq]; exact hpos
    rw [← hk.pos_eq] at hnum
    obtain ⟨d₂, hs, -, -, hst, hid⟩ :=
      storeByte_spec hm.toFlatMedium h₁.toCoherent hpos₁ hnum hlen byte
    have h₂ := storeByte_healthy hm h₁ hpos₁ hnum hlen hs
    rw [writeLoop, hf, Outcome.andThen_ok]
    split
    · exact ⟨_, _, rfl, h₁⟩
    · rw [hs]
      have hp₂ : d₂.pos = d.pos := by
        unfold pos
        rw [hst, hid, hk.start_eq, hk.idx_eq]
      have hp : d₂.pos + 1 < 2 ^ 64 := by omega
      exact writeLoop_isOk bytes (i + 1) (d₂.consume 1) (h₂.moved _)
        (by rw [pos_consume hp]; omega)

/-! ### The three calls -/

theorem read_faultFree (h : Healthy m M medium d) {buf : List UInt8}
    (hin : d.pos + buf.length ≤ M) :
    ∃ d', d.read m buf = (slice (view m medium d) d.pos buf.length, .ok buf.length d') ∧
      Healthy m M medium d' ∧ view m medium d' = view m medium d ∧
      d'.partitionStart = d.partitionStart := by
  obtain ⟨n, d', hr, h'⟩ := readLoop_isOk hm buf 0 d h hin
  obtain ⟨h1, rfl, -, h4, h5, -⟩ := readLoop_ok hm.toFlatMedium buf 0 n d d' h.toCoherent hin hr
  refine ⟨d', Prod.ext h1 ?_, h', h4, h5⟩
  rw [read, hr, Nat.zero_add]

theorem write_faultFree (h : Healthy m M medium d) {toWrite : List UInt8}
    (hin : d.pos + toWrite.length ≤ M) :
    ∃ d', d.write m toWrite = .ok toWrite.length d' ∧ Healthy m M medium d' ∧
      view m medium d' = patch (view m medium d) d.pos toWrite ∧
      d'.partitionStart = d.partitionStart := by
  obtain ⟨n, d', hw, h'⟩ := writeLoop_isOk hm toWrite 0 d h hin
  obtain ⟨rfl, -, h4, h5, -⟩ := writeLoop_ok hm.toFlatMedium toWrite 0 n d d' h.toCoherent hin hw
  rw [Nat.zero_add] at hw
  exact ⟨d', hw, h', h4, h5⟩

theorem flush_faultFree (h : Healthy m M medium d) :
    ∃ d', d.flush m = .ok () d' ∧ Healthy m M medium d' ∧ view m medium d' = view m medium d ∧
      medium d'.device = view m medium d ∧ d'.partitionStart = d.partitionStart := by
  obtain ⟨d', hf, h'⟩ := flush_isOk hm h
  obtain ⟨hk, hmed, -, -⟩ := flush_ok hm.toFlatMedium h.toCoherent hf
  exact ⟨d', hf, h', hk.view_eq, hmed, hk.start_eq⟩

end OffsetScsiDevice

end FatDrive
