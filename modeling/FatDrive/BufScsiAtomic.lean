import FatDrive.BufScsiLost
import FatDrive.BufScsiTear

/-!
# FatDrive.BufScsiAtomic — what a `read` or `write` that returns `Err` has done

Both loops advance the cursor byte by byte and leave through `?` at whichever `fillBuf` fails.

* `readLoop_err`, `writeLoop_err`: the bytes before that `fillBuf` have been consumed, so the cursor
  is where it was exactly if the first one failed;
* `read_shown`: `view` is what later reads return, in every state that runs reach, torn blocks
  included;
* `fillBuf_err_view`: a `fillBuf` that fails keeps it exactly if the transfer that failed left the
  block of the buffer as it was (`Spares`);
* `failed_call_untouched_iff`: the two together.
-/

namespace FatDrive.OffsetScsiDevice

open Lib

variable {σ : Type} {m : ScsiCrate σ} {M : ℕ} {medium : σ → ℕ → UInt8} {start : ℕ}
  {d d₁ d' : OffsetScsiDevice σ} {e : IoError}

/-- No byte has been consumed or stored: same cursor, same bytes shown. -/
def Untouched (m : ScsiCrate σ) (medium : σ → ℕ → UInt8) (d d' : OffsetScsiDevice σ) : Prop :=
  d'.partitionIdx = d.partitionIdx ∧ view m medium d' = view m medium d

/-- With `buf` over `bytes`, the block the buffer of `d` stands for is the one shown now. -/
def Spared (m : ScsiCrate σ) (medium : σ → ℕ → UInt8) (d : OffsetScsiDevice σ) (bytes : ℕ → UInt8)
    (buf : List UInt8) : Prop :=
  (if buf = [] then slice bytes (m.blockSize * d.loadedBlockNumber) m.blockSize else buf) =
    slice (view m medium d) (m.blockSize * d.loadedBlockNumber) m.blockSize

/-- A transfer of the next `fillBuf` that fails, be it the write-back or the read of the block under
the cursor, spares the block the buffer stands for. -/
def Spares (m : ScsiCrate σ) (medium : σ → ℕ → UInt8) (d : OffsetScsiDevice σ) : Prop :=
  match d.evict m with
  | .ok _ d₁ =>
    match m.read d₁.device (asU32 (d₁.curBlockRawIdx m)) d₁.blockBuffer with
    | (.error _, buf, _) => d.Spared m medium (medium d₁.device) buf.inner
    | (.ok _, _, _) => True
  | .err _ d₁ => d.Spared m medium (medium d.device) d₁.blockBuffer.inner
  | .panicked _ => True

/-- The buffer a `read` fills or a `write` stores. -/
def Op.request : Op → Option (List UInt8)
  | .read outputBuf => some outputBuf
  | .write toWrite => some toWrite
  | _ => none

/-! ### The cursor -/

/-- The `fillBuf` of byte `j` of a request failed with `e`, and `d'` is what it left. -/
structure FailedAt (m : ScsiCrate σ) (d : OffsetScsiDevice σ) (j : ℕ) (e : IoError)
    (d' : OffsetScsiDevice σ) : Prop where
  cursor : d'.partitionIdx = (d.partitionIdx + j) % 2 ^ 64
  first : j = 0 → d.fillBuf m = .err e d'
  later : 0 < j → (d.fillBuf m).isErr = false

theorem FailedAt.zero (h64 : d.partitionIdx < 2 ^ 64) (hf : d.fillBuf m = .err e d') :
    FailedAt m d 0 e d' := by
  have hcur := fillBuf_cursor (m := m) d
  rw [hf] at hcur
  exact ⟨hcur.2.trans (Nat.mod_eq_of_lt h64).symm, fun _ => hf, fun h => absurd h (by simp)⟩

/-- One more byte before it. -/
theorem FailedAt.succ {j : ℕ} (hf : (d.fillBuf m).isErr = false) (hcur : SameCursor d d₁)
    (h : FailedAt m (d₁.consume 1) j e d') : FailedAt m d (j + 1) e d' := by
  refine ⟨?_, fun h0 => absurd h0 (by simp), fun _ => hf⟩
  have hidx : (d₁.consume 1).partitionIdx = (d.partitionIdx + 1) % 2 ^ 64 := by
    rw [← hcur.2]
    rfl
  rw [h.cursor, hidx]
  omega

theorem consume_idx_lt (d : OffsetScsiDevice σ) (n : ℕ) : (d.consume n).partitionIdx < 2 ^ 64 :=
  Nat.mod_lt _ (by decide)

theorem readLoop_err : ∀ (cells : List UInt8) (i : ℕ) (d : OffsetScsiDevice σ),
    d.partitionIdx < 2 ^ 64 → (readLoop m cells i d).2 = .err e d' →
    ∃ j, j < cells.length ∧ FailedAt m d j e d'
  | [], i, d, _, h => by cases h
  | cell :: cells, i, d, h64, h => by
    have hcur := fillBuf_cursor (m := m) d
    rw [readLoop] at h
    cases hf : d.fillBuf m with
    | err e₁ d₁ =>
      rw [hf] at h
      cases h
      exact ⟨0, by simp, .zero h64 hf⟩
    | panicked d₁ => rw [hf] at h; cases h
    | ok bytes d₁ =>
      rw [hf] at h hcur
      cases bytes with
      | nil => cases h
      | cons byte bytes =>
        obtain ⟨j, hj, hat⟩ := readLoop_err cells (i + 1) (d₁.consume 1) (consume_idx_lt _ _) h
        exact ⟨j + 1, by simpa using hj, hat.succ (by rw [hf]; rfl) hcur⟩

theorem writeLoop_err : ∀ (bytes : List UInt8) (i : ℕ) (d : OffsetScsiDevice σ),
    d.partitionIdx < 2 ^ 64 → writeLoop m bytes i d = .err e d' →
    ∃ j, j < bytes.length ∧ FailedAt m d j e d'
  | [], i, d, _, h => by cases h
  | byte :: bytes, i, d, h64, h => by
    have hcur := fillBuf_cursor (m := m) d
    rw [writeLoop] at h
    cases hf : d.fillBuf m with
    | err e₁ d₁ =>
      rw [hf] at h
      cases h
      exact ⟨0, by simp, .zero h64 hf⟩
    | panicked d₁ => rw [hf] at h; cases h
    | ok slc d₁ =>
      rw [hf, Outcome.andThen_ok] at h
      rw [hf] at hcur
      split at h
      · cases h
      · cases hs : d₁.storeByte m byte with
        | none => rw [hs] at h; cases h
        | some d₂ =>
          rw [hs] at h
          obtain ⟨j, hj, hat⟩ := writeLoop_err bytes (i + 1) (d₂.consume 1) (consume_idx_lt _ _) h
          exact ⟨j + 1, by simpa using hj,
            hat.succ (by rw [hf]; rfl) (hcur.trans (storeByte_cursor hs))⟩

/-- A `read` or `write` that returns `Err` has failed at one of its bytes. -/
theorem exec_err {op : Op} {request : List UInt8} (hop : op.request = some request)
    (h64 : d.partitionIdx < 2 ^ 64) (h : d.exec m op = .err e d') :
    ∃ j, j < request.length ∧ FailedAt m d j e d' := by
  cases op with
  | read buf =>
    cases hop
    rw [exec] at h
    cases hr : (d.read m request).2 with
    | ok n d₁ => rw [hr] at h; cases h
    | panicked d₁ => rw [hr] at h; cases h
    | err e₁ d₁ =>
      rw [hr] at h
      cases h
      exact readLoop_err request 0 d h64 hr
  | write toWrite =>
    cases hop
    rw [exec] at h
    cases hw : d.write m request with
    | ok n d₁ => rw [hw] at h; cases h
    | panicked d₁ => rw [hw] at h; cases h
    | err e₁ d₁ =>
      rw [hw] at h
      cases h
      exact writeLoop_err request 0 d h64 hw
  | _ => cases hop

/-- The cursor is where it was exactly if the first `fillBuf` failed. -/
theorem FailedAt.cursor_eq_iff {j n : ℕ} (hj : j < n) (hn : n < 2 ^ 64)
    (h64 : d.partitionIdx < 2 ^ 64) (h : FailedAt m d j e d') :
    d'.partitionIdx = d.partitionIdx ↔ (d.fillBuf m).isErr = true := by
  rcases Nat.eq_zero_or_pos j with rfl | hpos
  · have hf := h.first rfl
    rw [hf, h.cursor, Nat.add_zero, Nat.mod_eq_of_lt h64]
    exact iff_of_true rfl rfl
  · have hf := h.later hpos
    refine iff_of_false (fun heq => ?_) (by simp [hf])
    have := h.cursor
    omega

/-! ### The bytes shown -/

/-- Outside the block of the buffer the medium is shown. -/
theorem view_outside (hlen : d.blockBuffer.inner.length ≤ m.blockSize) {x : ℕ}
    (hx : x < m.blockSize * d.loadedBlockNumber ∨
      m.blockSize * d.loadedBlockNumber + m.blockSize ≤ x) :
    view m medium d x = medium d.device x := by
  rcases hx with hx | hx
  · exact patch_of_lt hx
  · exact patch_of_ge (by omega)

/-- An address in another block is outside the block of the buffer. -/
theorem outside_of_ne (h0 : 0 < m.blockSize) {x n : ℕ} (h : n ≠ x / m.blockSize) :
    x < m.blockSize * n ∨ m.blockSize * n + m.blockSize ≤ x := by
  rcases Nat.lt_or_gt_of_ne h with hlt | hgt
  · right
    calc m.blockSize * n + m.blockSize = m.blockSize * (n + 1) := (Nat.mul_succ _ _).symm
      _ ≤ m.blockSize * (x / m.blockSize) := Nat.mul_le_mul_left _ hlt
      _ ≤ x := Nat.mul_div_le _ _
  · left
    rw [Nat.mul_comm]
    exact (Nat.div_lt_iff_lt_mul h0).mp hgt

/-- What is shown can differ in the block of the buffer only. -/
theorem view_eq_iff_spared (hl : d'.loadedBlockNumber = d.loadedBlockNumber)
    (hlen : d'.blockBuffer.inner ≠ [] → d'.blockBuffer.inner.length = m.blockSize)
    (hout : ∀ x, x < m.blockSize * d.loadedBlockNumber ∨
      m.blockSize * d.loadedBlockNumber + m.blockSize ≤ x →
      medium d'.device x = view m medium d x) :
    view m medium d' = view m medium d ↔
      d.Spared m medium (medium d'.device) d'.blockBuffer.inner := by
  have hle : d'.blockBuffer.inner.length ≤ m.blockSize := by
    by_cases h0 : d'.blockBuffer.inner = []
    · simp [h0]
    · exact Nat.le_of_eq (hlen h0)
  have hslice : slice (view m medium d') (m.blockSize * d.loadedBlockNumber) m.blockSize =
      if d'.blockBuffer.inner = [] then
        slice (medium d'.device) (m.blockSize * d.loadedBlockNumber) m.blockSize
      else d'.blockBuffer.inner := by
    split
    · next h0 => rw [view_of_empty h0]
    · next h0 =>
      have hself := slice_patch_self (medium d'.device) (m.blockSize * d.loadedBlockNumber)
        d'.blockBuffer.inner
      rw [hlen h0] at hself
      unfold view
      rw [hl]
      exact hself
  unfold Spared
  rw [← hslice]
  constructor
  · intro h
    rw [h]
  · intro h
    funext x
    by_cases hx : m.blockSize * d.loadedBlockNumber ≤ x ∧
        x < m.blockSize * d.loadedBlockNumber + m.blockSize
    · -- inside, both are the byte of that place in the block
      have hi : x - m.blockSize * d.loadedBlockNumber < m.blockSize := by omega
      have hget := congrArg (·[x - m.blockSize * d.loadedBlockNumber]?) h
      simp only [getElem?_slice _ _ hi, Option.some.injEq] at hget
      rwa [Nat.add_sub_cancel' hx.1] at hget
    · have hx' : x < m.blockSize * d.loadedBlockNumber ∨
          m.blockSize * d.loadedBlockNumber + m.blockSize ≤ x := by omega
      rw [← hout x hx']
      exact view_outside hle (by rw [hl]; exact hx')

section Faulty

variable (hm : FaultyMedium m M medium)
include hm

/-- Once the first part of `fillBuf` is through, the medium is what was shown, but for the block it
may have given up. -/
theorem evict_shown (hs : Shape m M start d) (hpos : d.pos < M) (h : d.evict m = .ok () d₁) :
    d₁.loadedBlockNumber = d.loadedBlockNumber ∧
      (d₁ = d ∧ d.loadedBlockNumber = d.pos / m.blockSize ∨
        d₁.blockBuffer.inner = [] ∧ d.loadedBlockNumber ≠ d.pos / m.blockSize) ∧
      ∀ x, x < m.blockSize * d.loadedBlockNumber ∨
        m.blockSize * d.loadedBlockNumber + m.blockSize ≤ x →
        medium d₁.device x = view m medium d x := by
  by_cases hb : d.loadedBlockNumber = d.pos / m.blockSize
  · have he : d.evict m = .ok () d := by
      unfold evict
      rw [curBlockNumber_eq hm.toFlatMedium hpos, if_neg (not_not.mpr hb.symm)]
    rw [he] at h
    cases h
    exact ⟨rfl, Or.inl ⟨rfl, hb⟩, fun x hx => (view_outside hs.length_le hx).symm⟩
  · rcases evict_cases hm hs hpos with ⟨hl, -⟩ | ⟨st, hmed, he⟩ | ⟨-, buf, st, -, -, he⟩
    · exact absurd hl hb
    · rw [he] at h
      cases h
      refine ⟨rfl, Or.inr ⟨rfl, hb⟩, fun x hx => ?_⟩
      rcases hmed with ⟨-, hmed⟩ | hmed
      · exact (congrFun hmed x).trans (view_outside hs.length_le hx).symm
      · rw [hmed]
    · rw [he] at h
      cases h

/-- **A `fillBuf` that fails** leaves what is shown exactly if the transfer that failed spared the
block of the buffer. -/
theorem fillBuf_err_view (hs : Shape m M start d) (hpos : d.pos < M)
    (h : d.fillBuf m = .err e d') :
    view m medium d' = view m medium d ↔ d.Spares m medium := by
  unfold Spares
  cases he : d.evict m with
  | panicked d₁ => rw [fillBuf, he] at h; cases h
  | err e₁ d₁ =>
    rw [fillBuf, he] at h
    cases h
    dsimp only
    rcases evict_cases hm hs hpos with ⟨-, he'⟩ | ⟨st, -, he'⟩ | ⟨-, buf, st, hmed, hbuf, he'⟩ <;>
      rw [he'] at he <;> cases he
    rw [← hmed]
    refine view_eq_iff_spared rfl ?_ fun x hx => ?_
    · rcases hbuf with rfl | rfl
      · exact hs.length
      · exact fun h0 => absurd rfl h0
    · exact (congrFun hmed x).trans (view_outside hs.length_le hx).symm
  | ok u d₁ =>
    obtain ⟨hl₁, -, hout⟩ := evict_shown hm hs hpos he
    obtain ⟨hs₁, hp₁, -⟩ := evict_block hm hs hpos he
    rw [fillBuf, he, Outcome.andThen_ok] at h
    dsimp only
    rcases load_cases hm hs₁ (by omega) with
      ⟨-, hl⟩ | ⟨-, n, buf, st, -, -, -, hl⟩ | ⟨h0, e₂, buf, st, hmed, hr, hbuf, hl⟩
    · rw [hl, Outcome.andThen_ok] at h
      unfold rest at h
      split at h <;> cases h
    · rw [hl, Outcome.andThen_ok] at h
      unfold rest at h
      split at h <;> cases h
    · rw [hl] at h
      cases h
      rw [hr]
      dsimp only
      rw [← hmed]
      refine view_eq_iff_spared hl₁ ?_ fun x hx => ?_
      · rcases hbuf with rfl | rfl
        · exact hs₁.length
        · exact fun _ => length_slice _ _ _
      · exact (congrFun hmed x).trans (hout x hx)

/-- **A `fillBuf` that returns `Ok`** begins with the byte shown under the cursor. -/
theorem fillBuf_head (hs : Shape m M start d) (hpos : d.pos < M) {b : UInt8} {bytes : List UInt8}
    (h : d.fillBuf m = .ok (b :: bytes) d') : b = view m medium d d.pos := by
  obtain ⟨_, d₁, he, h⟩ := Outcome.andThen_eq_ok.mp h
  obtain ⟨_, d₂, hl, h⟩ := Outcome.andThen_eq_ok.mp h
  obtain ⟨-, hor, hout⟩ := evict_shown hm hs hpos he
  obtain ⟨hs₁, hp₁, -⟩ := evict_block hm hs hpos he
  have hmod := Nat.mod_lt d.pos hm.blockSize_pos
  have hdm := Nat.div_add_mod d.pos m.blockSize
  have hcur := load_cursor (m := m) d₁
  rw [hl, Outcome.state_ok] at hcur
  have hp₂ : d₂.pos = d.pos := hcur.pos_eq.trans hp₁
  -- the slice begins at the cursor
  have hget : d₂.blockBuffer.inner[d.pos % m.blockSize]? = some b := by
    unfold rest at h
    rw [offsetFromCurBlock_eq hm.toFlatMedium (by omega), hp₂] at h
    split at h
    · have hdrop : d₂.blockBuffer.inner.drop (d.pos % m.blockSize) = b :: bytes := by
        injection h
      have h0 := congrArg (·[0]?) hdrop
      rwa [List.getElem?_drop, Nat.add_zero, List.getElem?_cons_zero] at h0
    · cases h
  -- a block loaded is the medium's, which is shown here
  have hloaded : medium d₁.device d.pos = view m medium d d.pos →
      d₂.blockBuffer.inner =
        slice (medium d₁.device) (m.blockSize * (d₁.pos / m.blockSize)) m.blockSize →
      b = view m medium d d.pos := by
    intro hshown hbuf
    rw [hbuf, getElem?_slice _ _ hmod, hp₁, hdm, hshown] at hget
    exact (Option.some.inj hget).symm
  rcases load_cases hm hs₁ (by omega) with
    ⟨h0, hl'⟩ | ⟨h0, n, buf, st, -, -, hbuf, hl'⟩ | ⟨-, e₂, buf, st, -, -, -, hl'⟩ <;>
    rw [hl'] at hl <;> cases hl
  · rcases hor with ⟨rfl, hnum⟩ | ⟨hempty, -⟩
    · -- the buffer holds the block under the cursor
      refine (patch_of_mem (by rw [hnum]; omega) ?_).symm
      rw [hnum, show d₁.pos - m.blockSize * (d₁.pos / m.blockSize) = d₁.pos % m.blockSize by omega]
      exact hget
    · exact absurd hempty h0
  · refine hloaded ?_ (congrArg VecNewtype.inner hbuf)
    rcases hor with ⟨rfl, -⟩ | ⟨-, hne⟩
    · rw [view_of_empty h0]
    · exact hout d.pos (outside_of_ne hm.blockSize_pos hne)

/-- **What later reads return**: the byte shown at their position. -/
theorem read_shown (hs : Shape m M start d) {x : ℕ} (hx : start + x < M) {cell b : UInt8}
    (h : ({ d with partitionIdx := x } : OffsetScsiDevice σ).read m [cell] = ([b], .ok 1 d')) :
    b = view m medium d (start + x) := by
  have hM := hm.size_le
  have hs' := hs.moved (n := x) (by omega)
  have hp : ({ d with partitionIdx := x } : OffsetScsiDevice σ).pos = start + x := by
    unfold pos
    rw [hs.start_eq]
  rw [read, readLoop] at h
  cases hf : ({ d with partitionIdx := x } : OffsetScsiDevice σ).fillBuf m with
  | err e₁ d₁ => rw [hf] at h; cases h
  | panicked d₁ => rw [hf] at h; cases h
  | ok bytes d₁ =>
    rw [hf] at h
    cases bytes with
    | nil => cases h
    | cons byte bytes =>
      simp only [readLoop, Prod.mk.injEq, List.cons.injEq, and_true] at h
      have hhead := fillBuf_head hm hs' (by omega) hf
      rw [hp] at hhead
      rw [← h.1]
      exact hhead

end Faulty

/-- **A `read` or `write` that returns `Err`**, of any length and in any state, has left the cursor
where it was exactly if the `fillBuf` of its first byte failed.  In every state that runs inside the
medium reach, whatever failed in them, reads return what is shown, and the call has left both the
cursor and what is shown exactly if, besides, the transfer that failed spared the block of the
buffer. -/
theorem failed_call_untouched_iff {op : Op} {request : List UInt8} (hop : op.request = some request)
    (hlen : request.length < 2 ^ 64) (h64 : d.partitionIdx < 2 ^ 64)
    (h : d.exec m op = .err e d') :
    (d'.partitionIdx = d.partitionIdx ↔ (d.fillBuf m).isErr = true) ∧
    ∀ (M : ℕ) (medium : σ → ℕ → UInt8) (st : σ) (start : ℕ) (ls : List Label),
      FaultyMedium m M medium → Run (InsideStep m M) (new m st start) ls d → d.pos < M →
      (∀ x cell b d₁, start + x < M →
        ({ d with partitionIdx := x } : OffsetScsiDevice σ).read m [cell] = ([b], .ok 1 d₁) →
        b = view m medium d (start + x)) ∧
      (Untouched m medium d d' ↔ (d.fillBuf m).isErr = true ∧ d.Spares m medium) := by
  obtain ⟨j, hj, hat⟩ := exec_err hop h64 h
  have hcur := hat.cursor_eq_iff hj hlen h64
  refine ⟨hcur, fun M medium st start ls hm hrun hpos => ?_⟩
  have hs := run_shape hm hrun
  refine ⟨fun x cell b d₁ hx hr => read_shown hm hs hx hr, ?_⟩
  unfold Untouched
  rw [hcur]
  refine and_congr_right fun hf => ?_
  -- the first `fillBuf` failed, so the state left is the one it left
  have hj0 : j = 0 := by
    rcases Nat.eq_zero_or_pos j with h0 | hp
    · exact h0
    · exact absurd (hat.later hp) (by simp [hf])
  exact fillBuf_err_view hm hs hpos (hat.first hj0)

/-- The read of the first block fails in its command phase: nothing has happened. -/
theorem failed_call_untouched_first :
    ((faultyDisk [.early]).exec (scriptedDisk 2) (.read [0, 0, 0])).isErr = true ∧
    Untouched (scriptedDisk 2) ScriptedDisk.bytes (faultyDisk [.early])
      ((faultyDisk [.early]).exec (scriptedDisk 2) (.read [0, 0, 0])).state := by
  have hm : FaultyMedium (scriptedDisk 2) 4 ScriptedDisk.bytes :=
    scriptedDisk_faultyMedium (by decide) (by decide) (by decide)
  have h : (faultyDisk [.early]).exec (scriptedDisk 2) (.read [0, 0, 0]) =
    .err ⟨.other, some (.unmatched .parseError)⟩
      ((faultyDisk [.early]).exec (scriptedDisk 2) (.read [0, 0, 0])).state := rfl
  exact ⟨rfl, ((failed_call_untouched_iff rfl (by decide) (by decide) h).2 4 ScriptedDisk.bytes _ 0
    [] hm (.nil _) (by decide)).2.mpr ⟨rfl, rfl⟩⟩

/-- **A request over two blocks.**  The second block cannot be read: `read` and `write` return `Err`,
with the two bytes of the first consumed, and stored. -/
theorem half_done :
    ((faultyDisk [.none, .early]).exec (scriptedDisk 2) (.read [0, 0, 0])).isErr = true ∧
    ((faultyDisk [.none, .early]).exec (scriptedDisk 2) (.read [0, 0, 0])).state.partitionIdx = 2 ∧
    ((faultyDisk [.none, .none, .early]).exec (scriptedDisk 2) (.write [9, 9, 9])).isErr = true ∧
    ((faultyDisk [.none, .none, .early]).exec (scriptedDisk 2)
      (.write [9, 9, 9])).state.partitionIdx = 2 ∧
    view (scriptedDisk 2) ScriptedDisk.bytes ((faultyDisk [.none, .none, .early]).exec
      (scriptedDisk 2) (.write [9, 9, 9])).state 0 ≠
      view (scriptedDisk 2) ScriptedDisk.bytes (faultyDisk [.none, .none, .early]) 0 := by
  decide

end FatDrive.OffsetScsiDevice
