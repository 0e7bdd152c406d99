import FatDrive.BufScsiFault

/-!
# FatDrive.BufScsiTear — when a block is taken for another

`fill_buf` records the number of a block only after a `device.read` that succeeded, but a read that
fails may have appended the block to the buffer already.  The buffer then holds one block under the
number of another: `fillBuf` has torn it (`tears`).

* `fillBuf_clean`: a `fillBuf` that does not tear keeps the cache clean, and every byte it shows or
  has on the medium is one it showed or had there before;
* `fillBuf_torn`: one that tears leaves it unclean;
* `faulty_run_clean`: over lists of calls, with what reads return;
* `torn_read`: a torn block is read as another.
-/

namespace FatDrive.OffsetScsiDevice

open Lib

variable {σ : Type} {m : ScsiCrate σ} {M : ℕ} {medium : σ → ℕ → UInt8} {start : ℕ}
  {d d₁ d' d'' : OffsetScsiDevice σ}

/-- A buffered block not marked for flushing is the medium's block of its number. -/
def Clean (m : ScsiCrate σ) (medium : σ → ℕ → UInt8) (d : OffsetScsiDevice σ) : Prop :=
  d.blockBuffer.inner ≠ [] → d.needsFlush = false →
    d.blockBuffer.inner = slice (medium d.device) (m.blockSize * d.loadedBlockNumber) m.blockSize

/-- `device.read`, called now, appends a block and fails, and that block is not what the medium has
at the number the buffer keeps. -/
def tearsNow (m : ScsiCrate σ) (medium : σ → ℕ → UInt8) (d : OffsetScsiDevice σ) : Bool :=
  match m.read d.device (asU32 (d.curBlockRawIdx m)) d.blockBuffer with
  | (.error _, buf, _) =>
    d.blockBuffer.inner = [] ∧ buf.inner ≠ [] ∧
      buf.inner ≠ slice (medium d.device) (m.blockSize * d.loadedBlockNumber) m.blockSize
  | (.ok _, _, _) => false

/-- `fillBuf`, called now, would tear the block under the cursor. -/
def tears (m : ScsiCrate σ) (medium : σ → ℕ → UInt8) (d : OffsetScsiDevice σ) : Bool :=
  match d.evict m with
  | .ok _ d₁ => d₁.tearsNow m medium
  | _ => false

/-- No `fillBuf` of the call tears a block. -/
def NoTear (m : ScsiCrate σ) (medium : σ → ℕ → UInt8) (d : OffsetScsiDevice σ) (op : Op) : Prop :=
  ∀ d₁ ∈ fills m d op, d₁.tears m medium = false

instance (d : OffsetScsiDevice σ) (op : Op) : Decidable (NoTear m medium d op) :=
  inferInstanceAs (Decidable (∀ d₁ ∈ fills m d op, d₁.tears m medium = false))

/-! ### Clean states -/

theorem clean_of_empty (h : d.blockBuffer.inner = []) : Clean m medium d := fun h0 => absurd h h0

theorem clean_of_pending (h : d.needsFlush = true) : Clean m medium d := fun _ hn => by
  rw [h] at hn
  cases hn

theorem Shape.coherent (hs : Shape m M start d) (hc : Clean m medium d) :
    Coherent m M medium d where
  cap := hs.cap
  full := fun h => ⟨hs.length h, hs.loaded_in (hs.touched (Or.inl h))⟩
  pending := hs.pending
  clean := by
    intro hn
    by_cases h0 : d.blockBuffer.inner = []
    · exact view_of_empty h0
    · unfold view
      rw [hc h0 hn, patch_slice_self]

/-- Every byte `d'` shows, and every byte of its medium, is one `d` shows or has on its medium, at
the same address. -/
def Settles (m : ScsiCrate σ) (medium : σ → ℕ → UInt8) (d d' : OffsetScsiDevice σ) : Prop :=
  ∀ x, (view m medium d' x = view m medium d x ∨ view m medium d' x = medium d.device x) ∧
    (medium d'.device x = view m medium d x ∨ medium d'.device x = medium d.device x)

theorem Settles.refl (d : OffsetScsiDevice σ) : Settles m medium d d :=
  fun _ => ⟨Or.inl rfl, Or.inr rfl⟩

theorem Settles.trans (h₁ : Settles m medium d d') (h₂ : Settles m medium d' d'') :
    Settles m medium d d'' := by
  intro x
  obtain ⟨hv₁, hm₁⟩ := h₁ x
  obtain ⟨hv₂, hm₂⟩ := h₂ x
  constructor
  · rcases hv₂ with h | h <;> rw [h]
    · exact hv₁
    · exact hm₁
  · rcases hm₂ with h | h <;> rw [h]
    · exact hv₁
    · exact hm₁

/-- The buffer given up: the medium's bytes are shown. -/
theorem settles_of_empty (h0 : d'.blockBuffer.inner = [])
    (hmed : medium d'.device = view m medium d ∨ medium d'.device = medium d.device) :
    Settles m medium d d' := by
  intro x
  rw [view_of_empty h0]
  rcases hmed with h | h <;> rw [h]
  · exact ⟨Or.inl rfl, Or.inl rfl⟩
  · exact ⟨Or.inr rfl, Or.inr rfl⟩

/-- The same block over the same medium. -/
theorem settles_of_same (hb : d'.blockBuffer.inner = d.blockBuffer.inner)
    (hl : d'.loadedBlockNumber = d.loadedBlockNumber)
    (hmed : medium d'.device = medium d.device) : Settles m medium d d' := by
  have hv : view m medium d' = view m medium d := by
    unfold view
    rw [hb, hl, hmed]
  intro x
  rw [hv, hmed]
  exact ⟨Or.inl rfl, Or.inr rfl⟩

/-- A block of the medium laid over the medium, under the number of a block with that content. -/
theorem settles_of_loaded {a : ℕ} (h0 : d.blockBuffer.inner = [])
    (hb : d'.blockBuffer.inner = slice (medium d.device) a m.blockSize)
    (hmed : medium d'.device = medium d.device)
    (hsl : slice (medium d.device) a m.blockSize =
      slice (medium d.device) (m.blockSize * d'.loadedBlockNumber) m.blockSize) :
    Clean m medium d' ∧ Settles m medium d d' := by
  refine ⟨fun _ _ => by rw [hb, hsl, hmed], fun x => ?_⟩
  have hv : view m medium d' = medium d.device := by
    unfold view
    rw [hb, hsl, hmed, patch_slice_self]
  rw [hv, hmed, view_of_empty h0]
  exact ⟨Or.inl rfl, Or.inl rfl⟩

/-! ### `fillBuf` and `flush` over a faulty medium -/

section Faulty

variable (hm : FaultyMedium m M medium)
include hm

theorem flush_clean (hs : Shape m M start d) (hc : Clean m medium d) :
    Clean m medium (d.flush m).state ∧ Settles m medium d (d.flush m).state := by
  rcases flush_cases hm hs with ⟨-, hf⟩ | ⟨-, st, hmed, hf⟩ | ⟨hn, buf, st, hmed, hbuf, hf⟩ <;>
    rw [hf]
  · exact ⟨hc, .refl d⟩
  · exact ⟨clean_of_empty rfl, settles_of_empty rfl (Or.inl hmed)⟩
  · refine ⟨clean_of_pending hn, ?_⟩
    rcases hbuf with rfl | rfl
    · exact settles_of_same rfl rfl hmed
    · exact settles_of_empty rfl (Or.inr hmed)

theorem evict_clean (hs : Shape m M start d) (hc : Clean m medium d) (hpos : d.pos < M) :
    Clean m medium (d.evict m).state ∧ Settles m medium d (d.evict m).state := by
  rcases evict_cases hm hs hpos with ⟨-, he⟩ | ⟨st, hmed, he⟩ | ⟨hn, buf, st, hmed, hbuf, he⟩ <;>
    rw [he]
  · exact ⟨hc, .refl d⟩
  · refine ⟨clean_of_empty rfl, settles_of_empty rfl ?_⟩
    rcases hmed with ⟨-, hmed⟩ | hmed
    · exact Or.inr hmed
    · exact Or.inl hmed
  · refine ⟨clean_of_pending hn, ?_⟩
    rcases hbuf with rfl | rfl
    · exact settles_of_same rfl rfl hmed
    · exact settles_of_empty rfl (Or.inr hmed)

theorem load_clean (hs : Shape m M start d) (hc : Clean m medium d) (hpos : d.pos < M)
    (ht : d.tearsNow m medium = false) :
    Clean m medium (d.load m).state ∧ Settles m medium d (d.load m).state := by
  rcases load_cases hm hs hpos with
    ⟨-, hl⟩ | ⟨h0, n, buf, st, hmed, -, rfl, hl⟩ | ⟨h0, e, buf, st, hmed, hr, hbuf, hl⟩ <;> rw [hl]
  · exact ⟨hc, .refl d⟩
  · exact settles_of_loaded h0 rfl hmed rfl
  · rcases hbuf with rfl | rfl
    · exact ⟨clean_of_empty h0, settles_of_same rfl rfl hmed⟩
    · -- the block was appended, but it has the content of the one whose number is kept
      unfold tearsNow at ht
      rw [hr] at ht
      have hlen := length_slice (medium d.device) (m.blockSize * (d.pos / m.blockSize)) m.blockSize
      have hne : slice (medium d.device) (m.blockSize * (d.pos / m.blockSize)) m.blockSize ≠ [] := by
        have := hm.blockSize_pos
        rw [← List.length_pos_iff]
        omega
      simp only [h0, true_and, hne, ne_eq, not_false_eq_true, decide_eq_false_iff_not, not_not] at ht
      exact settles_of_loaded h0 rfl hmed ht

/-- **A `fillBuf` that does not tear** keeps the cache clean. -/
theorem fillBuf_clean (hs : Shape m M start d) (hc : Clean m medium d) (hpos : d.pos < M)
    (ht : d.tears m medium = false) :
    Clean m medium (d.fillBuf m).state ∧ Settles m medium d (d.fillBuf m).state := by
  have hev := evict_clean hm hs hc hpos
  unfold tears at ht
  refine Outcome.andThen_state (I := fun d' => Clean m medium d' ∧ Settles m medium d d') hev
    (fun _ d₁ he => ?_)
  rw [he] at hev ht
  obtain ⟨hs₁, hp₁, -⟩ := evict_block hm hs hpos he
  have hld := load_clean hm hs₁ hev.1 (by omega) ht
  refine Outcome.andThen_state (I := fun d' => Clean m medium d' ∧ Settles m medium d d')
    ⟨hld.1, hev.2.trans hld.2⟩ (fun _ d₂ hl => ?_)
  rw [hl] at hld
  rw [rest_state]
  exact ⟨hld.1, hev.2.trans hld.2⟩

/-- **A `fillBuf` that tears** fails and leaves a block under the number of another. -/
theorem fillBuf_torn (hs : Shape m M start d) (hpos : d.pos < M) (ht : d.tears m medium = true) :
    ∃ e d', d.fillBuf m = .err e d' ∧ ¬ Clean m medium d' := by
  unfold tears at ht
  cases he : d.evict m with
  | err e d₁ => rw [he] at ht; cases ht
  | panicked d₁ => rw [he] at ht; cases ht
  | ok u d₁ =>
    rw [he] at ht
    obtain ⟨hs₁, hp₁, hb⟩ := evict_block hm hs hpos he
    dsimp only at ht
    unfold tearsNow at ht
    rcases load_cases hm hs₁ (by omega) with
      ⟨hne, -⟩ | ⟨-, n, buf, st, -, hr, -, -⟩ | ⟨h0, e, buf, st, hmed, hr, hbuf, hl⟩
    · split at ht
      · simp only [hne, false_and, decide_false, Bool.false_eq_true] at ht
      · cases ht
    · rw [hr] at ht
      cases ht
    · rw [hr] at ht
      simp only [h0, true_and, ne_eq, decide_eq_true_eq] at ht
      obtain ⟨hne, hother⟩ := ht
      refine ⟨readError e.cause, { d₁ with device := st, blockBuffer := buf }, ?_, ?_⟩
      · rw [fillBuf, he, Outcome.andThen_ok, hl, Outcome.andThen_err]
      · intro hclean
        have hsl : buf.inner =
            slice (medium d₁.device) (m.blockSize * (d₁.pos / m.blockSize)) m.blockSize := by
          rcases hbuf with rfl | rfl
          · exact absurd h0 hne
          · rfl
        -- nothing is pending: a pending empty buffer keeps the number of the block of the cursor
        have hn : d₁.needsFlush = false := by
          rcases hb with ⟨-, hn⟩ | hnum
          · exact hn
          · rw [hsl, hp₁, hnum] at hother
            exact absurd rfl hother
        have := hclean hne hn
        dsimp only at this
        rw [hmed] at this
        exact hother this

end Faulty

/-! ### Where the bytes come from -/

/-- Every byte shown, and every byte on the medium, is the original one or one that `W` has for its
address. -/
def From (m : ScsiCrate σ) (medium : σ → ℕ → UInt8) (orig : ℕ → UInt8) (W : ℕ → UInt8 → Prop)
    (d : OffsetScsiDevice σ) : Prop :=
  ∀ x, (view m medium d x = orig x ∨ W x (view m medium d x)) ∧
    (medium d.device x = orig x ∨ W x (medium d.device x))

variable {orig : ℕ → UInt8} {W : ℕ → UInt8 → Prop}

theorem From.settles (h : From m medium orig W d) (hst : Settles m medium d d') :
    From m medium orig W d' := by
  intro x
  obtain ⟨hv, hmed⟩ := h x
  obtain ⟨hv', hmed'⟩ := hst x
  constructor
  · rcases hv' with h | h <;> rw [h]
    · exact hv
    · exact hmed
  · rcases hmed' with h | h <;> rw [h]
    · exact hv
    · exact hmed

/-- What calls that tear no block keep. -/
structure Sound (m : ScsiCrate σ) (M : ℕ) (medium : σ → ℕ → UInt8) (start : ℕ) (orig : ℕ → UInt8)
    (W : ℕ → UInt8 → Prop) (d : OffsetScsiDevice σ) : Prop where
  shape : Shape m M start d
  clean : Clean m medium d
  bytes : From m medium orig W d

theorem Coherent.isClean (hc : Coherent m M medium d) : Clean m medium d := by
  intro h0 hn
  have hsl := slice_patch_self (medium d.device) (m.blockSize * d.loadedBlockNumber)
    d.blockBuffer.inner
  rw [(hc.full h0).1] at hsl
  exact hsl.symm.trans (congrArg (slice · _ _) (hc.clean hn))

theorem sound_new (hm : FaultyMedium m M medium) (st : σ) :
    Sound m M medium start (medium st) W (new m st start) where
  shape := shape_new hm st
  clean := clean_of_empty rfl
  bytes := by
    intro x
    rw [view_new]
    exact ⟨Or.inl rfl, Or.inl rfl⟩

/-- Calls that tear no block and store only what `W` has. -/
theorem sound_kept (hm : FaultyMedium m M medium) :
    Kept m M (fun d => d.tears m medium = false) W (Sound m M medium start orig W) where
  fill := by
    intro d hs hpos ht
    obtain ⟨hc, hst⟩ := fillBuf_clean hm hs.shape hs.clean hpos ht
    exact ⟨(fillBuf_shape hm hs.shape hpos).1, hc, hs.bytes.settles hst⟩
  store := by
    intro d bytes d₁ byte d₂ hs hpos ht hf hW hst
    have hsh := (fillBuf_shape hm hs.shape hpos).1
    obtain ⟨hnum, hlen⟩ := (fillBuf_shape hm hs.shape hpos).2 bytes d₁ hf
    obtain ⟨hc, hset⟩ := fillBuf_clean hm hs.shape hs.clean hpos ht
    have hcur := fillBuf_cursor (m := m) d
    rw [hf, Outcome.state_ok] at hsh hc hset hcur
    have hp : d₁.pos = d.pos := hcur.pos_eq
    rw [← hp] at hnum
    obtain ⟨d₂', hst', hcoh, hview, -, -⟩ :=
      storeByte_spec hm.toFlatMedium (hsh.coherent hc) (by omega) hnum hlen byte
    obtain rfl : d₂' = d₂ := Option.some.inj (hst'.symm.trans hst)
    refine ⟨storeByte_shape hm hsh (by omega) hnum hst, hcoh.isClean, fun x => ?_⟩
    obtain ⟨hv, hmed⟩ := hs.bytes.settles hset x
    rw [storeByte_device hst, hview]
    refine ⟨?_, hmed⟩
    by_cases hx : x = d₁.pos
    · rw [hx, Function.update_self, hp]
      exact Or.inr hW
    · rw [Function.update_of_ne hx]
      exact hv
  moved := fun d n hn hs => ⟨hs.shape.moved hn, hs.clean, hs.bytes⟩
  flush := by
    intro d hs
    obtain ⟨hc, hst⟩ := flush_clean hm hs.shape hs.clean
    exact ⟨flush_shape hm hs.shape, hc, hs.bytes.settles hst⟩

/-! ### Calls that tear a block -/

section Torn

variable (hm : FaultyMedium m M medium)
include hm

theorem readLoop_torn : ∀ (cells : List UInt8) (i : ℕ) (d : OffsetScsiDevice σ),
    Shape m M start d → d.pos + cells.length ≤ M →
    (∃ d₁ ∈ readFills m cells d, d₁.tears m medium = true) →
    ¬ Clean m medium (readLoop m cells i d).2.state
  | [], i, d, _, _, ht => by
    obtain ⟨d₁, h₁, -⟩ := ht
    cases h₁
  | cell :: cells, i, d, hs, hin, ht => by
    simp only [List.length_cons] at hin
    have hM := hm.size_le
    have hpos : d.pos < M := by omega
    rw [readLoop]
    by_cases htd : d.tears m medium = true
    · obtain ⟨e, d', hf, hnot⟩ := fillBuf_torn hm hs hpos htd
      rw [hf]
      exact hnot
    · -- the block torn is one of a later byte
      obtain ⟨d₁, h₁, ht₁⟩ := ht
      rw [readFills] at h₁
      rcases List.mem_cons.mp h₁ with rfl | h₁
      · exact absurd ht₁ htd
      · have hsh := (fillBuf_shape hm hs hpos).1
        have hcur := fillBuf_cursor (m := m) d
        cases hf : d.fillBuf m with
        | err e d₂ => rw [hf] at h₁; cases h₁
        | panicked d₂ => rw [hf] at h₁; cases h₁
        | ok bytes d₂ =>
          rw [hf] at h₁ hsh hcur
          cases bytes with
          | nil => cases h₁
          | cons byte bytes =>
            have hp : d₂.pos = d.pos := hcur.pos_eq
            exact readLoop_torn cells (i + 1) (d₂.consume 1) (hsh.consumed 1)
              (by rw [pos_consume (by omega)]; omega) ⟨d₁, h₁, ht₁⟩

theorem writeLoop_torn : ∀ (bytes : List UInt8) (i : ℕ) (d : OffsetScsiDevice σ),
    Shape m M start d → d.pos + bytes.length ≤ M →
    (∃ d₁ ∈ writeFills m bytes d, d₁.tears m medium = true) →
    ¬ Clean m medium (writeLoop m bytes i d).state
  | [], i, d, _, _, ht => by
    obtain ⟨d₁, h₁, -⟩ := ht
    cases h₁
  | byte :: bytes, i, d, hs, hin, ht => by
    simp only [List.length_cons] at hin
    have hM := hm.size_le
    have hpos : d.pos < M := by omega
    rw [writeLoop]
    by_cases htd : d.tears m medium = true
    · obtain ⟨e, d', hf, hnot⟩ := fillBuf_torn hm hs hpos htd
      rw [hf]
      exact hnot
    · obtain ⟨d₁, h₁, ht₁⟩ := ht
      rw [writeFills] at h₁
      rcases List.mem_cons.mp h₁ with rfl | h₁
      · exact absurd ht₁ htd
      · have hsh := (fillBuf_shape hm hs hpos).1
        have hcur := fillBuf_cursor (m := m) d
        cases hf : d.fillBuf m with
        | err e d₂ => rw [hf] at h₁; cases h₁
        | panicked d₂ => rw [hf] at h₁; cases h₁
        | ok slc d₂ =>
          obtain ⟨hnum, -⟩ := (fillBuf_shape hm hs hpos).2 slc d₂ hf
          rw [hf, Outcome.state_ok] at hsh hcur
          rw [hf] at h₁
          have hp : d₂.pos = d.pos := hcur.pos_eq
          rw [Outcome.andThen_ok]
          dsimp only at h₁
          split at h₁
          · cases h₁
          · next hne =>
            rw [if_neg hne]
            cases hst : d₂.storeByte m byte with
            | none => rw [hst] at h₁; cases h₁
            | some d₃ =>
              rw [hst] at h₁
              have hs₃ := storeByte_shape hm hsh (by omega) (by rw [hp]; exact hnum) hst
              have hp₃ : d₃.pos = d.pos := (hcur.trans (storeByte_cursor hst)).pos_eq
              exact writeLoop_torn bytes (i + 1) (d₃.consume 1) (hs₃.consumed 1)
                (by rw [pos_consume (by omega)]; omega) ⟨d₁, h₁, ht₁⟩

/-- **One call inside the medium** leaves a sound cache clean exactly if it tears no block. -/
theorem exec_clean_iff (hs : Sound m M medium start orig W d) {op : Op} (hin : Inside M d op) :
    Clean m medium (d.exec m op).state ↔ NoTear m medium d op := by
  have hM : M < 2 ^ 64 := by have := hm.size_le; omega
  constructor
  · intro hc
    by_contra hnot
    have ht : ∃ d₁ ∈ fills m d op, d₁.tears m medium = true := by
      unfold NoTear at hnot
      simpa using hnot
    cases op with
    | seek pos => obtain ⟨_, h₁, -⟩ := ht; cases h₁
    | consume amt => obtain ⟨_, h₁, -⟩ := ht; cases h₁
    | flush => obtain ⟨_, h₁, -⟩ := ht; cases h₁
    | fillBuf =>
      obtain ⟨d₁, h₁, ht⟩ := ht
      obtain rfl : d₁ = d := List.mem_singleton.mp h₁
      obtain ⟨e, d', hf, hnot⟩ := fillBuf_torn hm hs.shape hin ht
      rw [exec, hf] at hc
      exact hnot hc
    | read buf =>
      have h := readLoop_torn hm buf 0 d hs.shape hin ht
      rw [exec, read] at hc
      cases hr : (readLoop m buf 0 d).2 <;> rw [hr] at h hc <;> exact h hc
    | write toWrite =>
      have h := writeLoop_torn hm toWrite 0 d hs.shape hin ht
      rw [exec, write] at hc
      cases hw : writeLoop m toWrite 0 d <;> rw [hw] at h hc <;> exact h hc
  · intro ht
    -- forget where the bytes come from
    have hs' : Sound m M medium start orig (fun _ _ => True) d :=
      ⟨hs.shape, hs.clean, fun _ => ⟨Or.inr trivial, Or.inr trivial⟩⟩
    exact (exec_kept hM (sound_kept hm) hs' hin ht fun _ _ _ => trivial).clean

end Torn

/-! ### Runs -/

/-- The response hands out byte `b` for address `x`. -/
def Returns (d : OffsetScsiDevice σ) (resp : Resp) (x : ℕ) (b : UInt8) : Prop :=
  ∃ bytes i, (resp = .slice bytes ∨ ∃ n, resp = .filled bytes n) ∧ bytes[i]? = some b ∧
    x = d.pos + i

/-- What a call inside the medium hands out is what the device shows. -/
theorem exec_returns (hm : FlatMedium m M medium) (hc : Coherent m M medium d) {op : Op}
    (hin : Inside M d op) {resp : Resp} (h : d.exec m op = .ok resp d') {x : ℕ} {b : UInt8}
    (hr : Returns d resp x b) : b = view m medium d x := by
  obtain ⟨bytes, i, hresp, hi, rfl⟩ := hr
  cases op with
  | seek pos =>
    cases pos <;> simp only [exec, seek, Outcome.andThen_ok, Outcome.andThen_panicked,
      reduceCtorEq, Outcome.ok.injEq] at h
    all_goals
      obtain ⟨rfl, -⟩ := h
      rcases hresp with h | ⟨n, h⟩ <;> cases h
  | consume amt =>
    cases h
    rcases hresp with h | ⟨n, h⟩ <;> cases h
  | fillBuf =>
    obtain ⟨slc, d₁, hf, he⟩ := Outcome.andThen_eq_ok.mp h
    cases he
    obtain ⟨-, -, -, hslc⟩ := fillBuf_ok hm hc hin hf
    rcases hresp with h | ⟨n, h⟩ <;> cases h
    rw [hslc] at hi
    exact eq_of_getElem?_slice hi
  | read buf =>
    obtain ⟨n, d₁, hf, he⟩ := Outcome.andThen_eq_ok.mp h
    cases he
    obtain ⟨hout, -⟩ := readLoop_ok hm buf 0 n d d' hc hin hf
    rcases hresp with h | ⟨n, h⟩ <;> cases h
    rw [read, hout] at hi
    exact eq_of_getElem?_slice hi
  | write toWrite =>
    obtain ⟨n, d₁, -, he⟩ := Outcome.andThen_eq_ok.mp h
    cases he
    rcases hresp with h | ⟨n, h⟩ <;> cases h
  | flush =>
    obtain ⟨_, d₁, -, he⟩ := Outcome.andThen_eq_ok.mp h
    cases he
    rcases hresp with h | ⟨n, h⟩ <;> cases h

/-- **Faulty runs.**  After any calls inside a medium whose transfers may fail, none of which tears a
block, a buffered block not marked for flushing is the medium's block of its number.  Every byte the
next call hands out is the medium's original byte of that address or one a call wrote there; and the
next call leaves the cache clean exactly if it tears no block. -/
theorem faulty_run_clean (hm : FaultyMedium m M medium) (st : σ) (start : ℕ) (ops : List Op)
    (hops : Along m (fun d op => Inside M d op ∧ NoTear m medium d op) (new m st start) ops) :
    Clean m medium (execAll m (new m st start) ops) ∧
    ∀ op, Inside M (execAll m (new m st start) ops) op →
      (∀ resp d', (execAll m (new m st start) ops).exec m op = .ok resp d' → ∀ x b,
        Returns (execAll m (new m st start) ops) resp x b →
        b = medium st x ∨ Wrote m (new m st start) ops x b) ∧
      (Clean m medium ((execAll m (new m st start) ops).exec m op).state ↔
        NoTear m medium (execAll m (new m st start) ops) op) := by
  have hM : M < 2 ^ 64 := by have := hm.size_le; omega
  have hs : Sound m M medium start (medium st) (Wrote m (new m st start) ops)
      (execAll m (new m st start) ops) :=
    execAll_kept hM (sound_kept hm) ops _ (sound_new hm st) hops fun _ _ h => h
  refine ⟨hs.clean, fun op hin => ⟨fun resp d' h x b hr => ?_, exec_clean_iff hm hs hin⟩⟩
  rw [exec_returns hm.toFlatMedium (hs.shape.coherent hs.clean) hin h hr]
  exact (hs.bytes x).1

/-- A disk of two blocks of two bytes, each byte its own address, with a script of faults. -/
def faultyDisk (script : List Fault) : OffsetScsiDevice ScriptedDisk :=
  new (scriptedDisk 2) ⟨fun x => x.toUInt8, script⟩ 0

/-- A read that fails before its data phase, a write over both blocks, and a flush that fails. -/
def rough : List Op := [.seek (.start 1), .fillBuf, .write [9, 8], .flush, .seek (.start 0)]

theorem faulty_run_clean_rough :
    Clean (scriptedDisk 2) ScriptedDisk.bytes
      (execAll (scriptedDisk 2) (faultyDisk [.early, .none, .none, .none, .late]) rough) ∧
    ∀ resp d', (execAll (scriptedDisk 2) (faultyDisk [.early, .none, .none, .none, .late])
        rough).exec (scriptedDisk 2) (.read [0, 0]) = .ok resp d' → ∀ x b,
      Returns (execAll (scriptedDisk 2) (faultyDisk [.early, .none, .none, .none, .late]) rough)
        resp x b →
      b = x.toUInt8 ∨
        Wrote (scriptedDisk 2) (faultyDisk [.early, .none, .none, .none, .late]) rough x b := by
  have hm : FaultyMedium (scriptedDisk 2) 4 ScriptedDisk.bytes :=
    scriptedDisk_faultyMedium (by decide) (by decide) (by decide)
  have h := faulty_run_clean hm ⟨fun x => x.toUInt8, [.early, .none, .none, .none, .late]⟩ 0 rough
    (by decide)
  exact ⟨h.1, (h.2 (.read [0, 0]) (by decide)).1⟩

/-- **A torn block.**  The read of the second block fails after its data phase; the first block,
asked for next, is answered with the second. -/
theorem torn_read :
    Along (scriptedDisk 2) (Inside 4) (faultyDisk [.late])
      [.seek (.start 2), .fillBuf, .seek (.start 0), .read [0, 0]] ∧
    ¬ Clean (scriptedDisk 2) ScriptedDisk.bytes
      (execAll (scriptedDisk 2) (faultyDisk [.late]) [.seek (.start 2), .fillBuf]) ∧
    trace (scriptedDisk 2) (faultyDisk [.late])
        [.seek (.start 2), .fillBuf, .seek (.start 0), .read [0, 0]] =
      [(.seek (.start 2), some (.ok (.position 2))),
        (.fillBuf, some (.error ⟨.other, some (.unmatched .parseError)⟩)),
        (.seek (.start 0), some (.ok (.position 0))),
        (.read [0, 0], some (.ok (.filled [2, 3] 2)))] := by
  refine ⟨by decide, ?_, rfl⟩
  intro hc
  exact absurd (hc (by decide) (by decide)) (by decide)

end FatDrive.OffsetScsiDevice
