import FatDrive.Partition
import FatDrive.Lib.WriteBehind

/-!
# FatDrive.BufScsiCrash — what a medium holds when it is cut off

A drive is taken out, or a transfer fails, at any moment.  The cache holds one block back, and a block
that is written back carries everything stored so far, so stores never overtake each other:

* `ScsiCrate.witnessed`: the same device, keeping the states it has been in;
* `Behind`: the cache shows all stores made so far, and the medium trails them;
* `fillBuf_behind`, `readLoop_behind`, `writeLoop_behind`: no transfer of these lets it do more than that;
* `crash_consistent`: up to the first call that fails, whenever the device is cut off, the medium holds what
  some first part of the stores made of it, with all those before the last flush among them.

A call that has failed may leave a block behind that is dirty but no longer buffered; nothing is said of
the calls after it.
-/

namespace FatDrive

open Lib

variable {σ τ W : Type}

/-- A crate that does on a part of its state what `m` does is the same medium. -/
theorem FaultyMedium.over {m : ScsiCrate σ} {M : ℕ} {medium : σ → ℕ → UInt8} (hm : FaultyMedium m M medium)
    {m' : ScsiCrate τ} (part : τ → σ) (hb : BufferLaws m') (hbs : m'.blockSize = m.blockSize)
    (hread : ∀ st a b, m.read (part st) a b =
      ((m'.read st a b).1, (m'.read st a b).2.1, part (m'.read st a b).2.2))
    (hwrite : ∀ st a b, m.write (part st) a b =
      ((m'.write st a b).1, (m'.write st a b).2.1, part (m'.write st a b).2.2)) :
    FaultyMedium m' M fun st => medium (part st) where
  toBufferLaws := hb
  blockSize_pos := by
    rw [hbs]
    exact hm.blockSize_pos
  blockSize_dvd := by
    rw [hbs]
    exact hm.blockSize_dvd
  size_le := hm.size_le
  read_ok := by
    intro st a b n b' st' ha hM h0 hc h
    rw [hbs] at ha hM hc ⊢
    exact hm.read_ok ha hM h0 hc (by rw [hread, h])
  write_ok := by
    intro st a b n b' st' ha hM h
    rw [hbs] at ha
    exact hm.write_ok ha hM (by rw [hwrite, h])
  read_err := by
    intro st a b e b' st' ha hM h0 hc h
    rw [hbs] at ha hM hc ⊢
    exact hm.read_err ha hM h0 hc (by rw [hread, h])
  write_err := by
    intro st a b e b' st' h
    exact hm.write_err (by rw [hwrite, h])

/-- The same device, keeping the state in which each transfer finds it. -/
def ScsiCrate.witnessed (m : ScsiCrate σ) : ScsiCrate (σ × List σ) where
  blockSize := m.blockSize
  read := fun st a b =>
    let r := m.read st.1 a b
    (r.1, r.2.1, r.2.2, st.2 ++ [st.1])
  write := fun st a b =>
    let r := m.write st.1 a b
    (r.1, r.2.1, r.2.2, st.2 ++ [st.1])
  isEmpty := m.isEmpty
  clear := m.clear

theorem FaultyMedium.witnessed {m : ScsiCrate σ} {M : ℕ} {medium : σ → ℕ → UInt8}
    (hm : FaultyMedium m M medium) : FaultyMedium m.witnessed M fun st => medium st.1 :=
  hm.over Prod.fst ⟨hm.isEmpty_eq, hm.clear_eq⟩ rfl (fun _ _ _ => rfl) fun _ _ _ => rfl

namespace OffsetScsiDevice

/-! ### The stores of a list of calls -/

/-- Where the cursor is after a call. -/
def Op.cursor (c : ℕ) : Op → ℕ
  | .seek (.start n) => n
  | .seek (.current off) => ((c : ℤ) + off).toNat
  | .seek (.fromEnd _) => c
  | .fillBuf => c
  | .consume amt => c + amt
  | .read outputBuf => c + outputBuf.length
  | .write toWrite => c + toWrite.length
  | .flush => c

/-- The stores of a call at an address. -/
def Op.stores (a : ℕ) : Op → List (ℕ × UInt8)
  | .write toWrite => placed a toWrite
  | _ => []

/-- The stores of a list of calls on a partition, with the cursor at `c`. -/
def storesFrom (start : ℕ) : ℕ → List Op → List (ℕ × UInt8)
  | _, [] => []
  | c, op :: ops => op.stores (start + c) ++ storesFrom start (op.cursor c) ops

/-- How many of the stores of a list of calls were made before its last flush. -/
def flushed (ops : List Op) : ℕ :=
  durable (fun op : Op => (op.stores 0).length) (fun op => decide (op = .flush)) 0 0 ops

/-! ### What one transfer does to the medium -/

section Transfers

variable {m : ScsiCrate σ} {M : ℕ} {medium : σ → ℕ → UInt8} {d : OffsetScsiDevice σ}

/-- A flush leaves the medium as it is or makes it what is shown. -/
theorem flush_medium (hm : FaultyMedium m M medium) (hc : Coherent m M medium d) :
    medium (d.flush m).state.device = medium d.device ∨
      medium (d.flush m).state.device = view m medium d := by
  cases h : d.flush m with
  | ok a d' => exact Or.inr (flush_ok hm.toFlatMedium hc h).2.1
  | err e d' =>
    unfold flush at h
    split at h
    · split at h
      · simp at h
      · next e' buf st hw =>
        cases h
        exact Or.inl (hm.write_err hw).2
    · simp at h
  | panicked d' =>
    unfold flush at h
    split at h
    · split at h <;> simp at h
    · simp at h

/-- Loading a block leaves the medium as it is. -/
theorem load_medium (hm : FaultyMedium m M medium) (hc : Coherent m M medium d) (hpos : d.pos < M) :
    medium (d.load m).state.device = medium d.device := by
  have hle := block_le hm.toFlatMedium hpos
  unfold load
  rw [curBlockRawIdx_eq hm.toFlatMedium hpos, asU32_block hm.toFlatMedium hle, hm.isEmpty_eq]
  dsimp only
  split
  · next h0 =>
    have hempty : d.blockBuffer.inner = [] := by simpa using h0
    split
    · next n buf st hr => exact (hm.read_ok (Nat.dvd_mul_right _ _) hle hempty hc.cap hr).2
    · next e buf st hr => exact (hm.read_err (Nat.dvd_mul_right _ _) hle hempty hc.cap hr).2
  · rfl

end Transfers

/-! ### The states a device has been in -/

/-- Nothing has been transferred, or one block has. -/
def AtMostOne (x x' : σ × List σ) : Prop := x' = x ∨ x'.2 = x.2 ++ [x.1]

theorem flush_atMostOne {m : ScsiCrate σ} (d : OffsetScsiDevice (σ × List σ)) :
    AtMostOne d.device (d.flush m.witnessed).state.device := by
  unfold flush
  split
  · split
    · next h => exact Or.inr (congrArg (fun r => r.2.2.2) h).symm
    · next h => exact Or.inr (congrArg (fun r => r.2.2.2) h).symm
  · exact Or.inl rfl

theorem load_atMostOne {m : ScsiCrate σ} (d : OffsetScsiDevice (σ × List σ)) :
    AtMostOne d.device (d.load m.witnessed).state.device := by
  unfold load
  dsimp only
  split
  · split
    · next h => exact Or.inr (congrArg (fun r => r.2.2.2) h).symm
    · next h => exact Or.inr (congrArg (fun r => r.2.2.2) h).symm
  · exact Or.inl rfl

/-- The medium trails the stores `ws`, `n` of them at least now, and `n₁` since `j` transfers had been
made. -/
structure Lags (medium : σ → ℕ → UInt8) (put : (ℕ → UInt8) → W → ℕ → UInt8) (f₀ : ℕ → UInt8) (n₁ j : ℕ)
    (ws : List W) (n : ℕ) (x : σ × List σ) : Prop where
  now : Trails put f₀ ws n (medium x.1)
  since : ∀ st ∈ x.2.drop j, Trails put f₀ ws n₁ (medium st)
  made : j ≤ x.2.length
  least : n₁ ≤ n

section Lags

variable {medium : σ → ℕ → UInt8} {put : (ℕ → UInt8) → W → ℕ → UInt8} {f₀ : ℕ → UInt8} {n₁ j n k : ℕ}
  {ws : List W} {x x' : σ × List σ}

theorem Lags.append (h : Lags medium put f₀ n₁ j ws n x) (vs : List W) :
    Lags medium put f₀ n₁ j (ws ++ vs) n x :=
  ⟨h.now.append vs, fun st hst => (h.since st hst).append vs, h.made, h.least⟩

/-- From now on no more is asked of the past than of the present. -/
theorem Lags.restart (h : Lags medium put f₀ n₁ j ws n x) : Lags medium put f₀ n x.2.length ws n x := by
  refine ⟨h.now, fun st hst => ?_, Nat.le_refl _, Nat.le_refl _⟩
  rw [List.drop_length] at hst
  cases hst

/-- A state with a medium that trails the stores may come next. -/
theorem Lags.step (h : Lags medium put f₀ n₁ j ws n x) (hone : AtMostOne x x') (hk : n₁ ≤ k)
    (hnow : Trails put f₀ ws k (medium x'.1)) : Lags medium put f₀ n₁ j ws k x' := by
  rcases hone with rfl | hlog
  · exact ⟨hnow, h.since, h.made, hk⟩
  · have hmade := h.made
    refine ⟨hnow, fun st hst => ?_, ?_, hk⟩
    · rw [hlog, List.drop_append_of_le_length h.made, List.mem_append, List.mem_singleton] at hst
      rcases hst with hst | rfl
      · exact h.since st hst
      · exact h.now.mono h.least
    · rw [hlog, List.length_append]
      omega

end Lags

/-! ### The calls -/

section Calls

variable {m : ScsiCrate σ} {M : ℕ} {medium : σ → ℕ → UInt8} {put : (ℕ → UInt8) → W → ℕ → UInt8}
  {f₀ : ℕ → UInt8} {n₁ j n : ℕ} {ws : List W} {d d' : OffsetScsiDevice (σ × List σ)}

/-- `Lags`, of a cache with the device in it. -/
abbrev Lagging (medium : σ → ℕ → UInt8) (put : (ℕ → UInt8) → W → ℕ → UInt8) (f₀ : ℕ → UInt8) (n₁ j : ℕ)
    (ws : List W) (n : ℕ) (d : OffsetScsiDevice (σ × List σ)) : Prop :=
  Lags medium put f₀ n₁ j ws n d.device

/-- The cache shows all the stores, and the medium trails them. -/
structure Behind (m : ScsiCrate σ) (M : ℕ) (medium : σ → ℕ → UInt8) (put : (ℕ → UInt8) → W → ℕ → UInt8)
    (f₀ : ℕ → UInt8) (n₁ j : ℕ) (ws : List W) (n : ℕ) (d : OffsetScsiDevice (σ × List σ)) : Prop where
  coherent : Coherent m.witnessed M (fun st => medium st.1) d
  shown : view m.witnessed (fun st => medium st.1) d = stored put f₀ ws
  lags : Lagging medium put f₀ n₁ j ws n d

theorem Behind.keeps (h : Behind m M medium put f₀ n₁ j ws n d)
    (hk : Keeps m.witnessed M (fun st => medium st.1) d d') (hl : Lagging medium put f₀ n₁ j ws n d') :
    Behind m M medium put f₀ n₁ j ws n d' :=
  ⟨hk.coherent, hk.view_eq.trans h.shown, hl⟩

theorem Behind.moved (h : Behind m M medium put f₀ n₁ j ws n d) (i : ℕ) :
    Behind m M medium put f₀ n₁ j ws n { d with partitionIdx := i } :=
  ⟨h.coherent.moved i, h.shown, h.lags⟩

theorem Behind.restart (h : Behind m M medium put f₀ n₁ j ws n d) :
    Behind m M medium put f₀ n d.device.2.length ws n d := ⟨h.coherent, h.shown, h.lags.restart⟩

theorem Lagging.of_device (h : Lagging medium put f₀ n₁ j ws n d) (hd : d'.device = d.device) :
    Lagging medium put f₀ n₁ j ws n d' := by
  unfold Lagging
  rw [hd]
  exact h

variable (hm : FaultyMedium m M medium)
include hm

theorem flush_lags (h : Behind m M medium put f₀ n₁ j ws n d) :
    Lagging medium put f₀ n₁ j ws n (d.flush m.witnessed).state := by
  refine h.lags.step (flush_atMostOne d) h.lags.least ?_
  rcases flush_medium hm.witnessed h.coherent with hmed | hmed
  · rw [hmed]
    exact h.lags.now
  · rw [hmed, h.shown]
    exact (trails_stored put f₀ ws).mono h.lags.now.le_length

/-- After a flush that returns `Ok` the medium holds all the stores. -/
theorem flush_behind (h : Behind m M medium put f₀ n₁ j ws n d) (hf : d.flush m.witnessed = .ok () d') :
    Behind m M medium put f₀ n₁ j ws ws.length d' := by
  obtain ⟨hk, hmed, -, -⟩ := flush_ok hm.witnessed.toFlatMedium h.coherent hf
  have hone := flush_atMostOne (m := m) d
  rw [hf] at hone
  refine ⟨hk.coherent, hk.view_eq.trans h.shown, h.lags.step hone ?_ ?_⟩
  · exact Nat.le_trans h.lags.least h.lags.now.le_length
  · rw [hmed, h.shown]
    exact trails_stored put f₀ ws

theorem evict_lags (h : Behind m M medium put f₀ n₁ j ws n d) :
    Lagging medium put f₀ n₁ j ws n (d.evict m.witnessed).state := by
  have hfl := flush_lags hm h
  unfold evict
  split
  · refine Outcome.andThen_state (I := Lagging medium put f₀ n₁ j ws n) hfl fun a d₁ hf => ?_
    rw [hf] at hfl
    exact hfl.of_device (clearBuffer_device d₁)
  · exact h.lags

theorem load_lags (h : Behind m M medium put f₀ n₁ j ws n d) (hpos : d.pos < M) :
    Lagging medium put f₀ n₁ j ws n (d.load m.witnessed).state := by
  refine h.lags.step (load_atMostOne d) h.lags.least ?_
  rw [load_medium hm.witnessed h.coherent hpos]
  exact h.lags.now

theorem fillBuf_lags (h : Behind m M medium put f₀ n₁ j ws n d) (hpos : d.pos < M) :
    Lagging medium put f₀ n₁ j ws n (d.fillBuf m.witnessed).state := by
  have hev := evict_lags hm h
  refine Outcome.andThen_state (I := Lagging medium put f₀ n₁ j ws n) hev fun a d₁ he => ?_
  obtain ⟨hk, -⟩ := evict_ok hm.witnessed.toFlatMedium h.coherent hpos he
  rw [he] at hev
  have hld := load_lags hm (h.keeps hk hev) (by rw [hk.pos_eq]; exact hpos)
  refine Outcome.andThen_state (I := Lagging medium put f₀ n₁ j ws n) hld fun b d₂ hl => ?_
  rw [hl] at hld
  rw [rest_state]
  exact hld

/-- A block under the cursor costs no store. -/
theorem fillBuf_behind (h : Behind m M medium put f₀ n₁ j ws n d) (hpos : d.pos < M) {bytes : List UInt8}
    (hf : d.fillBuf m.witnessed = .ok bytes d') : Behind m M medium put f₀ n₁ j ws n d' := by
  have hlags := fillBuf_lags hm h hpos
  rw [hf] at hlags
  exact h.keeps (fillBuf_ok hm.witnessed.toFlatMedium h.coherent hpos hf).1 hlags

theorem readLoop_lags : ∀ (cells : List UInt8) (i : ℕ) (d : OffsetScsiDevice (σ × List σ)),
    Behind m M medium put f₀ n₁ j ws n d → d.pos + cells.length ≤ M →
      Lagging medium put f₀ n₁ j ws n (readLoop m.witnessed cells i d).2.state
  | [], _, _, h, _ => h.lags
  | cell :: cells, i, d, h, hin => by
    simp only [List.length_cons] at hin
    have hM := hm.size_le
    have hpos : d.pos < M := by omega
    have hlags := fillBuf_lags hm h hpos
    rw [readLoop]
    cases hf : d.fillBuf m.witnessed with
    | ok bytes d₁ =>
      rw [hf] at hlags
      cases bytes with
      | nil => exact hlags
      | cons byte bytes =>
        obtain ⟨hk, -⟩ := fillBuf_ok hm.witnessed.toFlatMedium h.coherent hpos hf
        have hp : d₁.pos + 1 < 2 ^ 64 := by rw [hk.pos_eq]; omega
        exact readLoop_lags cells (i + 1) (d₁.consume 1) ((h.keeps hk hlags).moved _)
          (by rw [pos_consume hp, hk.pos_eq]; omega)
    | err e d₁ =>
      rw [hf] at hlags
      exact hlags
    | panicked d₁ =>
      rw [hf] at hlags
      exact hlags

theorem readLoop_behind {cells : List UInt8} {i k : ℕ} (h : Behind m M medium put f₀ n₁ j ws n d)
    (hin : d.pos + cells.length ≤ M) (hr : (readLoop m.witnessed cells i d).2 = .ok k d') :
    Behind m M medium put f₀ n₁ j ws n d' ∧ d'.partitionStart = d.partitionStart := by
  have hlags := readLoop_lags hm cells i d h hin
  rw [hr] at hlags
  obtain ⟨-, -, hc, hv, hst, -⟩ := readLoop_ok hm.witnessed.toFlatMedium cells i k d d' h.coherent hin hr
  exact ⟨⟨hc, hv.trans h.shown, hlags⟩, hst⟩

/-- One byte is stored into the block under the cursor, and the medium has nothing of it yet. -/
theorem storeByte_behind {ws : List (ℕ × UInt8)} (h : Behind m M medium setCell f₀ n₁ j ws n d)
    (hpos : d.pos < M) (hnum : d.loadedBlockNumber = d.pos / m.blockSize)
    (hlen : d.blockBuffer.inner.length = m.blockSize) (byte : UInt8) :
    ∃ d₁, d.storeByte m.witnessed byte = some d₁ ∧
      Behind m M medium setCell f₀ n₁ j (ws ++ [(d.pos, byte)]) n d₁ ∧ d₁.pos = d.pos := by
  obtain ⟨d₁, hs, hc, hv, hst, hid⟩ :=
    storeByte_spec hm.witnessed.toFlatMedium h.coherent hpos hnum hlen byte
  refine ⟨d₁, hs, ⟨hc, ?_, ?_⟩, ?_⟩
  · rw [hv, h.shown, stored_snoc]
    rfl
  · exact Lagging.of_device (h.lags.append _) (storeByte_device hs)
  · unfold pos
    rw [hst, hid]

theorem writeLoop_lags : ∀ (bytes : List UInt8) (i : ℕ) (ws : List (ℕ × UInt8))
    (d : OffsetScsiDevice (σ × List σ)), Behind m M medium setCell f₀ n₁ j ws n d →
      d.pos + bytes.length ≤ M →
      Lagging medium setCell f₀ n₁ j (ws ++ placed d.pos bytes) n (writeLoop m.witnessed bytes i d).state
  | [], _, _, _, h, _ => h.lags.append _
  | byte :: bytes, i, ws, d, h, hin => by
    simp only [List.length_cons] at hin
    have hM := hm.size_le
    have hpos : d.pos < M := by omega
    have hlags := (fillBuf_lags hm h hpos).append (placed d.pos (byte :: bytes))
    rw [writeLoop]
    refine Outcome.andThen_state
      (I := Lagging medium setCell f₀ n₁ j (ws ++ placed d.pos (byte :: bytes)) n) hlags
      fun slc d₁ hf => ?_
    obtain ⟨hk, hnum, hbuf, -⟩ := fillBuf_ok hm.witnessed.toFlatMedium h.coherent hpos hf
    rw [hf] at hlags
    have hp₁ := hk.pos_eq
    split
    · exact hlags
    · obtain ⟨d₂, hs, hb, hp₂⟩ := storeByte_behind hm (fillBuf_behind hm h hpos hf)
        (by rw [hp₁]; exact hpos) (by rw [hp₁]; exact hnum) (by rw [hbuf, length_slice]; rfl) byte
      rw [hs]
      dsimp only
      have hp : d₂.pos + 1 < 2 ^ 64 := by omega
      have hpc : (d₂.consume 1).pos = d.pos + 1 := by rw [pos_consume hp, hp₂, hp₁]
      have hrest := writeLoop_lags bytes (i + 1) _ (d₂.consume 1) (hb.moved _) (by omega)
      rw [hpc, hp₁] at hrest
      rw [append_placed_cons]
      exact hrest

/-- **One call**, whatever becomes of it: the medium never has more than the stores of the call. -/
theorem exec_lags {ws : List (ℕ × UInt8)} (h : Behind m M medium setCell f₀ n₁ j ws n d) {op : Op}
    (hin : Inside M d op) :
    Lagging medium setCell f₀ n₁ j (ws ++ op.stores d.pos) n (d.exec m.witnessed op).state := by
  cases op with
  | seek pos =>
    cases pos with
    | start absr => exact h.lags.append _
    | current off => exact h.lags.append _
    | fromEnd off => exact hin.elim
  | fillBuf =>
    have hlags := (fillBuf_lags hm h hin).append (Op.fillBuf.stores d.pos)
    exact Outcome.andThen_state hlags fun _ d₁ hf => by rwa [hf] at hlags
  | consume amt => exact h.lags.append _
  | read buf =>
    have hlags : Lagging medium setCell f₀ n₁ j (ws ++ (Op.read buf).stores d.pos) n
        (d.read m.witnessed buf).2.state := (readLoop_lags hm buf 0 d h hin).append _
    exact Outcome.andThen_state hlags fun _ d₁ hf => by rwa [hf] at hlags
  | write toWrite =>
    have hlags : Lagging medium setCell f₀ n₁ j (ws ++ (Op.write toWrite).stores d.pos) n
        (d.write m.witnessed toWrite).state := writeLoop_lags hm toWrite 0 ws d h hin
    exact Outcome.andThen_state hlags fun _ d₁ hf => by rwa [hf] at hlags
  | flush =>
    have hlags := (flush_lags hm h).append (Op.flush.stores d.pos)
    exact Outcome.andThen_state hlags fun _ d₁ hf => by rwa [hf] at hlags

end Calls

/-! ### Runs -/

theorem flatStep_eq {start : ℕ} {f f' : Flat} {op : Op} {res : Option (Except IoError Resp)}
    (h : FlatStep start f (op, res) f') :
    f' = ⟨stored setCell f.bytes (op.stores (start + f.cursor)), op.cursor f.cursor⟩ := by
  cases h with
  | seekCurrent off n hn => simp [Op.stores, Op.cursor, hn]
  | write toWrite => simp [Op.stores, Op.cursor, stored_placed]
  | _ => rfl

theorem length_stores (a a' : ℕ) (op : Op) : (op.stores a).length = (op.stores a').length := by
  cases op with
  | write toWrite => simp [Op.stores]
  | _ => rfl

theorem storesFrom_append (start : ℕ) (ops' : List Op) : ∀ (ops : List Op) (c : ℕ),
    storesFrom start c (ops ++ ops') =
      storesFrom start c ops ++ storesFrom start (ops.foldl Op.cursor c) ops'
  | [], _ => rfl
  | op :: ops, c => by
    simp only [List.cons_append, storesFrom, storesFrom_append start ops' ops, List.append_assoc,
      List.foldl_cons]

section Runs

variable {m : ScsiCrate σ} {M : ℕ} {medium : σ → ℕ → UInt8} {f₀ : ℕ → UInt8} {n₁ j n start c : ℕ}
  {ws : List (ℕ × UInt8)} {d d' : OffsetScsiDevice (σ × List σ)}

/-- A call inside the medium that returns `Ok`. -/
abbrev OkStep (m : ScsiCrate σ) (M : ℕ) : OffsetScsiDevice σ → Label → OffsetScsiDevice σ → Prop :=
  Guard (Step m) fun d l => Inside M d l.1 ∧ (d.exec m l.1).isOk = true

/-- The cache shows the stores made so far and has the cursor, and the medium trails the stores. -/
structure Trailing (m : ScsiCrate σ) (M : ℕ) (medium : σ → ℕ → UInt8) (f₀ : ℕ → UInt8) (n₁ j start : ℕ)
    (ws : List (ℕ × UInt8)) (n c : ℕ) (d : OffsetScsiDevice (σ × List σ)) : Prop where
  shows : Shows m.witnessed M (fun st => medium st.1) start d ⟨stored setCell f₀ ws, c⟩
  lags : Lagging medium setCell f₀ n₁ j ws n d

theorem Trailing.behind (h : Trailing m M medium f₀ n₁ j start ws n c d) :
    Behind m M medium setCell f₀ n₁ j ws n d :=
  ⟨h.shows.coherent, h.shows.bytes, h.lags⟩

theorem Trailing.restart (h : Trailing m M medium f₀ n₁ j start ws n c d) :
    Trailing m M medium f₀ n d.device.2.length start ws n c d := ⟨h.shows, h.lags.restart⟩

/-- **Step.** -/
theorem Trailing.step (hm : FaultyMedium m M medium) (h : Trailing m M medium f₀ n₁ j start ws n c d)
    {l : Label} (hst : OkStep m.witnessed M d l d') :
    Trailing m M medium f₀ n₁ j start (ws ++ l.1.stores (start + c))
      (if l.1 = .flush then ws.length else n) (l.1.cursor c) d' := by
  obtain ⟨op, res⟩ := l
  obtain ⟨⟨hin, hok⟩, -, rfl⟩ := hst
  obtain ⟨resp, d', hexec⟩ := Outcome.isOk_iff.mp hok
  obtain ⟨f', hstep, hs'⟩ := exec_simulates hm.witnessed.toFlatMedium h.shows hin hexec
  have hlags := exec_lags hm h.behind hin
  rw [h.shows.pos_eq] at hlags
  rw [flatStep_eq hstep, ← stored_append] at hs'
  simp only [hexec, Outcome.state_ok] at hlags ⊢
  refine ⟨hs', ?_⟩
  split
  · next hop =>
    subst hop
    obtain ⟨a, d₁, hf, he⟩ := Outcome.andThen_eq_ok.mp hexec
    cases he
    exact (flush_behind hm h.behind hf).lags.append _
  · exact hlags

/-- **Run.** -/
theorem Trailing.run (hm : FaultyMedium m M medium) {ls : List Label}
    (hrun : Run (OkStep m.witnessed M) d ls d') : ∀ {ws : List (ℕ × UInt8)} {n c : ℕ},
      Trailing m M medium f₀ n₁ j start ws n c d →
        Trailing m M medium f₀ n₁ j start (ws ++ storesFrom start c (ls.map Prod.fst))
          (durable (fun op : Op => (op.stores 0).length) (fun op => decide (op = .flush)) n ws.length
            (ls.map Prod.fst)) ((ls.map Prod.fst).foldl Op.cursor c) d' := by
  induction hrun with
  | nil d =>
    intro ws n c h
    simpa [storesFrom, durable] using h
  | @cons d d₁ d' l ls hst _ ih =>
    intro ws n c h
    have hrest := ih (h.step hm hst)
    rw [List.append_assoc, List.length_append, length_stores (start + c) 0 l.1] at hrest
    simpa [durable, storesFrom] using hrest

theorem trailing_new (st : σ) (start : ℕ) :
    Trailing m M medium (medium st) 0 0 start [] 0 0 (new m.witnessed (st, []) start) where
  shows := ⟨coherent_new _ _, view_new _ _, rfl, rfl, Nat.two_pow_pos 64⟩
  lags := ⟨trails_stored setCell _ [], fun _ h => (List.not_mem_nil h).elim, Nat.le_refl _, Nat.le_refl _⟩

/-- **Crash consistency.**  After calls inside the medium that return `Ok`, let one more be made, and let
the device be cut off during these calls, or let the last of them fail, when those of `ls₁` have
returned.  The medium then holds what the first so many stores, in the order of the calls, have made of it:
never a later store without an earlier one, and never less than was stored before the last flush in
`ls₁`. -/
theorem crash_consistent (hm : FaultyMedium m M medium) {st s : σ} {ls₁ ls₂ : List Label} {op : Op}
    {d₁ d₂ : OffsetScsiDevice (σ × List σ)}
    (hrun₁ : Run (OkStep m.witnessed M) (new m.witnessed (st, []) start) ls₁ d₁)
    (hrun₂ : Run (OkStep m.witnessed M) d₁ ls₂ d₂) (hin : Inside M d₂ op)
    (hs : s ∈ (d₂.exec m.witnessed op).state.device.1 ::
      (d₂.exec m.witnessed op).state.device.2.drop d₁.device.2.length) :
    Trails setCell (medium st) (storesFrom start 0 ((ls₁ ++ ls₂).map Prod.fst ++ [op]))
      (flushed (ls₁.map Prod.fst)) (medium s) := by
  have h₁ := (trailing_new st start).run hm hrun₁
  have h₂ := h₁.restart.run hm hrun₂
  have hlags := exec_lags hm h₂.behind hin
  have hws : storesFrom start 0 ((ls₁ ++ ls₂).map Prod.fst ++ [op]) =
      [] ++ storesFrom start 0 (ls₁.map Prod.fst) ++
        storesFrom start ((ls₁.map Prod.fst).foldl Op.cursor 0) (ls₂.map Prod.fst) ++
        op.stores d₂.pos := by
    rw [h₂.shows.pos_eq, List.map_append, List.append_assoc, storesFrom_append, storesFrom_append]
    simp only [storesFrom, List.append_nil, List.nil_append, List.append_assoc]
  rw [hws]
  rcases List.mem_cons.mp hs with rfl | hs
  · exact hlags.now.mono hlags.least
  · exact hlags.since s hs

/-- A disk of blocks of two bytes whose sixth transfer fails after the data phase. -/
def sixthFails : OffsetScsiDevice (ScriptedDisk × List ScriptedDisk) :=
  new (scriptedDisk 2).witnessed (⟨fun x => x.toUInt8, .replicate 5 .none ++ [.late]⟩, []) 0

/-- A write across a block boundary, when the block before it has been flushed. -/
def flushedThenCrossing : OffsetScsiDevice (ScriptedDisk × List ScriptedDisk) :=
  execAll (scriptedDisk 2).witnessed (execAll (scriptedDisk 2).witnessed sixthFails [.write [9], .flush])
    [.write [8, 7]]

theorem crash_consistent_crossing :
    Trails setCell (fun x => x.toUInt8)
      (storesFrom 0 0 [.write [9], .flush, .write [8, 7], .write [6, 5]]) 1
      (flushedThenCrossing.exec (scriptedDisk 2).witnessed (.write [6, 5])).state.device.1.bytes := by
  have hm : FaultyMedium (scriptedDisk 2) 8 ScriptedDisk.bytes :=
    scriptedDisk_faultyMedium (by decide) (by decide) (by decide)
  have h₁ : Along (scriptedDisk 2).witnessed
      (fun d op => Inside 8 d op ∧ (d.exec (scriptedDisk 2).witnessed op).isOk = true) sixthFails
      [.write [9], .flush] := by decide
  have h₂ : Along (scriptedDisk 2).witnessed
      (fun d op => Inside 8 d op ∧ (d.exec (scriptedDisk 2).witnessed op).isOk = true)
      (execAll (scriptedDisk 2).witnessed sixthFails [.write [9], .flush]) [.write [8, 7]] := by decide
  have hin : Inside 8 flushedThenCrossing (.write [6, 5]) := by decide
  exact crash_consistent hm (run_trace _ h₁) (run_trace _ h₂) hin List.mem_cons_self

/-- What was stored into the block that could not be written back is lost; all before it is there. -/
example : ((flushedThenCrossing.exec (scriptedDisk 2).witnessed (.write [6, 5])).isOk,
    slice (flushedThenCrossing.exec (scriptedDisk 2).witnessed (.write [6, 5])).state.device.1.bytes 0 6) =
      (false, [9, 8, 2, 3, 4, 5]) := by decide

/-- `Drop`: the device is flushed before it goes, and what the flush returns is not looked at. -/
def drop (m : ScsiCrate σ) (d : OffsetScsiDevice σ) : σ := (d.flush m).state.device

/-- **Nothing is lost with a device that is dropped** after calls inside the medium that have all returned
`Ok`, unless its last flush fails: then the medium still trails the stores. -/
theorem dropped (hm : FaultyMedium m M medium) {st : σ} {ls : List Label}
    (hrun : Run (OkStep m.witnessed M) (new m.witnessed (st, []) start) ls d) :
    medium (d.drop m.witnessed).1 = stored setCell (medium st) (storesFrom start 0 (ls.map Prod.fst)) ∨
      (d.flush m.witnessed).isOk = false ∧ Trails setCell (medium st)
        (storesFrom start 0 (ls.map Prod.fst)) (flushed (ls.map Prod.fst))
        (medium (d.drop m.witnessed).1) := by
  have h := (trailing_new st start).run hm hrun
  cases hok : (d.flush m.witnessed).isOk with
  | true =>
    obtain ⟨a, d', hf⟩ := Outcome.isOk_iff.mp hok
    obtain ⟨-, hmed, -, -⟩ := flush_ok hm.witnessed.toFlatMedium h.shows.coherent hf
    refine Or.inl ?_
    rw [drop, hf, Outcome.state_ok]
    exact hmed.trans h.shows.bytes
  | false =>
    have hlags := flush_lags hm h.behind
    exact Or.inr ⟨rfl, hlags.now⟩

theorem dropped_crossing :
    (flushedThenCrossing.drop (scriptedDisk 2).witnessed).1.bytes =
        stored setCell (fun x => x.toUInt8) (storesFrom 0 0 [.write [9], .flush, .write [8, 7]]) ∨
      (flushedThenCrossing.flush (scriptedDisk 2).witnessed).isOk = false ∧
        Trails setCell (fun x => x.toUInt8) (storesFrom 0 0 [.write [9], .flush, .write [8, 7]]) 1
          (flushedThenCrossing.drop (scriptedDisk 2).witnessed).1.bytes := by
  have hm : FaultyMedium (scriptedDisk 2) 8 ScriptedDisk.bytes :=
    scriptedDisk_faultyMedium (by decide) (by decide) (by decide)
  have h : Along (scriptedDisk 2).witnessed
      (fun d op => Inside 8 d op ∧ (d.exec (scriptedDisk 2).witnessed op).isOk = true) sixthFails
      [.write [9], .flush, .write [8, 7]] := by decide
  exact dropped hm (run_trace _ h)

end Runs

end OffsetScsiDevice

end FatDrive
