import FatDrive.BufScsiCache
import FatDrive.ScriptedDisk

/-!
# FatDrive.BufScsiRefine — `OffsetScsiDevice` refines a flat byte array with a cursor

`FlatStep` is the abstract machine: an array of bytes, a cursor, and for each call what it returns.
`Inside` says that a call keeps to the medium.  The simulation relation is `Shows`: the cache is
coherent, shows the array, and has its cursor.

The device is taken recorded (`ScsiCrate.recorded`), and `AllOk` says that none of its transfers has
failed.  A call whose transfers succeed returns `Ok` (`exec_ok`), and then answers as the array does
(`exec_simulates`).  `run_refines_flat` is the statement for runs.
-/

namespace FatDrive.OffsetScsiDevice

open Lib

variable {σ : Type}

/-! ## The abstract machine -/

/-- An array of bytes and a cursor into it. -/
structure Flat where
  bytes : ℕ → UInt8
  cursor : ℕ

/-- The calls on a flat array whose cursor counts from `start`.  How much `fillBuf` shows is left
open, as long as it is something. -/
inductive FlatStep (start : ℕ) : Flat → Label → Flat → Prop
  | seekStart (f : Flat) (n : ℕ) :
      FlatStep start f (.seek (.start n), some (.ok (.position n))) { f with cursor := n }
  | seekCurrent (f : Flat) (off : ℤ) (n : ℕ) (h : (f.cursor : ℤ) + off = n) :
      FlatStep start f (.seek (.current off), some (.ok (.position n))) { f with cursor := n }
  | fillBuf (f : Flat) (k : ℕ) (h : 0 < k) :
      FlatStep start f (.fillBuf, some (.ok (.slice (slice f.bytes (start + f.cursor) k)))) f
  | consume (f : Flat) (amt : ℕ) :
      FlatStep start f (.consume amt, some (.ok .unit)) { f with cursor := f.cursor + amt }
  | read (f : Flat) (buf : List UInt8) :
      FlatStep start f
        (.read buf, some (.ok (.filled (slice f.bytes (start + f.cursor) buf.length) buf.length)))
        { f with cursor := f.cursor + buf.length }
  | write (f : Flat) (toWrite : List UInt8) :
      FlatStep start f (.write toWrite, some (.ok (.count toWrite.length)))
        ⟨patch f.bytes (start + f.cursor) toWrite, f.cursor + toWrite.length⟩
  | flush (f : Flat) : FlatStep start f (.flush, some (.ok .unit)) f

/-- The call keeps to a medium of `M` bytes: it transfers bytes at positions below `M` only, and
moves the cursor to an address that fits in `usize`. -/
def Inside (M : ℕ) (d : OffsetScsiDevice σ) : Op → Prop
  | .seek (.start n) => d.partitionStart + n < 2 ^ 64
  | .seek (.current off) =>
    0 ≤ (d.partitionIdx : ℤ) + off ∧ d.partitionStart + ((d.partitionIdx : ℤ) + off) < 2 ^ 64
  | .seek (.fromEnd _) => False
  | .fillBuf => d.pos < M
  | .consume amt => d.pos + amt < 2 ^ 64
  | .read buf => d.pos + buf.length ≤ M
  | .write toWrite => d.pos + toWrite.length ≤ M
  | .flush => True

instance (M : ℕ) (d : OffsetScsiDevice σ) : (op : Op) → Decidable (Inside M d op)
  | .seek (.start _) => inferInstanceAs (Decidable (_ < _))
  | .seek (.current _) => inferInstanceAs (Decidable (_ ∧ _))
  | .seek (.fromEnd _) => inferInstanceAs (Decidable False)
  | .fillBuf => inferInstanceAs (Decidable (_ < _))
  | .consume _ => inferInstanceAs (Decidable (_ < _))
  | .read _ => inferInstanceAs (Decidable (_ ≤ _))
  | .write _ => inferInstanceAs (Decidable (_ ≤ _))
  | .flush => inferInstanceAs (Decidable True)

/-! ## Recorded transfers -/

section Recorded

/-- No transfer recorded so far has failed. -/
def AllOk (d : OffsetScsiDevice (σ × List Transfer)) : Prop := ∀ t ∈ d.device.2, t.ok = true

instance (d : OffsetScsiDevice (σ × List Transfer)) : Decidable (AllOk d) :=
  inferInstanceAs (Decidable (∀ t ∈ d.device.2, t.ok = true))

/-- The log of `d'` extends that of `d`. -/
def LogGrows (d d' : OffsetScsiDevice (σ × List Transfer)) : Prop := d.device.2 <+: d'.device.2

variable {m : ScsiCrate σ} {d d' d'' : OffsetScsiDevice (σ × List Transfer)}

theorem LogGrows.refl (d : OffsetScsiDevice (σ × List Transfer)) : LogGrows d d :=
  List.prefix_refl _

theorem LogGrows.trans (h₁ : LogGrows d d') (h₂ : LogGrows d' d'') : LogGrows d d'' :=
  List.IsPrefix.trans h₁ h₂

theorem LogGrows.allOk (h : LogGrows d d') (hok : AllOk d') : AllOk d :=
  fun t ht => hok t (h.subset ht)

theorem flush_grows (d : OffsetScsiDevice (σ × List Transfer)) :
    LogGrows d (d.flush m.recorded).state := by
  unfold flush
  split
  · split <;> next hw =>
      simp only [ScsiCrate.recorded, Prod.mk.injEq] at hw
      obtain ⟨-, -, rfl⟩ := hw
      exact List.prefix_append _ _
  · exact .refl d

theorem clearBuffer_grows (d : OffsetScsiDevice (σ × List Transfer)) :
    LogGrows d (d.clearBuffer m.recorded).state := by
  unfold clearBuffer
  split <;> exact .refl _

theorem evict_grows (d : OffsetScsiDevice (σ × List Transfer)) :
    LogGrows d (d.evict m.recorded).state := by
  unfold evict
  split
  · exact Outcome.andThen_rel (fun _ _ _ => .trans) (flush_grows d)
      (fun _ d₁ _ => clearBuffer_grows d₁)
  · exact .refl d

theorem load_grows (d : OffsetScsiDevice (σ × List Transfer)) :
    LogGrows d (d.load m.recorded).state := by
  unfold load
  dsimp only
  split
  · split <;> next hr =>
      simp only [ScsiCrate.recorded, Prod.mk.injEq] at hr
      obtain ⟨-, -, rfl⟩ := hr
      exact List.prefix_append _ _
  · exact .refl d

theorem rest_state {m : ScsiCrate σ} (d : OffsetScsiDevice σ) : (d.rest m).state = d := by
  unfold rest
  split <;> rfl

theorem fillBuf_grows (d : OffsetScsiDevice (σ × List Transfer)) :
    LogGrows d (d.fillBuf m.recorded).state := by
  refine Outcome.andThen_rel (fun _ _ _ => .trans) (evict_grows d) (fun _ d₁ _ => ?_)
  refine Outcome.andThen_rel (fun _ _ _ => .trans) (load_grows d₁) (fun _ d₂ _ => ?_)
  rw [rest_state]
  exact .refl d₂

theorem readLoop_grows : ∀ (cells : List UInt8) (i : ℕ) (d : OffsetScsiDevice (σ × List Transfer)),
    LogGrows d (readLoop m.recorded cells i d).2.state
  | [], i, d => .refl d
  | cell :: cells, i, d => by
    have hf := fillBuf_grows (m := m) d
    rw [readLoop]
    cases h : d.fillBuf m.recorded with
    | err e d₁ => rw [h] at hf; exact hf
    | panicked d₁ => rw [h] at hf; exact hf
    | ok bytes d₁ =>
      rw [h] at hf
      cases bytes with
      | nil => exact hf
      | cons byte bytes => exact hf.trans (readLoop_grows cells (i + 1) (d₁.consume 1))

theorem storeByte_device {m : ScsiCrate σ} {d d' : OffsetScsiDevice σ} {byte : UInt8}
    (h : d.storeByte m byte = some d') : d'.device = d.device := by
  rcases storeByte_cases h with rfl | ⟨old, -, -, rfl⟩
  · rfl
  · rfl

theorem writeLoop_grows : ∀ (bytes : List UInt8) (i : ℕ) (d : OffsetScsiDevice (σ × List Transfer)),
    LogGrows d (writeLoop m.recorded bytes i d).state
  | [], i, d => .refl d
  | byte :: bytes, i, d => by
    rw [writeLoop]
    refine Outcome.andThen_rel (fun _ _ _ => .trans) (fillBuf_grows d) (fun _ d₁ _ => ?_)
    split
    · exact .refl d₁
    · cases hs : d₁.storeByte m.recorded byte with
      | none => exact .refl d₁
      | some d₂ =>
        have hdev : LogGrows d₁ (d₂.consume 1) := by
          have hsame : d₂.device = d₁.device := storeByte_device hs
          show d₁.device.2 <+: d₂.device.2
          exact hsame ▸ List.prefix_refl _
        exact hdev.trans (writeLoop_grows bytes (i + 1) (d₂.consume 1))

theorem exec_grows (d : OffsetScsiDevice (σ × List Transfer)) (op : Op) :
    LogGrows d (d.exec m.recorded op).state := by
  cases op with
  | seek pos => cases pos <;> exact .refl d
  | fillBuf =>
    exact Outcome.andThen_rel (fun _ _ _ => .trans) (fillBuf_grows d) (fun _ _ _ => .refl _)
  | consume amt => exact .refl d
  | read buf =>
    exact Outcome.andThen_rel (fun _ _ _ => .trans) (readLoop_grows buf 0 d) (fun _ _ _ => .refl _)
  | write toWrite =>
    exact Outcome.andThen_rel (fun _ _ _ => .trans) (writeLoop_grows toWrite 0 d)
      (fun _ _ _ => .refl _)
  | flush =>
    exact Outcome.andThen_rel (fun _ _ _ => .trans) (flush_grows d) (fun _ _ _ => .refl _)

/-! ### Calls whose transfers succeed return `Ok` -/

theorem flush_ok_of_allOk (h : AllOk (d.flush m.recorded).state) :
    ∃ d', d.flush m.recorded = .ok () d' := by
  unfold flush at h ⊢
  split
  · next hn =>
    rw [if_pos hn] at h
    split
    · exact ⟨_, rfl⟩
    · next e buf st hw =>
      rw [hw] at h
      simp only [ScsiCrate.recorded, Prod.mk.injEq] at hw
      obtain ⟨he, -, rfl⟩ := hw
      -- the failed write is the last transfer of the log
      have hlast := h (.write _ _) (List.mem_append_right _ (List.mem_singleton_self _))
      rw [he] at hlast
      cases hlast
  · exact ⟨d, rfl⟩

theorem load_ok_of_allOk (h : AllOk (d.load m.recorded).state) :
    ∃ d', d.load m.recorded = .ok () d' := by
  unfold load at h ⊢
  dsimp only at h ⊢
  split
  · next hn =>
    rw [if_pos hn] at h
    split
    · exact ⟨_, rfl⟩
    · next e buf st hr =>
      rw [hr] at h
      simp only [ScsiCrate.recorded, Prod.mk.injEq] at hr
      obtain ⟨he, -, rfl⟩ := hr
      have hlast := h (.read _ _) (List.mem_append_right _ (List.mem_singleton_self _))
      rw [he] at hlast
      cases hlast
  · exact ⟨d, rfl⟩

variable {M : ℕ} {medium : σ → ℕ → UInt8} (hm : FlatMedium m M medium)
include hm

theorem evict_ok_of_allOk (h : AllOk (d.evict m.recorded).state) :
    ∃ d', d.evict m.recorded = .ok () d' := by
  unfold evict at h ⊢
  split
  · next hn =>
    rw [if_pos hn] at h
    have hgrow : LogGrows (d.flush m.recorded).state
        ((d.flush m.recorded).andThen fun _ d => d.clearBuffer m.recorded).state :=
      Outcome.andThen_rel (fun _ _ _ => .trans) (.refl _) (fun _ d₁ _ => clearBuffer_grows d₁)
    obtain ⟨d₁, hf⟩ := flush_ok_of_allOk (hgrow.allOk h)
    rw [hf, Outcome.andThen_ok, clearBuffer_eq hm.recorded.toBufferLaws]
    exact ⟨_, rfl⟩
  · exact ⟨d, rfl⟩

theorem fillBuf_ok_of_allOk (hc : Coherent m.recorded M (fun st => medium st.1) d)
    (hpos : d.pos < M) (h : AllOk (d.fillBuf m.recorded).state) :
    ∃ bytes d', d.fillBuf m.recorded = .ok bytes d' := by
  have hgrow : LogGrows (d.evict m.recorded).state (d.fillBuf m.recorded).state := by
    refine Outcome.andThen_rel (fun _ _ _ => .trans) (.refl _) (fun _ d₁ _ => ?_)
    refine Outcome.andThen_rel (fun _ _ _ => .trans) (load_grows d₁) (fun _ d₂ _ => ?_)
    rw [rest_state]
    exact .refl d₂
  obtain ⟨d₁, he⟩ := evict_ok_of_allOk hm (hgrow.allOk h)
  obtain ⟨hk₁, hb⟩ := evict_ok hm.recorded hc hpos he
  have hpos₁ : d₁.pos < M := by rw [hk₁.pos_eq]; exact hpos
  rw [fillBuf, he, Outcome.andThen_ok] at h ⊢
  have hgrow₁ : LogGrows (d₁.load m.recorded).state
      ((d₁.load m.recorded).andThen fun _ d => d.rest m.recorded).state := by
    refine Outcome.andThen_rel (fun _ _ _ => .trans) (.refl _) (fun _ d₂ _ => ?_)
    rw [rest_state]
    exact .refl d₂
  obtain ⟨d₂, hl⟩ := load_ok_of_allOk (hgrow₁.allOk h)
  rw [← hk₁.pos_eq] at hb
  obtain ⟨-, -, hbuf, -⟩ := load_ok hm.recorded hk₁.coherent hpos₁ hb hl
  refine ⟨d₂.blockBuffer.inner.drop (d₂.offsetFromCurBlock m.recorded), d₂, ?_⟩
  rw [hl, Outcome.andThen_ok]
  exact rest_eq hm.blockSize_pos (by rw [hbuf, length_slice])

theorem readLoop_ok_of_allOk :
    ∀ (cells : List UInt8) (i : ℕ) (d : OffsetScsiDevice (σ × List Transfer)),
      Coherent m.recorded M (fun st => medium st.1) d → d.pos + cells.length ≤ M →
      AllOk (readLoop m.recorded cells i d).2.state →
      ∃ n d', (readLoop m.recorded cells i d).2 = .ok n d'
  | [], i, d, _, _, _ => ⟨i, d, rfl⟩
  | cell :: cells, i, d, hc, hin, h => by
    simp only [List.length_cons] at hin
    have hM := hm.size_le
    have hpos : d.pos < M := by omega
    rw [readLoop] at h ⊢
    have hfill : AllOk (d.fillBuf m.recorded).state := by
      cases hf : d.fillBuf m.recorded with
      | err e d₁ => rw [hf] at h; exact h
      | panicked d₁ => rw [hf] at h; exact h
      | ok bytes d₁ =>
        rw [hf] at h
        cases bytes with
        | nil => exact h
        | cons byte bytes => exact (readLoop_grows cells (i + 1) (d₁.consume 1)).allOk h
    obtain ⟨bytes, d₁, hf⟩ := fillBuf_ok_of_allOk hm hc hpos hfill
    have hk := (fillBuf_ok hm.recorded hc hpos hf).1
    rw [hf] at h ⊢
    cases bytes with
    | nil => exact ⟨_, _, rfl⟩
    | cons byte bytes =>
      have hp : d₁.pos + 1 < 2 ^ 64 := by rw [hk.pos_eq]; omega
      exact readLoop_ok_of_allOk cells (i + 1) (d₁.consume 1) (hk.coherent.moved _)
        (by rw [pos_consume hp, hk.pos_eq]; omega) h

theorem writeLoop_ok_of_allOk :
    ∀ (bytes : List UInt8) (i : ℕ) (d : OffsetScsiDevice (σ × List Transfer)),
      Coherent m.recorded M (fun st => medium st.1) d → d.pos + bytes.length ≤ M →
      AllOk (writeLoop m.recorded bytes i d).state →
      ∃ n d', writeLoop m.recorded bytes i d = .ok n d'
  | [], i, d, _, _, _ => ⟨i, d, rfl⟩
  | byte :: bytes, i, d, hc, hin, h => by
    simp only [List.length_cons] at hin
    have hM := hm.size_le
    have hpos : d.pos < M := by omega
    have hstep : LogGrows (d.fillBuf m.recorded).state
        (writeLoop m.recorded (byte :: bytes) i d).state := by
      rw [writeLoop]
      refine Outcome.andThen_rel (fun _ _ _ => .trans) (.refl _) (fun _ d₁ _ => ?_)
      split
      · exact .refl d₁
      · cases hs : d₁.storeByte m.recorded byte with
        | none => exact .refl d₁
        | some d₂ =>
          have hdev : LogGrows d₁ (d₂.consume 1) := by
            have hsame : d₂.device = d₁.device := storeByte_device hs
            show d₁.device.2 <+: d₂.device.2
            exact hsame ▸ List.prefix_refl _
          exact hdev.trans (writeLoop_grows bytes (i + 1) (d₂.consume 1))
    obtain ⟨_, d₁, hf⟩ := fillBuf_ok_of_allOk hm hc hpos (hstep.allOk h)
    obtain ⟨hk, hnum, hbuf, -⟩ := fillBuf_ok hm.recorded hc hpos hf
    have hlen : d₁.blockBuffer.inner.length = m.recorded.blockSize := by
      rw [hbuf, length_slice]
    obtain ⟨d₂, hs, hc₂, -, hst₂, hid₂⟩ := storeByte_spec hm.recorded hk.coherent
      (by rw [hk.pos_eq]; exact hpos) (by rw [hk.pos_eq]; exact hnum) hlen byte
    rw [writeLoop, hf, Outcome.andThen_ok] at h ⊢
    split
    · exact ⟨_, _, rfl⟩
    · next hne =>
      rw [if_neg hne, hs] at h
      rw [hs]
      have hp₂ : d₂.pos = d.pos := by
        unfold pos
        rw [hst₂, hid₂, hk.start_eq, hk.idx_eq]
      have hp : d₂.pos + 1 < 2 ^ 64 := by omega
      exact writeLoop_ok_of_allOk bytes (i + 1) (d₂.consume 1) (hc₂.moved _)
        (by rw [pos_consume hp]; omega) h

/-- **A call inside the medium whose transfers succeed returns `Ok`.** -/
theorem exec_ok (hc : Coherent m.recorded M (fun st => medium st.1) d) {op : Op}
    (hin : Inside M d op) (h : AllOk (d.exec m.recorded op).state) :
    ∃ resp d', d.exec m.recorded op = .ok resp d' := by
  cases op with
  | seek pos =>
    cases pos with
    | start n => exact ⟨_, _, rfl⟩
    | current off => exact ⟨_, _, rfl⟩
    | fromEnd off => exact hin.elim
  | fillBuf =>
    have hgrow : LogGrows (d.fillBuf m.recorded).state (d.exec m.recorded .fillBuf).state :=
      Outcome.andThen_rel (fun _ _ _ => .trans) (.refl _) (fun _ _ _ => .refl _)
    obtain ⟨bytes, d', hf⟩ := fillBuf_ok_of_allOk hm hc hin (hgrow.allOk h)
    exact ⟨_, d', by rw [exec, hf, Outcome.andThen_ok]⟩
  | consume amt => exact ⟨_, _, rfl⟩
  | read buf =>
    have hgrow : LogGrows (d.read m.recorded buf).2.state (d.exec m.recorded (.read buf)).state :=
      Outcome.andThen_rel (fun _ _ _ => .trans) (.refl _) (fun _ _ _ => .refl _)
    obtain ⟨n, d', hr⟩ := readLoop_ok_of_allOk hm buf 0 d hc hin (hgrow.allOk h)
    exact ⟨_, d', by rw [exec, read, hr, Outcome.andThen_ok]⟩
  | write toWrite =>
    have hgrow : LogGrows (d.write m.recorded toWrite).state
        (d.exec m.recorded (.write toWrite)).state :=
      Outcome.andThen_rel (fun _ _ _ => .trans) (.refl _) (fun _ _ _ => .refl _)
    obtain ⟨n, d', hw⟩ := writeLoop_ok_of_allOk hm toWrite 0 d hc hin (hgrow.allOk h)
    exact ⟨_, d', by rw [exec, write, hw, Outcome.andThen_ok]⟩
  | flush =>
    have hgrow : LogGrows (d.flush m.recorded).state (d.exec m.recorded .flush).state :=
      Outcome.andThen_rel (fun _ _ _ => .trans) (.refl _) (fun _ _ _ => .refl _)
    obtain ⟨d', hf⟩ := flush_ok_of_allOk (hgrow.allOk h)
    exact ⟨_, d', by rw [exec, hf, Outcome.andThen_ok]⟩

end Recorded

/-! ## The simulation -/

section Simulation

variable {m : ScsiCrate σ} {M : ℕ} {medium : σ → ℕ → UInt8}

/-- The device shows the bytes of the flat array and has its cursor. -/
structure Shows (m : ScsiCrate σ) (M : ℕ) (medium : σ → ℕ → UInt8) (start : ℕ)
    (d : OffsetScsiDevice σ) (f : Flat) : Prop where
  coherent : Coherent m M medium d
  bytes : view m medium d = f.bytes
  start_eq : d.partitionStart = start
  cursor : d.partitionIdx = f.cursor
  cursor_lt : d.partitionIdx < 2 ^ 64

theorem Shows.pos_eq {start : ℕ} {d : OffsetScsiDevice σ} {f : Flat}
    (hs : Shows m M medium start d f) : d.pos = start + f.cursor := by
  unfold pos
  rw [hs.start_eq, hs.cursor]

/-- The target of a relative seek that keeps to `usize` is the mathematical one. -/
theorem seek_current_target {idx : ℕ} {off : ℤ} (hidx : idx < 2 ^ 64) (h0 : 0 ≤ (idx : ℤ) + off)
    (h1 : (idx : ℤ) + off < 2 ^ 64) :
    (idx : ℤ) + off = ((if off < 0 then usizeSub idx (i64AsUsize (i64Abs off))
      else usizeAdd idx (i64AsUsize (i64Abs off)) : ℕ) : ℤ) := by
  rw [i64AsUsize_i64Abs (by omega)]
  split
  · rw [usizeSub_of_le hidx (by omega)]
    omega
  · rw [usizeAdd_of_lt (by omega)]
    omega

/-- **One call**: a call inside the medium that returns `Ok` answers as the flat array does. -/
theorem exec_simulates (hm : FlatMedium m M medium) {start : ℕ} {d d' : OffsetScsiDevice σ}
    {f : Flat} {op : Op} {resp : Resp} (hs : Shows m M medium start d f) (hin : Inside M d op)
    (h : d.exec m op = .ok resp d') :
    ∃ f', FlatStep start f (op, some (.ok resp)) f' ∧ Shows m M medium start d' f' := by
  obtain ⟨hc, hv, hst, hcur, hlt⟩ := hs
  have hpos : d.pos = start + f.cursor := by unfold pos; rw [hst, hcur]
  have hM := hm.size_le
  cases op with
  | seek pos =>
    cases pos with
    | start n =>
      cases h
      have hn : d.partitionStart + n < 2 ^ 64 := hin
      exact ⟨_, .seekStart f n, hc.moved n, hv, hst, rfl, by dsimp only; omega⟩
    | current off =>
      cases h
      obtain ⟨h0, h1⟩ := hin
      have ht := seek_current_target hlt h0 (by omega)
      refine ⟨_, .seekCurrent f off _ (by rw [← hcur]; exact ht), hc.moved _, hv, hst, rfl, ?_⟩
      dsimp only
      omega
    | fromEnd off => exact hin.elim
  | fillBuf =>
    obtain ⟨bytes, d₁, hf, hr⟩ := Outcome.andThen_eq_ok.mp h
    cases hr
    obtain ⟨hk, -, -, hbytes⟩ := fillBuf_ok hm hc hin hf
    have hmod := Nat.mod_lt d.pos hm.blockSize_pos
    rw [hv, hpos] at hbytes
    refine ⟨f, ?_, hk.coherent, hk.view_eq.trans hv, hk.start_eq.trans hst, hk.idx_eq.trans hcur,
      by rw [hk.idx_eq]; exact hlt⟩
    rw [hbytes]
    exact .fillBuf f _ (by rw [← hpos]; omega)
  | consume amt =>
    cases h
    have hamt : d.pos + amt < 2 ^ 64 := hin
    have hidx := partitionIdx_consume hamt
    refine ⟨_, .consume f amt, hc.moved _, hv, hst, by rw [hidx, hcur], ?_⟩
    rw [hidx]
    unfold OffsetScsiDevice.pos at hamt
    omega
  | read buf =>
    have hlen : d.pos + buf.length ≤ M := hin
    obtain ⟨n, d₁, hr, he⟩ := Outcome.andThen_eq_ok.mp h
    cases he
    obtain ⟨h1, rfl, h3, h4, h5, h6⟩ := readLoop_ok hm buf 0 n d d' hc hin hr
    refine ⟨{ f with cursor := f.cursor + buf.length }, ?_, h3, h4.trans hv, h5.trans hst,
      h6.trans (by rw [hcur]), ?_⟩
    · rw [read, h1, hv, hpos, Nat.zero_add]
      exact .read f buf
    · rw [h6]
      unfold OffsetScsiDevice.pos at hlen
      omega
  | write toWrite =>
    have hlen : d.pos + toWrite.length ≤ M := hin
    obtain ⟨n, d₁, hw, he⟩ := Outcome.andThen_eq_ok.mp h
    cases he
    obtain ⟨rfl, h3, h4, h5, h6⟩ := writeLoop_ok hm toWrite 0 n d d' hc hin hw
    refine ⟨⟨patch f.bytes (start + f.cursor) toWrite, f.cursor + toWrite.length⟩, ?_, h3,
      h4.trans (by rw [hv, hpos]), h5.trans hst, h6.trans (by rw [hcur]), ?_⟩
    · rw [Nat.zero_add]
      exact .write f toWrite
    · rw [h6]
      unfold OffsetScsiDevice.pos at hlen
      omega
  | flush =>
    obtain ⟨_, d₁, hf, he⟩ := Outcome.andThen_eq_ok.mp h
    cases he
    have hk := (flush_ok hm hc hf).1
    exact ⟨f, .flush f, hk.coherent, hk.view_eq.trans hv, hk.start_eq.trans hst,
      hk.idx_eq.trans hcur, by rw [hk.idx_eq]; exact hlt⟩

end Simulation

/-! ## Runs -/

section Runs

variable {m : ScsiCrate σ} {M : ℕ} {medium : σ → ℕ → UInt8}

/-- Calls that keep to a medium of `M` bytes. -/
abbrev InsideStep (m : ScsiCrate σ) (M : ℕ) :
    OffsetScsiDevice σ → Label → OffsetScsiDevice σ → Prop :=
  Guard (Step m) fun d l => Inside M d l.1

/-- Along a run inside the medium none of whose transfers has failed, every call returns `Ok` and
answers as the flat array does. -/
theorem run_shows (hm : FlatMedium m M medium) {start : ℕ}
    {d d' : OffsetScsiDevice (σ × List Transfer)} {ls : List Label}
    (hrun : Run (InsideStep m.recorded M) d ls d') (hok : AllOk d') :
    AllOk d ∧ ∀ f, Shows m.recorded M (fun st => medium st.1) start d f →
      ∃ f', Run (FlatStep start) f ls f' ∧ Shows m.recorded M (fun st => medium st.1) start d' f' := by
  induction hrun with
  | nil d => exact ⟨hok, fun f hs => ⟨f, .nil f, hs⟩⟩
  | @cons d d₁ d' l ls h _ ih =>
    obtain ⟨op, res⟩ := l
    obtain ⟨hin, hres, hst⟩ := h
    obtain ⟨hok₁, ih⟩ := ih hok
    subst hst
    refine ⟨(exec_grows d op).allOk hok₁, fun f hs => ?_⟩
    obtain ⟨resp, d₁, he⟩ := exec_ok hm hs.coherent hin hok₁
    obtain ⟨f₁, hstep, hs₁⟩ := exec_simulates hm.recorded hs hin he
    simp only [he, Outcome.result, Outcome.state_ok] at hres ih
    obtain ⟨f', hr, hs'⟩ := ih f₁ hs₁
    exact ⟨f', .cons (hres ▸ hstep) hr, hs'⟩

/-- The same with the cursor, and with the medium where the run ends with a flush. -/
theorem run_shows_flushed (hm : FlatMedium m M medium) {start : ℕ}
    {d d' : OffsetScsiDevice (σ × List Transfer)} {ls : List Label} {f : Flat}
    (hs : Shows m.recorded M (fun st => medium st.1) start d f)
    (hrun : Run (InsideStep m.recorded M) d ls d') (hok : AllOk d') :
    ∃ f', Run (FlatStep start) f ls f' ∧ f'.cursor = d'.partitionIdx ∧
      ∀ ls₀ res, ls = ls₀ ++ [(.flush, res)] → medium d'.device.1 = f'.bytes := by
  obtain ⟨f', hf, hs'⟩ := (run_shows hm hrun hok).2 f hs
  refine ⟨f', hf, hs'.cursor.symm, ?_⟩
  rintro ls₀ res rfl
  obtain ⟨d₁, hrun₁, -, -, hst⟩ := hrun.last
  -- before the last flush the device shows some flat array, after it the medium is that array
  subst hst
  have hok₁ := (exec_grows d₁ .flush).allOk hok
  obtain ⟨f₁, -, hs₁⟩ := (run_shows hm hrun₁ hok₁).2 f hs
  have hin : Inside M d₁ .flush := trivial
  obtain ⟨resp, d₂, he⟩ := exec_ok hm hs₁.coherent hin hok
  obtain ⟨_, d₃, hfl, he'⟩ := Outcome.andThen_eq_ok.mp he
  obtain ⟨hk, hmed, -, -⟩ := flush_ok hm.recorded hs₁.coherent hfl
  rw [he] at hs' ⊢
  cases he'
  exact hmed.trans (hk.view_eq.symm.trans hs'.bytes)

/-- **Refinement.**  A run of calls inside the medium, from a new device, none of whose transfers
has failed, is a run of the flat array holding the medium's bytes, with the same answers; and where
it ends with a flush, the medium holds the array. -/
theorem run_refines_flat (hm : FlatMedium m M medium) {st : σ} {start : ℕ}
    {d : OffsetScsiDevice (σ × List Transfer)} {ls : List Label}
    (hrun : Run (InsideStep m.recorded M) (new m.recorded (st, []) start) ls d) (hok : AllOk d) :
    ∃ f, Run (FlatStep start) ⟨medium st, 0⟩ ls f ∧ f.cursor = d.partitionIdx ∧
      ∀ ls₀ res, ls = ls₀ ++ [(.flush, res)] → medium d.device.1 = f.bytes :=
  run_shows_flushed hm ⟨coherent_new _ _, view_new _ _, rfl, rfl, Nat.two_pow_pos 64⟩ hrun hok

/-- A write across a block boundary, read back and flushed. -/
def crossing : List Op :=
  [.write [9, 8], .seek (.current (-2)), .fillBuf, .read [0, 0], .flush]

/-- A disk of two blocks of two bytes, seen from address 1 on. -/
def smallDisk : OffsetScsiDevice (ScriptedDisk × List Transfer) :=
  new (scriptedDisk 2).recorded (⟨fun x => x.toUInt8, []⟩, []) 1

theorem run_refines_flat_crossing :
    ∃ f, Run (FlatStep 1) ⟨fun x => x.toUInt8, 0⟩
        (trace (scriptedDisk 2).recorded smallDisk crossing) f ∧
      f.cursor = (execAll (scriptedDisk 2).recorded smallDisk crossing).partitionIdx ∧
      ∀ ls₀ res, trace (scriptedDisk 2).recorded smallDisk crossing = ls₀ ++ [(.flush, res)] →
        (execAll (scriptedDisk 2).recorded smallDisk crossing).device.1.bytes = f.bytes := by
  have hm : FlatMedium (scriptedDisk 2) 4 ScriptedDisk.bytes :=
    scriptedDisk_flatMedium (by decide) (by decide) (by decide)
  have hin : Along (scriptedDisk 2).recorded (Inside 4) smallDisk crossing := by decide
  have hok : AllOk (execAll (scriptedDisk 2).recorded smallDisk crossing) := by decide
  exact run_refines_flat hm (run_trace _ hin) hok

end Runs

end FatDrive.OffsetScsiDevice
