import FatDrive.BufScsiTear
import FatDrive.Partition

/-!
# FatDrive.BufScsiFrame — which blocks the cache writes back

The address of a write-back is computed from `loadedBlockNumber` when the block is flushed, long
after a byte was stored in it, and `needsFlush` may outlive the buffer after a failed flush.  Over a
recorded device, `changesAll` lists the bytes the `write` calls of a run have stored where the buffer
held another one, each with the number of transfers made before.

* `Written S`: what is pending, and what was ever written back, is a block with a change of `S`;
* `fillBuf_written`, `flush_written`: no transfer, failed or not, leaves it;
* `writes_follow_changes`: so every write-back of a run goes to a block changed before.

Nothing is asked of the transfers: they may fail in any way and leave anything in the buffer.
-/

namespace FatDrive.OffsetScsiDevice

open Lib

variable {σ : Type}

/-- A byte was stored at `addr` where the buffer held another one, after so many transfers. -/
structure Change where
  addr : ℕ
  transfers : ℕ
  deriving DecidableEq, Repr

/-- The address of the block the change is in. -/
def Change.block (m : ScsiCrate σ) (c : Change) : ℕ := c.addr / m.blockSize * m.blockSize

/-- What storing `byte` at the cursor, in the block just filled, changes. -/
def changeNow (m : ScsiCrate σ) (d : OffsetScsiDevice (σ × List Transfer)) (byte : UInt8) :
    List Change :=
  if d.blockBuffer.inner[d.offsetFromCurBlock m.recorded]? = some byte then []
  else [⟨d.pos, d.device.2.length⟩]

/-- What the loop of `write` changes. -/
def writeChanges (m : ScsiCrate σ) :
    List UInt8 → OffsetScsiDevice (σ × List Transfer) → List Change
  | [], _ => []
  | byte :: bytes, d =>
    match d.fillBuf m.recorded with
    | .ok _ d =>
      if m.recorded.isEmpty d.blockBuffer then []
      else
        match d.storeByte m.recorded byte with
        | some d' => d.changeNow m byte ++ writeChanges m bytes (d'.consume 1)
        | none => []
    | _ => []

/-- What a call changes. -/
def changes (m : ScsiCrate σ) (d : OffsetScsiDevice (σ × List Transfer)) : Op → List Change
  | .write toWrite => writeChanges m toWrite d
  | _ => []

/-- What a list of calls changes. -/
def changesAll (m : ScsiCrate σ) : OffsetScsiDevice (σ × List Transfer) → List Op → List Change
  | _, [] => []
  | d, op :: ops => changes m d op ++ changesAll m (d.exec m.recorded op).state ops

/-- Every write-back so far, and the one pending, is of a block with an earlier change of `S`. -/
structure Written (m : ScsiCrate σ) (S : List Change)
    (d : OffsetScsiDevice (σ × List Transfer)) : Prop where
  pending : d.needsFlush = true → ∃ c ∈ S, c.transfers ≤ d.device.2.length ∧
    asU32 (d.bufferedBlockRawIdx m.recorded) = c.block m
  logged : ∀ i addr ok, d.device.2[i]? = some (.write addr ok) →
    ∃ c ∈ S, c.transfers ≤ i ∧ addr = c.block m

variable {m : ScsiCrate σ} {M : ℕ} {S : List Change}
  {d d' : OffsetScsiDevice (σ × List Transfer)}

/-- Nothing was asked for yet and nothing is pending. -/
theorem written_clean {d : OffsetScsiDevice σ} (hn : d.needsFlush = false) :
    Written m S d.startRecording where
  pending := by
    intro h
    have : d.needsFlush = true := h
    rw [hn] at this
    cases this
  logged := by
    intro i addr ok h
    simp [startRecording] at h

theorem Written.moved (h : Written m S d) (n : ℕ) : Written m S { d with partitionIdx := n } :=
  ⟨h.pending, h.logged⟩

/-- One transfer more in the log keeps what the log is about. -/
theorem logged_append (h : Written m S d) {t : Transfer}
    (ht : ∀ addr ok, t = .write addr ok →
      ∃ c ∈ S, c.transfers ≤ d.device.2.length ∧ addr = c.block m) :
    ∀ i addr ok, (d.device.2 ++ [t])[i]? = some (.write addr ok) →
      ∃ c ∈ S, c.transfers ≤ i ∧ addr = c.block m := by
  intro i addr ok hi
  rcases Nat.lt_trichotomy i d.device.2.length with hlt | heq | hgt
  · rw [List.getElem?_append_left hlt] at hi
    exact h.logged i addr ok hi
  · subst heq
    rw [List.getElem?_append_right (Nat.le_refl _), Nat.sub_self] at hi
    exact ht addr ok (Option.some.inj hi)
  · rw [List.getElem?_eq_none (by simp; omega)] at hi
    cases hi

/-! ### One call -/

theorem flush_written (h : Written m S d) : Written m S (d.flush m.recorded).state := by
  unfold flush
  by_cases hn : d.needsFlush = true
  · obtain ⟨c, hc, hle, hblock⟩ := h.pending hn
    -- the transfer logged goes to the block that was pending
    have hlog : ∀ ok, ∀ i addr k, (d.device.2 ++
        [.write (asU32 (d.bufferedBlockRawIdx m.recorded)) ok])[i]? = some (.write addr k) →
        ∃ c ∈ S, c.transfers ≤ i ∧ addr = c.block m := by
      intro ok
      refine logged_append h (fun addr k ht => ?_)
      cases ht
      exact ⟨c, hc, hle, hblock⟩
    rw [if_pos hn]
    split <;> next hw =>
      simp only [ScsiCrate.recorded, Prod.mk.injEq] at hw
      obtain ⟨-, rfl, rfl⟩ := hw
      refine ⟨fun hd => ?_, hlog _⟩
      first
      | exact absurd hd Bool.false_ne_true
      | exact ⟨c, hc, by simp; omega, hblock⟩
  · rw [if_neg hn]
    exact h

/-- After a flush that returns `Ok` nothing is pending. -/
theorem flush_needsFlush {σ : Type} {m : ScsiCrate σ} {d d' : OffsetScsiDevice σ}
    (h : d.flush m = .ok () d') : d'.needsFlush = false := by
  rcases flush_eq_ok h with ⟨hn, rfl⟩ | ⟨-, n, buf, st, -, rfl⟩
  · exact hn
  · rfl

/-- Loading a block marks nothing, and gives the buffer the number of the block under the cursor or
leaves the one it has. -/
theorem load_number {σ : Type} {m : ScsiCrate σ} (d : OffsetScsiDevice σ) :
    (d.load m).state.needsFlush = d.needsFlush ∧
      ((d.load m).state.loadedBlockNumber = d.loadedBlockNumber ∨
        (d.load m).state.loadedBlockNumber = d.curBlockNumber m) := by
  unfold load
  dsimp only
  split
  · split
    · exact ⟨rfl, Or.inr rfl⟩
    · exact ⟨rfl, Or.inl rfl⟩
  · exact ⟨rfl, Or.inl rfl⟩

/-- The second part may give the buffer another number, but not while anything is pending. -/
theorem load_written (h : Written m S d)
    (hcur : d.needsFlush = false ∨ d.loadedBlockNumber = d.curBlockNumber m.recorded) :
    Written m S (d.load m.recorded).state := by
  by_cases he : m.recorded.isEmpty d.blockBuffer = true
  · obtain ⟨ok, hlog⟩ := load_asks he
    obtain ⟨hn, hnum⟩ := load_number (m := m.recorded) d
    refine ⟨fun hd => ?_, ?_⟩
    · rw [hn] at hd
      obtain ⟨c, hc, hle, hblock⟩ := h.pending hd
      have hl := hcur.resolve_left (fun hf => absurd (hd.symm.trans hf) (by simp))
      have hsame : (d.load m.recorded).state.loadedBlockNumber = d.loadedBlockNumber :=
        hnum.elim id fun hnum => hnum.trans hl.symm
      refine ⟨c, hc, ?_, ?_⟩
      · rw [hlog, List.length_append]
        omega
      · unfold bufferedBlockRawIdx
        rw [hsame]
        exact hblock
    · rw [hlog]
      exact logged_append h (fun addr k ht => by cases ht)
  · unfold load
    dsimp only
    rw [if_neg he]
    exact h

section Buffer

variable (hb : BufferLaws m)
include hb

/-- The first part of `fillBuf` leaves nothing pending but the block under the cursor. -/
theorem evict_written (h : Written m S d) : Written m S (d.evict m.recorded).state ∧
    ∀ d', d.evict m.recorded = .ok () d' →
      d'.needsFlush = false ∨ d'.loadedBlockNumber = d'.curBlockNumber m.recorded := by
  have hfl := flush_written h
  unfold evict
  split
  · cases hf : d.flush m.recorded with
    | err e d₁ => rw [hf] at hfl; exact ⟨hfl, fun d' he => by cases he⟩
    | panicked d₁ => rw [hf] at hfl; exact ⟨hfl, fun d' he => by cases he⟩
    | ok u d₁ =>
      have hn : d₁.needsFlush = false := flush_needsFlush hf
      rw [hf] at hfl
      rw [Outcome.andThen_ok, clearBuffer_eq hb.recorded]
      refine ⟨⟨hfl.pending, hfl.logged⟩, fun d' he => ?_⟩
      cases he
      exact Or.inl hn
  · next heq =>
    refine ⟨h, fun d' he => ?_⟩
    cases he
    exact Or.inr (not_not.mp heq).symm

theorem fillBuf_written (h : Written m S d) : Written m S (d.fillBuf m.recorded).state := by
  obtain ⟨hev, hcur⟩ := evict_written hb h
  refine Outcome.andThen_state hev (fun _ d₁ he => ?_)
  rw [he] at hev
  rw [andThen_rest_state]
  exact load_written hev (hcur d₁ he)

end Buffer

/-- A store into the block under the cursor, which is the buffered one. -/
theorem storeByte_written (h0 : 0 < m.blockSize) (h : Written m S d) (hpos : d.pos < 2 ^ 32)
    (hnum : d.loadedBlockNumber = d.curBlockNumber m.recorded) {byte : UInt8}
    (hS : ∀ c ∈ d.changeNow m byte, c ∈ S) (hs : d.storeByte m.recorded byte = some d') :
    Written m S d' := by
  rcases storeByte_cases hs with rfl | ⟨old, hold, hne, rfl⟩
  · exact h
  · refine ⟨fun _ => ⟨⟨d.pos, d.device.2.length⟩, hS _ ?_, Nat.le_refl _, ?_⟩, h.logged⟩
    · unfold changeNow
      rw [if_neg (by rw [hold]; exact fun he => hne (Option.some.inj he))]
      exact List.mem_singleton_self _
    · -- the block under the cursor, at an address that neither wraps nor is truncated
      have hraw : d.rawIdx = d.pos := usizeAdd_of_lt (by unfold pos at hpos; omega)
      have hle := Nat.div_mul_le_self d.pos m.blockSize
      calc asU32 (usizeMul m.recorded.blockSize d.loadedBlockNumber)
          = asU32 (d.curBlockRawIdx m.recorded) := by
            rw [hnum, mul_curBlockNumber (m := m.recorded) d h0]
        _ = asU32 (d.pos / m.blockSize * m.blockSize) := by
            rw [curBlockRawIdx_eq_block, hraw, ScsiCrate.recorded_blockSize]
        _ = d.pos / m.blockSize * m.blockSize := asU32_of_lt (by omega)

/-- All calls but `write`. -/
theorem written_kept (hb : BufferLaws m) :
    Kept m.recorded M (fun _ => True) (fun _ _ => False) (Written m S) where
  fill := fun _ h _ _ => fillBuf_written hb h
  store := fun _ _ _ _ _ _ _ _ _ hno _ => hno.elim
  moved := fun _ n _ h => h.moved n
  flush := fun _ h => flush_written h

section Calls

variable (hb : BufferLaws m) (h0 : 0 < m.blockSize) (hM : M ≤ 2 ^ 32)
include hb h0 hM

theorem writeLoop_written : ∀ (bytes : List UInt8) (i : ℕ)
    (d : OffsetScsiDevice (σ × List Transfer)), Written m S d → d.pos + bytes.length ≤ M →
    (∀ c ∈ writeChanges m bytes d, c ∈ S) → Written m S (writeLoop m.recorded bytes i d).state
  | [], i, d, h, _, _ => h
  | byte :: bytes, i, d, h, hin, hS => by
    simp only [List.length_cons] at hin
    have hcur := fillBuf_cursor (m := m.recorded) d
    have hfill := fillBuf_written hb h
    have hnum := fillBuf_loaded hb.recorded (d := d)
    rw [writeLoop]
    rw [writeChanges] at hS
    cases hf : d.fillBuf m.recorded with
    | err e d₁ => rw [hf] at hfill; exact hfill
    | panicked d₁ => rw [hf] at hfill; exact hfill
    | ok slc d₁ =>
      rw [hf] at hfill hcur hnum hS
      rw [Outcome.andThen_ok]
      dsimp only [Outcome.state_ok] at hS hcur hnum hfill
      split
      · exact hfill
      · next hne =>
        rw [if_neg hne] at hS
        cases hs : d₁.storeByte m.recorded byte with
        | none => exact hfill
        | some d₂ =>
          rw [hs] at hS
          have hp₁ : d₁.pos = d.pos := hcur.pos_eq
          have hp₂ : d₂.pos = d.pos := (hcur.trans (storeByte_cursor hs)).pos_eq
          have h₂ := storeByte_written h0 hfill (by omega)
            ((hnum rfl).trans (SameCursor.curBlockNumber_eq (m := m.recorded) hcur).symm)
            (fun c hc => hS c (List.mem_append_left _ hc)) hs
          exact writeLoop_written bytes (i + 1) (d₂.consume 1) (h₂.moved _)
            (by rw [pos_consume (by omega)]; omega) (fun c hc => hS c (List.mem_append_right _ hc))

/-- **One call** keeps to the blocks changed before or in its own course. -/
theorem exec_written {op : Op} (h : Written m S d) (hin : Inside M d op)
    (hS : ∀ c ∈ changes m d op, c ∈ S) : Written m S (d.exec m.recorded op).state := by
  have hk := written_kept (M := M) (S := S) hb
  by_cases hw : ∃ toWrite, op = .write toWrite
  · obtain ⟨toWrite, rfl⟩ := hw
    have hl := writeLoop_written hb h0 hM toWrite 0 d h hin hS
    rw [exec, write]
    cases hr : writeLoop m.recorded toWrite 0 d <;> rw [hr] at hl <;> exact hl
  · refine exec_kept (by omega) hk h hin (fun _ _ => trivial) (fun x b hst => ?_)
    obtain ⟨toWrite, i, rfl, -⟩ := hst
    exact hw ⟨toWrite, rfl⟩

theorem execAll_written : ∀ (ops : List Op) (d : OffsetScsiDevice (σ × List Transfer)),
    Written m S d → Along m.recorded (Inside M) d ops → (∀ c ∈ changesAll m d ops, c ∈ S) →
    Written m S (execAll m.recorded d ops)
  | [], _, h, _, _ => h
  | _ :: ops, _, h, ⟨hin, hal⟩, hS =>
    execAll_written ops _
      (exec_written hb h0 hM h hin fun c hc => hS c (List.mem_append_left _ hc)) hal
      (fun c hc => hS c (List.mem_append_right _ hc))

end Calls

/-! ### Runs -/

/-- Calls none of which is a `write` change nothing. -/
theorem changesAll_eq_nil : ∀ (ops : List Op) (d : OffsetScsiDevice (σ × List Transfer)),
    (∀ toWrite, .write toWrite ∉ ops) → changesAll m d ops = []
  | [], _, _ => rfl
  | op :: ops, d, hno => by
    have hop : changes m d op = [] := by
      cases op with
      | write toWrite => exact absurd (List.mem_cons_self ..) (hno toWrite)
      | _ => rfl
    rw [changesAll, hop, changesAll_eq_nil ops _ fun w hw => hno w (List.mem_cons_of_mem _ hw)]
    rfl

/-- Writing what is shown changes nothing. -/
theorem writeChanges_of_shown {medium : σ → ℕ → UInt8} (hm : FlatMedium m M medium) :
    ∀ (bytes : List UInt8) (d : OffsetScsiDevice (σ × List Transfer)),
      Coherent m.recorded M (fun st => medium st.1) d → d.pos + bytes.length ≤ M →
      bytes = slice (view m.recorded (fun st => medium st.1) d) d.pos bytes.length →
      writeChanges m bytes d = []
  | [], _, _, _, _ => rfl
  | byte :: bytes, d, hc, hin, hsl => by
    simp only [List.length_cons, slice_succ, List.cons.injEq] at hin hsl
    obtain ⟨hbyte, hsl⟩ := hsl
    have hM := hm.size_le
    have hmod := Nat.mod_lt d.pos hm.blockSize_pos
    have hdm := Nat.div_add_mod d.pos m.blockSize
    rw [writeChanges]
    cases hf : d.fillBuf m.recorded with
    | err e d₁ => rfl
    | panicked d₁ => rfl
    | ok slc d₁ =>
      obtain ⟨hk, -, hbuf, -⟩ := fillBuf_ok hm.recorded hc (by omega) hf
      have hp : d₁.pos = d.pos := hk.pos_eq
      -- the byte under the cursor is in the buffer already
      have hold : d₁.blockBuffer.inner[d₁.offsetFromCurBlock m.recorded]? = some byte := by
        rw [hbuf, offsetFromCurBlock_eq hm.recorded (by omega), hp, ScsiCrate.recorded_blockSize,
          getElem?_slice _ _ hmod, hdm, hbyte]
      have hstore : d₁.storeByte m.recorded byte = some d₁ := by
        unfold storeByte
        simp only [hold, ne_eq, not_true_eq_false, if_false]
      have hnow : d₁.changeNow m byte = [] := if_pos hold
      dsimp only
      split
      · rfl
      · rw [hstore]
        dsimp only
        rw [hnow, List.nil_append]
        refine writeChanges_of_shown hm bytes (d₁.consume 1) (hk.coherent.moved _) ?_ ?_
        · rw [pos_consume (by omega)]
          omega
        · rw [pos_consume (by omega), view_consume, hk.view_eq, hp]
          exact hsl

/-- **Write-backs follow changes.**  From a state with nothing pending, over any calls at positions
inside a device of at most `2 ^ 32` bytes, however its transfers go: each write-back is of a block in
which a `write` has stored before a byte where the buffer held another.  So calls without a `write`
write nothing back, nor do writes of the bytes the buffer holds, nor a `write` of the bytes shown. -/
theorem writes_follow_changes (hb : BufferLaws m) (h0 : 0 < m.blockSize) (hM : M ≤ 2 ^ 32)
    {d : OffsetScsiDevice σ} (hn : d.needsFlush = false) {ops : List Op}
    (hops : Along m.recorded (Inside M) d.startRecording ops) :
    (∀ i addr ok, (execAll m.recorded d.startRecording ops).device.2[i]? = some (.write addr ok) →
      ∃ c ∈ changesAll m d.startRecording ops, c.transfers ≤ i ∧ addr = c.block m) ∧
    ((∀ toWrite, .write toWrite ∉ ops) ∨ changesAll m d.startRecording ops = [] ∨
        (∃ medium toWrite, FlatMedium m M medium ∧ Coherent m M medium d ∧
          toWrite = slice (view m medium d) d.pos toWrite.length ∧ ops = [.write toWrite]) →
      ∀ addr ok, .write addr ok ∉ (execAll m.recorded d.startRecording ops).device.2) := by
  have hw := execAll_written hb h0 hM ops _ (written_clean hn) hops (fun _ hc => hc)
  refine ⟨hw.logged, fun hnone addr ok hmem => ?_⟩
  have hnil : changesAll m d.startRecording ops = [] := by
    rcases hnone with hno | hnil | ⟨medium, toWrite, hm, hc, hsl, rfl⟩
    · exact changesAll_eq_nil ops _ hno
    · exact hnil
    · have hin : d.pos + toWrite.length ≤ M := hops.1
      have hch := writeChanges_of_shown hm toWrite d.startRecording
        ⟨hc.cap, hc.full, hc.pending, hc.clean⟩ hin hsl
      rw [changesAll, changesAll, List.append_nil]
      exact hch
  obtain ⟨i, hi⟩ := List.mem_iff_getElem?.mp hmem
  obtain ⟨c, hc, -⟩ := hw.logged i addr ok hi
  rw [hnil] at hc
  cases hc

/-- One byte changed, a flush that fails and takes the block with it, and a flag that is still set
when the block has been read again. -/
def stubborn : List Op :=
  [.write [9], .flush, .seek (.start 1), .fillBuf, .seek (.start 2), .read [0, 0]]

theorem writes_follow_changes_stubborn :
    (execAll (scriptedDisk 2).recorded (faultyDisk [.none, .late]).startRecording
        stubborn).device.2 =
      [.read 0 true, .write 0 false, .read 0 true, .write 0 true, .read 2 true] ∧
    ∀ i addr ok, (execAll (scriptedDisk 2).recorded (faultyDisk [.none, .late]).startRecording
        stubborn).device.2[i]? = some (.write addr ok) →
      ∃ c ∈ changesAll (scriptedDisk 2) (faultyDisk [.none, .late]).startRecording stubborn,
        c.transfers ≤ i ∧ addr = c.block (scriptedDisk 2) := by
  have hm : FlatMedium (scriptedDisk 2) 4 ScriptedDisk.bytes :=
    scriptedDisk_flatMedium (by decide) (by decide) (by decide)
  exact ⟨rfl, (writes_follow_changes hm.toBufferLaws (by decide) hm.size_le rfl (by decide)).1⟩

end FatDrive.OffsetScsiDevice
