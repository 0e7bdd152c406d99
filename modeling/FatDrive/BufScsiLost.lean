import FatDrive.BufScsiFault

/-!
# FatDrive.BufScsiLost — what is left of the pending bytes when a flush fails

`ThroughChannel` is a faulty medium whose write hands the caller's buffer to
`UsbClient.outTransfer`.  That function pulls every byte out of the buffer before it tries the
endpoint, so a write that fails after that has taken the pending bytes with it.

* `serves_of_kept`, `serves_of_drained`: after a failed flush either the pending bytes are still
  served, to reads and to every later flush, or the medium without them;
* `failed_flush_survives_iff`: they are exactly if the write failed before the buffer was drained,
  or nothing was changed;
* `lost_write`: a byte acknowledged, lost by a failed flush, and missing after a flush that
  returned `Ok`.
-/

namespace FatDrive

open Lib

variable {σ ε : Type}

/-- A flat medium whose reads may fail before or after their data phase, and whose write hands the
buffer to `outTransfer` of a channel and returns its error, unless it fails before that. -/
structure ThroughChannel (h : UsbHost ε) (m : ScsiCrate σ) (M : ℕ) (medium : σ → ℕ → UInt8) : Prop
    extends FlatMedium m M medium where
  read_err : ∀ {st a b e b' st'}, m.blockSize ∣ a → a + m.blockSize ≤ M → b.inner = [] →
    b.fakeSize = m.blockSize → m.read st a b = (.error e, b', st') →
    (b' = b ∨ b' = { b with inner := slice (medium st) a m.blockSize }) ∧ medium st' = medium st
  write_through : ∀ st a b, ((∃ e, (m.write st a b).1 = .error e) ∧ (m.write st a b).2.1 = b) ∨
    ∃ c, (m.write st a b).2.1 = (UsbClient.outTransfer h c b).2.1 ∧
      ∀ e, (UsbClient.outTransfer h c b).1 = .error e → (m.write st a b).1 = .error e
  write_failed : ∀ {st a b e b' st'}, m.write st a b = (.error e, b', st') → medium st' = medium st

theorem ThroughChannel.faulty {h : UsbHost ε} {m : ScsiCrate σ} {M : ℕ} {medium : σ → ℕ → UInt8}
    (hm : ThroughChannel h m M medium) : FaultyMedium m M medium where
  toFlatMedium := hm.toFlatMedium
  read_err := hm.read_err
  write_err := by
    intro st a b e b' st' hw
    refine ⟨?_, hm.write_failed hw⟩
    rcases hm.write_through st a b with ⟨-, hb⟩ | ⟨c, hb, -⟩
    · rw [hw] at hb
      exact Or.inl hb
    · rw [hw] at hb
      rw [show b' = _ from hb]
      rcases UsbClient.outTransfer_buffer h c b with ⟨hout, -⟩ | hout
      · exact Or.inl hout
      · exact Or.inr hout

theorem scriptedDisk_throughChannel {bs M : ℕ} (h0 : 0 < bs) (hd : bs ∣ M) (hM : M ≤ 2 ^ 32) :
    ThroughChannel ScriptedDisk.host (scriptedDisk bs) M ScriptedDisk.bytes where
  toFlatMedium := scriptedDisk_flatMedium h0 hd hM
  read_err := (scriptedDisk_faultyMedium h0 hd hM).read_err
  write_through := by
    intro st a b
    simp only [scriptedDisk, ScriptedDisk.write]
    split
    · exact Or.inl ⟨⟨_, rfl⟩, rfl⟩
    · refine Or.inr ⟨st.fault, ?_⟩
      split <;> next ht =>
        rw [ht]
        exact ⟨rfl, fun e he => by cases he <;> rfl⟩
  write_failed := fun hw => ((scriptedDisk_faultyMedium h0 hd hM).write_err hw).2

namespace OffsetScsiDevice

variable {m : ScsiCrate σ} {M : ℕ} {medium : σ → ℕ → UInt8} {start : ℕ} {d d' : OffsetScsiDevice σ}

/-- `d` serves the array `bytes`: it shows it, every later run without a failing transfer answers as
that array does, and a flush that ends such a run puts the array, as overwritten since, on the
medium. -/
structure Serves (m : ScsiCrate σ) (M : ℕ) (medium : σ → ℕ → UInt8) (bytes : ℕ → UInt8)
    (d : OffsetScsiDevice σ) : Prop where
  shown : view m medium d = bytes
  later : ∀ ls d', Run (InsideStep m.recorded M) d.startRecording ls d' → AllOk d' →
    ∃ f, Run (FlatStep d.partitionStart) ⟨bytes, d.partitionIdx⟩ ls f ∧
      ∀ ls₀ res, ls = ls₀ ++ [(.flush, res)] → medium d'.device.1 = f.bytes

/-- A coherent state serves what it shows. -/
theorem serves_shown (hm : FlatMedium m M medium) (hc : Coherent m M medium d)
    (hlt : d.partitionIdx < 2 ^ 64) : Serves m M medium (view m medium d) d where
  shown := rfl
  later := by
    intro ls d' hrun hok
    have hs : Shows m.recorded M (fun st => medium st.1) d.partitionStart d.startRecording
        ⟨view m medium d, d.partitionIdx⟩ :=
      ⟨⟨hc.cap, hc.full, hc.pending, hc.clean⟩, rfl, rfl, rfl, hlt⟩
    obtain ⟨f, hf, -, hflush⟩ := run_shows_flushed hm hs hrun hok
    exact ⟨f, hf, hflush⟩

/-- The shape holds in every state of every run inside a faulty medium. -/
theorem run_shape (hm : FaultyMedium m M medium) {st : σ} {ls : List Label}
    (hrun : Run (InsideStep m M) (new m st start) ls d) : Shape m M start d := by
  have hM : M < 2 ^ 64 := by have := hm.size_le; omega
  refine hrun.invariant (fun d l d' hs h => ?_) (shape_new hm st)
  obtain ⟨hin, -, rfl⟩ := h
  exact exec_kept hM (shape_kept hm (fun _ => True) (fun _ _ => True)) hs hin
    (fun _ _ => trivial) (fun _ _ _ => trivial)

section Failed

variable (hm : FlatMedium m M medium) (hs : Shape m M start d) (hn : d.needsFlush = true) {st : σ}
  (hmed : medium st = medium d.device)
include hm hs hn hmed

/-- After a failed write that left the buffer alone, the pending bytes are still served. -/
theorem serves_of_kept : Serves m M medium (view m medium d) { d with device := st } := by
  have hs' := hs.flushFailed hn st (Or.inl rfl)
  have hc : Coherent m M medium { d with device := st } :=
    ⟨hs'.cap, fun h0 => ⟨hs'.length h0, hs'.pending hn⟩, hs'.pending,
      fun h0 => absurd (hn.symm.trans h0) (by decide)⟩
  have hv : view m medium { d with device := st } = view m medium d := by
    unfold view
    rw [hmed]
  rw [← hv]
  exact serves_shown hm hc hs.cursor_lt

/-- After one that drained it, the medium is served in their place. -/
theorem serves_of_drained : Serves m M medium (medium d.device)
    { d with device := st, blockBuffer := d.blockBuffer.drained } := by
  have hs' := hs.flushFailed hn st (Or.inr rfl)
  have hc : Coherent m M medium { d with device := st, blockBuffer := d.blockBuffer.drained } :=
    ⟨hs'.cap, fun h0 => absurd rfl h0, hs'.pending,
      fun h0 => absurd (hn.symm.trans h0) (by decide)⟩
  have hv : view m medium { d with device := st, blockBuffer := d.blockBuffer.drained } =
      medium d.device := (view_of_empty rfl).trans hmed
  rw [← hv]
  exact serves_shown hm hc hs.cursor_lt

end Failed

/-- **A failed flush.**  In every state that runs inside the medium reach, faults included, with
bytes pending and a device write that fails: `flush` returns `Err`, and what was shown before is
served after it exactly if the write left the buffer as it was or nothing was shown but the
medium. -/
theorem failed_flush_survives_iff {h : UsbHost ε} (hm : ThroughChannel h m M medium) {st : σ}
    {ls : List Label} (hrun : Run (InsideStep m M) (new m st start) ls d)
    (hn : d.needsFlush = true) {e : ScsiError} {buf : VecNewtype} {st' : σ}
    (hw : m.write d.device (asU32 (d.bufferedBlockRawIdx m)) d.blockBuffer = (.error e, buf, st')) :
    (∃ d', d.flush m = .err ⟨.other, none⟩ d' ∧ Serves m M medium (view m medium d) d') ↔
      buf = d.blockBuffer ∨ view m medium d = medium d.device := by
  have hs := run_shape hm.faulty hrun
  have hmed : medium st' = medium d.device := hm.write_failed hw
  have hf : d.flush m = .err ⟨.other, none⟩ { d with device := st', blockBuffer := buf } := by
    unfold flush
    rw [if_pos hn, hw]
  rcases (hm.faulty.write_err hw).1 with rfl | rfl
  · exact ⟨fun _ => Or.inl rfl, fun _ => ⟨_, hf, serves_of_kept hm.toFlatMedium hs hn hmed⟩⟩
  · have hserves := serves_of_drained hm.toFlatMedium hs hn hmed
    constructor
    · rintro ⟨d', hd', hsurv⟩
      rw [hf] at hd'
      cases hd'
      -- drained: what is shown now is the medium
      exact Or.inr (hsurv.shown.symm.trans hserves.shown)
    · intro hkept
      refine ⟨_, hf, ?_⟩
      have hv : view m medium d = medium d.device := by
        rcases hkept with hb | hv
        · exact view_of_empty (by rw [← hb]; rfl)
        · exact hv
      rw [hv]
      exact hserves

/-- A disk of two blocks of two bytes, each byte its own address, with a script of faults. -/
def lossyDisk (script : List Fault) : OffsetScsiDevice ScriptedDisk :=
  new (scriptedDisk 2) ⟨fun x => x.toUInt8, script⟩ 0

/-- The write fails in its command phase: nothing is lost. -/
theorem failed_flush_survives_early :
    ∃ d', (execAll (scriptedDisk 2) (lossyDisk [.none, .early]) [.write [9]]).flush
        (scriptedDisk 2) = .err ⟨.other, none⟩ d' ∧
      Serves (scriptedDisk 2) 4 ScriptedDisk.bytes
        (view (scriptedDisk 2) ScriptedDisk.bytes
          (execAll (scriptedDisk 2) (lossyDisk [.none, .early]) [.write [9]])) d' := by
  have hm : ThroughChannel ScriptedDisk.host (scriptedDisk 2) 4 ScriptedDisk.bytes :=
    scriptedDisk_throughChannel (by decide) (by decide) (by decide)
  have hin : Along (scriptedDisk 2) (Inside 4) (lossyDisk [.none, .early]) [.write [9]] := by decide
  exact (failed_flush_survives_iff hm (run_trace _ hin) (by decide) rfl).mpr (Or.inl rfl)

/-- **A lost write.**  The byte 9 is acknowledged; the flush fails after its data phase; the byte is
read as it was before, and the flush that then succeeds leaves it so on the medium. -/
theorem lost_write :
    ThroughChannel ScriptedDisk.host (scriptedDisk 2) 4 ScriptedDisk.bytes ∧
    trace (scriptedDisk 2) (lossyDisk [.none, .late])
        [.write [9], .flush, .seek (.start 0), .read [0], .flush] =
      [(.write [9], some (.ok (.count 1))),
        (.flush, some (.error ⟨.other, none⟩)),
        (.seek (.start 0), some (.ok (.position 0))),
        (.read [0], some (.ok (.filled [0] 1))),
        (.flush, some (.ok .unit))] ∧
    (execAll (scriptedDisk 2) (lossyDisk [.none, .late])
        [.write [9], .flush, .seek (.start 0), .read [0], .flush]).device.bytes 0 = 0 :=
  ⟨scriptedDisk_throughChannel (by decide) (by decide) (by decide), rfl, by decide⟩

end OffsetScsiDevice

end FatDrive
