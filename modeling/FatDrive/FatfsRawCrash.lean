import FatDrive.BufScsiCrash
import FatDrive.FatfsRawBounds

/-!
# FatDrive.FatfsRawCrash — sectors of a drive that is cut off

FatFs writes whole sectors, in an order of its own, and has them synced.  A sector of a partition that
starts at a block is a block, and the cache leaves a block only when a request goes on to another: so what
a drive holds when it is taken out is made of whole sectors, written in the order of the requests.

* `writeLoop_inBlock`: bytes for the block that is buffered cost no transfer;
* `writeLoop_blocks`: by induction over the sectors of a request, each is one store;
* `onHandle_trails`: one request at its handle, whatever becomes of it;
* `drive_crash_consistent`: in any interleaving of requests to the drives, up to the first request to a
  drive that fails, its medium holds the first so many of its sectors, and all before the last sync.
-/

namespace FatDrive

open Lib

variable {σ : Type}

/-- The sectors of `size` bytes that a list fills, from sector `n` on. -/
def sectorStores (size : ℕ) : ℕ → ℕ → List UInt8 → List (ℕ × List UInt8)
  | _, 0, _ => []
  | n, count + 1, bytes => (n, bytes.take size) :: sectorStores size (n + 1) count (bytes.drop size)

/-- The store of one sector of a partition that starts at `start`. -/
def setSector (start size : ℕ) (g : ℕ → UInt8) (w : ℕ × List UInt8) : ℕ → UInt8 :=
  patch g (start + w.1 * size) w.2

namespace OffsetScsiDevice

/-! ### The block that is buffered -/

section Block

variable {m : ScsiCrate σ} {M : ℕ} {medium : σ → ℕ → UInt8} {d d' : OffsetScsiDevice σ}

/-- The block at `a` is in the buffer, and the cursor has `k` bytes of it before it. -/
structure InBlock (m : ScsiCrate σ) (M : ℕ) (medium : σ → ℕ → UInt8) (a k : ℕ) (d : OffsetScsiDevice σ) :
    Prop where
  coherent : Coherent m M medium d
  block : m.blockSize * d.loadedBlockNumber = a
  full : d.blockBuffer.inner.length = m.blockSize
  pos_eq : d.pos = a + k

variable {a k : ℕ}

theorem InBlock.loaded (h : InBlock m M medium a k d) (hk : k < m.blockSize) :
    d.loadedBlockNumber = d.pos / m.blockSize := by
  rw [h.pos_eq, ← h.block, Nat.mul_add_div (by omega), Nat.div_eq_of_lt hk, Nat.add_zero]

/-- `fillBuf` has nothing to do. -/
theorem fillBuf_inBlock (hm : FlatMedium m M medium) (h : InBlock m M medium a k d) (hk : k < m.blockSize)
    (hM : a + m.blockSize ≤ M) : ∃ bytes, d.fillBuf m = .ok bytes d := by
  have hpos : d.pos < M := by
    rw [h.pos_eq]
    omega
  have hne : m.isEmpty d.blockBuffer = false := by
    rw [hm.isEmpty_eq, List.isEmpty_eq_false_iff, ← List.length_pos_iff, h.full]
    omega
  have hev : d.evict m = .ok () d := by
    unfold evict
    rw [curBlockNumber_eq hm hpos, h.loaded hk, if_neg (not_not.mpr rfl)]
  have hld : d.load m = .ok () d := by
    unfold load
    rw [if_neg (by simp [hne])]
  refine ⟨d.blockBuffer.inner.drop (d.offsetFromCurBlock m), ?_⟩
  rw [fillBuf, hev, Outcome.andThen_ok, hld, Outcome.andThen_ok]
  exact rest_eq hm.blockSize_pos h.full

/-- One byte of the block is stored, with no transfer. -/
theorem storeByte_inBlock (hm : FlatMedium m M medium) (h : InBlock m M medium a k d)
    (hk : k < m.blockSize) (hM : a + m.blockSize ≤ M) (byte : UInt8) :
    ∃ d₁, d.storeByte m byte = some d₁ ∧ d₁.device = d.device ∧
      InBlock m M medium a (k + 1) (d₁.consume 1) ∧
      view m medium d₁ = Function.update (view m medium d) d.pos byte ∧
      d₁.partitionStart = d.partitionStart := by
  have hsize := hm.size_le
  have hpe := h.pos_eq
  have hpos : d.pos < M := by omega
  obtain ⟨d₁, hs, hc, hv, hst, hid⟩ := storeByte_spec hm h.coherent hpos (h.loaded hk) h.full byte
  have hp : d₁.pos = d.pos := by
    unfold pos
    rw [hst, hid]
  have hsame : d₁.loadedBlockNumber = d.loadedBlockNumber ∧
      d₁.blockBuffer.inner.length = d.blockBuffer.inner.length := by
    rcases storeByte_cases hs with rfl | ⟨old, -, -, rfl⟩
    · exact ⟨rfl, rfl⟩
    · exact ⟨rfl, List.length_set ..⟩
  refine ⟨d₁, hs, storeByte_device hs, ⟨hc.moved _, ?_, ?_, ?_⟩, hv, hst⟩
  · show m.blockSize * d₁.loadedBlockNumber = a
    rw [hsame.1, h.block]
  · exact hsame.2.trans h.full
  · rw [pos_consume (by omega), hp, hpe, Nat.add_assoc]

/-- **Bytes for the block that is buffered** are stored with no transfer. -/
theorem writeLoop_inBlock (hm : FlatMedium m M medium) (hM : a + m.blockSize ≤ M) (rest : List UInt8) :
    ∀ (bytes : List UInt8) (k i : ℕ) (d : OffsetScsiDevice σ), InBlock m M medium a k d →
      k + bytes.length ≤ m.blockSize →
      ∃ d', writeLoop m (bytes ++ rest) i d = writeLoop m rest (i + bytes.length) d' ∧
        d'.device = d.device ∧ InBlock m M medium a (k + bytes.length) d' ∧
        view m medium d' = patch (view m medium d) d.pos bytes ∧ d'.partitionStart = d.partitionStart
  | [], k, i, d, h, _ => ⟨d, rfl, rfl, h, (patch_nil _ _).symm, rfl⟩
  | byte :: bytes, k, i, d, h, hlen => by
    simp only [List.length_cons] at hlen ⊢
    have hk : k < m.blockSize := by omega
    have hsize := hm.size_le
    have hpe := h.pos_eq
    obtain ⟨slc, hf⟩ := fillBuf_inBlock hm h hk hM
    obtain ⟨d₁, hs, hdev, hin, hv, hst⟩ := storeByte_inBlock hm h hk hM byte
    have hne : m.isEmpty d.blockBuffer = false := by
      rw [hm.isEmpty_eq, List.isEmpty_eq_false_iff, ← List.length_pos_iff, h.full]
      omega
    obtain ⟨d', hloop, hdev', hin', hv', hst'⟩ :=
      writeLoop_inBlock hm hM rest bytes (k + 1) (i + 1) (d₁.consume 1) hin (by omega)
    refine ⟨d', ?_, hdev'.trans hdev, ?_, ?_, hst'.trans hst⟩
    · rw [List.cons_append, writeLoop, hf, Outcome.andThen_ok, if_neg (by simp [hne]), hs]
      dsimp only
      rw [hloop, Nat.add_assoc, Nat.add_comm 1]
    · rwa [Nat.add_assoc, Nat.add_comm 1] at hin'
    · rw [hv', view_consume, hv, patch_cons, hin.pos_eq, hpe, Nat.add_assoc]

/-- Once the block of the cursor is in the buffer, `write` goes on as if it had been there before. -/
theorem writeLoop_filled (hm : FlatMedium m M medium) (h : InBlock m M medium a k d') (hk : k < m.blockSize)
    (hM : a + m.blockSize ≤ M) {slc : List UInt8} (hf : d.fillBuf m = .ok slc d') (byte : UInt8)
    (bytes : List UInt8) (i : ℕ) : writeLoop m (byte :: bytes) i d = writeLoop m (byte :: bytes) i d' := by
  obtain ⟨slc', hf'⟩ := fillBuf_inBlock hm h hk hM
  rw [writeLoop, writeLoop, hf, hf', Outcome.andThen_ok, Outcome.andThen_ok]

end Block

/-! ### The sectors of a request -/

section Sectors

variable {m : ScsiCrate σ} {M : ℕ} {medium : σ → ℕ → UInt8} {f₀ : ℕ → UInt8} {start n₁ j n : ℕ}
  {ws : List (ℕ × List UInt8)} {d d' : OffsetScsiDevice (σ × List σ)}

/-- **One sector**: the request fails with the medium as it was left by an earlier sector, or the sector
has been stored and the rest of the request is next. -/
theorem writeLoop_sector (hm : FaultyMedium m M medium) (hb : m.blockSize ∣ start) {s : ℕ}
    {sector : List UInt8} (hl : sector.length = m.blockSize)
    (h : Behind m M medium (setSector start m.blockSize) f₀ n₁ j ws n d)
    (hp : d.pos = start + s * m.blockSize) (hin : d.pos + m.blockSize ≤ M) (rest : List UInt8) (i : ℕ) :
    (writeLoop m.witnessed (sector ++ rest) i d).isOk = false ∧
        Lagging medium (setSector start m.blockSize) f₀ n₁ j ws n
          (writeLoop m.witnessed (sector ++ rest) i d).state ∨
      ∃ d', writeLoop m.witnessed (sector ++ rest) i d =
          writeLoop m.witnessed rest (i + m.blockSize) d' ∧
        Behind m M medium (setSector start m.blockSize) f₀ n₁ j (ws ++ [(s, sector)]) n d' ∧
        d'.pos = d.pos + m.blockSize ∧ d'.partitionStart = d.partitionStart := by
  have h0 := hm.blockSize_pos
  have hflat := hm.witnessed.toFlatMedium
  have hpos : d.pos < M := by omega
  obtain ⟨byte, bytes, rfl⟩ := List.exists_cons_of_length_pos (l := sector) (by omega)
  have hlags := fillBuf_lags hm h hpos
  cases hf : d.fillBuf m.witnessed with
  | err e d₁ =>
    rw [hf] at hlags
    refine Or.inl ?_
    rw [List.cons_append, writeLoop, hf, Outcome.andThen_err]
    exact ⟨rfl, hlags⟩
  | panicked d₁ =>
    rw [hf] at hlags
    refine Or.inl ?_
    rw [List.cons_append, writeLoop, hf, Outcome.andThen_panicked]
    exact ⟨rfl, hlags⟩
  | ok slc d₁ =>
    obtain ⟨hk, hnum, hbuf, -⟩ := fillBuf_ok hflat h.coherent hpos hf
    have hb₁ := fillBuf_behind hm h hpos hf
    -- the sector is the block of the cursor
    have hdvd : m.blockSize ∣ d.pos := by
      rw [hp]
      exact (Nat.dvd_add_right hb).mpr (Nat.dvd_mul_left _ _)
    have hin₁ : InBlock m.witnessed M (fun st => medium st.1) d.pos 0 d₁ := by
      refine ⟨hk.coherent, ?_, by rw [hbuf, length_slice], by rw [hk.pos_eq, Nat.add_zero]⟩
      rw [hnum]
      exact Nat.mul_div_cancel' hdvd
    obtain ⟨d', hloop, hdev, hin', hv, hst⟩ := writeLoop_inBlock hflat hin rest (byte :: bytes) 0 i d₁ hin₁
      (by rw [Nat.zero_add]; exact Nat.le_of_eq hl)
    rw [hl] at hloop
    refine Or.inr ⟨d', ?_, ⟨hin'.coherent, ?_, ?_⟩, ?_, hst.trans hk.start_eq⟩
    · rw [List.cons_append, writeLoop_filled hflat hin₁ h0 hin hf, ← List.cons_append, hloop]
    · rw [hv, hk.pos_eq, hk.view_eq, h.shown, stored_snoc, hp]
      rfl
    · exact Lagging.of_device (hb₁.lags.append _) hdev
    · rw [hin'.pos_eq, Nat.zero_add, hl]

/-- **All sectors of a request**, by induction over them: whatever becomes of it, the medium has whole
sectors only, in order. -/
theorem writeLoop_blocks (hm : FaultyMedium m M medium) (hb : m.blockSize ∣ start) :
    ∀ (count s : ℕ) (bytes : List UInt8) (i : ℕ) (ws : List (ℕ × List UInt8))
      (d : OffsetScsiDevice (σ × List σ)), bytes.length = count * m.blockSize →
      Behind m M medium (setSector start m.blockSize) f₀ n₁ j ws n d →
      d.pos = start + s * m.blockSize → d.pos + bytes.length ≤ M →
      Lagging medium (setSector start m.blockSize) f₀ n₁ j
          (ws ++ sectorStores m.blockSize s count bytes) n (writeLoop m.witnessed bytes i d).state ∧
        ∀ k d', writeLoop m.witnessed bytes i d = .ok k d' →
          Behind m M medium (setSector start m.blockSize) f₀ n₁ j
            (ws ++ sectorStores m.blockSize s count bytes) n d' ∧ d'.partitionStart = d.partitionStart
  | 0, s, bytes, i, ws, d, hlen, h, _, _ => by
    rw [Nat.zero_mul] at hlen
    obtain rfl := List.eq_nil_of_length_eq_zero hlen
    rw [sectorStores, List.append_nil]
    refine ⟨h.lags, fun k d' he => ?_⟩
    cases he
    exact ⟨h, rfl⟩
  | count + 1, s, bytes, i, ws, d, hlen, h, hp, hin => by
    rw [Nat.succ_mul] at hlen
    have hl : (bytes.take m.blockSize).length = m.blockSize := by
      rw [List.length_take]
      omega
    have hrest : (bytes.drop m.blockSize).length = count * m.blockSize := by
      rw [List.length_drop]
      omega
    have hstores : ws ++ sectorStores m.blockSize s (count + 1) bytes =
        ws ++ [(s, bytes.take m.blockSize)] ++
          sectorStores m.blockSize (s + 1) count (bytes.drop m.blockSize) := by
      rw [sectorStores, List.append_assoc]
      rfl
    have hsplit := writeLoop_sector hm hb hl h hp (by omega) (bytes.drop m.blockSize) i
    rw [List.take_append_drop] at hsplit
    rcases hsplit with ⟨hok, hlags⟩ | ⟨d₁, hloop, hb₁, hp₁, hst₁⟩
    · refine ⟨hlags.append _, fun k d' he => ?_⟩
      rw [he] at hok
      cases hok
    · rw [hloop, hstores]
      obtain ⟨hlags, hok⟩ := writeLoop_blocks hm hb count (s + 1) (bytes.drop m.blockSize)
        (i + m.blockSize) (ws ++ [(s, bytes.take m.blockSize)]) d₁ hrest hb₁
        (by rw [hp₁, hp, Nat.succ_mul, Nat.add_assoc]) (by omega)
      exact ⟨hlags, fun k d' he => ⟨(hok k d' he).1, (hok k d' he).2.trans hst₁⟩⟩

end Sectors

end OffsetScsiDevice

/-- The handle of an entry's partition, just opened; the states of its device are kept. -/
def DeviceHandle.attached (m : ScsiCrate σ) (st : σ) (info : PartitionInfo) :
    DeviceHandle (σ × List σ) where
  scsi := m.witnessed
  device := .new m.witnessed (st, []) (rawOffset info.toPartitionTableEntry m.blockSize)
  partitionInfo := info

namespace FatfsSysContext

open OffsetScsiDevice

/-! ### One request at its handle -/

/-- The sectors a request stores. -/
def Call.stores (size : ℕ) : Call σ → List (ℕ × List UInt8)
  | .diskWrite _ bufPtr sector count =>
    sectorStores size sector.toNat count.toNat (bufPtr.take (count.toNat * size))
  | _ => []

theorem length_sectorStores {size : ℕ} : ∀ {count n : ℕ} {bytes : List UInt8},
    bytes.length = count * size → ∀ w ∈ sectorStores size n count bytes, w.2.length = size
  | 0, _, _, _, _, hw => nomatch hw
  | count + 1, n, bytes, hlen, w, hw => by
    rw [Nat.succ_mul] at hlen
    rcases List.mem_cons.mp hw with rfl | hw
    · exact List.length_take_of_le (by omega)
    · refine length_sectorStores ?_ w hw
      rw [List.length_drop]
      omega

/-- The handle of a partition at `start`, behind its stores of sectors. -/
structure Following (m : ScsiCrate σ) (M : ℕ) (medium : σ → ℕ → UInt8) (start : ℕ) (f₀ : ℕ → UInt8)
    (n₁ j : ℕ) (ws : List (ℕ × List UInt8)) (n : ℕ) (dev : DeviceHandle (σ × List σ)) : Prop where
  scsi_eq : dev.scsi = m.witnessed
  start_eq : dev.device.partitionStart = start
  behind : Behind m M medium (setSector start m.blockSize) f₀ n₁ j ws n dev.device
  whole : ∀ w ∈ ws, w.2.length = m.blockSize

section Handle

variable {m : ScsiCrate σ} {M : ℕ} {medium : σ → ℕ → UInt8} {f₀ : ℕ → UInt8} {start n₁ j n : ℕ}
  {ws : List (ℕ × List UInt8)} {dev dev' : DeviceHandle (σ × List σ)} {bufPtr : List UInt8}
  {sector count : UInt32}

theorem request_offsets (hM : M ≤ 2 ^ 32) (h : dev.RequestFits M bufPtr sector count) :
    byteOffset dev sector = sector.toNat * dev.sectorSize ∧
      byteCount dev count = count.toNat * dev.sectorSize := by
  have hin := h.inside
  rw [Nat.add_mul] at hin
  unfold byteOffset byteCount
  rw [Nat.mul_comm sector.toNat, Nat.mul_comm count.toNat] at hin ⊢
  exact ⟨usizeMul_of_lt (by omega), usizeMul_of_lt (by omega)⟩

theorem Following.sectorSize_eq (h : Following m M medium start f₀ n₁ j ws n dev) :
    dev.sectorSize = m.blockSize := by
  rw [DeviceHandle.sectorSize, h.scsi_eq]
  rfl

/-- A request that fits stores whole sectors. -/
theorem stores_whole {size : ℕ} (hsize : dev.sectorSize = size) {c : Call (σ × List σ)}
    (hfits : c.Fits M dev) : ∀ w ∈ c.stores size, w.2.length = size := by
  cases c with
  | diskWrite p bufPtr sector count =>
    have hroom := hfits.room
    rw [hsize] at hroom
    exact length_sectorStores (List.length_take_of_le hroom)
  | _ => exact fun w hw => nomatch hw

theorem Following.whole_append (h : Following m M medium start f₀ n₁ j ws n dev)
    {vs : List (ℕ × List UInt8)} (hvs : ∀ w ∈ vs, w.2.length = m.blockSize) :
    ∀ w ∈ ws ++ vs, w.2.length = m.blockSize := fun w hw =>
  (List.mem_append.mp hw).elim (h.whole w) (hvs w)

theorem Following.withDevice (h : Following m M medium start f₀ n₁ j ws n dev)
    {d : OffsetScsiDevice (σ × List σ)} {ws' : List (ℕ × List UInt8)} {k : ℕ}
    (hd : Behind m M medium (setSector start m.blockSize) f₀ n₁ j ws' k d)
    (hst : d.partitionStart = dev.device.partitionStart) (hw : ∀ w ∈ ws', w.2.length = m.blockSize) :
    Following m M medium start f₀ n₁ j ws' k (dev.withDevice d) :=
  ⟨h.scsi_eq, hst.trans h.start_eq, hd, hw⟩

variable (hm : FaultyMedium m M medium)
include hm

theorem readHandle_trails (h : Following m M medium start f₀ n₁ j ws n dev)
    (hfits : dev.RequestFits M bufPtr sector count) {r : DResult × List UInt8}
    (hr : readHandle dev bufPtr sector count = some (r, dev')) :
    Lagging medium (setSector start m.blockSize) f₀ n₁ j ws n dev'.device ∧
      (r.1 = .resOk → Following m M medium start f₀ n₁ j ws n dev') := by
  obtain ⟨hoff, hcount⟩ := request_offsets hm.size_le hfits
  have hin := hfits.inside
  rw [Nat.add_mul] at hin
  have hroom : { dev.device with partitionIdx := byteOffset dev sector }.pos +
      (bufPtr.take (byteCount dev count)).length ≤ M := by
    rw [hcount, List.length_take_of_le hfits.room]
    simp only [pos, hoff]
    omega
  have hb := h.behind.moved (byteOffset dev sector)
  have hlags := readLoop_lags hm (bufPtr.take (byteCount dev count)) 0 _ hb hroom
  unfold readHandle OffsetScsiDevice.seek OffsetScsiDevice.read at hr
  rw [h.scsi_eq] at hr
  dsimp only at hr
  split at hr
  · cases hr
  · next he =>
    cases hr
    rw [he] at hlags
    exact ⟨hlags, fun hok => by cases hok⟩
  · next he =>
    cases hr
    rw [he] at hlags
    obtain ⟨hb', hst⟩ := readLoop_behind hm hb hroom he
    exact ⟨hlags, fun _ => h.withDevice hb' hst h.whole⟩

theorem writeHandle_trails (hb : m.blockSize ∣ start) (h : Following m M medium start f₀ n₁ j ws n dev)
    {p : UInt8} (hfits : (Call.diskWrite p bufPtr sector count).Fits M dev) {r : DResult}
    (hr : writeHandle dev bufPtr sector count = some (r, dev')) :
    Lagging medium (setSector start m.blockSize) f₀ n₁ j
        (ws ++ sectorStores m.blockSize sector.toNat count.toNat
          (bufPtr.take (count.toNat * m.blockSize))) n dev'.device ∧
      (r = .resOk → Following m M medium start f₀ n₁ j
        (ws ++ sectorStores m.blockSize sector.toNat count.toNat
          (bufPtr.take (count.toNat * m.blockSize))) n dev') := by
  obtain ⟨hoff, hcount⟩ := request_offsets hm.size_le hfits
  have hsize := h.sectorSize_eq
  have hin := hfits.inside
  have hspace := hfits.room
  rw [Nat.add_mul, hsize] at hin
  rw [hsize] at hoff hcount hspace
  have hlen : (bufPtr.take (count.toNat * m.blockSize)).length = count.toNat * m.blockSize :=
    List.length_take_of_le hspace
  have hbeh := h.behind.moved (sector.toNat * m.blockSize)
  have hpos : { dev.device with partitionIdx := sector.toNat * m.blockSize }.pos =
      start + sector.toNat * m.blockSize := congrArg (· + sector.toNat * m.blockSize) h.start_eq
  have hroom : { dev.device with partitionIdx := sector.toNat * m.blockSize }.pos +
      (bufPtr.take (count.toNat * m.blockSize)).length ≤ M := by
    rw [hpos, hlen, ← h.start_eq]
    omega
  obtain ⟨hlags, hok⟩ := writeLoop_blocks hm hb count.toNat sector.toNat _ 0 ws _ hlen hbeh hpos hroom
  unfold writeHandle OffsetScsiDevice.seek OffsetScsiDevice.write at hr
  rw [h.scsi_eq, hoff, hcount] at hr
  dsimp only at hr
  split at hr
  · cases hr
  · next he =>
    cases hr
    rw [he] at hlags
    exact ⟨hlags, fun hok => by cases hok⟩
  · next he =>
    cases hr
    rw [he] at hlags
    obtain ⟨hb', hst⟩ := hok _ _ he
    exact ⟨hlags, fun _ => h.withDevice hb' hst (h.whole_append (stores_whole h.sectorSize_eq hfits))⟩

theorem syncHandle_trails (h : Following m M medium start f₀ n₁ j ws n dev) {r : DResult}
    (hr : syncHandle dev = some (r, dev')) :
    Lagging medium (setSector start m.blockSize) f₀ n₁ j ws n dev'.device ∧
      (r = .resOk → Following m M medium start f₀ n₁ j ws ws.length dev') := by
  have hlags := flush_lags hm h.behind
  unfold syncHandle DeviceHandle.sync at hr
  rw [h.scsi_eq] at hr
  split at hr
  · cases hr
  · next he =>
    cases hr
    rw [he] at hlags
    exact ⟨hlags, fun hok => by cases hok⟩
  · next he =>
    cases hr
    have hk := (flush_ok hm.witnessed.toFlatMedium h.behind.coherent he).1
    rw [he] at hlags
    exact ⟨hlags, fun _ => h.withDevice (flush_behind hm h.behind he) hk.start_eq h.whole⟩

/-- **One request**, whatever becomes of it: the medium has whole sectors of it only, in order; and if it
is answered with `RES_OK`, the handle shows all of them, and after a sync the medium holds them. -/
theorem onHandle_trails (hb : m.blockSize ∣ start) (h : Following m M medium start f₀ n₁ j ws n dev)
    {c : Call (σ × List σ)} {a : Answer (σ × List σ)} (hfits : c.Fits M dev)
    (ha : c.onHandle dev = some (a, dev')) :
    Lagging medium (setSector start m.blockSize) f₀ n₁ j (ws ++ c.stores m.blockSize) n dev'.device ∧
      (a.isError = false → Following m M medium start f₀ n₁ j (ws ++ c.stores m.blockSize)
        (if c.isSync then ws.length else n) dev') := by
  cases c with
  | diskStatus isConnected p => exact hfits.elim
  | diskInitialize isConnected p => exact hfits.elim
  | diskRead p bufPtr sector count =>
    obtain ⟨r, hr, he⟩ := Option.map_eq_some_iff.mp ha
    cases he
    obtain ⟨hlags, hok⟩ := readHandle_trails hm h hfits hr
    have hnone : (Call.diskRead p bufPtr sector count : Call (σ × List σ)).stores m.blockSize = [] := rfl
    rw [hnone, List.append_nil]
    exact ⟨hlags, fun hserved => hok (by simpa [Answer.isError] using hserved)⟩
  | diskWrite p bufPtr sector count =>
    obtain ⟨r, hr, he⟩ := Option.map_eq_some_iff.mp ha
    cases he
    obtain ⟨hlags, hok⟩ := writeHandle_trails hm hb h hfits hr
    exact ⟨hlags, fun hserved => hok (by simpa [Answer.isError] using hserved)⟩
  | diskIoctl isConnected p cmd buf =>
    obtain rfl : cmd = ctrlSync := hfits
    obtain ⟨r, hr, he⟩ := Option.map_eq_some_iff.mp ha
    cases he
    obtain ⟨hlags, hok⟩ := syncHandle_trails hm h hr
    have hnone : (Call.diskIoctl isConnected p ctrlSync buf).stores m.blockSize = [] := rfl
    have hsync : (Call.diskIoctl isConnected p ctrlSync buf).isSync = true := by
      simp [Call.isSync]
    rw [hnone, List.append_nil, if_pos hsync]
    exact ⟨hlags, fun hserved => hok (by simpa [Answer.isError] using hserved)⟩

end Handle

/-! ### The table -/

/-- What the requests of a log have stored, and how much of it before the last sync. -/
def storesOf (size : ℕ) (ls : List (Call σ × Answer σ)) : List (ℕ × List UInt8) :=
  ls.flatMap fun l => l.1.stores size

def syncedOf (size : ℕ) : ℕ → ℕ → List (Call σ × Answer σ) → ℕ :=
  durable (fun l => (l.1.stores size).length) fun l => l.1.isSync

/-- A request to any drive, one to drive `i` inside its device. -/
def RequestAt (M : ℕ) (i : Fin 15) (ctx : FatfsSysContext σ) (l : Call σ × Answer σ) : Prop :=
  l.1.isRequest = true ∧ (ctx.reached l.1 = some i → ∀ dev, ctx.drives i = some dev → l.1.Fits M dev)

/-- The same, and one to drive `i` is answered with no error. -/
def ServedAt (M : ℕ) (i : Fin 15) (ctx : FatfsSysContext σ) (l : Call σ × Answer σ) : Prop :=
  RequestAt M i ctx l ∧ (ctx.reached l.1 = some i → l.2.isError = false)

section Table

variable {m : ScsiCrate σ} {M : ℕ} {medium : σ → ℕ → UInt8} {f₀ : ℕ → UInt8} {start n₁ j n : ℕ}
  {ws : List (ℕ × List UInt8)} {ctx s s' : FatfsSysContext (σ × List σ)} {i : Fin 15}
  {dev : DeviceHandle (σ × List σ)} {l : Call (σ × List σ) × Answer (σ × List σ)}

/-- A request to another drive leaves drive `i` alone. -/
theorem drives_other (h : Step s l s') (hi : s.reached l.1 ≠ some i) :
    s'.drives i = s.drives i := by
  rcases (exec_effect h).drives with hsame | ⟨pdrv, dev, k, hl, hidx, rfl, -⟩
  · rw [hsame]
  · refine drives_setSlot_of_ne ?_ _
    rintro rfl
    refine hi ?_
    rw [reached, hl]
    exact slot?_eq_some.mpr hidx

/-- The table holds in slot `i` a handle that is behind its stores. -/
structure HoldsAt (m : ScsiCrate σ) (M : ℕ) (medium : σ → ℕ → UInt8) (start : ℕ) (f₀ : ℕ → UInt8)
    (n₁ j : ℕ) (d : UInt8) (i : Fin 15) (s : FatfsSysContext (σ × List σ))
    (t : List (ℕ × List UInt8) × ℕ) : Prop where
  default_eq : s.defaultDisk = d
  device : ∃ dev, s.drives i = some dev ∧ Following m M medium start f₀ n₁ j t.1 t.2 dev

theorem HoldsAt.restart (h : HoldsAt m M medium start f₀ n₁ j ctx.defaultDisk i s (ws, n)) :
    ∃ dev, s.drives i = some dev ∧
      HoldsAt m M medium start f₀ n dev.device.device.2.length ctx.defaultDisk i s (ws, n) := by
  obtain ⟨dev, hdev, hf⟩ := h.device
  exact ⟨dev, hdev, h.default_eq, dev, hdev, hf.scsi_eq, hf.start_eq, hf.behind.restart, hf.whole⟩

theorem HoldsAt.other (h : HoldsAt m M medium start f₀ n₁ j ctx.defaultDisk i s (ws, n))
    (hr : l.1.isRequest = true) (hst : Step s l s') (hi : ctx.reached l.1 ≠ some i) :
    HoldsAt m M medium start f₀ n₁ j ctx.defaultDisk i s' (ws, n) := by
  rw [← reached_congr h.default_eq] at hi
  obtain ⟨dev, hdev, hf⟩ := h.device
  exact ⟨(defaultDisk_request hr hst).trans h.default_eq, dev, (drives_other hst hi).trans hdev, hf⟩

/-- The table holds in slot `i` a handle whose medium trails whole sectors. -/
def TrailsAt (m : ScsiCrate σ) (medium : σ → ℕ → UInt8) (start : ℕ) (f₀ : ℕ → UInt8) (n₁ j : ℕ)
    (i : Fin 15) (s : FatfsSysContext (σ × List σ)) (ws : List (ℕ × List UInt8)) (n : ℕ) : Prop :=
  (∀ w ∈ ws, w.2.length = m.blockSize) ∧ ∃ dev, s.drives i = some dev ∧
    Lagging medium (setSector start m.blockSize) f₀ n₁ j ws n dev.device

theorem HoldsAt.trails (h : HoldsAt m M medium start f₀ n₁ j ctx.defaultDisk i s (ws, n)) :
    TrailsAt m medium start f₀ n₁ j i s ws n := by
  obtain ⟨dev, hdev, hf⟩ := h.device
  exact ⟨hf.whole, dev, hdev, hf.behind.lags⟩

/-- **Step**: one request to drive `i`, whatever becomes of it. -/
theorem HoldsAt.request (hm : FaultyMedium m M medium) (hb : m.blockSize ∣ start)
    (h : HoldsAt m M medium start f₀ n₁ j ctx.defaultDisk i s (ws, n))
    (hst : Guard Step (RequestAt M i) s l s') (hi : ctx.reached l.1 = some i) :
    TrailsAt m medium start f₀ n₁ j i s' (ws ++ l.1.stores m.blockSize) n ∧
      (l.2.isError = false → HoldsAt m M medium start f₀ n₁ j ctx.defaultDisk i s'
        (ws ++ l.1.stores m.blockSize, if l.1.isSync then ws.length else n)) := by
  obtain ⟨⟨hreq, hfits⟩, hstep⟩ := hst
  have hreach : s.reached l.1 = some i := (reached_congr h.default_eq l.1).trans hi
  obtain ⟨dev, hdev, hf⟩ := h.device
  obtain ⟨dev', ha, rfl⟩ := (step_request hreq hreach hdev).mp hstep
  have hfit := hfits hreach dev hdev
  obtain ⟨hlags, hok⟩ := onHandle_trails hm hb hf hfit ha
  refine ⟨⟨hf.whole_append (stores_whole hf.sectorSize_eq hfit), dev', drives_setSlot_self .., hlags⟩, ?_⟩
  exact fun hserved => ⟨h.default_eq, dev', drives_setSlot_self .., hok hserved⟩

/-- **Run**: the requests to drive `i` among all of them. -/
theorem HoldsAt.run (hm : FaultyMedium m M medium) (hb : m.blockSize ∣ start)
    {ls : List (Call (σ × List σ) × Answer (σ × List σ))}
    (hrun : Run (Guard Step (ServedAt M i)) s ls s') : ∀ {ws : List (ℕ × List UInt8)} {n : ℕ},
      HoldsAt m M medium start f₀ n₁ j ctx.defaultDisk i s (ws, n) →
        HoldsAt m M medium start f₀ n₁ j ctx.defaultDisk i s'
          (ws ++ storesOf m.blockSize (ctx.ofSlot i ls),
            syncedOf m.blockSize n ws.length (ctx.ofSlot i ls)) := by
  induction hrun with
  | nil s =>
    intro ws n h
    simpa [storesOf, syncedOf, ofSlot, durable] using h
  | @cons s s₁ s' l ls hst _ ih =>
    intro ws n h
    obtain ⟨⟨hreq, hserved⟩, hstep⟩ := hst
    by_cases hi : ctx.reached l.1 = some i
    · have hok := hserved ((reached_congr h.default_eq l.1).trans hi)
      have hrest := ih ((h.request hm hb ⟨hreq, hstep⟩ hi).2 hok)
      have hls : ctx.ofSlot i (l :: ls) = l :: ctx.ofSlot i ls :=
        List.filter_cons_of_pos (decide_eq_true hi)
      rw [List.append_assoc, List.length_append] at hrest
      rw [hls, storesOf, List.flatMap_cons]
      exact hrest
    · have hrest := ih (h.other hreq.1 hstep hi)
      have hls : ctx.ofSlot i (l :: ls) = ctx.ofSlot i ls :=
        List.filter_cons_of_neg (by simpa using hi)
      rw [hls]
      exact hrest

theorem holdsAt_attached {st : σ} {info : PartitionInfo}
    (hdev : ctx.drives i = some (.attached m st info)) :
    HoldsAt m M medium (rawOffset info.toPartitionTableEntry m.blockSize) (medium st) 0 0
      ctx.defaultDisk i ctx ([], 0) := by
  refine ⟨rfl, _, hdev, rfl, rfl, ⟨coherent_new _ _, view_new _ _, ?_⟩, fun w hw => nomatch hw⟩
  exact ⟨trails_stored _ _ [], fun _ h => (List.not_mem_nil h).elim, Nat.le_refl _, Nat.le_refl _⟩

/-- The sectors of a partition at `start`, as a medium holds them. -/
def sectorsAt (medium : σ → ℕ → UInt8) (start size : ℕ) (st : σ) : ℕ → List UInt8 :=
  chunk (medium st) start size

/-- Bytes that trail stores of whole sectors are sectors that trail them. -/
theorem trails_sectors {size n : ℕ} {st st' : σ} {ws : List (ℕ × List UInt8)}
    (h : Trails (setSector start size) (medium st) ws n (medium st'))
    (hw : ∀ w ∈ ws, w.2.length = size) :
    Trails setCell (sectorsAt medium start size st) ws n (sectorsAt medium start size st') := by
  have hput : ∀ (g : ℕ → UInt8) (w : ℕ × List UInt8), w ∈ ws →
      chunk (setSector start size g w) start size = setCell (chunk g start size) w := by
    intro g w hmem
    funext k
    have hl : w.2.length = 1 * size := by rw [hw w hmem, Nat.one_mul]
    rw [setSector, chunk_patch g start size w.1 k hl, setCell]
    by_cases hk : k = w.1
    · subst hk
      rw [if_pos (by omega), Nat.sub_self, Nat.zero_mul, List.drop_zero, List.take_of_length_le (by omega),
        Function.update_self]
    · rw [if_neg (by omega), Function.update_of_ne hk]
  have hmap := h.map (fun g => chunk g start size) (fun w => w) hput
  rwa [List.map_id'] at hmap

/-- **Crash consistency of a drive.**  Let the drives get requests in any order, those to drive `i` inside
its device; let all of them but the last be answered with no error at drive `i`; and let drive `i` be taken
out, or fail, after those of `ls₁`.  Its medium then holds the first so many of the sectors written, whole,
in the order of the requests, and no others: at least those written before the last sync in `ls₁`. -/
theorem drive_crash_consistent (hm : FaultyMedium m M medium) {st : σ} {info : PartitionInfo}
    {ls₁ ls₂ : List (Call (σ × List σ) × Answer (σ × List σ))}
    {ctx₁ ctx₂ ctx' : FatfsSysContext (σ × List σ)}
    (hb : m.blockSize ∣ rawOffset info.toPartitionTableEntry m.blockSize)
    (hdev : ctx.drives i = some (.attached m st info))
    (hrun₁ : Run (Guard Step (ServedAt M i)) ctx ls₁ ctx₁)
    (hrun₂ : Run (Guard Step (ServedAt M i)) ctx₁ ls₂ ctx₂)
    (hlast : Guard Step (RequestAt M i) ctx₂ l ctx') :
    ∃ dev₁ dev', ctx₁.drives i = some dev₁ ∧ ctx'.drives i = some dev' ∧
      ∀ s ∈ dev'.device.device.1 :: dev'.device.device.2.drop dev₁.device.device.2.length,
        Trails setCell
          (sectorsAt medium (rawOffset info.toPartitionTableEntry m.blockSize) m.blockSize st)
          (storesOf m.blockSize (ctx.ofSlot i (ls₁ ++ ls₂ ++ [l])))
          (syncedOf m.blockSize 0 0 (ctx.ofSlot i ls₁))
          (sectorsAt medium (rawOffset info.toPartitionTableEntry m.blockSize) m.blockSize s) := by
  obtain ⟨dev₁, hdev₁, h₁⟩ := ((holdsAt_attached hdev).run hm hb hrun₁).restart
  have h₂ := h₁.run hm hb hrun₂
  have hlog : storesOf m.blockSize (ctx.ofSlot i (ls₁ ++ ls₂ ++ [l])) =
      [] ++ storesOf m.blockSize (ctx.ofSlot i ls₁) ++ storesOf m.blockSize (ctx.ofSlot i ls₂) ++
        storesOf m.blockSize (ctx.ofSlot i [l]) := by
    simp only [ofSlot, storesOf, List.filter_append, List.flatMap_append, List.nil_append]
  have htrails : ∃ k, TrailsAt m medium (rawOffset info.toPartitionTableEntry m.blockSize) (medium st)
      (syncedOf m.blockSize 0 0 (ctx.ofSlot i ls₁)) dev₁.device.device.2.length i ctx'
      (storesOf m.blockSize (ctx.ofSlot i (ls₁ ++ ls₂ ++ [l]))) k := by
    by_cases hi : ctx.reached l.1 = some i
    · have hone : ctx.ofSlot i [l] = [l] := List.filter_cons_of_pos (decide_eq_true hi)
      rw [hlog, hone, storesOf, storesOf, storesOf, List.flatMap_singleton]
      exact ⟨_, (h₂.request hm hb hlast hi).1⟩
    · have hnone : ctx.ofSlot i [l] = [] := List.filter_cons_of_neg (by simpa using hi)
      rw [hlog, hnone, storesOf, storesOf, storesOf, List.flatMap_nil, List.append_nil]
      exact ⟨_, (h₂.other hlast.1.1 hlast.2 hi).trails⟩
  obtain ⟨k, hwhole, dev', hdev', hlags⟩ := htrails
  refine ⟨dev₁, dev', hdev₁, hdev', fun s hs => ?_⟩
  rcases List.mem_cons.mp hs with rfl | hs
  · exact trails_sectors (hlags.now.mono hlags.least) hwhole
  · exact trails_sectors (hlags.since s hs) hwhole

end Table

/-- A disk of sectors of 4 bytes, whose bytes are their addresses and whose fourth transfer fails. -/
def fourthFails : ScriptedDisk := ⟨UInt8.ofNat, .replicate 3 .none ++ [.early]⟩

/-- Partitions of such disks in slots 0 and 2. -/
def fourthFailsTwice : FatfsSysContext (ScriptedDisk × List ScriptedDisk) where
  drives := fun i =>
    if i.val % 2 = 0 ∧ i.val < 3 then some (.attached (scriptedDisk 4) fourthFails oneSector) else none
  defaultDisk := 0

/-- A sector of drive 2 is written and synced, one of drive 0 is read. -/
def syncedThenRead :
    List (Call (ScriptedDisk × List ScriptedDisk) × Answer (ScriptedDisk × List ScriptedDisk)) :=
  [(.diskWrite 2 [9, 9, 9, 9] 0 1, .write .resOk),
    (.diskIoctl (fun _ => true) 2 ctrlSync .null, .ioctl .resOk .null),
    (.diskRead 0 [0, 0, 0, 0] 1 1, .read .resOk [8, 9, 10, 11])]

theorem drive_crash_consistent_fourth : ∃ ctx₁ ctx',
    Run (Guard Step (ServedAt 16 2)) fourthFailsTwice syncedThenRead ctx₁ ∧
    Step ctx₁ (.diskWrite 2 [8, 8, 8, 8, 7, 7, 7, 7] 1 2, .write .resError) ctx' ∧
    ∃ dev', ctx'.drives 2 = some dev' ∧
      Trails setCell (sectorsAt ScriptedDisk.bytes 4 4 fourthFails)
        [(0, [9, 9, 9, 9]), (1, [8, 8, 8, 8]), (2, [7, 7, 7, 7])] 1
        (sectorsAt ScriptedDisk.bytes 4 4 dev'.device.device.1) := by
  have hm : FaultyMedium (scriptedDisk 4) 16 ScriptedDisk.bytes :=
    scriptedDisk_faultyMedium (by decide) (by decide) (by decide)
  have hrun : ∃ ctx₁ ctx', Run (Guard Step (ServedAt 16 2)) fourthFailsTwice syncedThenRead ctx₁ ∧
      Guard Step (RequestAt 16 2) ctx₁
        (.diskWrite 2 [8, 8, 8, 8, 7, 7, 7, 7] 1 2, .write .resError) ctx' := by
    refine ⟨_, _, .cons ⟨⟨⟨rfl, fun _ dev hdev => ?_⟩, fun _ => rfl⟩, rfl⟩ <|
      .cons ⟨⟨⟨rfl, fun _ dev hdev => ?_⟩, fun _ => rfl⟩, rfl⟩ <|
      .cons ⟨⟨⟨rfl, fun hi => ?_⟩, fun _ => rfl⟩, rfl⟩ (.nil _), ⟨rfl, fun _ dev hdev => ?_⟩, rfl⟩
    · cases hdev
      exact ⟨by decide, by decide⟩
    · rfl
    · cases hi
    · cases hdev
      exact ⟨by decide, by decide⟩
  obtain ⟨ctx₁, ctx', hrun, hlast⟩ := hrun
  obtain ⟨dev₁, dev', -, hdev', htrails⟩ := drive_crash_consistent hm (by decide) rfl hrun (.nil ctx₁) hlast
  exact ⟨ctx₁, ctx', hrun, hlast.2, dev', hdev', htrails _ List.mem_cons_self⟩

end FatfsSysContext

end FatDrive
