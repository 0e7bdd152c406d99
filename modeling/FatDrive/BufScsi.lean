import FatDrive.Lib.MachineInt
import FatDrive.Lib.Runs
import FatDrive.VecWrapper

/-!
# FatDrive.BufScsi — `OffsetScsiDevice`, a one-block write-back cache over a SCSI device

`ScsiCrate` stands for the `scsi` crate: `ScsiBlockDevice::{block_size, read, write}` on a device
state `σ`, and the methods `scsi::Buffer` provides.  `OffsetScsiDevice` keeps one block of the
device in `blockBuffer`, the number of that block in `loadedBlockNumber`, whether it was changed in
`needsFlush`, and a cursor relative to the start of a partition.

`exec` runs one call, `Step` is the resulting labelled transition.
-/

namespace FatDrive

open Lib

/-- What the program uses of the `scsi` crate.  `read` and `write` take the device, a byte address
and the buffer they fill or drain. -/
structure ScsiCrate (σ : Type) where
  blockSize : ℕ
  read : σ → ℕ → VecNewtype → Except ScsiError ℕ × VecNewtype × σ
  write : σ → ℕ → VecNewtype → Except ScsiError ℕ × VecNewtype × σ
  /-- `Buffer::is_empty`. -/
  isEmpty : VecNewtype → Bool
  /-- `Buffer::clear`. -/
  clear : VecNewtype → Except ScsiError ℕ × VecNewtype

/-- `std::io::SeekFrom`. -/
inductive SeekFrom where
  | start (absr : ℕ)
  | current (off : ℤ)
  | fromEnd (off : ℤ)
  deriving DecidableEq, Repr

structure OffsetScsiDevice (σ : Type) where
  device : σ
  blockBuffer : VecNewtype
  /-- in bytes -/
  partitionStart : ℕ
  /-- in bytes from `partitionStart` -/
  partitionIdx : ℕ
  loadedBlockNumber : ℕ
  needsFlush : Bool
  deriving DecidableEq, Repr

namespace OffsetScsiDevice

variable {σ : Type} (m : ScsiCrate σ)

def new (device : σ) (partitionStart : ℕ) : OffsetScsiDevice σ where
  device := device
  blockBuffer := VecNewtype.withFakeCapacity m.blockSize
  partitionStart := partitionStart
  partitionIdx := 0
  loadedBlockNumber := 0
  needsFlush := false

def rawIdx (d : OffsetScsiDevice σ) : ℕ := usizeAdd d.partitionStart d.partitionIdx

def bufferedBlockRawIdx (d : OffsetScsiDevice σ) : ℕ := usizeMul m.blockSize d.loadedBlockNumber

def curBlockRawIdx (d : OffsetScsiDevice σ) : ℕ :=
  let relOffset := d.rawIdx % m.blockSize
  usizeSub d.rawIdx relOffset

def curBlockNumber (d : OffsetScsiDevice σ) : ℕ := d.curBlockRawIdx m / m.blockSize

def offsetFromCurBlock (d : OffsetScsiDevice σ) : ℕ := usizeSub d.rawIdx (d.curBlockRawIdx m)

def flush (d : OffsetScsiDevice σ) : Outcome IoError (OffsetScsiDevice σ) Unit :=
  if d.needsFlush then
    match m.write d.device (asU32 (d.bufferedBlockRawIdx m)) d.blockBuffer with
    | (.ok _, buf, st) => .ok () { d with device := st, blockBuffer := buf, needsFlush := false }
    | (.error _, buf, st) => .err ⟨.other, none⟩ { d with device := st, blockBuffer := buf }
  else .ok () d

/-- `self.block_buffer.clear()` with its error mapped. -/
def clearBuffer (d : OffsetScsiDevice σ) : Outcome IoError (OffsetScsiDevice σ) Unit :=
  match m.clear d.blockBuffer with
  | (.ok _, buf) => .ok () { d with blockBuffer := buf }
  | (.error _, buf) => .err ⟨.other, none⟩ { d with blockBuffer := buf }

/-- The error `fill_buf` makes of a failed `device.read`. -/
def readError : ErrorCause → IoError
  | .bufferTooSmallError expected actual =>
    ⟨.unexpectedEof, some (.bufferTooSmall expected actual)⟩
  | e => ⟨.other, some (.unmatched e)⟩

/-- First part of `fill_buf`: leave a block the cursor is no longer in. -/
def evict (d : OffsetScsiDevice σ) : Outcome IoError (OffsetScsiDevice σ) Unit :=
  if d.curBlockNumber m ≠ d.loadedBlockNumber then
    (d.flush m).andThen fun _ d => d.clearBuffer m
  else .ok () d

/-- Second part of `fill_buf`: read the block under the cursor into an empty buffer. -/
def load (d : OffsetScsiDevice σ) : Outcome IoError (OffsetScsiDevice σ) Unit :=
  let blockIdx := asU32 (d.curBlockRawIdx m)
  if m.isEmpty d.blockBuffer then
    match m.read d.device blockIdx d.blockBuffer with
    | (.ok _, buf, st) =>
      .ok () { d with device := st, blockBuffer := buf, loadedBlockNumber := d.curBlockNumber m }
    | (.error e, buf, st) => .err (readError e.cause) { d with device := st, blockBuffer := buf }
  else .ok () d

/-- Last line of `fill_buf`: the slice from the cursor on, out of range if the buffer is short. -/
def rest (d : OffsetScsiDevice σ) : Outcome IoError (OffsetScsiDevice σ) (List UInt8) :=
  if d.offsetFromCurBlock m ≤ d.blockBuffer.inner.length then
    .ok (d.blockBuffer.inner.drop (d.offsetFromCurBlock m)) d
  else .panicked d

def fillBuf (d : OffsetScsiDevice σ) : Outcome IoError (OffsetScsiDevice σ) (List UInt8) :=
  (d.evict m).andThen fun _ d => (d.load m).andThen fun _ d => d.rest m

def consume (d : OffsetScsiDevice σ) (amt : ℕ) : OffsetScsiDevice σ :=
  { d with partitionIdx := usizeAdd d.partitionIdx amt }

/-- The loop of `read` over the cells of the output buffer not yet written; the first component is
what those cells hold afterwards. -/
def readLoop : List UInt8 → ℕ → OffsetScsiDevice σ →
    List UInt8 × Outcome IoError (OffsetScsiDevice σ) ℕ
  | [], outputIdx, d => ([], .ok outputIdx d)
  | cell :: cells, outputIdx, d =>
    match d.fillBuf m with
    | .ok [] d => (cell :: cells, .ok outputIdx d)
    | .ok (byte :: _) d =>
      let r := readLoop cells (outputIdx + 1) (d.consume 1)
      (byte :: r.1, r.2)
    | .err e d => (cell :: cells, .err e d)
    | .panicked d => (cell :: cells, .panicked d)

def read (d : OffsetScsiDevice σ) (outputBuf : List UInt8) :
    List UInt8 × Outcome IoError (OffsetScsiDevice σ) ℕ :=
  readLoop m outputBuf 0 d

/-- Store one byte at the cursor if it differs from the byte there. -/
def storeByte (d : OffsetScsiDevice σ) (byte : UInt8) : Option (OffsetScsiDevice σ) :=
  let blockOffset := d.offsetFromCurBlock m
  match d.blockBuffer.inner[blockOffset]? with
  | none => none
  | some old =>
    if old ≠ byte then
      some { d with
        blockBuffer := { d.blockBuffer with inner := d.blockBuffer.inner.set blockOffset byte }
        needsFlush := true }
    else some d

/-- The loop of `write` over the bytes not yet written. -/
def writeLoop : List UInt8 → ℕ → OffsetScsiDevice σ → Outcome IoError (OffsetScsiDevice σ) ℕ
  | [], writtenIdx, d => .ok writtenIdx d
  | byte :: bytes, writtenIdx, d =>
    (d.fillBuf m).andThen fun _ d =>
      if m.isEmpty d.blockBuffer then .ok writtenIdx d
      else
        match d.storeByte m byte with
        | none => .panicked d
        | some d => writeLoop bytes (writtenIdx + 1) (d.consume 1)

def write (d : OffsetScsiDevice σ) (toWrite : List UInt8) : Outcome IoError (OffsetScsiDevice σ) ℕ :=
  writeLoop m toWrite 0 d

def seek (d : OffsetScsiDevice σ) (pos : SeekFrom) : Outcome IoError (OffsetScsiDevice σ) ℕ :=
  match pos with
  | .start absr => .ok absr { d with partitionIdx := absr }
  | .current off =>
    let absr :=
      if off < 0 then usizeSub d.partitionIdx (i64AsUsize (i64Abs off))
      else usizeAdd d.partitionIdx (i64AsUsize (i64Abs off))
    .ok absr { d with partitionIdx := absr }
  | .fromEnd _ => .panicked d

/-! ### Calls and transitions -/

/-- The calls on an `OffsetScsiDevice`. -/
inductive Op where
  | seek (pos : SeekFrom)
  | fillBuf
  | consume (amt : ℕ)
  | read (outputBuf : List UInt8)
  | write (toWrite : List UInt8)
  | flush
  deriving DecidableEq, Repr

/-- What a call returns when it does not fail. -/
inductive Resp where
  | position (n : ℕ)
  | slice (bytes : List UInt8)
  | filled (outputBuf : List UInt8) (count : ℕ)
  | count (n : ℕ)
  | unit
  deriving DecidableEq, Repr

def exec (d : OffsetScsiDevice σ) : Op → Outcome IoError (OffsetScsiDevice σ) Resp
  | .seek pos => (d.seek pos).andThen fun n d => .ok (.position n) d
  | .fillBuf => (d.fillBuf m).andThen fun bytes d => .ok (.slice bytes) d
  | .consume amt => .ok .unit (d.consume amt)
  | .read outputBuf =>
    (d.read m outputBuf).2.andThen fun n d' => .ok (.filled (d.read m outputBuf).1 n) d'
  | .write toWrite => (d.write m toWrite).andThen fun n d => .ok (.count n) d
  | .flush => (d.flush m).andThen fun _ d => .ok .unit d

/-- A call with what it returned (nothing, if it panicked). -/
abbrev Label := Op × Option (Except IoError Resp)

/-- One call. -/
def Step (d : OffsetScsiDevice σ) (l : Label) (d' : OffsetScsiDevice σ) : Prop :=
  (d.exec m l.1).result = l.2 ∧ (d.exec m l.1).state = d'

/-- The state after a list of calls. -/
def execAll : OffsetScsiDevice σ → List Op → OffsetScsiDevice σ :=
  after fun d op => (d.exec m op).state

/-- A list of calls with what each returned. -/
def trace : OffsetScsiDevice σ → List Op → List Label :=
  answers (fun d op => (d.exec m op).state) fun d op => (d.exec m op).result

/-- `C` holds of every call of the list in the state it is made in. -/
def Along (C : OffsetScsiDevice σ → Op → Prop) : OffsetScsiDevice σ → List Op → Prop :=
  Lib.Along (fun d op => (d.exec m op).state) C

instance (C : OffsetScsiDevice σ → Op → Prop) [∀ d op, Decidable (C d op)]
    (d : OffsetScsiDevice σ) (ops : List Op) : Decidable (Along m C d ops) :=
  inferInstanceAs (Decidable (Lib.Along _ C d ops))

/-- A list of calls is a run. -/
theorem run_trace {C : OffsetScsiDevice σ → Op → Prop} {d : OffsetScsiDevice σ} {ops : List Op}
    (h : Along m C d ops) :
    Run (Guard (Step m) fun d l => C d l.1) d (trace m d ops) (execAll m d ops) :=
  run_answers _ (fun (d : OffsetScsiDevice σ) (op : Op) => (d.exec m op).result) h

end OffsetScsiDevice

end FatDrive
