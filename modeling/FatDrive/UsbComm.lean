import FatDrive.VecWrapper
import FatDrive.Lib.MachineInt

/-!
# FatDrive.UsbComm — `UsbClient` as a SCSI communication channel

`inTransfer` and `outTransfer` copy between a `scsi::Buffer` and an endpoint through an aligned
shim.  The endpoints and the allocator are outside this program: `UsbHost` stands for what they do
on a channel state `ε`.

* `outTransfer_buffer`: `outTransfer` leaves the buffer as it was (no shim could be made) or empty
  (every byte was pulled out before the endpoint was tried), whatever the endpoint answers;
* `outTransfer_empty`: there is nothing to send from an empty buffer, and it fails;
* `retrieveIfaceEndpoints_eq_ok`: the endpoints taken from an interface face the right way.
-/

namespace FatDrive

open Lib

/-- What the client uses of the USB sessions and of the allocator. -/
structure UsbHost (ε : Type) where
  /-- `ClientEndpointSession::read` into a slice of the given size: the bytes it delivers. -/
  read : ε → ℕ → Except LibnxError (List UInt8) × ε
  /-- `ClientEndpointSession::write`. -/
  write : ε → List UInt8 → Except LibnxError ℕ × ε
  /-- Whether `alloc_zeroed` returns a block of this size and alignment. -/
  allocZeroed : ε → ℕ → ℕ → Bool

/-- `std::alloc::Layout`. -/
structure Layout where
  size : ℕ
  align : ℕ
  deriving DecidableEq, Repr

/-- `Layout::from_size_align`: the size, rounded up to the alignment, must fit in `usize`. -/
def Layout.fromSizeAlign (size align : ℕ) : Option Layout :=
  if size + align ≤ 2 ^ 64 then some ⟨size, align⟩ else none

/-- A block of `layout.size` bytes. -/
structure AlignedBuffer where
  layout : Layout
  bytes : List UInt8
  length_bytes : bytes.length = layout.size

namespace AlignedBuffer

/-- A zeroed block, unless the allocator has none. -/
def fromLayout {ε : Type} (h : UsbHost ε) (st : ε) (layout : Layout) : Option AlignedBuffer :=
  if h.allocZeroed st layout.size layout.align then
    some ⟨layout, List.replicate layout.size 0, List.length_replicate⟩
  else none

def size (b : AlignedBuffer) : ℕ := b.layout.size

def alignment (b : AlignedBuffer) : ℕ := b.layout.align

/-- The block with the delivered bytes stored from its start on. -/
def deliver (b : AlignedBuffer) (data : List UInt8) : AlignedBuffer :=
  ⟨b.layout, data.take b.layout.size ++ b.bytes.drop data.length, by
    rw [List.length_append, List.length_take, List.length_drop, b.length_bytes]
    omega⟩

/-- `as_slice_mut()[idx] = byte`. -/
def set (b : AlignedBuffer) (idx : ℕ) (byte : UInt8) : AlignedBuffer :=
  ⟨b.layout, b.bytes.set idx byte, by rw [List.length_set, b.length_bytes]⟩

@[simp] theorem size_set (b : AlignedBuffer) (idx : ℕ) (byte : UInt8) :
    (b.set idx byte).size = b.size := rfl

end AlignedBuffer

namespace UsbClient

variable {ε : Type} (h : UsbHost ε)

/-- `pull_bytes`: read the endpoint into the block. -/
def pullBytes (st : ε) (buffer : AlignedBuffer) : Except String ℕ × AlignedBuffer × ε :=
  if buffer.size = 0 then (.error "Got read size of 0!", buffer, st)
  else if buffer.alignment ≠ 0x1000 then
    (.error s!"Alignment incorrect! Wanted 0x1000 but have {buffer.alignment}.\n", buffer, st)
  else
    match h.read st buffer.size with
    | (.ok data, st) => (.ok data.length, buffer.deliver data, st)
    | (.error e, st) => (.error s!"Read Error: {e.debug}", buffer, st)

/-- `push_bytes`: write the block to the endpoint. -/
def pushBytes (st : ε) (buffer : AlignedBuffer) : Except String ℕ × ε :=
  if buffer.size = 0 then (.error "Got write size of 0!", st)
  else if buffer.alignment ≠ 0x1000 then
    (.error s!"Alignment incorrect! Wanted 0x1000 but have {buffer.alignment}.\n", st)
  else
    match h.write st buffer.bytes with
    | (.ok rval, st) => (.ok rval, st)
    | (.error e, st) => (.error s!"Write Error: {e.debug}", st)

/-- The copy loop of `in_transfer`: `while buffer.capacity() > buffer.size()`, at most one round
for each byte of room.  The result of `push_byte` is dropped; the shim is as long as the room, so
its index stays in range. -/
def fillLoop (shim : AlignedBuffer) : ℕ → ℕ → VecNewtype → VecNewtype
  | 0, _, buffer => buffer
  | n + 1, idx, buffer =>
    if buffer.capacity > buffer.size then
      match shim.bytes[idx]? with
      | some byte => fillLoop shim n (idx + 1) (buffer.pushByte byte).state
      | none => buffer
    else buffer

def inTransfer (st : ε) (buffer : VecNewtype) : Except ScsiError ℕ × VecNewtype × ε :=
  let toGet := usizeSub buffer.capacity buffer.size
  match Layout.fromSizeAlign toGet 0x1000 with
  | none => (.error ⟨.flagError 0xEAFF⟩, buffer, st)
  | some shimLayout =>
    match AlignedBuffer.fromLayout h st shimLayout with
    | none => (.error ⟨.flagError 0xEAFE⟩, buffer, st)
    | some shim =>
      match pullBytes h st shim with
      | (.error _, _, st) => (.error ⟨.usbTransferError .inward⟩, buffer, st)
      | (.ok rval, shim, st) => (.ok rval, fillLoop shim toGet 0 buffer, st)

/-- The copy loop of `out_transfer`: `while bytes.size() > 0`. -/
def drainLoop : ℕ → ℕ → AlignedBuffer → VecNewtype → Except ScsiError AlignedBuffer × VecNewtype
  | 0, _, shim, bytes => (.ok shim, bytes)
  | n + 1, idx, shim, bytes =>
    if bytes.size > 0 then
      match bytes.pullByte with
      | .ok bt bytes => drainLoop n (idx + 1) (shim.set idx bt) bytes
      | .err e bytes => (.error e, bytes)
      | .panicked bytes => (.ok shim, bytes)
    else (.ok shim, bytes)

def outTransfer (st : ε) (bytes : VecNewtype) : Except ScsiError ℕ × VecNewtype × ε :=
  match Layout.fromSizeAlign bytes.size 0x1000 with
  | none => (.error ⟨.flagError 0xEAFF⟩, bytes, st)
  | some shimLayout =>
    match AlignedBuffer.fromLayout h st shimLayout with
    | none => (.error ⟨.flagError 0xEAFE⟩, bytes, st)
    | some shim =>
      match drainLoop bytes.size 0 shim bytes with
      | (.error e, bytes) => (.error e, bytes, st)
      | (.ok shim, bytes) =>
        match pushBytes h st shim with
        | (.error _, st) => (.error ⟨.usbTransferError .outward⟩, bytes, st)
        | (.ok rval, st) => (.ok rval, bytes, st)

/-! ### The drain loop empties the buffer before the endpoint is tried -/

theorem drainLoop_spec : ∀ (n idx : ℕ) (shim : AlignedBuffer) (bytes : VecNewtype),
    bytes.size ≤ n → ∃ shim' : AlignedBuffer, shim'.layout = shim.layout ∧
      drainLoop n idx shim bytes = (.ok shim', bytes.drained)
  | 0, idx, shim, bytes, hn => by
    have h0 : bytes.inner = [] := List.eq_nil_of_length_eq_zero (Nat.le_zero.mp hn)
    exact ⟨shim, rfl, by rw [drainLoop, VecNewtype.drained_eq_self h0]⟩
  | n + 1, idx, shim, bytes, hn => by
    obtain ⟨inner, fakeSize⟩ := bytes
    cases inner with
    | nil => exact ⟨shim, rfl, rfl⟩
    | cons bt rest =>
      obtain ⟨shim', hl, hd⟩ := drainLoop_spec n (idx + 1) (shim.set idx bt) ⟨rest, fakeSize⟩
        (by simp only [VecNewtype.size, List.length_cons] at hn ⊢; omega)
      exact ⟨shim', hl, by
        simpa [drainLoop, VecNewtype.size, VecNewtype.pullByte, VecNewtype.drained] using hd⟩

/-- **`outTransfer` keeps the whole buffer or none of it.**  It is kept, with an error, when no
shim can be made; otherwise it is drained, and an error of the endpoint comes after that. -/
theorem outTransfer_buffer (st : ε) (bytes : VecNewtype) :
    ((outTransfer h st bytes).2.1 = bytes ∧ ∃ e, (outTransfer h st bytes).1 = .error e) ∨
      (outTransfer h st bytes).2.1 = bytes.drained := by
  unfold outTransfer
  split
  · exact Or.inl ⟨rfl, _, rfl⟩
  · split
    · exact Or.inl ⟨rfl, _, rfl⟩
    · obtain ⟨shim', -, hd⟩ := drainLoop_spec bytes.size 0 ‹AlignedBuffer› bytes (Nat.le_refl _)
      rw [hd]
      dsimp only
      split <;> exact Or.inr rfl

/-- An empty buffer cannot be sent. -/
theorem outTransfer_empty (st : ε) {bytes : VecNewtype} (h0 : bytes.inner = []) :
    ∃ e, (outTransfer h st bytes).1 = .error e := by
  have hs : bytes.size = 0 := by simp [VecNewtype.size, h0]
  unfold outTransfer
  split
  · exact ⟨_, rfl⟩
  · next shimLayout hl =>
    split
    · exact ⟨_, rfl⟩
    · next shim hsh =>
      obtain ⟨shim', hl', hd⟩ := drainLoop_spec bytes.size 0 shim bytes (Nat.le_refl _)
      have hz : shim'.size = 0 := by
        unfold Layout.fromSizeAlign at hl
        unfold AlignedBuffer.fromLayout at hsh
        split at hl <;> simp only [Option.some.injEq, reduceCtorEq] at hl
        split at hsh <;> simp only [Option.some.injEq, reduceCtorEq] at hsh
        subst hl hsh
        simp [AlignedBuffer.size, hl', hs]
      rw [hd]
      simp [pushBytes, hz]

end UsbClient

/-! ### The endpoints of an interface -/

/-- The codes of a `UsbDeviceDescriptor` or a `UsbInterfaceDescriptor`. -/
structure UsbClassCodes where
  classCode : UInt8
  subclass : UInt8
  protocol : UInt8
  deriving DecidableEq, Repr

inductive EndpointDirection where
  | inward | outward
  deriving DecidableEq, Repr

def EndpointDirection.debug : EndpointDirection → String
  | .inward => "IN"
  | .outward => "OUT"

structure UsbEndpointDescriptor where
  address : UInt8
  direction : EndpointDirection
  deriving DecidableEq, Repr

structure InterfaceInfo where
  interfaceDesc : UsbClassCodes
  inputEndpointDescs : List UsbEndpointDescriptor
  outputEndpointDescs : List UsbEndpointDescriptor
  deriving DecidableEq, Repr

structure Interface where
  deviceDesc : UsbClassCodes
  info : InterfaceInfo
  deriving DecidableEq, Repr

/-- Some descriptor of the interface has this code. -/
def Interface.hasCode (iface : Interface) (code : UsbClassCodes → UInt8) (n : UInt8) : Bool :=
  code iface.deviceDesc == n || code iface.info.interfaceDesc == n

/-- One of the checks on an endpoint, with its message. -/
def endpointProblem (name : String) (ep : UsbEndpointDescriptor) (direction : EndpointDirection) :
    LibnxError :=
  .fromMsg s!"{name} problem: 128 vs {ep.address.toNat}, {ep.direction.debug} vs {direction.debug}."

/-- The endpoint to read from and the one to write to.  The crate names them from the side of the
device: what the program writes to is an input endpoint. -/
def UsbClient.retrieveIfaceEndpoints (interface : Interface) :
    Except LibnxError (UsbEndpointDescriptor × UsbEndpointDescriptor) :=
  if ¬ (interface.hasCode UsbClassCodes.classCode 8 ∧ interface.hasCode UsbClassCodes.subclass 6 ∧
      interface.hasCode UsbClassCodes.protocol 80) then
    .error (.fromMsg "Error: interface is not SCSI Bulk-Only Mass Storage device.")
  else
    match interface.info.inputEndpointDescs with
    | [] => .error (.fromMsg "Error: no output endpoint found!")
    | writeEp :: _ =>
      match interface.info.outputEndpointDescs with
      | [] => .error (.fromMsg "Error: no input endpoint found!")
      | readEp :: _ =>
        if readEp.address &&& 0x80 = 0 ∨ readEp.direction ≠ .inward then
          .error (endpointProblem "read_ep" readEp .inward)
        else if writeEp.address &&& 0x80 ≠ 0 ∨ writeEp.direction ≠ .outward then
          .error (endpointProblem "write_ep" writeEp .outward)
        else .ok (readEp, writeEp)

/-- The endpoints returned belong to the interface and face the right way. -/
theorem UsbClient.retrieveIfaceEndpoints_eq_ok {interface : Interface}
    {readEp writeEp : UsbEndpointDescriptor}
    (h : retrieveIfaceEndpoints interface = .ok (readEp, writeEp)) :
    readEp ∈ interface.info.outputEndpointDescs ∧ writeEp ∈ interface.info.inputEndpointDescs ∧
      readEp.direction = .inward ∧ writeEp.direction = .outward ∧
      readEp.address &&& 0x80 ≠ 0 ∧ writeEp.address &&& 0x80 = 0 := by
  unfold retrieveIfaceEndpoints at h
  split at h
  · cases h
  · split at h
    · cases h
    · next w ws hw =>
      split at h
      · cases h
      · next r rs hr =>
        split at h
        · cases h
        · next hread =>
          split at h
          · cases h
          · next hwrite =>
            cases h
            rw [hr, hw]
            obtain ⟨ha, hd⟩ := not_or.mp hread
            obtain ⟨hwa, hwd⟩ := not_or.mp hwrite
            exact ⟨.head _, .head _, Decidable.not_not.mp hd, Decidable.not_not.mp hwd, ha,
              Decidable.not_not.mp hwa⟩

end FatDrive
