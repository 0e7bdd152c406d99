import FatDrive.Lib.Outcome
import Mathlib.Algebra.Group.Nat.Defs

/-!
# FatDrive.Err — error values and the codes the C interface returns

The error types of the crates as far as this program builds or inspects them, the `nxFatdriveErr`
codes, and `LibnxErrMapper`, which turns each error into the code `err_wrap!` returns.  All codes
are `u32`; none of the sums below reaches `2 ^ 32` (`map_lt` lemmas).
-/

namespace FatDrive

def success : ℕ := 0

def nxFatdriveErrModule : ℕ := 0xFA

def nxFatdriveErrNotImplemented : ℕ := 0x1FA
def nxFatdriveErrNotInitialized : ℕ := 0x2FA
def nxFatdriveErrDriveNotFound : ℕ := 0x3FA
def nxFatdriveErrPoissenedMutex : ℕ := 0x4FA
def nxFatdriveErrDriveDisconnected : ℕ := 0x6FA

def nxFatdriveErrStdioPrefix : ℕ := 0x20000
def nxFatdriveErrFsPrefix : ℕ := 0x40000
def nxFatdriveErrFileNotFound : ℕ := (nxFatdriveErrFsPrefix + 1) * 2 ^ 8 + nxFatdriveErrModule
def nxFatdriveErrScsiPrefix : ℕ := 0x50000
def nxFatdriveErrMbrPrefix : ℕ := 0x60000
def nxFatdriveErrUnknown : ℕ := 0xFFFFFE00 + nxFatdriveErrModule

/-- `std::io::ErrorKind`; `unlisted` stands for the kinds `err.rs` does not name. -/
inductive ErrorKind where
  | notFound | permissionDenied | connectionRefused | connectionReset | notConnected | addrInUse
  | addrNotAvailable | brokenPipe | alreadyExists | wouldBlock | invalidInput | invalidData
  | timedOut | writeZero | interrupted | other | unexpectedEof | connectionAborted | unlisted
  deriving DecidableEq, Repr

/-- `scsi::UsbTransferDirection`. -/
inductive UsbTransferDirection where
  | inward | outward | unlisted
  deriving DecidableEq, Repr

/-- `scsi::ErrorCause`. -/
inductive ErrorCause where
  | parseError
  | nonBlocksizeMultipleLengthError
  | usbTransferError (direction : UsbTransferDirection)
  | flagError (flags : ℕ)
  | bufferTooSmallError (expected actual : ℕ)
  | unsupportedOperationError
  | invalidDeviceError
  deriving DecidableEq, Repr

/-- `scsi::ScsiError`. -/
structure ScsiError where
  cause : ErrorCause
  deriving DecidableEq, Repr

/-- The message an `io::Error` was built with. -/
inductive IoMessage where
  | bufferTooSmall (expected actual : ℕ)
  | unmatched (cause : ErrorCause)
  deriving DecidableEq, Repr

/-- `std::io::Error`. -/
structure IoError where
  kind : ErrorKind
  message : Option IoMessage := none
  deriving DecidableEq, Repr

/-- The text of a message, up to the `Debug` rendering of a cause. -/
def IoMessage.text (debug : ErrorCause → String) : IoMessage → String
  | .bufferTooSmall expected actual =>
    s!"Buffer too small: wanted {expected} but only have {actual}."
  | .unmatched cause => s!"Unmatched error : {debug cause}"

/-- `libnx_rs::LibnxError`, with its `Debug` rendering. -/
structure LibnxError where
  errorCode : Option ℕ
  debug : String := ""
  deriving DecidableEq, Repr

def LibnxError.fromRaw (code : ℕ) : LibnxError := { errorCode := some code }

/-- A message and no code. -/
def LibnxError.fromMsg (msg : String) : LibnxError := { errorCode := none, debug := msg }

/-- `mbr_nostd::ErrorCause`. -/
inductive MbrErrorCause where
  | unsupportedPartitionError (tag : UInt8)
  | invalidMBRSuffix (actual0 actual1 : UInt8)
  | bufferWrongSizeError
  deriving DecidableEq, Repr

/-- `mbr_nostd::MbrError`. -/
structure MbrError where
  cause : MbrErrorCause
  deriving DecidableEq, Repr

/-- `std::sync::PoisonError`: what locking a poisoned mutex returns. -/
structure PoisonError where
  deriving DecidableEq, Repr

/-- The code an error is reported as. -/
class LibnxErrMapper (ε : Type) where
  map : ε → ℕ

/-- The offset `err.rs` gives an `io::ErrorKind`. -/
def ErrorKind.offset : ErrorKind → ℕ
  | .notFound => 1
  | .permissionDenied => 2
  | .connectionRefused => 3
  | .connectionReset => 4
  | .notConnected => 5
  | .addrInUse => 6
  | .addrNotAvailable => 7
  | .brokenPipe => 8
  | .alreadyExists => 9
  | .wouldBlock => 10
  | .invalidInput => 11
  | .invalidData => 12
  | .timedOut => 13
  | .writeZero => 14
  | .interrupted => 15
  | .other => 16
  | .unexpectedEof => 17
  | .connectionAborted => 18
  | .unlisted => 0xFFFF

instance : LibnxErrMapper IoError where
  map err := (nxFatdriveErrStdioPrefix + err.kind.offset) * 2 ^ 8 + nxFatdriveErrModule

instance : LibnxErrMapper ℕ where
  map raw := raw

instance : LibnxErrMapper PoisonError where
  map _ := nxFatdriveErrPoissenedMutex

instance : LibnxErrMapper LibnxError where
  map err := err.errorCode.getD nxFatdriveErrUnknown

/-- The description `err.rs` gives a `scsi::ErrorCause`. -/
def ErrorCause.desc : ErrorCause → ℕ
  | .parseError => 0x1000
  | .nonBlocksizeMultipleLengthError => 0x2000
  | .usbTransferError .inward => 0x3001
  | .usbTransferError .outward => 0x3002
  | .usbTransferError .unlisted => 0x3003
  | .flagError _ => 0x4000
  | .bufferTooSmallError _ _ => 0x5000
  | .unsupportedOperationError => 0x6000
  | .invalidDeviceError => 0x7000

instance : LibnxErrMapper ScsiError where
  map err := (err.cause.desc + nxFatdriveErrScsiPrefix) * 2 ^ 8 + nxFatdriveErrModule

/-- The description `err.rs` gives an `mbr_nostd::ErrorCause`. -/
def MbrErrorCause.desc : MbrErrorCause → ℕ
  | .unsupportedPartitionError tag => 0x1000 + tag.toNat * 2 ^ 8
  | .invalidMBRSuffix actual0 actual1 => 0x2000 + actual0.toNat * 2 ^ 8 + actual1.toNat * 2 ^ 4
  | .bufferWrongSizeError => 0x3000

instance : LibnxErrMapper MbrError where
  map err := (err.cause.desc + nxFatdriveErrMbrPrefix) * 2 ^ 8 + nxFatdriveErrModule

/-! ## Every mapped code is a non-zero `u32` -/

theorem map_ioError_lt (err : IoError) :
    LibnxErrMapper.map err ≠ success ∧ LibnxErrMapper.map err < 2 ^ 32 := by
  have h : err.kind.offset < 0x10000 := by cases err.kind <;> decide
  simp only [LibnxErrMapper.map, success, nxFatdriveErrStdioPrefix, nxFatdriveErrModule]
  omega

theorem map_scsiError_lt (err : ScsiError) :
    LibnxErrMapper.map err ≠ success ∧ LibnxErrMapper.map err < 2 ^ 32 := by
  have h : err.cause.desc < 0x8000 := by
    obtain ⟨cause⟩ := err
    cases cause with
    | usbTransferError direction => cases direction <;> decide
    | _ => simp [ErrorCause.desc]
  simp only [LibnxErrMapper.map, success, nxFatdriveErrScsiPrefix, nxFatdriveErrModule]
  omega

theorem map_mbrError_lt (err : MbrError) :
    LibnxErrMapper.map err ≠ success ∧ LibnxErrMapper.map err < 2 ^ 32 := by
  have h : err.cause.desc < 0x20000 := by
    obtain ⟨cause⟩ := err
    cases cause with
    | unsupportedPartitionError tag =>
      have := tag.toNat_lt
      simp only [MbrErrorCause.desc]
      omega
    | invalidMBRSuffix actual0 actual1 =>
      have := actual0.toNat_lt
      have := actual1.toNat_lt
      simp only [MbrErrorCause.desc]
      omega
    | bufferWrongSizeError => decide
  simp only [LibnxErrMapper.map, success, nxFatdriveErrMbrPrefix, nxFatdriveErrModule]
  omega

end FatDrive
