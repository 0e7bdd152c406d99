import FatDrive.BufScsi
import FatDrive.DirectoryOps
import FatDrive.Lib.Descriptor

/-!
# FatDrive.FatfsRawFiles — files of FatFs: targets of seeks, and modes

`FatfsSysFile` wraps a `FIL`.  `seek` works out a target in 64 bits and hands it to `f_lseek` in 32;
`open_file` and `create_file` open the file in a mode that only reads and writes look at.

* `seek_target_iff`: a seek goes where it should exactly if the target has 32 bits, or if FatFs refuses
  what is left of it;
* `exec_mode`, `run_denied`: no call changes the mode, so no read and no write ever succeeds;
* `never_round_trips`: nothing that is opened can be written or read.
-/

namespace FatDrive

open Lib

/-- What the program uses of FatFs on an open file; `fptr` and `objsize` are fields of `FIL`. -/
structure FatFsFiles (τ Fil : Type) where
  fptr : Fil → UInt32
  objsize : Fil → UInt32
  /-- With the bytes that were read. -/
  fRead : UInt32 → Fil × τ → (FResult × List UInt8) × Fil × τ
  fWrite : List UInt8 → Fil × τ → (FResult × UInt32) × Fil × τ
  fLseek : UInt32 → Fil × τ → FResult × Fil × τ
  fSync : Fil × τ → FResult × Fil × τ
  fTruncate : Fil × τ → FResult × Fil × τ
  fClose : Fil × τ → FResult × τ

def faRead : UInt8 := 1
def faWrite : UInt8 := 2

namespace FatfsSysFile

variable {τ Fil : Type} (ff : FatFsFiles τ Fil)

open FatfsSysDir (wrapped wrapped_isErr wrapped_eq_ok wrapped_state)

/-- The length of the buffer is cast to a `UINT`. -/
def read (room : ℕ) (s : Fil × τ) : Outcome IoError (Fil × τ) (List UInt8) :=
  let r := ff.fRead (UInt32.ofNat room) s
  wrapped r.1.2 r.1.1 r.2

/-- `pos_from_start`: the sums are of `i64` and wrap, the cast is to `u64`. -/
def posFromStart (inner : Fil) : SeekFrom → ℕ
  | .start raw => raw
  | .current raw => i64AsUsize ((ff.fptr inner).toNat + raw)
  | .fromEnd raw => i64AsUsize (raw + (ff.objsize inner).toNat)

/-- What `f_lseek` is called with: `pos_from_start as u32`. -/
def lseekOfs (inner : Fil) (pos : SeekFrom) : UInt32 := UInt32.ofNat (posFromStart ff inner pos)

def seek (pos : SeekFrom) (s : Fil × τ) : Outcome IoError (Fil × τ) ℕ :=
  let r := ff.fLseek (lseekOfs ff s.1 pos) s
  wrapped (ff.fptr r.2.1).toNat r.1 r.2

def write (buf : List UInt8) (s : Fil × τ) : Outcome IoError (Fil × τ) ℕ :=
  let r := ff.fWrite (buf.take (asU32 buf.length)) s
  wrapped r.1.2.toNat r.1.1 r.2

def flush (s : Fil × τ) : Outcome IoError (Fil × τ) Unit :=
  let r := ff.fSync s
  wrapped () r.1 r.2

def truncate (s : Fil × τ) : Outcome IoError (Fil × τ) Unit :=
  let r := ff.fTruncate s
  wrapped () r.1 r.2

def drop (s : Fil × τ) : τ := (ff.fClose s).2

/-! ### Targets -/

variable {ff}

/-- Where a seek wants to go, as an integer. -/
def target (ff : FatFsFiles τ Fil) (inner : Fil) : SeekFrom → ℤ
  | .start raw => raw
  | .current raw => (ff.fptr inner).toNat + raw
  | .fromEnd raw => (ff.objsize inner).toNat + raw

/-- Either `f_lseek` is called with the target, which has 32 bits, or the call fails and the file has
not moved. -/
def SeeksTarget (ff : FatFsFiles τ Fil) (pos : SeekFrom) (s : Fil × τ) : Prop :=
  0 ≤ target ff s.1 pos ∧ target ff s.1 pos < 2 ^ 32 ∧
      ((lseekOfs ff s.1 pos).toNat : ℤ) = target ff s.1 pos ∨
    (seek ff pos s).isErr = true ∧ ff.fptr (seek ff pos s).state.1 = ff.fptr s.1

/-- `f_lseek` refuses the target modulo `2 ^ 32`, and the file stays where it is. -/
def RefusesRest (ff : FatFsFiles τ Fil) (pos : SeekFrom) (s : Fil × τ) : Prop :=
  let r := ff.fLseek (UInt32.ofNat (target ff s.1 pos % 2 ^ 32).toNat) s
  r.1 ≠ .frOk ∧ ff.fptr r.2.1 = ff.fptr s.1

/-- **The two casts** leave the target modulo `2 ^ 32`. -/
theorem toNat_lseekOfs (ff : FatFsFiles τ Fil) (inner : Fil) (pos : SeekFrom) :
    ((lseekOfs ff inner pos).toNat : ℤ) = target ff inner pos % 2 ^ 32 := by
  have hcast : ∀ x : ℤ, ((i64AsUsize x : ℕ) : ℤ) = x % 2 ^ 64 := fun x => by
    unfold i64AsUsize
    omega
  rw [lseekOfs, UInt32.toNat_ofNat']
  cases pos with
  | start raw =>
    simp only [posFromStart, target]
    omega
  | current raw =>
    have hx := hcast ((ff.fptr inner).toNat + raw)
    simp only [posFromStart, target]
    omega
  | fromEnd raw =>
    have hx := hcast (raw + (ff.objsize inner).toNat)
    simp only [posFromStart, target]
    omega

theorem lseekOfs_eq (inner : Fil) (pos : SeekFrom) :
    lseekOfs ff inner pos = UInt32.ofNat (target ff inner pos % 2 ^ 32).toNat := by
  have h := toNat_lseekOfs ff inner pos
  apply UInt32.toNat_inj.mp
  rw [UInt32.toNat_ofNat']
  omega

/-- **Targets of seeks.**  A target of 32 bits is what `f_lseek` is called with; any other is cut to 32
bits, and gone to unless FatFs refuses what is left. -/
theorem seek_target_iff (ff : FatFsFiles τ Fil) (pos : SeekFrom) (s : Fil × τ) :
    SeeksTarget ff pos s ↔
      0 ≤ target ff s.1 pos ∧ target ff s.1 pos < 2 ^ 32 ∨ RefusesRest ff pos s := by
  have hofs := toNat_lseekOfs ff s.1 pos
  have hrest : ((seek ff pos s).isErr = true ∧ ff.fptr (seek ff pos s).state.1 = ff.fptr s.1) ↔
      RefusesRest ff pos s := by
    rw [seek, wrapped_isErr, wrapped_state, lseekOfs_eq]
    rfl
  unfold SeeksTarget
  rw [hrest]
  constructor
  · rintro (⟨h₀, h₁, -⟩ | hr)
    · exact Or.inl ⟨h₀, h₁⟩
    · exact Or.inr hr
  · rintro (⟨h₀, h₁⟩ | hr)
    · exact Or.inl ⟨h₀, h₁, by omega⟩
    · exact Or.inr hr

/-! ### Modes -/

/-- FatFs keeps the mode a file was opened in, and reads and writes only in a mode for it. -/
structure ChecksMode {Dir : Type} (ff : FatFsFiles τ Fil) (paths : FatFsPaths τ Fil Dir)
    (mode : Fil → UInt8) : Prop where
  fOpen : ∀ {p m v fil v'}, paths.fOpen p m v = ((.frOk, fil), v') → mode fil = m
  fRead_ok : ∀ {n s}, (ff.fRead n s).1.1 = .frOk → mode s.1 &&& faRead ≠ 0
  fWrite_ok : ∀ {buf s}, (ff.fWrite buf s).1.1 = .frOk → mode s.1 &&& faWrite ≠ 0
  fRead_mode : ∀ n s, mode (ff.fRead n s).2.1 = mode s.1
  fWrite_mode : ∀ buf s, mode (ff.fWrite buf s).2.1 = mode s.1
  fLseek_mode : ∀ ofs s, mode (ff.fLseek ofs s).2.1 = mode s.1
  fSync_mode : ∀ s, mode (ff.fSync s).2.1 = mode s.1
  fTruncate_mode : ∀ s, mode (ff.fTruncate s).2.1 = mode s.1

/-- The calls on a file. -/
inductive Call where
  | read (room : ℕ)
  | write (buf : List UInt8)
  | seek (pos : SeekFrom)
  | flush
  | truncate
  deriving DecidableEq, Repr

/-- What a call returns when it does not fail. -/
inductive Resp where
  | data (bytes : List UInt8)
  | count (n : ℕ)
  | unit
  deriving DecidableEq, Repr

def exec (ff : FatFsFiles τ Fil) (s : Fil × τ) : Call → Outcome IoError (Fil × τ) Resp
  | .read room => (read ff room s).bimap .data id
  | .write buf => (write ff buf s).bimap .count id
  | .seek pos => (seek ff pos s).bimap .count id
  | .flush => (flush ff s).bimap (fun _ => .unit) id
  | .truncate => (truncate ff s).bimap (fun _ => .unit) id

/-- One call, with what it returned. -/
def Step (ff : FatFsFiles τ Fil) (s : Fil × τ) (l : Call × Option (Except IoError Resp))
    (s' : Fil × τ) : Prop :=
  (exec ff s l.1).result = l.2 ∧ (exec ff s l.1).state = s'

/-- The calls a mode of no access refuses. -/
def Call.accesses : Call → Bool
  | .read _ => true
  | .write _ => true
  | _ => false

section Modes

variable {Dir : Type} {paths : FatFsPaths τ Fil Dir} {mode : Fil → UInt8}

/-- **One call** leaves the mode as it is. -/
theorem exec_mode (laws : ChecksMode ff paths mode) (s : Fil × τ) (c : Call) :
    mode (exec ff s c).state.1 = mode s.1 := by
  cases c with
  | read room =>
    rw [exec, Outcome.state_bimap, read, wrapped_state]
    exact laws.fRead_mode _ s
  | write buf =>
    rw [exec, Outcome.state_bimap, write, wrapped_state]
    exact laws.fWrite_mode _ s
  | seek pos =>
    rw [exec, Outcome.state_bimap, seek, wrapped_state]
    exact laws.fLseek_mode _ s
  | flush =>
    rw [exec, Outcome.state_bimap, flush, wrapped_state]
    exact laws.fSync_mode s
  | truncate =>
    rw [exec, Outcome.state_bimap, truncate, wrapped_state]
    exact laws.fTruncate_mode s

/-- The modes that `open_file` and `create_file` ask for. -/
def NoAccess (m : UInt8) : Prop := m = faOpenExisting ∨ m = faCreateNew

theorem NoAccess.denied {m : UInt8} (h : NoAccess m) : m &&& faRead = 0 ∧ m &&& faWrite = 0 := by
  rcases h with rfl | rfl <;> decide

/-- In such a mode a read or a write does not succeed. -/
theorem exec_denied (laws : ChecksMode ff paths mode) {s : Fil × τ} (h : NoAccess (mode s.1)) {c : Call}
    (hc : c.accesses = true) (resp : Resp) : (exec ff s c).result ≠ some (.ok resp) := by
  intro hres
  obtain ⟨s', hs'⟩ := Outcome.result_eq_ok.mp hres
  cases c with
  | read room =>
    obtain ⟨data, t, hread, -, -⟩ := Outcome.bimap_eq_ok.mp hs'
    have hok : (read ff room s).isOk = true := Outcome.isOk_iff.mpr ⟨data, t, hread⟩
    exact laws.fRead_ok (FatfsSysDir.wrapped_isOk.mp hok) h.denied.1
  | write buf =>
    obtain ⟨n, t, hwrite, -, -⟩ := Outcome.bimap_eq_ok.mp hs'
    have hok : (write ff buf s).isOk = true := Outcome.isOk_iff.mpr ⟨n, t, hwrite⟩
    exact laws.fWrite_ok (FatfsSysDir.wrapped_isOk.mp hok) h.denied.2
  | seek pos => cases hc
  | flush => cases hc
  | truncate => cases hc

/-- **No access, ever.**  In no run of calls on a file in such a mode does a read or a write succeed. -/
theorem run_denied (laws : ChecksMode ff paths mode) {s s' : Fil × τ} (h : NoAccess (mode s.1))
    {ls : List (Call × Option (Except IoError Resp))} (hrun : Run (Step ff) s ls s') :
    NoAccess (mode s'.1) ∧
      ∀ c resp, c.accesses = true → (c, some (.ok resp)) ∉ ls := by
  induction hrun with
  | nil s => exact ⟨h, by simp⟩
  | @cons s s₁ s' l ls hstep hrest ih =>
    have hmode : NoAccess (mode s₁.1) := by
      rw [← hstep.2, exec_mode laws]
      exact h
    obtain ⟨hend, hlater⟩ := ih hmode
    refine ⟨hend, fun c resp hc hmem => ?_⟩
    rcases List.mem_cons.mp hmem with heq | hmem
    · subst heq
      exact exec_denied laws h hc resp hstep.1
    · exact hlater c resp hc hmem

/-! ### Round trips -/

/-- A write that took the first `n` bytes of a buffer. -/
def wrote (w : List UInt8 × ℕ) : Call × Option (Except IoError Resp) :=
  (.write w.1, some (.ok (.count w.2)))

/-- A read of at most `n` bytes that delivered these. -/
def got (r : ℕ × List UInt8) : Call × Option (Except IoError Resp) :=
  (.read r.1, some (.ok (.data r.2)))

/-- The bytes are read, in one call or more. -/
def ReadsBack (ff : FatFsFiles τ Fil) (d : List UInt8) (s : Fil × τ) : Prop :=
  ∃ rs s', rs ≠ [] ∧ Run (Step ff) s (rs.map got) s' ∧ rs.flatMap Prod.snd = d

/-- The bytes are written, in one call or more; then the file is sought to its start, and they are
read back. -/
def RoundTrips (ff : FatFsFiles τ Fil) (d : List UInt8) (s : Fil × τ) : Prop :=
  ∃ ws n s₁ s₂, ws ≠ [] ∧ Run (Step ff) s (ws.map wrote) s₁ ∧
    ws.flatMap (fun w => w.1.take w.2) = d ∧ seek ff (.start 0) s₁ = .ok n s₂ ∧ ReadsBack ff d s₂

theorem not_readsBack (laws : ChecksMode ff paths mode) {s : Fil × τ} (h : NoAccess (mode s.1))
    (d : List UInt8) : ¬ ReadsBack ff d s := by
  rintro ⟨rs, s', hrs, hrun, -⟩
  obtain ⟨r, hr⟩ := List.exists_mem_of_ne_nil rs hrs
  exact (run_denied laws h hrun).2 (.read r.1) (.data r.2) rfl (List.mem_map_of_mem (f := got) hr)

theorem not_roundTrips (laws : ChecksMode ff paths mode) {s : Fil × τ} (h : NoAccess (mode s.1))
    (d : List UInt8) : ¬ RoundTrips ff d s := by
  rintro ⟨ws, n, s₁, s₂, hws, hrun, -, -, -⟩
  obtain ⟨w, hw⟩ := List.exists_mem_of_ne_nil ws hws
  exact (run_denied laws h hrun).2 (.write w.1) (.count w.2) rfl (List.mem_map_of_mem (f := wrote) hw)

/-- A file that could be opened has the mode it was opened in. -/
theorem openWith_mode (laws : ChecksMode ff paths mode) {m : UInt8} {self : FatfsSysDir Dir}
    {path : String} {v v' : τ} {fil : Fil}
    (h : FatfsSysDir.openWith paths m self path v = .ok fil v') : mode fil = m := by
  unfold FatfsSysDir.openWith FatfsSysDir.withCString at h
  cases hc : cString path with
  | error e => simp [hc] at h
  | ok cpath =>
    simp only [hc] at h
    obtain ⟨hok, hfil, hv⟩ := wrapped_eq_ok.mp h
    exact laws.fOpen (Prod.ext (Prod.ext hok hfil) hv)

/-- **Opened for nothing.**  What `create_file` opens can be written and read back for no bytes, and
what `open_file` opens can be read for no contents. -/
theorem never_round_trips (laws : ChecksMode ff paths mode) (self : FatfsSysDir Dir) (path : String)
    (v v' : τ) (fil : Fil) (d : List UInt8) :
    (FatfsSysDir.createFile paths self path v = .ok fil v' → ¬ RoundTrips ff d (fil, v')) ∧
    (FatfsSysDir.openFile paths self path v = .ok fil v' → ¬ ReadsBack ff d (fil, v')) := by
  constructor
  · intro h
    have hmode : mode fil = faCreateNew := openWith_mode laws h
    exact not_roundTrips laws (Or.inr hmode) d
  · intro h
    have hmode : mode fil = faOpenExisting := openWith_mode laws h
    exact not_readsBack laws (Or.inl hmode) d

end Modes

end FatfsSysFile

/-! ### A volume of FatFs -/

namespace SampleFat

/-- `FIL`. -/
structure Fil where
  flag : UInt8
  fptr : UInt32
  objsize : UInt32
  deriving DecidableEq, Repr

/-- A volume with one file, if any. -/
abbrev Vol := Option (List UInt8)

def denied : FResult := .frFailed 7

/-- Opening by any path: an existing file, or a new one. -/
def paths : FatFsPaths Vol Fil Unit where
  fOpen _ mode v :=
    match v with
    | some bytes =>
      if mode &&& faCreateNew = 0 then ((.frOk, ⟨mode, 0, UInt32.ofNat bytes.length⟩), v)
      else ((.frFailed 8, ⟨0, 0, 0⟩), v)
    | none =>
      if mode &&& faCreateNew = 0 then ((.frFailed 4, ⟨0, 0, 0⟩), v)
      else ((.frOk, ⟨mode, 0, 0⟩), some [])
  fOpendir _ v := ((.frOk, ()), v)
  fMkdir _ v := (.frFailed 8, v)
  fUnlink _ _ := (.frOk, none)

/-- A seek past the end of a file that is not written to stops there. -/
def files : FatFsFiles Vol Fil where
  fptr fil := fil.fptr
  objsize fil := fil.objsize
  fRead n s :=
    if s.1.flag &&& faRead = 0 then ((denied, []), s)
    else
      let data := ((s.2.getD []).drop s.1.fptr.toNat).take n.toNat
      ((.frOk, data), { s.1 with fptr := s.1.fptr + UInt32.ofNat data.length }, s.2)
  fWrite buf s :=
    if s.1.flag &&& faWrite = 0 then ((denied, 0), s)
    else
      let bytes := splice (s.2.getD []) s.1.fptr.toNat buf
      ((.frOk, UInt32.ofNat buf.length),
        { s.1 with
          fptr := s.1.fptr + UInt32.ofNat buf.length
          objsize := UInt32.ofNat bytes.length }, some bytes)
  fLseek ofs s :=
    (.frOk, { s.1 with fptr := if s.1.flag &&& faWrite = 0 then min ofs s.1.objsize else ofs }, s.2)
  fSync s := (.frOk, s)
  fTruncate s := if s.1.flag &&& faWrite = 0 then (denied, s) else
    (.frOk, { s.1 with objsize := s.1.fptr }, s.2.map (List.take s.1.fptr.toNat))
  fClose s := (.frOk, s.2)

theorem checksMode : FatfsSysFile.ChecksMode files paths Fil.flag where
  fOpen {p m v fil v'} h := by
    simp only [paths] at h
    cases v with
    | none => grind
    | some bytes => grind
  fRead_ok {n s} h hno := by simp [files, hno, denied] at h
  fWrite_ok {buf s} h hno := by simp [files, hno, denied] at h
  fRead_mode n s := by simp only [files]; split <;> rfl
  fWrite_mode buf s := by simp only [files]; split <;> rfl
  fLseek_mode _ _ := rfl
  fSync_mode _ := rfl
  fTruncate_mode s := by simp only [files]; split <;> rfl

end SampleFat

open SampleFat in
/-- A new file, and one that is there. -/
theorem FatfsSysFile.never_round_trips_samples :
    (FatfsSysDir.createFile paths ⟨()⟩ "a" none = .ok ⟨4, 0, 0⟩ (some []) ∧
      ¬ RoundTrips files [7] (⟨4, 0, 0⟩, some [])) ∧
    (FatfsSysDir.openFile paths ⟨()⟩ "a" (some [7]) = .ok ⟨0, 0, 1⟩ (some [7]) ∧
      ¬ ReadsBack files [7] (⟨0, 0, 1⟩, some [7])) := by
  have hcreate : FatfsSysDir.createFile paths ⟨()⟩ "a" none = .ok ⟨4, 0, 0⟩ (some []) := by decide +kernel
  have hopen : FatfsSysDir.openFile paths ⟨()⟩ "a" (some [7]) = .ok ⟨0, 0, 1⟩ (some [7]) := by
    decide +kernel
  exact ⟨⟨hcreate, (never_round_trips checksMode ⟨()⟩ "a" none _ _ [7]).1 hcreate⟩,
    hopen, (never_round_trips checksMode ⟨()⟩ "a" _ _ _ [7]).2 hopen⟩

open SampleFat FatfsSysFile in
/-- **Denied.**  The first write to the new file and the first read of the one that is there fail; with
the bits for both the same file takes the byte and gives it back. -/
theorem FatfsSysFile.first_access_denied :
    (FatfsSysDir.createFile paths ⟨()⟩ "a" none = .ok ⟨4, 0, 0⟩ (some []) ∧
      (write files [7] (⟨4, 0, 0⟩, some [])).result = some (.error ⟨.other, none⟩)) ∧
    (FatfsSysDir.openFile paths ⟨()⟩ "a" (some [7]) = .ok ⟨0, 0, 1⟩ (some [7]) ∧
      (read files 1 (⟨0, 0, 1⟩, some [7])).result = some (.error ⟨.other, none⟩)) ∧
    (FatfsSysDir.openWith paths (faCreateNew ||| faRead ||| faWrite) ⟨()⟩ "a" none =
        .ok ⟨7, 0, 0⟩ (some []) ∧
      write files [7] (⟨7, 0, 0⟩, some []) = .ok 1 (⟨7, 1, 1⟩, some [7]) ∧
      seek files (.start 0) (⟨7, 1, 1⟩, some [7]) = .ok 0 (⟨7, 0, 1⟩, some [7]) ∧
      (read files 1 (⟨7, 0, 1⟩, some [7])).result = some (.ok [7])) := by
  decide +kernel

open SampleFat FatfsSysFile in
/-- **Past 4 GiB.**  A seek to `2 ^ 32`, and one back past the start, succeed at the remainder. -/
theorem FatfsSysFile.wraps_past_4_gib :
    target files ⟨2, 5, 10⟩ (.start (2 ^ 32)) = 2 ^ 32 ∧
      (seek files (.start (2 ^ 32)) (⟨2, 5, 10⟩, none)).result = some (.ok 0) ∧
    target files ⟨2, 5, 10⟩ (.current (-6)) = -1 ∧
      (seek files (.current (-6)) (⟨2, 5, 10⟩, none)).result = some (.ok (2 ^ 32 - 1)) ∧
    ¬ SeeksTarget files (.start (2 ^ 32)) (⟨2, 5, 10⟩, none) := by
  refine ⟨by decide, by decide +kernel, by decide, by decide +kernel, fun h => ?_⟩
  rcases (seek_target_iff files _ _).mp h with ⟨-, hlt⟩ | ⟨hno, -⟩
  · exact absurd hlt (by decide)
  · exact hno rfl

end FatDrive
