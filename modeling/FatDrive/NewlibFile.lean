import FatDrive.Err
import FatDrive.Lib.Descriptor
import FatDrive.Lib.Runs

/-!
# FatDrive.NewlibFile — a file handle of the newlib device

`FileStruct` keeps the `DirEntry` a file was opened with and an offset.  Each call makes a `File` of the
entry, seeks to the offset and reads or writes there.  The entry is a snapshot: its `File` has the
length and the first cluster of when the file was opened, whatever has been written since.

* `Snapshots`: the laws of the `fatfs` crate, by what can be observed of its values (`FileView`);
* `descriptor_run`: as long as no write follows one that went past the length of the snapshot, a handle
  is a byte sequence with a cursor;
* `Follows.write_iff`, `second_append`: and no longer.
-/

namespace FatDrive

open Lib

/-! ### The calls -/

/-- What the program uses of `fatfs::DirEntry` and `fatfs::File`; `read` gives the bytes it delivers
into a buffer of the given size. -/
structure FatfsFiles (τ E Fl : Type) where
  toFile : E → Fl
  seek : ℕ → Fl × τ → Outcome IoError (Fl × τ) ℕ
  read : ℕ → Fl × τ → Outcome IoError (Fl × τ) (List UInt8)
  write : List UInt8 → Fl × τ → Outcome IoError (Fl × τ) ℕ
  flush : Fl × τ → Outcome IoError (Fl × τ) Unit
  drop : Fl × τ → τ

structure FileStruct (E : Type) where
  fatfl : E
  offset : ℕ

section Calls

variable {τ E Fl : Type} (crate : FatfsFiles τ E Fl)

/-- The file of the entry at the offset, written and flushed. -/
def writeBack (flCtx : FileStruct E) (buff : List UInt8) (v : τ) : Outcome IoError (Fl × τ) ℕ :=
  (crate.seek flCtx.offset (crate.toFile flCtx.fatfl, v)).andThen fun _ s =>
    (crate.write buff s).andThen fun writecount s =>
      (crate.flush s).andThen fun _ s => .ok writecount s

/-- `_fatdrive_write_r`.  An error is the `errno` it sets. -/
def fatdriveWriteR (fd : Option (FileStruct E)) (buff : List UInt8) (v : τ) :
    Outcome ℕ (Option (FileStruct E) × τ) ℕ :=
  match fd with
  | none => .err nxFatdriveErrFileNotFound (none, v)
  | some flCtx =>
    match writeBack crate flCtx buff v with
    | .ok writecount s =>
      .ok writecount (some { flCtx with offset := flCtx.offset + writecount }, crate.drop s)
    | .err e s => .err (LibnxErrMapper.map e) (some flCtx, crate.drop s)
    | .panicked s => .panicked (some flCtx, crate.drop s)

/-- The file of the entry at the offset, read. -/
def readFrom (flCtx : FileStruct E) (room : ℕ) (v : τ) : Outcome IoError (Fl × τ) (List UInt8) :=
  (crate.seek flCtx.offset (crate.toFile flCtx.fatfl, v)).andThen fun _ s => crate.read room s

/-- `_fatdrive_read_r`, with what the buffer holds afterwards. -/
def fatdriveReadR (fd : Option (FileStruct E)) (buff : List UInt8) (v : τ) :
    Outcome ℕ (Option (FileStruct E) × τ) (ℕ × List UInt8) :=
  match fd with
  | none => .err nxFatdriveErrFileNotFound (none, v)
  | some flCtx =>
    match readFrom crate flCtx buff.length v with
    | .ok data s =>
      .ok (data.length, data ++ buff.drop data.length)
        (some { flCtx with offset := flCtx.offset + data.length }, crate.drop s)
    | .err e s => .err (LibnxErrMapper.map e) (some flCtx, crate.drop s)
    | .panicked s => .panicked (some flCtx, crate.drop s)

end Calls

/-! ### What the crate promises -/

/-- Length and first cluster of a file. -/
structure Recorded (C : Type) where
  length : ℕ
  firstCluster : Option C
  deriving DecidableEq, Repr

/-- What can be seen of entries, files and volumes: `dir` is what the directory has at a place, and
`content` are the bytes of the chain that starts at a cluster. -/
structure FileView (τ E Fl L C : Type) where
  entry : E → Recorded C
  slot : E → L
  file : Fl → Recorded C
  fileSlot : Fl → L
  pos : Fl → ℕ
  dirty : Fl → Bool
  dir : τ → L → Recorded C
  content : τ → Option C → ℕ → UInt8

/-- `dir` and `content` are the same in both volumes. -/
def FileView.Unchanged {τ E Fl L C : Type} (view : FileView τ E Fl L C) (v v' : τ) : Prop :=
  view.dir v' = view.dir v ∧ view.content v' = view.content v

/-- A `File` of an entry has the length and first cluster recorded in it, seeking stops at that length,
writing changes the bytes written and at most makes the file longer, and flushing stores what has been
written in the directory. -/
structure FatfsFiles.Snapshots {τ E Fl L C : Type} (crate : FatfsFiles τ E Fl)
    (view : FileView τ E Fl L C) : Prop where
  toFile : ∀ e, view.file (crate.toFile e) = view.entry e ∧
    view.fileSlot (crate.toFile e) = view.slot e ∧ view.dirty (crate.toFile e) = false
  seek_ok : ∀ {p n fl v fl' v'}, crate.seek p (fl, v) = .ok n (fl', v') →
    view.file fl' = view.file fl ∧ view.fileSlot fl' = view.fileSlot fl ∧
      view.dirty fl' = view.dirty fl ∧ view.pos fl' = min p (view.file fl).length ∧
      view.Unchanged v v'
  read_ok : ∀ {room data fl v fl' v'}, crate.read room (fl, v) = .ok data (fl', v') →
    data.length ≤ room ∧ data.length ≤ (view.file fl).length - view.pos fl ∧
      data = slice (view.content v (view.file fl).firstCluster) (view.pos fl) data.length ∧
      (data = [] → room = 0 ∨ (view.file fl).length ≤ view.pos fl) ∧
      view.dirty fl' = view.dirty fl ∧ view.Unchanged v v'
  write_ok : ∀ {buff n fl v fl' v'}, crate.write buff (fl, v) = .ok n (fl', v') →
    view.pos fl ≤ (view.file fl).length → n ≤ buff.length ∧
      view.fileSlot fl' = view.fileSlot fl ∧ (0 < n → view.dirty fl' = true) ∧
      (view.file fl').length = max (view.file fl).length (view.pos fl + n) ∧
      (0 < (view.file fl).length → (view.file fl').firstCluster = (view.file fl).firstCluster) ∧
      view.dir v' = view.dir v ∧
      ∀ x, x < (view.file fl').length → view.content v' (view.file fl').firstCluster x =
        patch (view.content v (view.file fl).firstCluster) (view.pos fl) (buff.take n) x
  flush_ok : ∀ {fl v fl' v'}, crate.flush (fl, v) = .ok () (fl', v') →
    (view.dir v' (view.fileSlot fl) = view.file fl ∨
        view.dirty fl = false ∧ view.dir v' = view.dir v) ∧
      view.content v' = view.content v ∧ view.dirty fl' = false
  drop_clean : ∀ {fl v}, view.dirty fl = false → view.Unchanged v (crate.drop (fl, v))

/-! ### Sequences of calls -/

inductive FileCall where
  | write (buff : List UInt8)
  | read (buff : List UInt8)
  deriving DecidableEq, Repr

section Handle

variable {τ E Fl L C : Type}

/-- The call: the count it returns, and what the buffer holds afterwards. -/
def FileCall.exec (crate : FatfsFiles τ E Fl) (fd : Option (FileStruct E)) (v : τ) :
    FileCall → Outcome ℕ (Option (FileStruct E) × τ) (ℕ × List UInt8)
  | write buff => (fatdriveWriteR crate fd buff v).bimap (fun writecount => (writecount, buff)) id
  | read buff => fatdriveReadR crate fd buff v

/-- A call that succeeds. -/
def FileStep (crate : FatfsFiles τ E Fl) (s : FileStruct E × τ) (l : FileCall × ℕ × List UInt8)
    (s' : FileStruct E × τ) : Prop :=
  l.1.exec crate (some s.1) s.2 = .ok l.2 (some s'.1, s'.2)

/-- The same calls, on a byte sequence with a cursor. -/
def DescStep (d : Descriptor UInt8) : FileCall × ℕ × List UInt8 → Descriptor UInt8 → Prop
  | (.write buff, n, after), d' => after = buff ∧ d.Writes buff n d'
  | (.read buff, n, after), d' =>
    ∃ data, n = data.length ∧ after = data ++ buff.drop n ∧ d.Reads buff.length data d'

namespace FileView

variable (view : FileView τ E Fl L C)

/-- What a directory reading finds in the file at a place. -/
def fileBytes (v : τ) (l : L) : List UInt8 :=
  slice (view.content v (view.dir v l).firstCluster) 0 (view.dir v l).length

@[simp] theorem length_fileBytes (v : τ) (l : L) : (view.fileBytes v l).length = (view.dir v l).length :=
  length_slice ..

/-- A write is made only while the offset is within the length the entry has recorded. -/
def WithinEntry (s : FileStruct E × τ) (l : FileCall × ℕ × List UInt8) : Prop :=
  ∀ buff, l.1 = .write buff → s.1.offset ≤ (view.entry s.1.fatfl).length

/-- The handle made from `e` is at the cursor of `d`, and the file holds the bytes of `d`.  Up to the
recorded length the directory has what the entry has; past it, the file ends at the offset. -/
structure Follows (e : E) (s : FileStruct E × τ) (d : Descriptor UInt8) : Prop where
  fatfl_eq : s.1.fatfl = e
  cursor_eq : d.cursor = s.1.offset
  bytes_eq : d.bytes = view.fileBytes s.2 (view.slot e)
  within : s.1.offset ≤ (view.entry e).length →
    (view.dir s.2 (view.slot e)).length = (view.entry e).length ∧
      (0 < (view.entry e).length →
        (view.dir s.2 (view.slot e)).firstCluster = (view.entry e).firstCluster)
  beyond : (view.entry e).length < s.1.offset → (view.dir s.2 (view.slot e)).length = s.1.offset

end FileView

variable {crate : FatfsFiles τ E Fl} {view : FileView τ E Fl L C}

/-- A directory record that agrees with `r` up to the first cluster of an empty file. -/
theorem slice_recorded {f g : Option C → ℕ → UInt8} {r r' : Recorded C} (hlen : r'.length = r.length)
    (hfirst : 0 < r.length → r'.firstCluster = r.firstCluster)
    (hfg : ∀ x, x < r.length → f r.firstCluster x = g r.firstCluster x) :
    slice (f r'.firstCluster) 0 r'.length = slice (g r.firstCluster) 0 r.length := by
  rw [hlen]
  refine slice_congr fun x _ hx => ?_
  rw [hfirst (by omega)]
  exact hfg x (by omega)

/-- Up to the recorded length, the descriptor's bytes are those of the recorded chain. -/
theorem FileView.Follows.bytes_within {e : E} {s : FileStruct E × τ} {d : Descriptor UInt8}
    (hf : view.Follows e s d) (hle : s.1.offset ≤ (view.entry e).length) :
    d.bytes = slice (view.content s.2 (view.entry e).firstCluster) 0 (view.entry e).length := by
  obtain ⟨hlen, hfirst⟩ := hf.within hle
  rw [hf.bytes_eq]
  exact slice_recorded hlen hfirst fun _ _ => rfl

/-- Past it, the cursor is at the end. -/
theorem FileView.Follows.length_beyond {e : E} {s : FileStruct E × τ} {d : Descriptor UInt8}
    (hf : view.Follows e s d) (hlt : (view.entry e).length < s.1.offset) :
    d.bytes.length = d.cursor := by
  rw [hf.bytes_eq, view.length_fileBytes, hf.beyond hlt, hf.cursor_eq]

/-! ### One write -/

theorem write_step {fd fd' : FileStruct E} {v v' : τ} {buff after : List UInt8} {n : ℕ}
    (h : FileStep crate (fd, v) (.write buff, n, after) (fd', v')) :
    after = buff ∧ fd' = { fd with offset := fd.offset + n } ∧
      ∃ s, writeBack crate fd buff v = .ok n s ∧ v' = crate.drop s := by
  obtain ⟨n', s, hw, hn, hs⟩ := Outcome.bimap_eq_ok.mp h
  cases hn
  simp only [fatdriveWriteR] at hw
  cases hb : writeBack crate fd buff v with
  | ok m t =>
    rw [hb] at hw
    cases hw
    cases hs
    exact ⟨rfl, rfl, t, rfl, rfl⟩
  | err e t =>
    rw [hb] at hw
    cases hw
  | panicked t =>
    rw [hb] at hw
    cases hw

/-- The place the write begins at, the record of the `File` after it, and what the directory and the
chain of that record hold then. -/
theorem writeBack_ok (laws : crate.Snapshots view) {fd : FileStruct E} {v : τ} {buff : List UInt8}
    {n : ℕ} {s : Fl × τ} (h : writeBack crate fd buff v = .ok n s) :
    ∃ (i : ℕ) (r : Recorded C), i = min fd.offset (view.entry fd.fatfl).length ∧ n ≤ buff.length ∧
      r.length = max (view.entry fd.fatfl).length (i + n) ∧
      (0 < (view.entry fd.fatfl).length → r.firstCluster = (view.entry fd.fatfl).firstCluster) ∧
      (view.dir (crate.drop s) (view.slot fd.fatfl) = r ∨
        n = 0 ∧ view.dir (crate.drop s) = view.dir v) ∧
      ∀ x, x < r.length → view.content (crate.drop s) r.firstCluster x =
        patch (view.content v (view.entry fd.fatfl).firstCluster) i (buff.take n) x := by
  obtain ⟨p, ⟨fl₁, v₁⟩, hseek, h⟩ := Outcome.andThen_eq_ok.mp h
  obtain ⟨m, ⟨fl₂, v₂⟩, hwrite, h⟩ := Outcome.andThen_eq_ok.mp h
  obtain ⟨u, ⟨fl₃, v₃⟩, hflush, h⟩ := Outcome.andThen_eq_ok.mp h
  cases h
  obtain ⟨hfile, hslot, hclean⟩ := laws.toFile fd.fatfl
  obtain ⟨hf₁, hs₁, hd₁, hpos, hdir₁, hcont₁⟩ := laws.seek_ok hseek
  have hin : view.pos fl₁ ≤ (view.file fl₁).length := by
    rw [hpos, hf₁]
    omega
  obtain ⟨hn, hs₂, hd₂, hlen, hfirst, hdir₂, hcont₂⟩ := laws.write_ok hwrite hin
  obtain ⟨hstored, hcont₃, hd₃⟩ := laws.flush_ok hflush
  obtain ⟨hdir₄, hcont₄⟩ := laws.drop_clean (v := v₃) hd₃
  rw [hf₁, hfile] at hlen hfirst
  rw [hfile] at hpos
  refine ⟨view.pos fl₁, view.file fl₂, hpos, hn, hlen, hfirst, ?_, ?_⟩
  · rw [hdir₄]
    rcases hstored with hst | ⟨hcl, hsame⟩
    · left
      rw [← hst, hs₂, hs₁, hslot]
    · -- a file that is not dirty has been written nothing
      right
      refine ⟨?_, by rw [hsame, hdir₂, hdir₁]⟩
      by_contra hne
      have := hd₂ (by omega)
      rw [hcl] at this
      cases this
  · intro x hx
    rw [hcont₄, hcont₃, hcont₂ x hx, hf₁, hfile, hcont₁]

/-- A write within the recorded length is the descriptor's write. -/
theorem FileView.Follows.write (laws : crate.Snapshots view) {e : E} {s s' : FileStruct E × τ}
    {d : Descriptor UInt8} (hf : view.Follows e s d) {buff after : List UInt8} {n : ℕ}
    (h : FileStep crate s (.write buff, n, after) s')
    (hle : s.1.offset ≤ (view.entry s.1.fatfl).length) :
    ∃ d', DescStep d (.write buff, n, after) d' ∧ view.Follows e s' d' := by
  obtain ⟨fd, v⟩ := s
  obtain ⟨fd', v'⟩ := s'
  obtain ⟨heq, rfl, t, hw, rfl⟩ := write_step h
  obtain rfl : fd.fatfl = e := hf.fatfl_eq
  have hcur : d.cursor = fd.offset := hf.cursor_eq
  have hwithin := hf.within
  have hbefore := hf.bytes_within hle
  dsimp only at hwithin hbefore hle
  obtain ⟨i, r, hi, hn, hlen, hfirst, hdir, hcont⟩ := writeBack_ok laws hw
  obtain ⟨hlen₀, hfirst₀⟩ := hwithin hle
  rw [Nat.min_eq_left hle] at hi
  subst hi
  -- whether the record was stored or not, the directory now agrees with it
  have hrec : (view.dir (crate.drop t) (view.slot fd.fatfl)).length = r.length ∧
      (0 < r.length →
        (view.dir (crate.drop t) (view.slot fd.fatfl)).firstCluster = r.firstCluster) := by
    rcases hdir with hst | ⟨rfl, hsame⟩
    · rw [hst]
      exact ⟨rfl, fun _ => rfl⟩
    · rw [hsame, hlen₀]
      refine ⟨by omega, fun hpos => ?_⟩
      rw [hfirst₀ (by omega), hfirst (by omega)]
  have hafter : view.fileBytes (crate.drop t) (view.slot fd.fatfl) =
      splice d.bytes fd.offset (buff.take n) := by
    have htake : (buff.take n).length = n := by
      rw [List.length_take, Nat.min_eq_left hn]
    rw [hbefore, splice_slice _ _ hle, htake, ← hlen]
    exact slice_recorded (g := fun _ => patch (view.content v (view.entry fd.fatfl).firstCluster)
      fd.offset (buff.take n)) hrec.1 hrec.2 hcont
  refine ⟨⟨view.fileBytes (crate.drop t) (view.slot fd.fatfl), fd.offset + n⟩, ⟨heq, hn, ?_, ?_⟩, ?_⟩
  · rw [hcur]
    exact hafter
  · rw [hcur]
  · refine ⟨rfl, rfl, rfl, fun hle' => ?_, fun hlt => ?_⟩
    · dsimp only at hle' ⊢
      refine ⟨by omega, fun hpos => ?_⟩
      rw [hrec.2 (by omega), hfirst hpos]
    · dsimp only at hlt ⊢
      omega

/-! ### One read -/

theorem read_step {fd fd' : FileStruct E} {v v' : τ} {buff after : List UInt8} {n : ℕ}
    (h : FileStep crate (fd, v) (.read buff, n, after) (fd', v')) :
    ∃ data s, readFrom crate fd buff.length v = .ok data s ∧ n = data.length ∧
      after = data ++ buff.drop data.length ∧ fd' = { fd with offset := fd.offset + data.length } ∧
      v' = crate.drop s := by
  have hr : fatdriveReadR crate (some fd) buff v = .ok (n, after) (some fd', v') := h
  simp only [fatdriveReadR] at hr
  cases hb : readFrom crate fd buff.length v with
  | ok data t =>
    rw [hb] at hr
    cases hr
    exact ⟨data, t, rfl, rfl, rfl, rfl, rfl⟩
  | err e t =>
    rw [hb] at hr
    cases hr
  | panicked t =>
    rw [hb] at hr
    cases hr

/-- A read changes nothing, and gives the bytes of the recorded chain from the place it begins at. -/
theorem readFrom_ok (laws : crate.Snapshots view) {fd : FileStruct E} {v : τ} {room : ℕ}
    {data : List UInt8} {s : Fl × τ} (h : readFrom crate fd room v = .ok data s) :
    ∃ i, i = min fd.offset (view.entry fd.fatfl).length ∧ data.length ≤ room ∧
      data.length ≤ (view.entry fd.fatfl).length - i ∧
      data = slice (view.content v (view.entry fd.fatfl).firstCluster) i data.length ∧
      (data = [] → room = 0 ∨ (view.entry fd.fatfl).length ≤ i) ∧
      view.Unchanged v (crate.drop s) := by
  obtain ⟨p, ⟨fl₁, v₁⟩, hseek, h⟩ := Outcome.andThen_eq_ok.mp h
  obtain ⟨fl₂, v₂⟩ := s
  obtain ⟨hfile, -, hclean⟩ := laws.toFile fd.fatfl
  obtain ⟨hf₁, -, hd₁, hpos, hdir₁, hcont₁⟩ := laws.seek_ok hseek
  obtain ⟨hroom, hrest, hdata, hprog, hd₂, hdir₂, hcont₂⟩ := laws.read_ok h
  have hcl : view.dirty fl₂ = false := by
    rw [hd₂, hd₁, hclean]
  obtain ⟨hdir₃, hcont₃⟩ := laws.drop_clean (v := v₂) hcl
  rw [hf₁, hfile] at hrest hprog hdata
  rw [hcont₁] at hdata
  rw [hfile] at hpos
  refine ⟨view.pos fl₁, hpos, hroom, hrest, hdata, hprog, ?_, ?_⟩
  · rw [hdir₃, hdir₂, hdir₁]
  · rw [hcont₃, hcont₂, hcont₁]

/-- What a read delivers is at the cursor: past the recorded length there is nothing to read. -/
theorem FileView.Follows.reads {fd : FileStruct E} {v : τ} {d : Descriptor UInt8}
    (hf : view.Follows fd.fatfl (fd, v) d) {room i : ℕ} {data : List UInt8}
    (hi : i = min fd.offset (view.entry fd.fatfl).length) (hroom : data.length ≤ room)
    (hrest : data.length ≤ (view.entry fd.fatfl).length - i)
    (hdata : data = slice (view.content v (view.entry fd.fatfl).firstCluster) i data.length)
    (hprog : data = [] → room = 0 ∨ (view.entry fd.fatfl).length ≤ i) :
    d.Reads room data { bytes := d.bytes, cursor := d.cursor + data.length } := by
  have hcur : d.cursor = fd.offset := hf.cursor_eq
  rcases Nat.lt_or_ge (view.entry fd.fatfl).length fd.offset with hlt | hle
  · have hnil : data = [] := List.eq_nil_of_length_eq_zero (by omega)
    have hend : d.bytes.length ≤ d.cursor := Nat.le_of_eq (hf.length_beyond hlt)
    refine ⟨hroom, ?_, fun _ => Or.inr hend, rfl, rfl⟩
    rw [hnil]
    rfl
  · have hbase := hf.bytes_within hle
    rw [Nat.min_eq_left hle] at hi
    subst hi
    refine ⟨hroom, ?_, fun hnil => (hprog hnil).imp_right fun hend => ?_, rfl, rfl⟩
    · rw [hbase, hcur, drop_slice, Nat.zero_add, take_slice _ _ hrest]
      exact hdata
    · rw [hbase, length_slice, hcur]
      exact hend

/-- Any read is the descriptor's read. -/
theorem FileView.Follows.read (laws : crate.Snapshots view) {e : E} {s s' : FileStruct E × τ}
    {d : Descriptor UInt8} (hf : view.Follows e s d) {buff after : List UInt8} {n : ℕ}
    (h : FileStep crate s (.read buff, n, after) s') :
    ∃ d', DescStep d (.read buff, n, after) d' ∧ view.Follows e s' d' := by
  obtain ⟨fd, v⟩ := s
  obtain ⟨fd', v'⟩ := s'
  obtain ⟨data, t, hr, rfl, rfl, rfl, rfl⟩ := read_step h
  obtain rfl : fd.fatfl = e := hf.fatfl_eq
  obtain ⟨i, hi, hroom, hrest, hdata, hprog, hdir, hcont⟩ := readFrom_ok laws hr
  have hreads := hf.reads hi hroom hrest hdata hprog
  obtain ⟨-, hcur, hbytes, hwithin, hbeyond⟩ := hf
  dsimp only at hcur hbytes hwithin hbeyond
  have hsame : view.fileBytes (crate.drop t) (view.slot fd.fatfl) =
      view.fileBytes v (view.slot fd.fatfl) := by
    unfold FileView.fileBytes
    rw [hdir, hcont]
  refine ⟨_, ⟨data, rfl, rfl, hreads⟩, rfl, ?_, ?_, ?_, ?_⟩
  · dsimp only
    rw [hcur]
  · dsimp only
    rw [hbytes, hsame]
  · dsimp only
    rw [hdir]
    exact fun hle => hwithin (by omega)
  · dsimp only
    rw [hdir]
    intro hlt
    -- a read that moves stays within the recorded length, so one past it has moved nothing
    rcases Nat.lt_or_ge (view.entry fd.fatfl).length fd.offset with hlt' | hle
    · rw [hbeyond hlt']
      omega
    · omega

/-! ### Sequences -/

theorem FileView.Follows.step (laws : crate.Snapshots view) {e : E} {s s' : FileStruct E × τ}
    {l : FileCall × ℕ × List UInt8} {d : Descriptor UInt8} (hf : view.Follows e s d)
    (h : Guard (FileStep crate) view.WithinEntry s l s') :
    ∃ d', DescStep d l d' ∧ view.Follows e s' d' := by
  obtain ⟨call, n, after⟩ := l
  cases call with
  | write buff => exact hf.write laws h.2 (h.1 buff rfl)
  | read buff => exact hf.read laws h.2

/-- **The handle is a descriptor**, as long as no write follows one that took the offset past the
length recorded in its entry. -/
theorem descriptor_run (laws : crate.Snapshots view) {e : E} {v : τ}
    (hfresh : view.dir v (view.slot e) = view.entry e) {ls : List (FileCall × ℕ × List UInt8)}
    {s' : FileStruct E × τ}
    (hrun : Run (Guard (FileStep crate) view.WithinEntry) ({ fatfl := e, offset := 0 }, v) ls s') :
    ∃ d', Run DescStep { bytes := view.fileBytes v (view.slot e), cursor := 0 } ls d' ∧
      d'.cursor = s'.1.offset ∧ d'.bytes = view.fileBytes s'.2 (view.slot e) := by
  have hstart : view.Follows e ({ fatfl := e, offset := 0 }, v)
      { bytes := view.fileBytes v (view.slot e), cursor := 0 } := by
    refine ⟨rfl, rfl, rfl, fun _ => ?_, fun hlt => absurd hlt (Nat.not_lt_zero _)⟩
    rw [hfresh]
    exact ⟨rfl, fun _ => rfl⟩
  have hstep : ∀ s l s' d, view.Follows e s d → Guard (FileStep crate) view.WithinEntry s l s' →
      ∃ d', DescStep d l d' ∧ view.Follows e s' d' := fun s l s' d hf h => hf.step laws h
  obtain ⟨d', hr, hf⟩ := Run.simulates hstep hrun _ hstart
  exact ⟨d', hr, hf.cursor_eq, hf.bytes_eq⟩

/-- The condition is exact: a further write that moves something agrees with the descriptor's if it
meets it, and otherwise leaves the file too short. -/
theorem FileView.Follows.write_iff (laws : crate.Snapshots view) {e : E} {s s' : FileStruct E × τ}
    {d : Descriptor UInt8} (hf : view.Follows e s d) {buff after : List UInt8} {n : ℕ}
    (h : FileStep crate s (.write buff, n, after) s') (hn : 0 < n) :
    (∃ d', DescStep d (.write buff, n, after) d' ∧ d'.bytes = view.fileBytes s'.2 (view.slot e)) ↔
      s.1.offset ≤ (view.entry e).length := by
  constructor
  · rintro ⟨d', ⟨-, hd⟩, hbytes⟩
    by_contra hgt
    have hlt : (view.entry e).length < s.1.offset := by omega
    have hdlen : d'.bytes.length = s.1.offset + n := by
      have hend := hf.length_beyond hlt
      rw [hd.bytes_eq, length_splice _ (Nat.le_of_eq hend.symm), List.length_take,
        Nat.min_eq_left hd.count_le, hend, hf.cursor_eq]
      omega
    obtain ⟨fd, v⟩ := s
    obtain ⟨fd', v'⟩ := s'
    obtain ⟨-, -, t, hw, rfl⟩ := write_step h
    have hent : fd.fatfl = e := hf.fatfl_eq
    subst hent
    obtain ⟨i, r, hi, -, hlen, -, hdir, -⟩ := writeBack_ok laws hw
    have hst : view.dir (crate.drop t) (view.slot fd.fatfl) = r := by
      rcases hdir with hst | ⟨h₀, -⟩
      · exact hst
      · omega
    have hflen : d'.bytes.length = r.length := by
      rw [hbytes, view.length_fileBytes, hst]
    dsimp only at hdlen hlt
    omega
  · intro hle
    rw [← hf.fatfl_eq] at hle
    obtain ⟨d', hd, hf'⟩ := hf.write laws h hle
    exact ⟨d', hd, hf'.bytes_eq⟩

end Handle

/-! ### A volume with one file -/

/-- The directory record of the file, and the bytes of its chain. -/
structure OneFile where
  recorded : Recorded ℕ
  chain : ℕ → UInt8

structure OpenFile where
  recorded : Recorded ℕ
  pos : ℕ
  dirty : Bool

/-- Files of this volume.  An empty file gets its first cluster when it is first written to. -/
def oneFile : FatfsFiles OneFile (Recorded ℕ) OpenFile where
  toFile e := { recorded := e, pos := 0, dirty := false }
  seek p s := .ok (min p s.1.recorded.length) ({ s.1 with pos := min p s.1.recorded.length }, s.2)
  read room s :=
    let data := slice s.2.chain s.1.pos (min room (s.1.recorded.length - s.1.pos))
    .ok data ({ s.1 with pos := s.1.pos + data.length }, s.2)
  write buff s :=
    if buff.isEmpty then .ok 0 s
    else
      .ok buff.length
        ({ recorded :=
            { length := max s.1.recorded.length (s.1.pos + buff.length)
              firstCluster := if 0 < s.1.recorded.length then s.1.recorded.firstCluster else some 2 }
           pos := s.1.pos + buff.length
           dirty := true },
         { s.2 with chain := patch s.2.chain s.1.pos buff })
  flush s :=
    if s.1.dirty then .ok () ({ s.1 with dirty := false }, { s.2 with recorded := s.1.recorded })
    else .ok () s
  drop s := if s.1.dirty then { s.2 with recorded := s.1.recorded } else s.2

def oneFileView : FileView OneFile (Recorded ℕ) OpenFile Unit ℕ where
  entry e := e
  slot _ := ()
  file fl := fl.recorded
  fileSlot _ := ()
  pos fl := fl.pos
  dirty fl := fl.dirty
  dir v _ := v.recorded
  content v _ := v.chain

theorem oneFile_snapshots : oneFile.Snapshots oneFileView where
  toFile e := ⟨rfl, rfl, rfl⟩
  seek_ok h := by
    cases h
    exact ⟨rfl, rfl, rfl, rfl, rfl, rfl⟩
  read_ok {room data fl v fl' v'} h := by
    cases h
    refine ⟨?_, ?_, ?_, fun hnil => ?_, rfl, rfl, rfl⟩
    · rw [length_slice]
      exact Nat.min_le_left ..
    · rw [length_slice]
      exact Nat.min_le_right ..
    · rw [length_slice]
      rfl
    · have hlen := congrArg List.length hnil
      rw [length_slice] at hlen
      simp only [oneFileView]
      simp only [List.length_nil] at hlen
      omega
  write_ok {buff n fl v fl' v'} h hpos := by
    simp only [oneFile] at h
    split at h
    · cases h
      simp only [oneFileView] at hpos
      refine ⟨Nat.zero_le _, rfl, nofun, ?_, fun _ => rfl, rfl, fun x _ => ?_⟩
      · simp only [oneFileView]
        omega
      · rw [List.take_zero, patch_nil]
    · cases h
      refine ⟨Nat.le_refl _, rfl, fun _ => rfl, rfl, fun hlen => ?_, rfl, fun x _ => ?_⟩
      · exact if_pos hlen
      · rw [List.take_length]
        rfl
  flush_ok {fl v fl' v'} h := by
    simp only [oneFile] at h
    split at h
    · cases h
      exact ⟨.inl rfl, rfl, rfl⟩
    · next hd =>
      cases h
      have hclean : fl.dirty = false := by simpa using hd
      exact ⟨.inr ⟨hclean, rfl⟩, rfl, hclean⟩
  drop_clean {fl v} h := by
    have hclean : fl.dirty = false := h
    simp [oneFile, FileView.Unchanged, hclean]

/-- A volume whose file has these bytes. -/
def volumeWith (bytes : List UInt8) : OneFile :=
  { recorded := { length := bytes.length, firstCluster := some 2 }, chain := patch (fun _ => 0) 0 bytes }

/-- A handle made from a file with `length` bytes, at an offset. -/
def handleAt (length offset : ℕ) : FileStruct (Recorded ℕ) :=
  { fatfl := { length := length, firstCluster := some 2 }, offset := offset }

theorem descriptor_run_three :
    ∃ d', Run DescStep { bytes := [1, 2, 3], cursor := 0 }
      [(.write [7], 1, [7]), (.read [0], 1, [2]), (.write [8, 9], 2, [8, 9]), (.read [5], 0, [5])] d' ∧
      d'.cursor = 4 ∧ d'.bytes = [7, 2, 8, 9] := by
  let v₀ := volumeWith [1, 2, 3]
  let v₁ : OneFile := { v₀ with chain := patch v₀.chain 0 [7] }
  let v₂ : OneFile :=
    { recorded := { length := 4, firstCluster := some 2 }, chain := patch v₁.chain 2 [8, 9] }
  have h₁ : Guard (FileStep oneFile) oneFileView.WithinEntry (handleAt 3 0, v₀) (.write [7], 1, [7])
      (handleAt 3 1, v₁) := ⟨fun _ _ => by decide, rfl⟩
  have h₂ : Guard (FileStep oneFile) oneFileView.WithinEntry (handleAt 3 1, v₁) (.read [0], 1, [2])
      (handleAt 3 2, v₁) := ⟨nofun, rfl⟩
  have h₃ : Guard (FileStep oneFile) oneFileView.WithinEntry (handleAt 3 2, v₁)
      (.write [8, 9], 2, [8, 9]) (handleAt 3 4, v₂) := ⟨fun _ _ => by decide, rfl⟩
  have h₄ : Guard (FileStep oneFile) oneFileView.WithinEntry (handleAt 3 4, v₂) (.read [5], 0, [5])
      (handleAt 3 4, v₂) := ⟨nofun, rfl⟩
  exact descriptor_run (v := v₀) oneFile_snapshots rfl (.cons h₁ (.cons h₂ (.cons h₃ (.single h₄))))

/-- The second write begins at the end of the file as it was opened, and overwrites the first. -/
theorem second_append :
    oneFile.Snapshots oneFileView ∧
      oneFileView.dir (volumeWith [1]) () = oneFileView.entry (handleAt 1 0).fatfl ∧
      ∃ ls s', Run (FileStep oneFile) (handleAt 1 0, volumeWith [1]) ls s' ∧
        oneFileView.fileBytes s'.2 () = [2, 4] ∧
        ∀ d', Run DescStep { bytes := oneFileView.fileBytes (volumeWith [1]) (), cursor := 0 } ls d' →
          d'.bytes = [2, 3, 4] := by
  let v₀ := volumeWith [1]
  let v₁ : OneFile :=
    { recorded := { length := 2, firstCluster := some 2 }, chain := patch v₀.chain 0 [2, 3] }
  let v₂ : OneFile := { v₁ with chain := patch v₁.chain 1 [4] }
  have h₁ : FileStep oneFile (handleAt 1 0, v₀) (.write [2, 3], 2, [2, 3]) (handleAt 1 2, v₁) := rfl
  have h₂ : FileStep oneFile (handleAt 1 2, v₁) (.write [4], 1, [4]) (handleAt 1 3, v₂) := rfl
  refine ⟨oneFile_snapshots, rfl, _, _, .cons h₁ (.single h₂), by decide, ?_⟩
  intro d' hrun
  cases hrun with
  | cons hw₁ hrest =>
    cases hrest with
    | cons hw₂ hnil =>
      cases hnil
      obtain ⟨-, -, hb₁, hc₁⟩ := hw₁
      obtain ⟨-, -, hb₂, hc₂⟩ := hw₂
      rw [hb₂, hc₁, hb₁]
      decide

end FatDrive
