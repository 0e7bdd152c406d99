import FatDrive.IdStoreInv

/-!
# FatDrive.IdStoreReads — reading a directory through its id

`read_next_dirent` keeps no iterator: it counts the calls made for an id, and skips as many entries
of a new iterator.  `Lists es l` says that iterating over a directory with the entries `es` yielded
`l`, and `Delivers` what a sequence of calls owes for them.

* `step_reading`: what one call does to the directory and to the counter of an id;
* `session_answers`: what the calls for an id return until it is opened again or closed;
* `run_delivers`: they deliver the directory, if they start from its first entry and none fails.
-/

namespace FatDrive.IdStore

open Lib

variable {φ F D : Type} {crate : FatfsCrate φ F D} {s s' : IdStore F D} {w : Mounted φ}
  {dir : Handle D} {id : ℕ} {es : List DirEntry}

/-! ### Directories and what is owed for them -/

/-- Iterating over a directory yields its entries in order, up to one that cannot be read. -/
inductive Lists : List DirEntry → List (Except IoError DirEntry) → Prop
  | nil : Lists [] []
  | entry {es l} (r : DirEntry) (h : Lists es l) : Lists (r :: es) (.ok r :: l)
  | failed (es l) (err : IoError) : Lists es (.error err :: l)

/-- Everything up to place `k` can be read. -/
def readable (l : List (Except IoError DirEntry)) (k : ℕ) : Bool := (l.take (k + 1)).all Except.isOk

/-- What is read is the directory. -/
theorem Lists.getElem? {l : List (Except IoError DirEntry)} (h : Lists es l) :
    ∀ {k : ℕ}, readable l k = true → l[k]? = es[k]?.map .ok := by
  induction h with
  | nil => intro k _; rfl
  | entry r _ ih =>
    intro k hk
    cases k with
    | zero => rfl
    | succ k => exact ih hk
  | failed es l err => intro k hk; cases hk

theorem readable_map_ok (es : List DirEntry) (k : ℕ) : readable (es.map .ok) k = true := by
  refine List.all_eq_true.mpr fun x hx => ?_
  obtain ⟨r, -, rfl⟩ := List.mem_map.mp (List.mem_of_mem_take hx)
  rfl

/-- What the handle of a directory yields, while its file system is there. -/
def listing (crate : FatfsCrate φ F D) (w : Mounted φ) (dir : Handle D) :
    Option (List (Except IoError DirEntry)) :=
  (w.fileSystems.get? dir.fs).map fun st => crate.iter st dir.obj

def dirEntryData (r : DirEntry) : DirEntryData :=
  ⟨r.fileName, if r.isFile then dtReg else dtDir, r.len⟩

/-- The answer to a call that finds this at its place. -/
def answerTo : Option (Except IoError DirEntry) → Except ℕ Resp
  | some (.ok r) => .ok (.entry (some (dirEntryData r)))
  | some (.error e) => .error (LibnxErrMapper.map e)
  | none => .ok (.entry none)

/-- A call of `read_next_dirent`: what it finds mounted, and what it returns. -/
abbrev Read (φ : Type) := Mounted φ × Option (Except ℕ Resp)

/-- What is owed for a directory from place `p` on: the entry there, or nothing past the last one;
and an error for what cannot be read, which leaves the place as it is. -/
inductive Delivers (crate : FatfsCrate φ F D) (dir : Handle D) (es : List DirEntry) :
    ℕ → List (Read φ) → Prop
  | nil (p : ℕ) : Delivers crate dir es p []
  | answered {p rs} (w : Mounted φ) (h : Delivers crate dir es (p + 1) rs) :
      Delivers crate dir es p ((w, some (.ok (.entry (es[p]?.map dirEntryData)))) :: rs)
  | failed {p rs w l} (code : ℕ) (hl : listing crate w dir = some l) (hp : readable l p = false)
      (h : Delivers crate dir es p rs) : Delivers crate dir es p ((w, some (.error code)) :: rs)

theorem Delivers.of_cons {p : ℕ} {a : Option (Except ℕ Resp)} {rs : List (Read φ)}
    (h : Delivers crate dir es p ((w, a) :: rs)) :
    a = some (.ok (.entry (es[p]?.map dirEntryData))) ∧ Delivers crate dir es (p + 1) rs ∨
      (∃ code, a = some (.error code)) ∧ Delivers crate dir es p rs := by
  cases h with
  | answered _ h => exact Or.inl ⟨rfl, h⟩
  | failed code hl hp h => exact Or.inr ⟨⟨code, rfl⟩, h⟩

/-! ### One call -/

def Op.reads (id : ℕ) : Op F D → Bool
  | .readNextDirent n => n = id
  | _ => false

/-- The call opens a directory under this id, or closes it. -/
def Restarts (id : ℕ) (l : Label φ F D) : Prop :=
  match l.1.2 with
  | .openDir _ | .insertDir .. => l.2 = some (.ok (.id id))
  | .closeDir n => n = id
  | _ => False

/-- The calls of `read_next_dirent` for this id. -/
def readsOf (id : ℕ) (ls : List (Label φ F D)) : List (Read φ) :=
  (ls.filter fun l => l.1.2.reads id).map fun l => (l.1.1, l.2)

/-- The directory and the counter of an id. -/
structure Reading (s : IdStore F D) (id : ℕ) (dir : Handle D) (c : ℕ) : Prop where
  handle : s.dirHandleMap.lookup id = some dir
  counter : s.dirIterMap.lookup id = some c

theorem Reading.insertDir {c : ℕ} (h : Reading s id dir c) (path : String) (d : Handle D)
    (hid : id ≠ s.nextId) : Reading (s.insertDir path d).2 id dir c where
  handle := (AList.lookup_insert_ne hid).trans h.handle
  counter := (AList.lookup_insert_ne hid).trans h.counter

theorem Reading.closeDir {c n : ℕ} (h : Reading s id dir c) (hid : id ≠ n) :
    Reading (exec crate s w (.closeDir n)).state id dir c := by
  rw [exec, IdStore.closeDir]
  split
  · exact h
  · exact ⟨(AList.lookup_erase_ne hid).trans h.handle, (AList.lookup_erase_ne hid).trans h.counter⟩

/-- A call for this id: the counter moves on, whatever is there. -/
theorem readNextDirent_self {c : ℕ} (h : Reading s id dir c) {l : List (Except IoError DirEntry)}
    (hl : listing crate w dir = some l) :
    (exec crate s w (.readNextDirent id)).result = some (answerTo l[c]?) ∧
      Reading (exec crate s w (.readNextDirent id)).state id dir ((c + 1) % 2 ^ 64) := by
  obtain ⟨st, hst, rfl⟩ := Option.map_eq_some_iff.mp hl
  have hmoved : Reading { s with dirIterMap := s.dirIterMap.replace id ((c + 1) % 2 ^ 64) } id dir
      ((c + 1) % 2 ^ 64) := by
    refine ⟨h.handle, ?_⟩
    show (s.dirIterMap.replace id _).lookup id = _
    rw [lookup_replace, if_pos rfl, h.counter]
    rfl
  rw [exec, readNextDirent, h.handle]
  dsimp only
  rw [h.counter]
  dsimp only
  rw [hst]
  dsimp only
  cases (crate.iter st dir.obj)[c]? with
  | none => exact ⟨rfl, hmoved⟩
  | some r => cases r <;> exact ⟨rfl, hmoved⟩

/-- A call for another id. -/
theorem readNextDirent_other {c n : ℕ} (h : Reading s id dir c) (hid : id ≠ n) :
    Reading (exec crate s w (.readNextDirent n)).state id dir c := by
  have hmoved : ∀ v, Reading { s with dirIterMap := s.dirIterMap.replace n v } id dir c := by
    intro v
    refine ⟨h.handle, ?_⟩
    show (s.dirIterMap.replace n v).lookup id = _
    rw [lookup_replace, if_neg hid, h.counter]
  rw [exec, readNextDirent]
  split
  · exact h
  · split
    · exact h
    · dsimp only
      split
      · exact hmoved _
      · split <;> exact hmoved _

/-- The calls on files leave the directories alone. -/
theorem exec_file_reading {c : ℕ} (h : Reading s id dir c) {op : Op F D}
    (hop : match op with
      | .openFile _ | .closeFile _ | .useFile .. | .getPathForId _ | .insertFile .. => True
      | _ => False) : Reading (exec crate s w op).state id dir c := by
  cases op with
  | openFile path =>
    rw [exec, openFile]
    split
    · exact h
    · split <;> exact ⟨h.handle, h.counter⟩
  | closeFile n =>
    rw [exec, closeFile]
    split
    · exact h
    · dsimp only
      split <;> exact ⟨h.handle, h.counter⟩
  | useFile n use =>
    rw [exec, useFile]
    split <;> exact ⟨h.handle, h.counter⟩
  | getPathForId n =>
    rw [exec]
    split <;> exact h
  | insertFile path fl => exact ⟨h.handle, h.counter⟩
  | _ => exact hop.elim

/-- **What one call does** to the directory and the counter of an id: a call that reads it counts,
and only an open or a close of it does anything else. -/
theorem step_reading {l : Label φ F D} {c : ℕ} (hst : Step crate s l s') (hn : ¬ Restarts id l)
    (h : Reading s id dir c) (hl : l.1.2.reads id = true → (listing crate l.1.1 dir).isSome) :
    Reading s' id dir (if l.1.2.reads id then (c + 1) % 2 ^ 64 else c) := by
  obtain ⟨⟨w, op⟩, r⟩ := l
  obtain ⟨hres, rfl⟩ := hst
  cases op with
  | openDir path =>
    show Reading (exec crate s w (.openDir path)).state id dir c
    have hn' : (exec crate s w (.openDir path)).result ≠ some (.ok (.id id)) := fun he =>
      hn (hres.symm.trans he)
    rw [exec, openDir] at hn' ⊢
    cases hh : s.hasDir path with
    | some n => exact h
    | none =>
      rw [hh] at hn'
      dsimp only at hn' ⊢
      cases ho : openNewDir crate w path with
      | ok d w' =>
        rw [ho] at hn'
        exact h.insertDir path d fun he => hn' (by rw [he]; rfl)
      | err code w' => exact h
      | panicked w' => exact h
  | insertDir path d =>
    refine h.insertDir path d fun he => hn ?_
    show r = _
    rw [he]
    exact hres.symm
  | closeDir n => exact h.closeDir fun he => hn he.symm
  | readNextDirent n =>
    by_cases hid : id = n
    · subst hid
      have hreads : (Op.readNextDirent id : Op F D).reads id = true := decide_eq_true rfl
      obtain ⟨lst, hlst⟩ := Option.isSome_iff_exists.mp (hl hreads)
      rw [if_pos hreads]
      exact (readNextDirent_self h hlst).2
    · have hreads : (Op.readNextDirent n : Op F D).reads id = false :=
        decide_eq_false (Ne.symm hid)
      rw [if_neg (by rw [hreads]; exact Bool.false_ne_true)]
      exact readNextDirent_other h hid
  | openFile path => exact exec_file_reading h trivial
  | closeFile n => exact exec_file_reading h trivial
  | useFile n use => exact exec_file_reading h trivial
  | getPathForId n => exact exec_file_reading h trivial
  | insertFile path fl => exact exec_file_reading h trivial

/-! ### From an open to the next open or close -/

theorem readsOf_cons (id : ℕ) (l : Label φ F D) (ls : List (Label φ F D)) :
    readsOf id (l :: ls) =
      if l.1.2.reads id then (l.1.1, l.2) :: readsOf id ls else readsOf id ls := by
  unfold readsOf
  rw [List.filter_cons]
  split <;> rfl

/-- **Answers.**  The `i`-th call for an id is answered by what stands at place `c + i`, where `c`
calls have been made before. -/
theorem session_answers {ls : List (Label φ F D)} (hrun : Run (Step crate) s ls s') :
    ∀ {c : ℕ}, Reading s id dir (c % 2 ^ 64) → (∀ l ∈ ls, ¬ Restarts id l) →
      (∀ r ∈ readsOf id ls, (listing crate r.1 dir).isSome) →
      ∀ (i : ℕ) (r : Read φ) (l : List (Except IoError DirEntry)), (readsOf id ls)[i]? = some r →
        listing crate r.1 dir = some l → r.2 = some (answerTo l[(c + i) % 2 ^ 64]?) := by
  induction hrun with
  | nil => intro c _ _ _ i r l hi; cases hi
  | @cons s s₁ s' lab ls hst hrun ih =>
    intro c h hrest hlive i r l hi hl
    have hrest' : ∀ l ∈ ls, ¬ Restarts id l := fun l hl => hrest l (List.mem_cons_of_mem _ hl)
    rw [readsOf_cons] at hlive hi
    have hnext := step_reading hst (hrest lab List.mem_cons_self) h
    cases hreads : lab.1.2.reads id with
    | false =>
      rw [hreads] at hlive hi hnext
      exact ih (hnext fun h => absurd h Bool.false_ne_true) hrest' hlive i r l hi hl
    | true =>
      rw [hreads, if_pos rfl] at hlive hi
      have hfirst := hlive _ List.mem_cons_self
      have hnext' := hnext fun _ => hfirst
      rw [hreads, if_pos rfl] at hnext'
      cases i with
      | zero =>
        cases hi
        have hop : lab.1.2 = .readNextDirent id := by
          cases hl' : lab.1.2 with
          | readNextDirent n => rw [hl'] at hreads; rw [of_decide_eq_true hreads]
          | _ => rw [hl'] at hreads; cases hreads
        have hres := hst.1
        rw [hop] at hres
        rw [← hres]
        exact (readNextDirent_self h hl).1
      | succ i =>
        have hmod : (c % 2 ^ 64 + 1) % 2 ^ 64 = (c + 1) % 2 ^ 64 := Nat.mod_add_mod c (2 ^ 64) 1
        rw [hmod] at hnext'
        have hr := ih hnext' hrest' (fun r hr => hlive r (List.mem_cons_of_mem _ hr)) i r l hi hl
        rwa [Nat.add_right_comm, Nat.add_assoc] at hr

theorem answerTo_ok (r : Option DirEntry) :
    answerTo (r.map .ok) = .ok (.entry (r.map dirEntryData)) := by
  cases r <;> rfl

/-- Answers that are what stands at each place in turn, all of it readable, deliver the directory. -/
theorem delivers_of_answers : ∀ {rs : List (Read φ)} {p : ℕ},
    (∀ (i : ℕ) (r : Read φ), rs[i]? = some r → ∃ l, listing crate r.1 dir = some l ∧ Lists es l ∧
      readable l (p + i) = true ∧ r.2 = some (answerTo l[p + i]?)) → Delivers crate dir es p rs
  | [], p, _ => .nil p
  | ⟨w, a⟩ :: rs, p, h => by
    obtain ⟨l, -, hes, hp, ha⟩ := h 0 (w, a) rfl
    have hrest : Delivers crate dir es (p + 1) rs := by
      refine delivers_of_answers fun i r hr => ?_
      have hi : p + 1 + i = p + (i + 1) := by omega
      rw [hi]
      exact h (i + 1) r hr
    rw [hes.getElem? hp, answerTo_ok] at ha
    cases ha
    exact .answered w hrest

/-! ### Runs -/

/-- An open directory has a handle and a counter. -/
def DirsHeld (s : IdStore F D) : Prop :=
  ∀ id, (id ∈ s.dirHandleMap ↔ id ∈ s.dirNameMap) ∧ (id ∈ s.dirIterMap ↔ id ∈ s.dirNameMap)

theorem dirsHeld_new : DirsHeld (new : IdStore F D) := fun id =>
  ⟨iff_of_false (AList.notMem_empty id) (AList.notMem_empty id),
    iff_of_false (AList.notMem_empty id) (AList.notMem_empty id)⟩

theorem DirsHeld.insert (h : DirsHeld s) (path : String) (d : Handle D) :
    DirsHeld (s.insertDir path d).2 := fun n =>
  ⟨(AList.mem_insert _).trans ((or_congr_right (h n).1).trans (AList.mem_insert _).symm),
    (AList.mem_insert _).trans ((or_congr_right (h n).2).trans (AList.mem_insert _).symm)⟩

theorem dirsHeld_step {l : Label φ F D} (h : DirsHeld s) (hst : Step crate s l s') :
    DirsHeld s' := by
  obtain ⟨⟨w, op⟩, r⟩ := l
  have he : Effect crate s w op r s' := hst.effect
  cases he with
  | kept hs hr hfile hdir =>
    intro n
    rw [hs.dirHandles, hs.dirNames, hs.dirIters]
    exact h n
  | foundFile hf => exact h
  | foundDir hf => exact h
  | newFile hn => exact h
  | newDir hn => exact h.insert _ _
  | closedFile hl hf => exact h
  | halfClosed hl hf hr => exact h
  | closedDir hl =>
    intro n
    exact ⟨AList.mem_erase.trans ((and_congr_right fun _ => (h n).1).trans AList.mem_erase.symm),
      AList.mem_erase.trans ((and_congr_right fun _ => (h n).2).trans AList.mem_erase.symm)⟩

/-- An id that `open_dir` returns can be read: on from the first entry if it is new, and from where
it stood if it is not. -/
theorem openDir_reading {path : String} (h : DirsHeld s)
    (hst : Step crate s ((w, .openDir path), some (.ok (.id id))) s') :
    ∃ dir c, Reading s' id dir c ∧
      ((∀ n, s.hasDir path = some n → s.dirIterMap.lookup n = some 0) → c = 0) := by
  have he : Effect crate s w (.openDir path) (some (.ok (.id id))) s' := hst.effect
  cases he with
  | kept hs hr hfile hdir => exact absurd ⟨id, rfl⟩ hr
  | foundDir hf =>
    have hname : id ∈ s.dirNameMap :=
      AList.lookup_isSome.mp (Option.isSome_iff_exists.mpr ⟨path, lookup_of_findKey? hf⟩)
    obtain ⟨dir, hdir⟩ := Option.isSome_iff_exists.mp (AList.lookup_isSome.mpr ((h id).1.mpr hname))
    obtain ⟨c, hc⟩ := Option.isSome_iff_exists.mp (AList.lookup_isSome.mpr ((h id).2.mpr hname))
    refine ⟨dir, c, ⟨hdir, hc⟩, fun hz => ?_⟩
    have hzero := hc.symm.trans (hz id hf)
    cases hzero
    rfl
  | newFile hn =>
    rcases hn with hn | ⟨hn, -⟩ <;> cases hn
  | newDir hn => exact ⟨_, 0, ⟨AList.lookup_insert _, AList.lookup_insert _⟩, fun _ => rfl⟩

/-- **Directories are delivered.**  After any calls, `open_dir` returns an id that it creates, or one
that has not been read since it was created.  While other calls are made in between, but none that
opens or closes the id, `read_next_dirent` delivers the directory, which stays as it is, if no entry
fails to be read and the counter does not overflow. -/
theorem run_delivers {pre : List (Label φ F D)} {path : String}
    (hpre : Run (Step crate) new pre s)
    (hopen : Step crate s ((w, .openDir path), some (.ok (.id id))) s')
    (hnew : ∀ n, s.hasDir path = some n → s.dirIterMap.lookup n = some 0) :
    ∃ dir, s'.dirHandleMap.lookup id = some dir ∧
      ∀ (es : List DirEntry) (ls : List (Label φ F D)) (s'' : IdStore F D),
        Run (Step crate) s' ls s'' → (∀ l ∈ ls, ¬ Restarts id l) →
        (∀ r ∈ readsOf id ls, ∃ l, listing crate r.1 dir = some l ∧ Lists es l) →
        (∀ (i : ℕ) (r : Read φ) (l : List (Except IoError DirEntry)), (readsOf id ls)[i]? = some r →
          listing crate r.1 dir = some l → readable l i = true) →
        (readsOf id ls).length ≤ 2 ^ 64 → Delivers crate dir es 0 (readsOf id ls) := by
  have hheld : DirsHeld s :=
    hpre.invariant (I := DirsHeld) (fun _ _ _ h hst => dirsHeld_step h hst) dirsHeld_new
  obtain ⟨dir, c, hreading, hc⟩ := openDir_reading hheld hopen
  refine ⟨dir, hreading.handle, fun es ls s'' hrun hrest hdir hread hlen => ?_⟩
  have hzero : Reading s' id dir (0 % 2 ^ 64) := by
    rw [hc hnew] at hreading
    exact hreading
  have hlive : ∀ r ∈ readsOf id ls, (listing crate r.1 dir).isSome := by
    intro r hr
    obtain ⟨l, hl, -⟩ := hdir r hr
    rw [hl]
    rfl
  refine delivers_of_answers fun i r hi => ?_
  obtain ⟨l, hl, hes⟩ := hdir r (List.mem_of_getElem? hi)
  have hans := session_answers hrun hzero hrest hlive i r l hi hl
  have hlt : i < 2 ^ 64 := by
    obtain ⟨hi', -⟩ := List.getElem?_eq_some_iff.mp hi
    omega
  rw [Nat.zero_add, Nat.mod_eq_of_lt hlt] at hans
  rw [Nat.zero_add]
  exact ⟨l, hl, hes, hread i r l hi hl, hans⟩

/-- What the sample volume has in its root directory. -/
def sampleEntries : List DirEntry := [⟨"d", false, 0, 0x10⟩, ⟨"a", true, 0, 0x20⟩]

/-- A list of calls on a store with what they return. -/
def traceOf (crate : FatfsCrate φ F D) (s : IdStore F D) (cs : List (Call φ F D)) :
    List (Label φ F D) :=
  answers (fun s c => (exec crate s c.1 c.2).state) (fun s c => (exec crate s c.1 c.2).result) s cs

theorem run_traceOf (s : IdStore F D) (cs : List (Call φ F D)) :
    ∃ s', Run (Step crate) s (traceOf crate s cs) s' := by
  have hall : Along (fun s c => (exec crate s c.1 c.2).state) (fun _ _ => True) s cs :=
    along_true _ cs
  have hrun := run_answers _ (fun s (c : Call φ F D) => (exec crate s c.1 c.2).result) hall
  exact ⟨_, hrun.mono fun _ _ _ hg => hg.2⟩

theorem mem_of_traceOf {cs : List (Call φ F D)} {l : Label φ F D} (h : l ∈ traceOf crate s cs) :
    l.1 ∈ cs := by
  rw [← answers_map_fst (fun s c => (exec crate s c.1 c.2).state)
    (fun s (c : Call φ F D) => (exec crate s c.1 c.2).result) s cs]
  exact List.mem_map_of_mem h

/-- The root directory is open. -/
def rootOpen : IdStore ℕ ℕ := sampleAfter [(sampleMounted [], .openDir "/")]

/-- The directory is read to its end, and a file is opened. -/
def reading : List (Call Volume ℕ ℕ) :=
  [(sampleMounted [], .readNextDirent 0), (sampleMounted [], .openFile "a"),
    (sampleMounted [], .readNextDirent 0), (sampleMounted [], .readNextDirent 0)]

theorem lists_sample : Lists sampleEntries (sampleEntries.map .ok) := .entry _ (.entry _ .nil)

theorem run_delivers_reading :
    Delivers volumeCrate ⟨1, 0⟩ sampleEntries 0
      (readsOf 0 (traceOf volumeCrate rootOpen reading)) := by
  have hopen : Step volumeCrate new ((sampleMounted [], .openDir "/"), some (.ok (.id 0))) rootOpen :=
    ⟨rfl, rfl⟩
  obtain ⟨dir, hdir, h⟩ := run_delivers (.nil new) hopen nofun
  have hd : dir = ⟨1, 0⟩ := (Option.some.inj hdir).symm
  subst hd
  -- every call finds the same directory
  have hlist : ∀ r ∈ readsOf 0 (traceOf volumeCrate rootOpen reading),
      listing volumeCrate r.1 ⟨1, 0⟩ = some (sampleEntries.map .ok) := by
    intro r hr
    obtain ⟨l, hl, rfl⟩ := List.mem_map.mp hr
    have hc : ∀ c ∈ reading, c.1 = sampleMounted [] := by simp [reading]
    rw [hc l.1 (mem_of_traceOf (List.mem_filter.mp hl).1)]
    rfl
  obtain ⟨s', hrun⟩ : ∃ s', Run (Step volumeCrate) rootOpen (traceOf volumeCrate rootOpen reading) s' :=
    run_traceOf rootOpen reading
  refine h sampleEntries _ s' hrun ?_ ?_ ?_ ?_
  · intro l hl hr
    have hc : ∀ c ∈ reading, ∀ a, ¬ Restarts 0 (c, a) := by simp [reading, Restarts]
    exact hc l.1 (mem_of_traceOf hl) l.2 hr
  · intro r hr
    exact ⟨_, hlist r hr, lists_sample⟩
  · intro i r l hi hl
    rw [hlist r (List.mem_of_getElem? hi)] at hl
    cases hl
    exact readable_map_ok sampleEntries i
  · decide

/-- The sample volume, where a directory cannot be read while an operation on it is to fail. -/
def flakyCrate : FatfsCrate Volume ℕ ℕ :=
  { volumeCrate with iter := fun v n => if v.script = [] then v.list n else [.error ⟨.other, none⟩] }

/-- **Entries passed over.**  A directory is read, opened again under the same id, and read: the
first entry is not there.  And the first entry cannot be read at first: the second call returns the
entry after it. -/
theorem entries_passed_over :
    (traceOf volumeCrate new [(sampleMounted [], .openDir "/"), (sampleMounted [], .readNextDirent 0),
      (sampleMounted [], .openDir "/"), (sampleMounted [], .readNextDirent 0)]).map Prod.snd =
      [some (.ok (.id 0)), some (.ok (.entry (some ⟨"d", dtDir, 0⟩))), some (.ok (.id 0)),
        some (.ok (.entry (some ⟨"a", dtReg, 0⟩)))] ∧
    ¬ Delivers volumeCrate ⟨1, 0⟩ sampleEntries 0
      [(sampleMounted [], some (.ok (.entry (some ⟨"a", dtReg, 0⟩))))] ∧
    (traceOf flakyCrate rootOpen
      [(sampleMounted [.fails], .readNextDirent 0), (sampleMounted [], .readNextDirent 0)]).map Prod.snd =
      [some (.error (LibnxErrMapper.map (⟨.other, none⟩ : IoError))),
        some (.ok (.entry (some ⟨"a", dtReg, 0⟩)))] ∧
    ¬ Delivers flakyCrate ⟨1, 0⟩ sampleEntries 0 (readsOf 0 (traceOf flakyCrate rootOpen
      [(sampleMounted [.fails], .readNextDirent 0), (sampleMounted [], .readNextDirent 0)])) := by
  refine ⟨rfl, fun h => ?_, rfl, fun h => ?_⟩
  · rcases h.of_cons with ⟨ha, -⟩ | ⟨⟨code, ha⟩, -⟩
    · exact absurd ha (by decide)
    · cases ha
  · rcases Delivers.of_cons h with ⟨ha, -⟩ | ⟨-, h⟩
    · cases ha
    · rcases Delivers.of_cons h with ⟨ha, -⟩ | ⟨⟨code, ha⟩, -⟩
      · exact absurd ha (by decide)
      · cases ha

end FatDrive.IdStore
