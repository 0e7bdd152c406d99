import FatDrive.IdStoreInv

/-!
# FatDrive.IdStoreHistory — ids over the history of a store

* `run_usable_iff`: an id is usable exactly from an open that returned it to the next close of it,
  whoever makes the calls: there is no count of the opens;
* `shared_close`: two clients open a path, one closes it, the other has lost it.
-/

namespace FatDrive.IdStore

open Lib

variable {φ F D : Type} {crate : FatfsCrate φ F D} {s s' : IdStore F D} {w : Mounted φ}

/-- What an id stands for. -/
inductive Kind where
  | file | dir
  deriving DecidableEq, Repr

/-- The id has a handle of this kind. -/
def HasHandle (s : IdStore F D) : Kind → ℕ → Prop
  | .file, id => id ∈ s.fileHandleMap
  | .dir, id => id ∈ s.dirHandleMap

/-- The id is usable: `get_file_handle` finds its file, `read_next_dirent` its directory. -/
def Usable (s : IdStore F D) : Kind → ℕ → Prop
  | .file, id => ∃ f, s.getFileHandle id = .ok f
  | .dir, id => DirUsable s id

theorem usable_iff (h : InStep s) (k : Kind) {id : ℕ} : Usable s k id ↔ HasHandle s k id :=
  match k with
  | .file => getFileHandle_iff
  | .dir => dirUsable_iff h

/-! ### Opened and closed -/

/-- The id a call closes as one of this kind. -/
def Op.closes : Kind → Op F D → Option ℕ
  | .file, .closeFile id => some id
  | .dir, .closeDir id => some id
  | _, _ => none

/-- The call opens a path as this kind. -/
def Op.opens : Kind → Op F D → Bool
  | .file, .openFile _ => true
  | .dir, .openDir _ => true
  | _, _ => false

/-- What a call says about an id of a kind: it closed it (`false`), it returned it from an open
(`true`), or it is not about it. -/
def event (k : Kind) (id : ℕ) (l : Label φ F D) : Option Bool :=
  if l.1.2.closes k = some id then some false
  else if l.1.2.opens k = true ∧ l.2 = some (.ok (.id id)) then some true
  else none

/-- The newest call of the history that is about the id returned it from an open. -/
def Held (k : Kind) (id : ℕ) (ls : List (Label φ F D)) : Prop :=
  ls.reverse.findSome? (event k id) = some true

theorem not_held_nil (k : Kind) (id : ℕ) : ¬ Held k id ([] : List (Label φ F D)) := nofun

theorem held_snoc {k : Kind} {id : ℕ} {ls : List (Label φ F D)} {l : Label φ F D} :
    Held k id (ls ++ [l]) ↔ event k id l = some true ∨ event k id l = none ∧ Held k id ls := by
  unfold Held
  rw [List.reverse_append, List.reverse_singleton, List.singleton_append, List.findSome?_cons]
  cases event k id l with
  | none => simp
  | some b => cases b <;> simp

/-! How an event moves a property of the id: opened sets it, closed takes it away. -/

section Events

variable {k : Kind} {op : Op F D} {r : Option (Except ℕ Resp)} {id n : ℕ} {P : Prop}

theorem event_opened (hc : op.closes k = none) (ho : op.opens k = true) :
    id = n ∨ P ↔ event k id ((w, op), some (.ok (.id n))) = some true ∨
      event k id ((w, op), some (.ok (.id n))) = none ∧ P := by
  by_cases hid : n = id
  · simp [event, hc, ho, hid]
  · simp [event, hc, hid, Ne.symm hid]

theorem event_closed (hc : op.closes k = some n) :
    id ≠ n ∧ P ↔ event k id ((w, op), r) = some true ∨ event k id ((w, op), r) = none ∧ P := by
  have ho : op.opens k = false := by cases k <;> cases op <;> cases hc <;> rfl
  by_cases hid : n = id
  · simp [event, hc, hid]
  · simp [event, hc, ho, hid, Ne.symm hid]

theorem event_other (hc : op.closes k = some id → ¬ P)
    (ho : op.opens k = true → r ≠ some (.ok (.id id))) :
    P ↔ event k id ((w, op), r) = some true ∨ event k id ((w, op), r) = none ∧ P := by
  have hopen : ¬ (op.opens k = true ∧ r = some (.ok (.id id))) := fun h => ho h.1 h.2
  unfold event
  by_cases h : op.closes k = some id
  · simpa [h] using hc h
  · simp [h, hopen]

end Events

/-- A call that closes nothing that has a handle. -/
theorem not_hasHandle_of_closes {op : Op F D} (hfile : ∀ id, op = .closeFile id → id ∉ s.fileHandleMap)
    (hdir : ∀ id, op = .closeDir id → id ∉ s.dirHandleMap) {k : Kind} {id : ℕ}
    (hc : op.closes k = some id) : ¬ HasHandle s k id := by
  cases k <;> cases op <;> cases hc
  · exact hfile _ rfl
  · exact hdir _ rfl

/-- **What a call does to the handles.** -/
theorem effect_hasHandle (h : InStep s) {op : Op F D} {r : Option (Except ℕ Resp)}
    (hop : op.isInsert = false) (he : Effect crate s w op r s') (k : Kind) (id : ℕ) :
    HasHandle s' k id ↔ event k id ((w, op), r) = some true ∨
      event k id ((w, op), r) = none ∧ HasHandle s k id := by
  cases he with
  | kept hs hr hfile hdir =>
    have hk : HasHandle s' k id ↔ HasHandle s k id := by
      cases k with
      | file => exact hs.fileHandles id
      | dir => exact hs.dirHandles id
    exact hk.trans (event_other (not_hasHandle_of_closes hfile hdir) fun _ h => hr ⟨id, h⟩)
  | @foundFile path n hf =>
    cases k with
    | file =>
      -- the id was there already
      have hn : n ∈ s.fileHandleMap :=
        (h.files n).mpr (AList.lookup_isSome.mp (by rw [lookup_of_findKey? hf]; rfl))
      have hid : HasHandle s .file id ↔ id = n ∨ HasHandle s .file id :=
        ⟨Or.inr, fun h => h.elim (fun he => he ▸ hn) fun hs => hs⟩
      exact hid.trans (event_opened rfl rfl)
    | dir => exact event_other nofun nofun
  | @foundDir path n hf =>
    cases k with
    | file => exact event_other nofun nofun
    | dir =>
      have hn : n ∈ s.dirHandleMap :=
        (h.dirs n).mpr (AList.lookup_isSome.mp (by rw [lookup_of_findKey? hf]; rfl))
      have hid : HasHandle s .dir id ↔ id = n ∨ HasHandle s .dir id :=
        ⟨Or.inr, fun h => h.elim (fun he => he ▸ hn) fun hs => hs⟩
      exact hid.trans (event_opened rfl rfl)
  | newFile hn =>
    rcases hn with rfl | ⟨rfl, hp, -⟩
    · cases hop
    · cases k with
      | file => exact (AList.mem_insert _).trans (event_opened rfl rfl)
      | dir => exact event_other nofun nofun
  | newDir hn =>
    rcases hn with rfl | ⟨rfl, hp, -⟩
    · cases hop
    · cases k with
      | file => exact event_other nofun nofun
      | dir => exact (AList.mem_insert _).trans (event_opened rfl rfl)
  | closedFile hl hf =>
    cases k with
    | file => exact AList.mem_erase.trans (event_closed rfl)
    | dir => exact event_other nofun nofun
  | halfClosed hl hf hr =>
    cases k with
    | file => exact AList.mem_erase.trans (event_closed rfl)
    | dir => exact event_other nofun nofun
  | closedDir hl =>
    cases k with
    | file => exact event_other nofun nofun
    | dir => exact AList.mem_erase.trans (event_closed rfl)

/-- **Usable ids.**  After calls by any clients, no flush failing, an id is usable exactly if the
newest call about it returned it from an open: from any open that returned it up to the first close
of it. -/
theorem run_usable_iff {ls : List (Label φ F D)}
    (hrun : Run (Guard (Step crate) fun s l =>
      l.1.2.isInsert = false ∧ ClosesClean crate s l.1) new ls s) (k : Kind) (id : ℕ) :
    Usable s k id ↔ Held k id ls := by
  have key : InStep s ∧ (HasHandle s k id ↔ Held k id ls) := by
    refine hrun.history (H := fun ls s => InStep s ∧ (HasHandle s k id ↔ Held k id ls)) ?_ ?_
    · refine ⟨inStep_new, iff_of_false ?_ (not_held_nil k id)⟩
      cases k <;> exact AList.notMem_empty id
    · intro ls s₁ l s₂ ⟨h, hk⟩ ⟨⟨hop, hclean⟩, hst⟩
      refine ⟨(effect_inStep_iff h hop hst.effect).mpr hclean, ?_⟩
      rw [effect_hasHandle h hop hst.effect k id, held_snoc, hk]
  exact (usable_iff key.1 k).trans key.2

/-- Two clients open a file by one path, and one of them uses and closes it; a third opens a directory. -/
def sharing : List (Call Volume ℕ ℕ) :=
  [(sampleMounted [], .openFile "a"), (sampleMounted [], .openFile "a"), (sampleMounted [], .openDir "d"),
    (sampleMounted [], .useFile 0 fun f => f), (sampleMounted [], .closeFile 0)]

/-- Before the one close the shared id is usable, after it no more, though it was opened twice. -/
theorem run_usable_iff_sharing :
    (Usable (sampleAfter (sharing.take 4)) .file 0 ∧ Held .file 0 (sampleAnswers (sharing.take 4))) ∧
    (¬ Usable (sampleAfter sharing) .file 0 ∧ ¬ Held .file 0 (sampleAnswers sharing)) ∧
    Usable (sampleAfter sharing) .dir 1 ∧ Held .dir 1 (sampleAnswers sharing) := by
  have hbefore : Along (fun s c => (exec volumeCrate s c.1 c.2).state)
      (fun s c => c.2.isInsert = false ∧ ClosesClean volumeCrate s c) new (sharing.take 4) :=
    ⟨⟨rfl, trivial⟩, ⟨rfl, trivial⟩, ⟨rfl, trivial⟩, ⟨rfl, trivial⟩, trivial⟩
  have hafter : Along (fun s c => (exec volumeCrate s c.1 c.2).state)
      (fun s c => c.2.isInsert = false ∧ ClosesClean volumeCrate s c) new sharing :=
    ⟨⟨rfl, trivial⟩, ⟨rfl, trivial⟩, ⟨rfl, trivial⟩, ⟨rfl, trivial⟩, ⟨rfl, rfl⟩, trivial⟩
  have hheld : Held .file 0 (sampleAnswers (sharing.take 4)) := rfl
  have hclosed : ¬ Held .file 0 (sampleAnswers sharing) := by
    intro h
    cases h
  have hdir : Held .dir 1 (sampleAnswers sharing) := rfl
  exact ⟨⟨(run_usable_iff (run_sample hbefore) .file 0).mpr hheld, hheld⟩,
    ⟨fun h => hclosed ((run_usable_iff (run_sample hafter) .file 0).mp h), hclosed⟩,
    (run_usable_iff (run_sample hafter) .dir 1).mpr hdir, hdir⟩

/-- **A shared id.**  Two clients open the same path and get the same id; one of them closes it, and
the other, which has not, no longer finds its file. -/
theorem shared_close :
    (sampleAnswers [(sampleMounted [], .openFile "a"), (sampleMounted [], .openFile "a"),
      (sampleMounted [], .closeFile 0), (sampleMounted [], .useFile 0 fun f => f)]).map Prod.snd =
      [some (.ok (.id 0)), some (.ok (.id 0)), some (.ok .unit),
        some (.error nxFatdriveErrFileNotFound)] := rfl

end FatDrive.IdStore
