import FatDrive.IdStoreHistory

/-!
# FatDrive.IdStoreIssues — ids over the insertions of a store

`IssueStep` is a call on a store together with the list of insertions so far, `Agrees` the relation
between the two: the ids in use are ids that were handed out, under the paths and as the kind they
were handed out for.

* `agrees_step`: a call keeps it, up to `2 ^ 64 - 1` insertions;
* `run_issues`: no insertion hands out an id twice or replaces an entry, no id is in use for both
  kinds, and the path of an id is the one it was issued for.
-/

namespace FatDrive.IdStore

open Lib

variable {φ F D : Type} {crate : FatfsCrate φ F D} {s s' : IdStore F D} {w : Mounted φ}

/-- An id handed out by an insertion. -/
structure Issue where
  id : ℕ
  kind : Kind
  path : String
  deriving DecidableEq, Repr

/-- What a call hands out: `open_file` and `open_dir` insert what they had to open. -/
def issued (crate : FatfsCrate φ F D) (s : IdStore F D) (w : Mounted φ) : Op F D → Option Issue
  | .openFile path =>
    if s.hasFile path = none ∧ (openNewFile crate w path).isOk then some ⟨s.nextId, .file, path⟩
    else none
  | .openDir path =>
    if s.hasDir path = none ∧ (openNewDir crate w path).isOk then some ⟨s.nextId, .dir, path⟩
    else none
  | .insertFile path _ => some ⟨s.nextId, .file, path⟩
  | .insertDir path _ => some ⟨s.nextId, .dir, path⟩
  | _ => none

/-- One call, with the insertions so far. -/
def IssueStep (crate : FatfsCrate φ F D) (x : IdStore F D × List Issue) (l : Label φ F D)
    (y : IdStore F D × List Issue) : Prop :=
  Step crate x.1 l y.1 ∧ y.2 = x.2 ++ (issued crate x.1 l.1.1 l.1.2).toList

/-- The names of a kind. -/
def names (s : IdStore F D) : Kind → AList fun _ : ℕ => String
  | .file => s.fileNameMap
  | .dir => s.dirNameMap

/-- The id is a key of a map of this kind. -/
def InUse (s : IdStore F D) : Kind → ℕ → Prop
  | .file, id => id ∈ s.fileHandleMap ∨ id ∈ s.fileNameMap
  | .dir, id => id ∈ s.dirHandleMap ∨ id ∈ s.dirNameMap ∨ id ∈ s.dirIterMap

/-- The store agrees with its insertions: they have handed out `0, 1, 2, …` in turn, and the ids
and names in its maps are among them. -/
structure Agrees (s : IdStore F D) (log : List Issue) : Prop where
  ids : log.map Issue.id = List.range log.length
  next : s.nextId = log.length
  inUse : ∀ k id, InUse s k id → ∃ path, ⟨id, k, path⟩ ∈ log
  named : ∀ k id path, (names s k).lookup id = some path → ⟨id, k, path⟩ ∈ log

theorem agrees_new : Agrees (new : IdStore F D) [] where
  ids := rfl
  next := rfl
  inUse := fun k id h => by
    cases k with
    | file => exact absurd h (not_or_intro (AList.notMem_empty id) (AList.notMem_empty id))
    | dir =>
      exact absurd h (not_or_intro (AList.notMem_empty id)
        (not_or_intro (AList.notMem_empty id) (AList.notMem_empty id)))
  named := fun k id path h => by
    cases k <;> exact absurd (h.symm.trans (AList.lookup_empty id)) (Option.some_ne_none path)

namespace Agrees

variable {log : List Issue}

theorem nodup (h : Agrees s log) : (log.map Issue.id).Nodup := by
  rw [h.ids]
  exact List.nodup_range

/-- The next id has not been handed out. -/
theorem fresh (h : Agrees s log) : s.nextId ∉ log.map Issue.id := by
  rw [h.ids, h.next, List.mem_range]
  exact Nat.lt_irrefl _

theorem fresh_inUse (h : Agrees s log) (k : Kind) : ¬ InUse s k s.nextId := by
  intro hu
  obtain ⟨path, hmem⟩ := h.inUse k _ hu
  exact h.fresh (List.mem_map_of_mem hmem)

/-- Two insertions of one id are the same. -/
theorem eq_of_id (h : Agrees s log) {i j : Issue} (hi : i ∈ log) (hj : j ∈ log)
    (hid : i.id = j.id) : i = j := List.inj_on_of_nodup_map h.nodup hi hj hid

/-- No insertion, and no more ids and names than before. -/
theorem shrink (h : Agrees s log) (hnext : s'.nextId = s.nextId)
    (huse : ∀ k id, InUse s' k id → InUse s k id)
    (hname : ∀ k id path, (names s' k).lookup id = some path → (names s k).lookup id = some path) :
    Agrees s' log where
  ids := h.ids
  next := hnext.trans h.next
  inUse := fun k id hu => h.inUse k id (huse k id hu)
  named := fun k id path hp => h.named k id path (hname k id path hp)

/-- An insertion: its id, and nothing but its id, is new. -/
theorem grow (h : Agrees s log) {k : Kind} {path : String} (hlt : log.length + 1 < 2 ^ 64)
    (hnext : s'.nextId = idAfter s.nextId)
    (huse : ∀ k' id, InUse s' k' id → InUse s k' id ∨ k' = k ∧ id = s.nextId)
    (hname : ∀ k' id p, (names s' k').lookup id = some p →
      (names s k').lookup id = some p ∨ k' = k ∧ id = s.nextId ∧ p = path) :
    Agrees s' (log ++ [⟨s.nextId, k, path⟩]) where
  ids := by
    rw [List.map_append, h.ids, List.length_append, List.length_singleton, List.range_succ, h.next]
    rfl
  next := by
    have hlen := h.next
    rw [hnext, idAfter, if_neg (by omega), hlen, List.length_append, List.length_singleton]
  inUse := fun k' id hu => by
    rcases huse k' id hu with hold | ⟨rfl, rfl⟩
    · obtain ⟨p, hp⟩ := h.inUse k' id hold
      exact ⟨p, List.mem_append_left _ hp⟩
    · exact ⟨path, List.mem_append_right _ (List.mem_singleton.mpr rfl)⟩
  named := fun k' id p hp => by
    rcases hname k' id p hp with hold | ⟨rfl, rfl, rfl⟩
    · exact List.mem_append_left _ (h.named k' id p hold)
    · exact List.mem_append_right _ (List.mem_singleton.mpr rfl)

end Agrees

/-! ### One call -/

/-- A call that hands out an id hands out the next one, and returns it. -/
theorem issued_result {op : Op F D} {i : Issue} (h : issued crate s w op = some i) :
    i.id = s.nextId ∧ (exec crate s w op).result = some (.ok (.id i.id)) := by
  cases op with
  | openFile path =>
    obtain ⟨⟨hp, ho⟩, hi⟩ := Option.ite_none_right_eq_some.mp h
    obtain ⟨fl, w', ho⟩ := Outcome.isOk_iff.mp ho
    cases hi
    rw [exec, openFile, hp]
    dsimp only
    rw [ho]
    exact ⟨rfl, rfl⟩
  | openDir path =>
    obtain ⟨⟨hp, ho⟩, hi⟩ := Option.ite_none_right_eq_some.mp h
    obtain ⟨dir, w', ho⟩ := Outcome.isOk_iff.mp ho
    cases hi
    rw [exec, openDir, hp]
    dsimp only
    rw [ho]
    exact ⟨rfl, rfl⟩
  | insertFile path fl =>
    cases h
    exact ⟨rfl, rfl⟩
  | insertDir path dir =>
    cases h
    exact ⟨rfl, rfl⟩
  | _ => cases h

theorem issued_eq_none {op : Op F D} (hr : ¬ ReturnsId (exec crate s w op).result) :
    issued crate s w op = none :=
  Option.eq_none_iff_forall_ne_some.mpr fun i h => hr ⟨i.id, (issued_result h).2⟩

theorem Agrees.insertFile {log : List Issue} (h : Agrees s log) (hlt : log.length + 1 < 2 ^ 64)
    (path : String) (fl : Handle F) :
    Agrees (s.insertFile path fl).2 (log ++ [⟨s.nextId, .file, path⟩]) := by
  refine h.grow hlt rfl (fun k id hu => ?_) (fun k id p hp => ?_)
  · cases k with
    | file =>
      rcases hu with hu | hu
      · exact (mem_insert_or hu).imp Or.inl fun he => ⟨rfl, he⟩
      · exact (mem_insert_or hu).imp Or.inr fun he => ⟨rfl, he⟩
    | dir => exact Or.inl hu
  · cases k with
    | file => exact (lookup_insert_or hp).imp_right fun he => ⟨rfl, he⟩
    | dir => exact Or.inl hp

theorem Agrees.insertDir {log : List Issue} (h : Agrees s log) (hlt : log.length + 1 < 2 ^ 64)
    (path : String) (dir : Handle D) :
    Agrees (s.insertDir path dir).2 (log ++ [⟨s.nextId, .dir, path⟩]) := by
  refine h.grow hlt rfl (fun k id hu => ?_) (fun k id p hp => ?_)
  · cases k with
    | file => exact Or.inl hu
    | dir =>
      rcases hu with hu | hu | hu
      · exact (mem_insert_or hu).imp Or.inl fun he => ⟨rfl, he⟩
      · exact (mem_insert_or hu).imp (fun hu => Or.inr (Or.inl hu)) fun he => ⟨rfl, he⟩
      · exact (mem_insert_or hu).imp (fun hu => Or.inr (Or.inr hu)) fun he => ⟨rfl, he⟩
  · cases k with
    | file => exact Or.inl hp
    | dir => exact (lookup_insert_or hp).imp_right fun he => ⟨rfl, he⟩

/-- A call that opens and closes nothing. -/
theorem Agrees.kept {log : List Issue} (h : Agrees s log) (hs : SameIds s s') : Agrees s' log := by
  refine h.shrink hs.nextId (fun k id hu => ?_) (fun k id p hp => ?_)
  · cases k with
    | file => exact hu.imp (hs.fileHandles id).mp fun hu => hs.fileNames ▸ hu
    | dir =>
      exact hu.imp (hs.dirHandles id).mp
        (Or.imp (fun hu => hs.dirNames ▸ hu) (hs.dirIters id).mp)
  · cases k with
    | file => exact (congrArg (AList.lookup id) hs.fileNames).symm.trans hp
    | dir => exact (congrArg (AList.lookup id) hs.dirNames).symm.trans hp

theorem Agrees.eraseHandle {log : List Issue} (h : Agrees s log) (fileid : ℕ) :
    Agrees { s with fileHandleMap := s.fileHandleMap.erase fileid } log := by
  refine h.shrink rfl (fun k id hu => ?_) (fun k id p hp => ?_)
  · cases k with
    | file => exact hu.imp_left fun hu => (AList.mem_erase.mp hu).2
    | dir => exact hu
  · cases k <;> exact hp

theorem Agrees.eraseName {log : List Issue} (h : Agrees s log) (fileid : ℕ) :
    Agrees { s with fileNameMap := s.fileNameMap.erase fileid } log := by
  refine h.shrink rfl (fun k id hu => ?_) (fun k id p hp => ?_)
  · cases k with
    | file => exact hu.imp_right fun hu => (AList.mem_erase.mp hu).2
    | dir => exact hu
  · cases k with
    | file => exact (lookup_erase_iff.mp hp).2
    | dir => exact hp

theorem Agrees.eraseDir {log : List Issue} (h : Agrees s log) (dirid : ℕ) :
    Agrees { s with dirHandleMap := s.dirHandleMap.erase dirid,
                    dirNameMap := s.dirNameMap.erase dirid,
                    dirIterMap := s.dirIterMap.erase dirid } log := by
  refine h.shrink rfl (fun k id hu => ?_) (fun k id p hp => ?_)
  · cases k with
    | file => exact hu
    | dir =>
      exact hu.imp (fun hu => (AList.mem_erase.mp hu).2)
        (Or.imp (fun hu => (AList.mem_erase.mp hu).2) fun hu => (AList.mem_erase.mp hu).2)
  · cases k with
    | file => exact hp
    | dir => exact (lookup_erase_iff.mp hp).2

/-- **One call.** -/
theorem agrees_step {log : List Issue} {l : Label φ F D} (h : Agrees s log)
    (hst : Step crate s l s')
    (hlt : (log ++ (issued crate s l.1.1 l.1.2).toList).length < 2 ^ 64) :
    Agrees s' (log ++ (issued crate s l.1.1 l.1.2).toList) := by
  obtain ⟨⟨w, op⟩, r⟩ := l
  have he : Effect crate s w op r s' := hst.effect
  have hres : (exec crate s w op).result = r := hst.1
  dsimp only at hlt ⊢
  -- the calls that hand nothing out leave the log as it is
  have hnone : issued crate s w op = none → Agrees s' log →
      Agrees s' (log ++ (issued crate s w op).toList) := by
    intro hi hs'
    rw [hi, Option.toList_none, List.append_nil]
    exact hs'
  cases he with
  | kept hs hr hfile hdir => exact hnone (issued_eq_none (hres.symm ▸ hr)) (h.kept hs)
  | foundFile hf =>
    refine hnone (if_neg ?_) h
    rw [hf]
    exact fun h => nomatch h.1
  | foundDir hf =>
    refine hnone (if_neg ?_) h
    rw [hf]
    exact fun h => nomatch h.1
  | @newFile _ path fl hn =>
    have hi : issued crate s w op = some ⟨s.nextId, .file, path⟩ := by
      rcases hn with rfl | ⟨rfl, hp, w', ho⟩
      · rfl
      · rw [issued, if_pos ⟨hp, Outcome.isOk_iff.mpr ⟨fl, w', ho⟩⟩]
    rw [hi, Option.toList_some] at hlt ⊢
    exact h.insertFile (by simpa using hlt) path fl
  | @newDir _ path dir hn =>
    have hi : issued crate s w op = some ⟨s.nextId, .dir, path⟩ := by
      rcases hn with rfl | ⟨rfl, hp, w', ho⟩
      · rfl
      · rw [issued, if_pos ⟨hp, Outcome.isOk_iff.mpr ⟨dir, w', ho⟩⟩]
    rw [hi, Option.toList_some] at hlt ⊢
    exact h.insertDir (by simpa using hlt) path dir
  | closedFile hl hf => exact hnone rfl ((h.eraseHandle _).eraseName _)
  | halfClosed hl hf hr => exact hnone rfl (h.eraseHandle _)
  | closedDir hl => exact hnone rfl (h.eraseDir _)

/-! ### Runs -/

theorem run_agrees {ls : List (Label φ F D)} {x y : IdStore F D × List Issue}
    (hrun : Run (IssueStep crate) x ls y) (h : x.2.length < 2 ^ 64 → Agrees x.1 x.2) :
    y.2.length < 2 ^ 64 → Agrees y.1 y.2 := by
  refine hrun.invariant (I := fun x => x.2.length < 2 ^ 64 → Agrees x.1 x.2) ?_ h
  intro x l y hx ⟨hst, hlog⟩ hlt
  have hle : x.2.length ≤ y.2.length := by
    rw [hlog, List.length_append]
    exact Nat.le_add_right _ _
  rw [hlog] at hlt ⊢
  exact agrees_step (hx (Nat.lt_of_le_of_lt (hlog ▸ hle) hlt)) hst hlt

/-- **Ids over runs.**  While fewer than `2 ^ 64` insertions have been made: no two handed out the
same id; the id of the next one has not been handed out and is a key of no map; no id is in use for
both kinds; and the path of an id is that of its insertion, found among the names of its kind. -/
theorem run_issues {ls : List (Label φ F D)} {log : List Issue}
    (hrun : Run (IssueStep crate) (new, []) ls (s, log)) (hlt : log.length < 2 ^ 64) :
    (log.map Issue.id).Nodup ∧
    (∀ w op i, issued crate s w op = some i →
      (exec crate s w op).result = some (.ok (.id i.id)) ∧ i.id ∉ log.map Issue.id ∧
        ∀ k, ¬ InUse s k i.id) ∧
    (∀ id, ¬ (InUse s .file id ∧ InUse s .dir id)) ∧
    ∀ id path, s.getPathForId id = .ok path →
      ∃ i ∈ log, i.id = id ∧ i.path = path ∧ (names s i.kind).lookup id = some path := by
  have h : Agrees s log := run_agrees hrun (fun _ => agrees_new) hlt
  refine ⟨h.nodup, fun w op i hi => ?_, fun id ⟨hf, hd⟩ => ?_, fun id path hp => ?_⟩
  · obtain ⟨hid, hres⟩ := issued_result hi
    refine ⟨hres, ?_, ?_⟩ <;> rw [hid]
    · exact h.fresh
    · exact h.fresh_inUse
  · obtain ⟨p, hp⟩ := h.inUse .file id hf
    obtain ⟨q, hq⟩ := h.inUse .dir id hd
    cases h.eq_of_id hp hq rfl
  · unfold getPathForId at hp
    split at hp
    · next p hl =>
      cases hp
      exact ⟨_, h.named .file id path hl, rfl, rfl, hl⟩
    · split at hp
      · next p hl =>
        cases hp
        exact ⟨_, h.named .dir id path hl, rfl, rfl, hl⟩
      · cases hp

/-- A call on the sample volume. -/
def sampleNext (x : IdStore ℕ ℕ × List Issue) (c : Call Volume ℕ ℕ) : IdStore ℕ ℕ × List Issue :=
  ((exec volumeCrate x.1 c.1 c.2).state, x.2 ++ (issued volumeCrate x.1 c.1 c.2).toList)

/-- The store and its insertions after a list of calls. -/
def sampleIssues (cs : List (Call Volume ℕ ℕ)) : IdStore ℕ ℕ × List Issue :=
  after sampleNext (new, []) cs

theorem run_sampleIssues (cs : List (Call Volume ℕ ℕ)) :
    ∃ ls, Run (IssueStep volumeCrate) (new, []) ls (sampleIssues cs) := by
  have hall : Along sampleNext (fun _ _ => True) (new, []) cs := along_true sampleNext cs
  have hrun := run_answers _ (fun x c => (exec volumeCrate x.1 c.1 c.2).result) hall
  refine ⟨_, hrun.mono ?_⟩
  rintro x l y ⟨-, hres, rfl⟩
  exact ⟨⟨hres, rfl⟩, rfl⟩

theorem run_issues_reopening :
    ((sampleIssues reopening).2.map Issue.id).Nodup ∧
    ∃ i ∈ (sampleIssues reopening).2, i.id = 2 ∧ i.path = "a" ∧
      (names (sampleIssues reopening).1 i.kind).lookup 2 = some "a" := by
  obtain ⟨ls, hrun⟩ := run_sampleIssues reopening
  have h := run_issues hrun (by decide)
  exact ⟨h.1, h.2.2.2 2 "a" (by decide)⟩

end FatDrive.IdStore
