import FatDrive.IdStore

/-!
# FatDrive.Volume — how the `fatfs` crate resolves paths, and a volume that does

`components` is what the crate makes of a path: its parts between slashes, empty ones dropped,
letter case folded.  `ResolvesPaths` are the laws of opening, creating and removing by path: which
entry a handle denotes, and that nothing but a removal takes an entry off the volume.  `OnePlace` says
that an entry is found by one sequence of components.

`Volume` is a model of the laws: a tree of entries that keeps its own well-formedness, with a script
that lets operations fail or panic.
-/

namespace FatDrive

open Lib

/-- The components of a path. -/
abbrev Path := List (List Char)

/-- Cut at the slashes; `part` is the component being read, backwards. -/
def splitSlashes : List Char → List Char → Path
  | part, [] => [part.reverse]
  | part, c :: cs => if c = '/' then part.reverse :: splitSlashes [] cs else splitSlashes (c :: part) cs

/-- The components by which the crate finds an entry.  Of letters, those of ASCII are folded; the crate
folds others too, so the laws below are about names in which only those differ in case. -/
def components (path : String) : Path :=
  (splitSlashes [] path.toList).filterMap fun part =>
    if part = [] then none else some (part.map Char.toLower)

example : components "/Dir//File.TXT/" = components "dir/file.txt" := by decide

variable {φ F D E : Type}

/-- A removal that does not succeed removes nothing.  `entry v k` is the entry of volume `v` at the
components `k`. -/
structure RefusedRemovesKeep (crate : FatfsCrate φ F D) (entry : φ → Path → Option E) : Prop where
  remove_entry : ∀ {v p}, (∀ v', crate.remove v p ≠ .ok () v') →
    entry (crate.remove v p).state = entry v

/-- The crate resolves paths by their components, among which are no links (`.` and `..`) and no short
names of long ones.  `fileEntry` and `dirEntry` say which entry a handle was opened for. -/
structure ResolvesPaths (crate : FatfsCrate φ F D) (entry : φ → Path → Option E)
    (fileEntry : F → E) (dirEntry : D → E) : Prop extends RefusedRemovesKeep crate entry where
  root : ∀ v, entry v [] = some (dirEntry (crate.rootDir v))
  openFile_ok : ∀ {v p f v'}, crate.openFile v p = .ok f v' →
    entry v (components p) = some (fileEntry f)
  openFile_entry : ∀ v p, entry (crate.openFile v p).state = entry v
  openDir_ok : ∀ {v p d v'}, crate.openDir v p = .ok d v' →
    entry v (components p) = some (dirEntry d)
  openDir_entry : ∀ v p, entry (crate.openDir v p).state = entry v
  createFile_entry : ∀ {v p k e}, entry v k = some e → entry (crate.createFile v p).state k = some e
  createDir_entry : ∀ {v p k e}, entry v k = some e → entry (crate.createDir v p).state k = some e
  remove_ok : ∀ {v p v'}, crate.remove v p = .ok () v' →
    entry v' (components p) = none ∧ ∀ k, k ≠ components p → entry v' k = entry v k
  flush_entry : ∀ v f, entry (crate.flush v f).state = entry v
  dropFile_entry : ∀ v f, entry (crate.dropFile v f) = entry v
  dropDir_entry : ∀ v d, entry (crate.dropDir v d) = entry v

/-- No entry is found by two sequences of components: the links `.` and `..` and the short names of
long ones are left out. -/
def OnePlace (entry : φ → Path → Option E) : Prop :=
  ∀ v k k' e, entry v k = some e → entry v k' = some e → k = k'

/-! ### A volume -/

/-- How an operation goes. -/
inductive Mishap where
  | fine | fails | panics
  deriving DecidableEq, Repr

structure VolEntry where
  ident : ℕ
  isDir : Bool
  deriving DecidableEq, Repr

/-- A tree of entries.  The root is entry 0, and no two places have the same entry. -/
structure Volume where
  entries : AList fun _ : Path => VolEntry
  next : ℕ
  script : List Mishap
  root : entries.lookup [] = some ⟨0, true⟩
  ident_lt : ∀ k e, entries.lookup k = some e → e.ident < next
  ident_inj : ∀ k k' e e', entries.lookup k = some e → entries.lookup k' = some e' →
    e.ident = e'.ident → k = k'

namespace Volume

theorem lookup_only {k k' : Path} {e e' : VolEntry}
    (h : ((∅ : AList fun _ : Path => VolEntry).insert k e).lookup k' = some e') :
    k' = k ∧ e' = e := by
  by_cases hk : k' = k
  · subst hk
    rw [AList.lookup_insert] at h
    cases h
    exact ⟨rfl, rfl⟩
  · rw [AList.lookup_insert_ne hk, AList.lookup_empty] at h
    cases h

/-- A volume with nothing but its root. -/
def blank (script : List Mishap) : Volume where
  entries := (∅ : AList fun _ : Path => VolEntry).insert [] ⟨0, true⟩
  next := 1
  script := script
  root := AList.lookup_insert _
  ident_lt := by
    intro k e h
    rw [(lookup_only h).2]
    exact Nat.one_pos
  ident_inj := by
    intro k k' e e' h h' _
    rw [(lookup_only h).1, (lookup_only h').1]

/-- The volume once an operation has used up an entry of the script. -/
def next' (v : Volume) : Volume := { v with script := v.script.tail }

/-- An operation that may fail or panic before it does anything. -/
def attempt {α : Type} (v : Volume) (f : Volume → Outcome IoError Volume α) :
    Outcome IoError Volume α :=
  match v.script.headD .fine with
  | .fine => f v.next'
  | .fails => .err ⟨.other, none⟩ v.next'
  | .panics => .panicked v.next'

/-- Open the entry of a path, of the wanted kind. -/
def openEntry (v : Volume) (path : String) (isDir : Bool) : Outcome IoError Volume ℕ :=
  v.attempt fun v =>
    match v.entries.lookup (components path) with
    | none => .err ⟨.notFound, none⟩ v
    | some e => if e.isDir = isDir then .ok e.ident v else .err ⟨.other, none⟩ v

/-- The volume with a new entry at a place that had none. -/
def add (v : Volume) (k : Path) (isDir : Bool) (hk : v.entries.lookup k = none) : Volume where
  entries := v.entries.insert k ⟨v.next, isDir⟩
  next := v.next + 1
  script := v.script
  root := by
    have hne : ([] : Path) ≠ k := by
      rintro rfl
      rw [v.root] at hk
      cases hk
    rw [AList.lookup_insert_ne hne]
    exact v.root
  ident_lt := by
    intro k' e h
    by_cases hkk : k' = k
    · subst hkk
      rw [AList.lookup_insert] at h
      cases h
      exact Nat.lt_succ_self _
    · rw [AList.lookup_insert_ne hkk] at h
      exact Nat.lt_succ_of_lt (v.ident_lt k' e h)
  ident_inj := by
    intro k₁ k₂ e₁ e₂ h₁ h₂ he
    by_cases hk₁ : k₁ = k <;> by_cases hk₂ : k₂ = k
    · rw [hk₁, hk₂]
    · subst hk₁
      rw [AList.lookup_insert] at h₁
      rw [AList.lookup_insert_ne hk₂] at h₂
      cases h₁
      have := v.ident_lt k₂ e₂ h₂
      dsimp only at he
      omega
    · subst hk₂
      rw [AList.lookup_insert] at h₂
      rw [AList.lookup_insert_ne hk₁] at h₁
      cases h₂
      have := v.ident_lt k₁ e₁ h₁
      dsimp only at he
      omega
    · rw [AList.lookup_insert_ne hk₁] at h₁
      rw [AList.lookup_insert_ne hk₂] at h₂
      exact v.ident_inj k₁ k₂ e₁ e₂ h₁ h₂ he

/-- Create an entry of a kind, or find it there. -/
def createEntry (v : Volume) (path : String) (isDir : Bool) : Outcome IoError Volume ℕ :=
  v.attempt fun v =>
    match hk : v.entries.lookup (components path) with
    | some e => if e.isDir = isDir then .ok e.ident v else .err ⟨.alreadyExists, none⟩ v
    | none =>
      match v.entries.lookup (components path).dropLast with
      | some ⟨_, true⟩ => .ok v.next (v.add (components path) isDir hk)
      | _ => .err ⟨.notFound, none⟩ v

/-- The places right below one. -/
def childrenOf (v : Volume) (k : Path) : List Path :=
  v.entries.keys.filter fun k' => k' ≠ [] ∧ k'.dropLast = k

def without (v : Volume) (k : Path) (hk : k ≠ []) : Volume where
  entries := v.entries.erase k
  next := v.next
  script := v.script
  root := by
    rw [AList.lookup_erase_ne (Ne.symm hk)]
    exact v.root
  ident_lt := by
    intro k' e h
    by_cases hkk : k' = k
    · rw [hkk, AList.lookup_erase] at h
      cases h
    · rw [AList.lookup_erase_ne hkk] at h
      exact v.ident_lt k' e h
  ident_inj := by
    intro k₁ k₂ e₁ e₂ h₁ h₂ he
    by_cases hk₁ : k₁ = k
    · rw [hk₁, AList.lookup_erase] at h₁
      cases h₁
    · by_cases hk₂ : k₂ = k
      · rw [hk₂, AList.lookup_erase] at h₂
        cases h₂
      · rw [AList.lookup_erase_ne hk₁] at h₁
        rw [AList.lookup_erase_ne hk₂] at h₂
        exact v.ident_inj k₁ k₂ e₁ e₂ h₁ h₂ he

/-- Remove an entry with nothing below it. -/
def remove (v : Volume) (path : String) : Outcome IoError Volume Unit :=
  v.attempt fun v =>
    if hk : components path = [] then .err ⟨.notFound, none⟩ v
    else
      match v.entries.lookup (components path) with
      | none => .err ⟨.notFound, none⟩ v
      | some _ =>
        if v.childrenOf (components path) = [] then .ok () (v.without (components path) hk)
        else .err ⟨.other, none⟩ v

/-- What a directory lists. -/
def list (v : Volume) (ident : ℕ) : List (Except IoError DirEntry) :=
  v.entries.entries.filterMap fun kv =>
    match v.entries.lookup kv.1.dropLast with
    | some dir =>
      if kv.1 ≠ [] ∧ dir.ident = ident then
        some (.ok ⟨String.ofList (kv.1.getLastD []), !kv.2.isDir, 0, if kv.2.isDir then 0x10 else 0x20⟩)
      else none
    | none => none

end Volume

/-- The volume as a crate.  A handle is the number of the entry it was opened for. -/
def volumeCrate : FatfsCrate Volume ℕ ℕ where
  rootDir := fun _ => 0
  openFile := fun v path => v.openEntry path false
  openDir := fun v path => v.openEntry path true
  createFile := fun v path => v.createEntry path false
  createDir := fun v path => v.createEntry path true
  remove := Volume.remove
  flush := fun v _ => v.attempt fun v => .ok () v
  dropFile := fun v _ => v
  dropDir := fun v _ => v
  iter := Volume.list

namespace Volume

/-- The entry at a place, by its number. -/
def entryAt (v : Volume) (k : Path) : Option ℕ := (v.entries.lookup k).map VolEntry.ident

theorem attempt_state {α : Type} {v : Volume} {f : Volume → Outcome IoError Volume α}
    {P : Volume → Prop} (h : P v.next') (hf : P (f v.next').state) : P (v.attempt f).state := by
  unfold attempt
  cases v.script.headD .fine with
  | fine => exact hf
  | fails => exact h
  | panics => exact h

theorem attempt_eq_ok {α : Type} {v v' : Volume} {f : Volume → Outcome IoError Volume α} {a : α}
    (h : v.attempt f = .ok a v') : f v.next' = .ok a v' := by
  unfold attempt at h
  split at h
  · exact h
  · cases h
  · cases h

theorem openEntry_eq_ok {v v' : Volume} {path : String} {isDir : Bool} {n : ℕ}
    (h : v.openEntry path isDir = .ok n v') :
    v.entries.lookup (components path) = some ⟨n, isDir⟩ := by
  have hf := attempt_eq_ok h
  split at hf
  · cases hf
  · next e he =>
    split at hf
    · next hk =>
      cases hf
      rw [← hk]
      exact he
    · cases hf

theorem openEntry_entries (v : Volume) (path : String) (isDir : Bool) :
    (v.openEntry path isDir).state.entries = v.entries := by
  refine attempt_state (P := fun v' => v'.entries = v.entries) rfl ?_
  split
  · rfl
  · split <;> rfl

theorem createEntry_lookup {v : Volume} {path : String} {isDir : Bool} {k : Path} {e : VolEntry}
    (h : v.entries.lookup k = some e) :
    (v.createEntry path isDir).state.entries.lookup k = some e := by
  refine attempt_state (P := fun v' => v'.entries.lookup k = some e) h ?_
  split
  · split <;> exact h
  · next hk =>
    split
    · have hne : k ≠ components path := by
        rintro rfl
        cases hk.symm.trans h
      show (v.next'.entries.insert _ _).lookup k = _
      rw [AList.lookup_insert_ne hne]
      exact h
    · exact h

theorem createEntry_eq_ok {v v' : Volume} {path : String} {isDir : Bool} {n : ℕ}
    (h : v.createEntry path isDir = .ok n v') :
    v'.entries.lookup (components path) = some ⟨n, isDir⟩ := by
  have hf := attempt_eq_ok h
  split at hf
  · next e he =>
    split at hf
    · next hk =>
      cases hf
      rw [← hk]
      exact he
    · cases hf
  · split at hf
    · cases hf
      exact AList.lookup_insert _
    · cases hf

theorem remove_eq_ok {v v' : Volume} {path : String} (h : v.remove path = .ok () v') :
    v'.entries.lookup (components path) = none ∧
      ∀ k, k ≠ components path → v'.entries.lookup k = v.entries.lookup k := by
  have hf := attempt_eq_ok h
  split at hf
  · cases hf
  · split at hf
    · cases hf
    · split at hf
      · cases hf
        exact ⟨AList.lookup_erase _ _, fun k hk => AList.lookup_erase_ne hk⟩
      · cases hf

theorem remove_entries {v : Volume} {path : String} (h : ∀ v', v.remove path ≠ .ok () v') :
    (v.remove path).state.entries = v.entries := by
  unfold remove attempt at h ⊢
  split
  · next hs =>
    rw [hs] at h
    dsimp only at h ⊢
    split
    · rfl
    · next hk =>
      rw [dif_neg hk] at h
      split
      · rfl
      · next e he =>
        rw [he] at h
        dsimp only at h
        split
        · next hc =>
          rw [if_pos hc] at h
          exact absurd rfl (h _)
        · rfl
  · rfl
  · rfl

/-- The same entries are the same numbers. -/
theorem entryAt_congr {v v' : Volume} (h : v'.entries = v.entries) : v'.entryAt = v.entryAt := by
  funext k
  unfold entryAt
  rw [h]

/-- The volume keeps to the laws. -/
theorem resolvesPaths : ResolvesPaths volumeCrate entryAt (fun n => n) fun n => n where
  root := by
    intro v
    rw [entryAt, v.root]
    rfl
  openFile_ok := fun h => congrArg (Option.map VolEntry.ident) (openEntry_eq_ok h)
  openFile_entry := fun v path => entryAt_congr (openEntry_entries v path false)
  openDir_ok := fun h => congrArg (Option.map VolEntry.ident) (openEntry_eq_ok h)
  openDir_entry := fun v path => entryAt_congr (openEntry_entries v path true)
  createFile_entry := fun h => by
    obtain ⟨e, he, hn⟩ := Option.map_eq_some_iff.mp h
    exact Option.map_eq_some_iff.mpr ⟨e, createEntry_lookup he, hn⟩
  createDir_entry := fun h => by
    obtain ⟨e, he, hn⟩ := Option.map_eq_some_iff.mp h
    exact Option.map_eq_some_iff.mpr ⟨e, createEntry_lookup he, hn⟩
  remove_ok := fun h => by
    obtain ⟨hgone, hrest⟩ := remove_eq_ok h
    exact ⟨congrArg (Option.map VolEntry.ident) hgone,
      fun k hk => congrArg (Option.map VolEntry.ident) (hrest k hk)⟩
  remove_entry := fun h => entryAt_congr (remove_entries h)
  flush_entry := fun v _ => attempt_state (P := fun v' => v'.entryAt = v.entryAt) rfl rfl
  dropFile_entry := fun _ _ => rfl
  dropDir_entry := fun _ _ => rfl

theorem onePlace : OnePlace entryAt := by
  intro v k k' n h h'
  obtain ⟨e, he, hn⟩ := Option.map_eq_some_iff.mp h
  obtain ⟨e', he', hn'⟩ := Option.map_eq_some_iff.mp h'
  exact v.ident_inj k k' e e' he he' (hn.trans hn'.symm)

end Volume

/-- A volume with a file `a` and a directory `d`. -/
def sampleVolume (script : List Mishap) : Volume :=
  ((Volume.blank script).add [['a']] false rfl).add [['d']] true rfl

/-- That volume, boxed and current. -/
def sampleMounted (script : List Mishap) : Mounted Volume where
  fsPtr := { value := 1 }
  fileSystems := (Heap.empty.alloc (sampleVolume script)).2

end FatDrive
