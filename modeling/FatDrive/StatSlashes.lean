import FatDrive.StatPath

/-!
# FatDrive.StatSlashes — how `stat_path` depends on the number of slashes

One pass makes one slash of two, so three or more in a row stay at least two, and the parent's name
may end in slashes, or be made of nothing else.

* `openParent_congr`: to open the parent, only the parts of its name matter, if it has any;
* `statPath_congr`: two spellings under whose parents the same directory is open, or none, agree;
* `spellings_agree_iff`: and in some volume no others do;
* `sameParent_iff`: which spellings agree whatever directories are open.
-/

namespace FatDrive.IdStore

open Lib

/-- The crate takes the slashes off around each component, and opens no directory for a path that
has none. -/
structure StripsSlashes {φ F D : Type} (crate : FatfsCrate φ F D) : Prop where
  openDir_congr : ∀ v {path path'}, parts path = parts path' →
    crate.openDir v path = crate.openDir v path'
  openDir_none : ∀ v {path}, parts path = [] → ∃ e v', crate.openDir v path = .err e v'

/-- The parent's name is made of slashes. -/
def slashesOnly : Option String → Bool
  | some name => name ≠ "" && parts name = []
  | none => false

/-- The open directory of that name. -/
def foundDir (names : AList fun _ : ℕ => String) (parentName : Option String) : Option ℕ :=
  parentName.bind (findKey? names)

/-- The parents' names find the same open directory; or none, and both or neither have no part. -/
def SameParent (names : AList fun _ : ℕ => String) (parent parent' : Option String) : Prop :=
  foundDir names parent = foundDir names parent' ∧
    (foundDir names parent = none → slashesOnly parent = slashesOnly parent')

section Congruence

variable {φ F D : Type} {crate : FatfsCrate φ F D} {s : IdStore F D} {w : Mounted φ}

/-- The parts of a parent's name, if there is one. -/
theorem openParent_congr (hc : StripsSlashes crate) {parent parent' : Option String}
    (hparts : parent.elim [] parts = parent'.elim [] parts)
    (hslash : slashesOnly parent = slashesOnly parent') :
    openParent crate w parent = openParent crate w parent' := by
  have hroot : ∀ q : Option String, q.elim [] parts = [] → slashesOnly q = false →
      openParent crate w q = openParent crate w none := by
    intro q hq hs
    cases q with
    | none => rfl
    | some name =>
      have hname : name = "" := by
        by_contra hne
        have hp : parts name = [] := hq
        simp [slashesOnly, hne, hp] at hs
      subst hname
      rfl
  by_cases hnil : parent.elim [] parts = [] ∧ slashesOnly parent = false
  · rw [hroot parent hnil.1 hnil.2, hroot parent' (hparts ▸ hnil.1) (hslash ▸ hnil.2)]
  · -- both have a name that is not empty, and the crate reads the same parts in them
    have hsome : ∀ q : Option String, ¬ (q.elim [] parts = [] ∧ slashesOnly q = false) →
        ∃ name, q = some name ∧ name ≠ "" := by
      intro q hq
      cases q with
      | none => exact absurd ⟨rfl, rfl⟩ hq
      | some name =>
        refine ⟨name, rfl, ?_⟩
        rintro rfl
        exact hq ⟨by decide, by decide⟩
    obtain ⟨name, rfl, hne⟩ := hsome parent hnil
    obtain ⟨name', rfl, hne'⟩ := hsome parent' (by rwa [hparts, hslash] at hnil)
    have hopen : (fun st => if name = "" then Outcome.ok (crate.rootDir st) st else crate.openDir st name) =
        fun st => if name' = "" then Outcome.ok (crate.rootDir st) st else crate.openDir st name' := by
      funext st
      rw [if_neg hne, if_neg hne']
      exact hc.openDir_congr st hparts
    unfold openParent
    dsimp only
    rw [hopen]

theorem findParent_congr (hc : StripsSlashes crate) {parent parent' : Option String}
    (hparts : parent.elim [] parts = parent'.elim [] parts)
    (hsame : SameParent s.dirNameMap parent parent') :
    findParent crate s w parent = findParent crate s w parent' := by
  obtain ⟨hfound, hslash⟩ := hsame
  have hbind : ∀ q : Option String, q.bind s.hasDir = foundDir s.dirNameMap q := fun _ => rfl
  unfold findParent
  rw [hbind, hbind, ← hfound]
  cases h : foundDir s.dirNameMap parent with
  | some id => rfl
  | none => exact openParent_congr hc hparts (hslash h)

/-- **Spellings agree** if the same directory is open under their parents' names, or none and both
or neither of the names are made of slashes. -/
theorem statPath_congr (hc : StripsSlashes crate) {path path' : String}
    (hparts : parts path = parts path') (hne : parts path ≠ [])
    (hsame : SameParent s.dirNameMap (parentName path) (parentName path')) :
    statPath crate s w path = statPath crate s w path' := by
  obtain ⟨hparent, hent⟩ := parts_congr hparts hne
  unfold statPath
  rw [findParent_congr hc hparent hsame, hent]

end Congruence

/-! ### A crate that tells two parents apart -/

/-- Two directories, of which `true` has one entry.  Every path with a part leads to `deep`, and the
root directory is `root`. -/
def probeCrate (root deep : Bool) (entName : List Char) : FatfsCrate Unit Unit Bool where
  rootDir := fun _ => root
  openFile := fun st _ => .err ⟨.notFound, none⟩ st
  openDir := fun st path => if parts path = [] then .err ⟨.notFound, none⟩ st else .ok deep st
  createFile := fun st _ => .err ⟨.other, none⟩ st
  createDir := fun st _ => .err ⟨.other, none⟩ st
  remove := fun st _ => .err ⟨.other, none⟩ st
  flush := fun st _ => .ok () st
  dropFile := fun st _ => st
  dropDir := fun st _ => st
  iter := fun _ dir => if dir then [.ok ⟨String.ofList entName, true, 0, 0x20⟩] else []

/-- The volume of that crate, mounted. -/
def probeMounted : Mounted Unit where
  fsPtr := { value := 1 }
  fileSystems := (Heap.empty.alloc ()).2

/-- A store with these names, of which `id` is the directory that has the entry. -/
def probeStore (names : AList fun _ : ℕ => String) (id : Option ℕ) : IdStore Unit Bool :=
  { (new : IdStore Unit Bool) with
    dirNameMap := names
    dirHandleMap := id.elim ∅ fun id => (∅ : AList fun _ : ℕ => Handle Bool).insert id ⟨1, true⟩ }

section Probe

variable {root deep : Bool} {ent : List Char} {names : AList fun _ : ℕ => String} {id : Option ℕ}

theorem probe_stripsSlashes : StripsSlashes (probeCrate root deep ent) where
  openDir_congr := fun v path path' h => by simp only [probeCrate, h]
  openDir_none := fun v path h => ⟨_, _, if_pos h⟩

/-- The entry is found in directory `true` and in no other. -/
theorem probe_searchDir {w : Mounted Unit} (hw : w.fileSystems.get? 1 = some ()) (hent : '/' ∉ ent)
    (dir : Bool) : (searchDir (probeCrate root deep ent) w ⟨1, dir⟩ ent).isOk = dir := by
  have hlist : listing (probeCrate root deep ent) w ⟨1, dir⟩ =
      some (if dir then [.ok ⟨String.ofList ent, true, 0, 0x20⟩] else []) := by
    unfold listing
    rw [hw]
    rfl
  unfold searchDir
  rw [hlist]
  cases dir with
  | false => rfl
  | true =>
    have htrim : trimEnd '/' ent = ent := trimEnd_of_notMem hent
    simp [findEntry, htrim, Outcome.isOk]

/-- The parent, where it is not open. -/
theorem probe_openParent (parent : Option String) :
    ∃ w', w'.fileSystems.get? 1 = some () ∧
      openParent (probeCrate root deep ent) probeMounted parent =
        if slashesOnly parent then .err (LibnxErrMapper.map (⟨.notFound, none⟩ : IoError)) w'
        else .ok ⟨1, if parent.elim [] parts = [] then root else deep⟩ w' := by
  cases parent with
  | none => exact ⟨_, rfl, rfl⟩
  | some name =>
    by_cases hname : name = ""
    · subst hname
      exact ⟨_, rfl, rfl⟩
    · by_cases hparts : parts name = []
      · have hs : slashesOnly (some name) = true := by simp [slashesOnly, hname, hparts]
        simp only [hs, if_true, openParent, probeCrate, hname, hparts, if_false]
        exact ⟨_, rfl, rfl⟩
      · have hs : slashesOnly (some name) = false := by simp [slashesOnly, hparts]
        simp only [hs, Bool.false_eq_true, if_false, Option.elim_some, hparts, openParent,
          probeCrate, hname]
        exact ⟨_, rfl, rfl⟩

theorem probe_stat_closed {path : String} (hfound : foundDir names (parentName path) = none)
    (deep : Bool) :
    (statPath (probeCrate deep deep (entName path)) (probeStore names id) probeMounted path).isOk =
      (!slashesOnly (parentName path) && deep) := by
  obtain ⟨w', hw', hopen⟩ : ∃ w' : Mounted Unit, w'.fileSystems.get? 1 = some () ∧
      openParent (probeCrate deep deep (entName path)) probeMounted (parentName path) = _ :=
    probe_openParent (parentName path)
  have hbind : (parentName path).bind (probeStore names id).hasDir = none := hfound
  unfold statPath findParent
  rw [hbind]
  dsimp only
  rw [hopen]
  cases slashesOnly (parentName path) with
  | true => rfl
  | false =>
    rw [if_neg Bool.false_ne_true, ite_self]
    exact probe_searchDir hw' (slash_notMem_entName path) deep

theorem probe_stat_open {path : String} {n : ℕ} (hfound : foundDir names (parentName path) = some n)
    (id : ℕ) :
    (statPath (probeCrate root deep (entName path)) (probeStore names (some id)) probeMounted
      path).isOk = decide (n = id) := by
  have hbind : (parentName path).bind (probeStore names (some id)).hasDir = some n := hfound
  by_cases hn : n = id
  · subst hn
    have hlookup : (probeStore names (some n)).dirHandleMap.lookup n = some ⟨1, true⟩ :=
      AList.lookup_insert _
    have hget : probeMounted.fileSystems.get? 1 = some () := rfl
    have hparent : findParent (probeCrate root deep (entName path)) (probeStore names (some n))
        probeMounted (parentName path) = .ok ⟨1, true⟩ probeMounted := by
      simp only [findParent, hbind, hlookup]
    rw [statPath, hparent, Outcome.andThen_ok, probe_searchDir hget (slash_notMem_entName path),
      decide_eq_true (Eq.refl n)]
  · have hlookup : (probeStore names (some id)).dirHandleMap.lookup n = none :=
      (AList.lookup_insert_ne hn).trans (AList.lookup_empty n)
    have hparent : findParent (probeCrate root deep (entName path)) (probeStore names (some id))
        probeMounted (parentName path) = .err nxFatdriveErrUnknown probeMounted := by
      simp only [findParent, hbind, hlookup]
    rw [statPath, hparent, decide_eq_false hn]
    rfl

/-- A store in which the parent of one spelling is open, and that of the other is not the same. -/
theorem probe_apart {path path' : String} (hent : entName path = entName path') {n : ℕ}
    (hfound : foundDir names (parentName path) = some n)
    (hother : foundDir names (parentName path') ≠ some n) :
    (statPath (probeCrate false false (entName path)) (probeStore names (some n)) probeMounted
      path).result ≠
    (statPath (probeCrate false false (entName path)) (probeStore names (some n)) probeMounted
      path').result := by
  intro h
  have hok := Outcome.isOk_of_result h
  rw [probe_stat_open hfound, decide_eq_true rfl, hent] at hok
  cases hf : foundDir names (parentName path') with
  | none =>
    rw [probe_stat_closed hf, Bool.and_false] at hok
    cases hok
  | some n' =>
    have hne : n' ≠ n := fun he => hother (by rw [hf, he])
    rw [probe_stat_open hf, decide_eq_false hne] at hok
    cases hok

end Probe

/-! ### Two spellings of a path -/

/-- **`stat_path` and slashes.**  Two paths with the same parts, at least one, are answered alike by
every crate that strips slashes, every volume and every store with these names for its directories,
exactly if the same directory is open under their parents' names, or none is and both or neither of
the names are made of slashes. -/
theorem spellings_agree_iff {path path' : String} (hparts : parts path = parts path')
    (hne : parts path ≠ []) (names : AList fun _ : ℕ => String) :
    (∀ (φ F D : Type) (crate : FatfsCrate φ F D), StripsSlashes crate →
      ∀ (s : IdStore F D) (w : Mounted φ), s.dirNameMap = names →
        (statPath crate s w path).result = (statPath crate s w path').result) ↔
    SameParent names (parentName path) (parentName path') := by
  have hent : entName path = entName path' := (parts_congr hparts hne).2
  constructor
  · intro h
    have hprobe : ∀ (b : Bool) (id : Option ℕ),
        (statPath (probeCrate b b (entName path)) (probeStore names id) probeMounted path).result =
        (statPath (probeCrate b b (entName path)) (probeStore names id) probeMounted path').result :=
      fun b id => h Unit Unit Bool _ probe_stripsSlashes _ _ rfl
    have hfound : foundDir names (parentName path) = foundDir names (parentName path') := by
      refine Option.ext fun n => ⟨fun hn => ?_, fun hn => ?_⟩
      · by_contra hother
        exact probe_apart hent hn hother (hprobe false (some n))
      · by_contra hother
        refine probe_apart hent.symm hn hother ?_
        rw [← hent]
        exact (hprobe false (some n)).symm
    refine ⟨hfound, fun hnone => ?_⟩
    have hok := Outcome.isOk_of_result (hprobe true none)
    rw [probe_stat_closed hnone, hent, probe_stat_closed (hfound ▸ hnone), Bool.and_true,
      Bool.and_true] at hok
    exact Bool.not_inj hok
  · rintro hsame φ F D crate hc s w rfl
    rw [statPath_congr hc hparts hne hsame]

theorem spellings_agree_iff_leading :
    (statPath (probeCrate true false ['b']) new probeMounted "/a//b").result =
      (statPath (probeCrate true false ['b']) new probeMounted "a/b//").result :=
  (spellings_agree_iff (by decide) (by decide) ∅).mpr
    ⟨by decide +kernel, fun _ => by decide +kernel⟩ _ _ _ _ probe_stripsSlashes new probeMounted rfl

/-- **Slashes that matter.**  `a` is in the root directory and is found there, but not behind three
slashes: their rest is the parent's name, which cannot be opened.  And where `d` is open, `d///a` is
not looked up in what is open. -/
theorem slashes_matter :
    parts "a" = parts "///a" ∧ parts "a" ≠ [] ∧ StripsSlashes (probeCrate true true ['a']) ∧
    (statPath (probeCrate true true ['a']) new probeMounted "a").result = some (.ok (0, 0x20)) ∧
    (statPath (probeCrate true true ['a']) new probeMounted "///a").result =
      some (.error (LibnxErrMapper.map (⟨.notFound, none⟩ : IoError))) ∧
    parts "d/a" = parts "d///a" ∧
    (statPath (probeCrate false false ['a'])
      (probeStore ((∅ : AList fun _ : ℕ => String).insert 0 "d") (some 0)) probeMounted "d/a").result =
      some (.ok (0, 0x20)) ∧
    (statPath (probeCrate false false ['a'])
      (probeStore ((∅ : AList fun _ : ℕ => String).insert 0 "d") (some 0)) probeMounted "d///a").result =
      some (.error nxFatdriveErrFileNotFound) :=
  ⟨by decide, by decide, probe_stripsSlashes, by decide +kernel, by decide +kernel, by decide,
    by decide +kernel, by decide +kernel⟩

/-- A store with one open directory. -/
theorem foundDir_single {name : String} {parent : Option String} {n : ℕ} :
    foundDir ((∅ : AList fun _ : ℕ => String).insert 0 name) parent = some n ↔
      parent = some name ∧ n = 0 := by
  have hlookup : ∀ k u, ((∅ : AList fun _ : ℕ => String).insert 0 name).lookup k = some u →
      k = 0 ∧ u = name := by
    intro k u h
    rcases lookup_insert_or h with h | h
    · rw [AList.lookup_empty] at h
      cases h
    · exact h
  constructor
  · intro h
    obtain ⟨u, rfl, hu⟩ := Option.bind_eq_some_iff.mp h
    obtain ⟨hn, rfl⟩ := hlookup n u (lookup_of_findKey? hu)
    exact ⟨rfl, hn⟩
  · rintro ⟨rfl, rfl⟩
    show findKey? _ name = some 0
    cases h : findKey? ((∅ : AList fun _ : ℕ => String).insert 0 name) name with
    | none => exact absurd (AList.lookup_insert _) (findKey?_eq_none.mp h 0)
    | some k => rw [(hlookup k name (lookup_of_findKey? h)).1]

/-- Two spellings agree whatever directories are open exactly if one pass over the slashes makes
them the same. -/
theorem sameParent_iff {path path' : String} (hparts : parts path = parts path')
    (hne : parts path ≠ []) :
    (∀ names, SameParent names (parentName path) (parentName path')) ↔
      strippedPath path = strippedPath path' := by
  constructor
  · intro h
    refine strippedPath_congr (parts_congr hparts hne).2 ?_
    cases hq : parentName path with
    | some name =>
      have hfound := (h ((∅ : AList fun _ : ℕ => String).insert 0 name)).1
      rw [foundDir_single.mpr ⟨hq, rfl⟩] at hfound
      exact (foundDir_single.mp hfound.symm).1.symm
    | none =>
      cases hq' : parentName path' with
      | none => rfl
      | some name =>
        have hfound := (h ((∅ : AList fun _ : ℕ => String).insert 0 name)).1
        rw [foundDir_single.mpr ⟨hq', rfl⟩, hq] at hfound
        cases hfound
  · intro h names
    have hq : parentName path = parentName path' := by rw [parentName, h, parentName]
    rw [hq]
    exact ⟨rfl, fun _ => rfl⟩

end FatDrive.IdStore
