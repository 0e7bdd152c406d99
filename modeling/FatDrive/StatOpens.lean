import FatDrive.StatSlashes
import FatDrive.UsbFsShortcuts

/-!
# FatDrive.StatOpens — what can be opened and what `stat_path` finds

The crate walks down a path and takes each component as it is up to letter case.  `FindsByName` are
the laws of that walk: what a directory lists, and that a component leads to the entry of that name.

* `opened_resolves`: a path that is opened leads to an entry;
* `findParent_eq`: the directory in which `stat_path` searches is the parent of that entry;
* `stat_finds_iff`: it reports the entry exactly if the path has a component, the parent's name is
  not made of slashes, and the entry is spelled as in the path;
* `run_parentAsNamed`: over runs, what is open under a parent's name is the parent.
-/

namespace FatDrive

open Lib

variable {φ F D E : Type} {crate : FatfsCrate φ F D} {entry : φ → Path → Option E}
  {fileEntry : F → E} {dirEntry : D → E} {list : φ → E → List (E × DirEntry)}

/-- A name up to the case of ASCII letters; the laws below are about names in which no others differ in
case. -/
def lowerName (name : List Char) : List Char := name.map Char.toLower

/-- A path is resolved from the root directory down: `list v e` are the entries of directory `e` with
what is listed of each, and a component leads to the entry of that name.  The names in a directory
differ in more than letter case, are not empty and have no slash. -/
structure FindsByName (crate : FatfsCrate φ F D) (entry : φ → Path → Option E)
    (fileEntry : F → E) (dirEntry : D → E) (list : φ → E → List (E × DirEntry)) : Prop
    extends ListsByEntry crate entry fileEntry dirEntry where
  openDir_complete : ∀ {v p d}, components p ≠ [] → entry v (components p) = some (dirEntry d) →
    ∃ d' v', crate.openDir v p = .ok d' v'
  openDir_none : ∀ v {p}, components p = [] → ∃ e v', crate.openDir v p = .err e v'
  iter_eq : ∀ {v k d}, entry v k = some (dirEntry d) →
    crate.iter v d = (list v (dirEntry d)).map fun x => .ok x.2
  child : ∀ {v k d c e}, entry v k = some (dirEntry d) →
    (entry v (k ++ [c]) = some e ↔
      ∃ x ∈ list v (dirEntry d), x.1 = e ∧ lowerName x.2.fileName.toList = c)
  parent : ∀ {v k c e}, entry v (k ++ [c]) = some e → ∃ d, entry v k = some (dirEntry d)
  unique_name : ∀ {v e x y}, x ∈ list v e → y ∈ list v e →
    lowerName x.2.fileName.toList = lowerName y.2.fileName.toList → x = y
  name : ∀ {v e x}, x ∈ list v e → x.2.fileName.toList ≠ [] ∧ '/' ∉ x.2.fileName.toList

namespace IdStore

variable {s : IdStore F D} {w w' : Mounted φ} {st : φ} {path : String} {e : E}

/-- The path is opened, as a file or as a directory. -/
def Opens (crate : FatfsCrate φ F D) (s : IdStore F D) (w : Mounted φ) (path : String) : Prop :=
  (openFile crate s w path).isOk = true ∨ (openDir crate s w path).isOk = true

/-- `stat_path` returns what is listed of the entry. -/
def Reports (crate : FatfsCrate φ F D) (list : φ → E → List (E × DirEntry)) (s : IdStore F D)
    (w : Mounted φ) (st : φ) (path : String) (e : E) : Prop :=
  ∃ dir, ∃ x ∈ list st dir, x.1 = e ∧
    (statPath crate s w path).result = some (.ok (x.2.len, x.2.attributes))

/-- What has the name of the entry up to letter case, where the path leads, has that very name. -/
def SpelledAlike (entry : φ → Path → Option E) (dirEntry : D → E)
    (list : φ → E → List (E × DirEntry)) (st : φ) (path : String) : Prop :=
  ∀ d, entry st (components path).dropLast = some (dirEntry d) → ∀ x ∈ list st (dirEntry d),
    lowerName x.2.fileName.toList = lowerName (entName path) →
      x.2.fileName.toList = entName path

/-- The path is the name of what is open. -/
def IsOpen (s : IdStore F D) (path : String) : Prop :=
  (s.hasFile path).isSome = true ∨ (s.hasDir path).isSome = true

/-- A directory that is open under the parent's name is the one which that name leads to. -/
def ParentAsNamed (entry : φ → Path → Option E) (dirEntry : D → E) (s : IdStore F D) (w : Mounted φ)
    (parent : Option String) : Prop :=
  ∀ id, foundDir s.dirNameMap parent = some id →
    ∃ d, s.dirHandleMap.lookup id = some ⟨w.fsPtr.value, d⟩ ∧
      Resolves entry w (parent.getD "") (dirEntry d)

theorem Named.parentAsNamed {fileEntry : F → E} (hn : Named entry fileEntry dirEntry s w)
    (parent : Option String) : ParentAsNamed entry dirEntry s w parent := by
  intro id hid
  obtain ⟨name, rfl, hname⟩ := Option.bind_eq_some_iff.mp hid
  exact hn.dirs id name (lookup_of_findKey? hname)

theorem openFile_resolves (hc : ResolvesPaths crate entry fileEntry dirEntry)
    (hnew : s.hasFile path = none) (ho : (openFile crate s w path).isOk = true) :
    ∃ f, Resolves entry w path (fileEntry f) := by
  obtain ⟨id, x, h⟩ := Outcome.isOk_iff.mp ho
  obtain ⟨st, fl, st', hw, hfile, -, -⟩ := openFile_eq_ok hnew h
  exact ⟨fl, st, hw.cell, hc.openFile_ok hfile⟩

theorem openDir_resolves (hc : ResolvesPaths crate entry fileEntry dirEntry)
    (hnew : s.hasDir path = none) (ho : (openDir crate s w path).isOk = true) :
    ∃ d, Resolves entry w path (dirEntry d) := by
  unfold openDir at ho
  rw [hnew] at ho
  dsimp only at ho
  cases hopen : openNewDir crate w path with
  | ok dir w' =>
    obtain ⟨st, -, hst, hdir⟩ := openNewDir_eq_ok hopen
    exact ⟨dir.obj, hdir.resolves hc hst⟩
  | err code w' => rw [hopen] at ho; cases ho
  | panicked w' => rw [hopen] at ho; cases ho

/-- **A path that is opened** and was not open leads to an entry. -/
theorem opened_resolves (hc : ResolvesPaths crate entry fileEntry dirEntry) (hnew : ¬ IsOpen s path)
    (ho : Opens crate s w path) : ∃ e, Resolves entry w path e := by
  obtain ⟨hfile, hdir⟩ := not_or.mp hnew
  rcases ho with ho | ho
  · obtain ⟨f, hr⟩ := openFile_resolves hc (by simpa using hfile) ho
    exact ⟨_, hr⟩
  · obtain ⟨d, hr⟩ := openDir_resolves hc (by simpa using hdir) ho
    exact ⟨_, hr⟩

/-! ### The parent -/

theorem components_parent (h : parts path ≠ []) :
    components path = (parentParts path).map lowerName ++ [lowerName (entName path)] := by
  rw [components_eq, parts_eq h, List.map_append]
  rfl

/-- The components of the parent's name. -/
theorem components_parentName (parent : Option String) :
    components (parent.getD "") = (parent.elim [] parts).map lowerName := by
  cases parent with
  | none => rfl
  | some name => exact components_eq name

theorem openParent_slashes (hc : FindsByName crate entry fileEntry dirEntry list) (hw : w.Current st)
    {parent : Option String} (hs : slashesOnly parent = true) :
    ∃ code w', openParent crate w parent = .err code w' := by
  cases parent with
  | none => cases hs
  | some name =>
    obtain ⟨hne, hparts⟩ : name ≠ "" ∧ parts name = [] := by simpa [slashesOnly] using hs
    have hnil : components name = [] := by rw [components_eq, hparts, List.map_nil]
    obtain ⟨e, st', herr⟩ := hc.openDir_none st hnil
    unfold openParent
    simp only [hne, if_false]
    rw [hw.withFilesystem_err herr]
    exact ⟨_, _, rfl⟩

theorem openParent_ok (hc : FindsByName crate entry fileEntry dirEntry list) (hw : w.Current st)
    {parent : Option String} (hs : slashesOnly parent = false) {d : D}
    (hd : entry st (components (parent.getD "")) = some (dirEntry d)) :
    ∃ h w', openParent crate w parent = .ok h w' := by
  cases parent with
  | none =>
    unfold openParent
    dsimp only
    rw [hw.withFilesystem_ok (f := fun st => .ok (crate.rootDir st) st) rfl]
    exact ⟨_, _, rfl⟩
  | some name =>
    have hok : ∃ a st', (if name = "" then .ok (crate.rootDir st) st else crate.openDir st name :
        Outcome IoError φ D) = .ok a st' := by
      by_cases hname : name = ""
      · exact ⟨_, _, if_pos hname⟩
      · have hparts : parts name ≠ [] := by
          intro hp
          simp [slashesOnly, hname, hp] at hs
        have hne : components name ≠ [] := by
          rw [components_eq]
          simpa using hparts
        obtain ⟨d', st', hok⟩ := hc.openDir_complete hne hd
        exact ⟨d', st', (if_neg hname).trans hok⟩
    obtain ⟨a, st', hok⟩ := hok
    unfold openParent
    dsimp only
    rw [hw.withFilesystem_ok hok]
    exact ⟨_, _, rfl⟩

/-- **The parent** that is found lists what the parent of the path lists. -/
theorem findParent_eq (hc : FindsByName crate entry fileEntry dirEntry list)
    (hw : w.Current st) {parent : Option String} {d : D}
    (hp : ParentAsNamed entry dirEntry s w parent)
    (hd : entry st (components (parent.getD "")) = some (dirEntry d))
    (hs : slashesOnly parent = true → (foundDir s.dirNameMap parent).isSome) :
    ∃ h w', findParent crate s w parent = .ok h w' ∧
      listing crate w' h = some ((list st (dirEntry d)).map fun x => .ok x.2) := by
  rw [← hc.iter_eq hd]
  have hbind : parent.bind s.hasDir = foundDir s.dirNameMap parent := rfl
  cases hfound : foundDir s.dirNameMap parent with
  | some id =>
    obtain ⟨d', hd', st', hst', hent⟩ := hp id hfound
    cases hw.cell.symm.trans hst'
    have heq : dirEntry d' = dirEntry d := Option.some_inj.mp (hent.symm.trans hd)
    refine ⟨⟨w.fsPtr.value, d'⟩, w, by simp only [findParent, hbind, hfound, hd'], ?_⟩
    unfold listing
    rw [hw.cell, Option.map_some, hc.iter_congr heq]
  | none =>
    have hslash : slashesOnly parent = false := by
      by_contra hne
      have hsome := hs (by simpa using hne)
      rw [hfound] at hsome
      cases hsome
    obtain ⟨h, w', ho⟩ := openParent_ok hc hw hslash hd
    obtain ⟨st', hst', hent, hlist⟩ := openParent_eq_ok hc.toListsByEntry ho
    cases hw.cell.symm.trans hst'
    have heq : dirEntry h.obj = dirEntry d := Option.some_inj.mp (hent.symm.trans hd)
    refine ⟨h, w', by simp only [findParent, hbind, hfound, ho], ?_⟩
    rw [hlist, hc.iter_congr heq]

/-! ### The search -/

/-- The search by exact name, among names without slashes. -/
theorem findEntry_map {ent : List Char} : ∀ {l : List (E × DirEntry)},
    (∀ x ∈ l, '/' ∉ x.2.fileName.toList) →
    findEntry ent (l.map fun x => .ok x.2) =
      match l.find? fun x => x.2.fileName.toList = ent with
      | some x => .ok (x.2.len, x.2.attributes)
      | none => .error nxFatdriveErrFileNotFound
  | [], _ => rfl
  | x :: l, h => by
    have htrim : trimEnd '/' x.2.fileName.toList = x.2.fileName.toList :=
      trimEnd_of_notMem (h x List.mem_cons_self)
    have ih : findEntry ent (l.map fun x => .ok x.2) = _ :=
      findEntry_map fun y hy => h y (List.mem_cons_of_mem x hy)
    rw [List.map_cons, findEntry, htrim]
    by_cases hx : x.2.fileName.toList = ent
    · rw [if_neg (not_not_intro hx), List.find?_cons_of_pos (by simpa using hx)]
    · rw [if_pos hx, List.find?_cons_of_neg (by simpa using hx)]
      exact ih

/-- What is found by its exact name is what has the name up to letter case, if it is spelled so. -/
theorem find_exact (hc : FindsByName crate entry fileEntry dirEntry list) {dir : E}
    {x : E × DirEntry} {ent : List Char} (hx : x ∈ list st dir)
    (hname : lowerName x.2.fileName.toList = lowerName ent) :
    (list st dir).find? (fun y => y.2.fileName.toList = ent) =
      if x.2.fileName.toList = ent then some x else none := by
  cases hf : (list st dir).find? fun y => y.2.fileName.toList = ent with
  | none =>
    have hne : x.2.fileName.toList ≠ ent := by simpa using List.find?_eq_none.mp hf x hx
    rw [if_neg hne]
  | some z =>
    have hz : z.2.fileName.toList = ent := by simpa using List.find?_some hf
    have hsame : z = x := hc.unique_name (List.mem_of_find?_eq_some hf) hx (by rw [hz, hname])
    rw [← hsame, if_pos hz]

/-- What `stat_path` returns, given what the parent lists. -/
theorem statPath_result {h : Handle D} {l : List (Except IoError DirEntry)}
    (hparent : findParent crate s w (parentName path) = .ok h w')
    (hlist : listing crate w' h = some l) :
    (statPath crate s w path).result = some (findEntry (entName path) l) := by
  unfold statPath
  rw [hparent, Outcome.andThen_ok]
  unfold searchDir
  rw [hlist]
  dsimp only
  cases findEntry (entName path) l <;> rfl

/-- No entry has an empty name. -/
theorem stat_root (hc : FindsByName crate entry fileEntry dirEntry list) (hw : w.Current st)
    (hparts : parts path = []) :
    (statPath crate s w path).result = some (.error nxFatdriveErrFileNotFound) := by
  have hstrip := strippedPath_eq_nil hparts
  have hparent : parentName path = none := by rw [parentName, hstrip]; rfl
  have hent : entName path = [] := by rw [entName, hstrip]; rfl
  have hroot : entry st (components ((none : Option String).getD "")) =
      some (dirEntry (crate.rootDir st)) := hc.root st
  have hnamed : ParentAsNamed entry dirEntry s w none := fun id hid => by cases hid
  obtain ⟨h, w', hfind, hlist⟩ := findParent_eq hc hw hnamed hroot fun h => by cases h
  rw [← hparent] at hfind
  have hnone : (list st (dirEntry (crate.rootDir st))).find?
      (fun x => x.2.fileName.toList = ([] : List Char)) = none := by
    refine List.find?_eq_none.mpr fun x hx => ?_
    simpa using (hc.name hx).1
  rw [statPath_result hfind hlist, hent, findEntry_map fun x hx => (hc.name hx).2, hnone]

/-- Where no directory is open under a name of slashes, and the parent has such a name. -/
theorem stat_slashes (hc : FindsByName crate entry fileEntry dirEntry list) (hw : w.Current st)
    (hs : slashesOnly (parentName path) = true)
    (hfound : foundDir s.dirNameMap (parentName path) = none) :
    ∃ code, (statPath crate s w path).result = some (.error code) := by
  obtain ⟨code, w', herr⟩ := openParent_slashes hc hw hs
  have hbind : (parentName path).bind s.hasDir = none := hfound
  refine ⟨code, ?_⟩
  unfold statPath findParent
  rw [hbind]
  dsimp only
  rw [herr]
  rfl

/-- Where the parent is found, it lists what the path leads to, and the search returns that if it is
spelled as the last component is. -/
theorem stat_listed (hc : FindsByName crate entry fileEntry dirEntry list) (hw : w.Current st)
    (hp : ParentAsNamed entry dirEntry s w (parentName path))
    (he : entry st (components path) = some e) (hparts : parts path ≠ [])
    (hs : slashesOnly (parentName path) = true → (foundDir s.dirNameMap (parentName path)).isSome) :
    ∃ d, entry st (components path).dropLast = some (dirEntry d) ∧ ∃ x ∈ list st (dirEntry d),
      x.1 = e ∧ lowerName x.2.fileName.toList = lowerName (entName path) ∧
      (statPath crate s w path).result =
        some (if x.2.fileName.toList = entName path then .ok (x.2.len, x.2.attributes)
          else .error nxFatdriveErrFileNotFound) := by
  rw [components_parent hparts] at he ⊢
  rw [List.dropLast_concat]
  obtain ⟨d, hd⟩ := hc.parent he
  obtain ⟨x, hx, hxe, hname⟩ := (hc.child hd).mp he
  have hd' : entry st (components ((parentName path).getD "")) = some (dirEntry d) := by
    rw [components_parentName]
    exact hd
  obtain ⟨h, w', hfind, hlist⟩ := findParent_eq hc hw hp hd' hs
  refine ⟨d, hd, x, hx, hxe, hname, ?_⟩
  rw [statPath_result hfind hlist, findEntry_map fun y hy => (hc.name hy).2, find_exact hc hx hname]
  by_cases hspell : x.2.fileName.toList = entName path
  · rw [if_pos hspell, if_pos hspell]
  · rw [if_neg hspell, if_neg hspell]

/-- What is listed of the entry is returned exactly if the path has a component, its parent's name
is not made of slashes alone (or a directory is open under it), and the entry is spelled as the last
component is. -/
theorem reports_iff (hc : FindsByName crate entry fileEntry dirEntry list) (hw : w.Current st)
    (hp : ParentAsNamed entry dirEntry s w (parentName path))
    (he : entry st (components path) = some e) :
    Reports crate list s w st path e ↔ parts path ≠ [] ∧
      (slashesOnly (parentName path) = true → (foundDir s.dirNameMap (parentName path)).isSome) ∧
      SpelledAlike entry dirEntry list st path := by
  by_cases hparts : parts path = []
  · refine iff_of_false ?_ fun h => h.1 hparts
    rintro ⟨dir, x, -, -, hres⟩
    rw [stat_root hc hw hparts] at hres
    cases hres
  by_cases hs : slashesOnly (parentName path) = true →
      (foundDir s.dirNameMap (parentName path)).isSome
  · obtain ⟨d, hd, x, hx, hxe, hname, hres⟩ := stat_listed hc hw hp he hparts hs
    constructor
    · rintro ⟨dir, y, -, -, hok⟩
      have hspell : x.2.fileName.toList = entName path := by
        by_contra hne
        rw [if_neg hne, hok] at hres
        cases hres
      refine ⟨hparts, hs, fun d₁ hd₁ z hz hlower => ?_⟩
      -- no two names of the directory agree up to letter case
      have hdir : dirEntry d₁ = dirEntry d := Option.some_inj.mp (hd₁.symm.trans hd)
      rw [hdir] at hz
      rw [hc.unique_name hz hx (hlower.trans hname.symm), hspell]
    · rintro ⟨-, -, hspell⟩
      rw [if_pos (hspell d hd x hx hname)] at hres
      exact ⟨_, x, hx, hxe, hres⟩
  · refine iff_of_false ?_ fun h => hs h.2.1
    obtain ⟨hslash, hfound⟩ := Classical.not_imp.mp hs
    obtain ⟨code, herr⟩ := stat_slashes (s := s) hc hw hslash (by simpa using hfound)
    rintro ⟨dir, x, -, -, hres⟩
    rw [herr] at hres
    cases hres

/-- **Open and stat.**  Let a path be opened, and let what is open under its parent's name be that
directory.  Then `stat_path` reports the entry of the path exactly if

* there is one, where the path is the name of what is open already;
* the path has a component, and its parent's name is not made of slashes alone, or a directory is
  open under it;
* the entry is spelled as the last component is. -/
theorem stat_finds_iff (hc : FindsByName crate entry fileEntry dirEntry list) (hw : w.Current st)
    (hp : ParentAsNamed entry dirEntry s w (parentName path)) (ho : Opens crate s w path) :
    (∃ e, entry st (components path) = some e ∧ Reports crate list s w st path e) ↔
      (IsOpen s path → (entry st (components path)).isSome = true) ∧ parts path ≠ [] ∧
        (slashesOnly (parentName path) = true → (foundDir s.dirNameMap (parentName path)).isSome) ∧
        SpelledAlike entry dirEntry list st path := by
  constructor
  · rintro ⟨e, he, hrep⟩
    exact ⟨fun _ => Option.isSome_iff_exists.mpr ⟨e, he⟩, (reports_iff hc hw hp he).mp hrep⟩
  · rintro ⟨hopen, hcond⟩
    obtain ⟨e, he⟩ : ∃ e, entry st (components path) = some e := by
      by_cases h : IsOpen s path
      · exact Option.isSome_iff_exists.mp (hopen h)
      · obtain ⟨e, st', hst', he⟩ := opened_resolves hc.toResolvesPaths h ho
        cases hw.cell.symm.trans hst'
        exact ⟨e, he⟩
    exact ⟨e, he, (reports_iff hc hw hp he).mpr hcond⟩

/-! ### A tree with a directory and a file -/

/-- The root directory, `Dir` in it and `File.TXT` in that. -/
inductive Place where
  | root | dir | file
  deriving DecidableEq, Repr

namespace Place

def dirName : List Char := "dir".toList
def fileName : List Char := "file.txt".toList

def entryAt (_ : Unit) : Path → Option Place
  | [] => some .root
  | [c] => if c = dirName then some .dir else none
  | [c, c'] => if c = dirName ∧ c' = fileName then some .file else none
  | _ => none

def children (_ : Unit) : Place → List (Place × DirEntry)
  | .root => [(.dir, ⟨"Dir", false, 0, 0x10⟩)]
  | .dir => [(.file, ⟨"File.TXT", true, 7, 0x20⟩)]
  | .file => []

/-- A `Dir` is the root directory or the other. -/
def ofDir : Bool → Place
  | true => .root
  | false => .dir

end Place

/-- The tree as a crate, which changes nothing. -/
def treeCrate : FatfsCrate Unit Unit Bool where
  rootDir := fun _ => true
  openFile := fun st path =>
    if components path = [Place.dirName, Place.fileName] then .ok () st else .err ⟨.notFound, none⟩ st
  openDir := fun st path =>
    if components path = [Place.dirName] then .ok false st else .err ⟨.notFound, none⟩ st
  createFile := fun st _ => .err ⟨.other, none⟩ st
  createDir := fun st _ => .err ⟨.other, none⟩ st
  remove := fun st _ => .err ⟨.other, none⟩ st
  flush := fun st _ => .ok () st
  dropFile := fun st _ => st
  dropDir := fun st _ => st
  iter := fun st d => (Place.children st (Place.ofDir d)).map fun x => .ok x.2

theorem tree_entry {v : Unit} {k : Path} {e : Place} : Place.entryAt v k = some e ↔
    k = [] ∧ e = .root ∨ k = [Place.dirName] ∧ e = .dir ∨
      k = [Place.dirName, Place.fileName] ∧ e = .file := by
  constructor
  · intro h
    unfold Place.entryAt at h
    split at h
    · cases h
      exact .inl ⟨rfl, rfl⟩
    · obtain ⟨rfl, he⟩ := Option.ite_none_right_eq_some.mp h
      cases he
      exact .inr (.inl ⟨rfl, rfl⟩)
    · obtain ⟨⟨rfl, rfl⟩, he⟩ := Option.ite_none_right_eq_some.mp h
      cases he
      exact .inr (.inr ⟨rfl, rfl⟩)
    · cases h
  · rintro (⟨rfl, rfl⟩ | ⟨rfl, rfl⟩ | ⟨rfl, rfl⟩) <;> rfl

theorem tree_openFile (st : Unit) (path : String) : treeCrate.openFile st path =
    if components path = [Place.dirName, Place.fileName] then .ok () st
    else .err ⟨.notFound, none⟩ st := rfl

theorem tree_openDir (st : Unit) (path : String) : treeCrate.openDir st path =
    if components path = [Place.dirName] then .ok false st else .err ⟨.notFound, none⟩ st := rfl

/-- A component leads to the entry of that name, in a directory that lists one entry. -/
theorem child_of_listed {entryAt : Path → Option E} {listed : List (E × DirEntry)} {k : Path}
    {child e : E} {ent : DirEntry} {c name : List Char} (hlist : listed = [(child, ent)])
    (hname : lowerName ent.fileName.toList = name)
    (hentry : entryAt (k ++ [c]) = if c = name then some child else none) :
    entryAt (k ++ [c]) = some e ↔
      ∃ x ∈ listed, x.1 = e ∧ lowerName x.2.fileName.toList = c := by
  rw [hlist, hentry, Option.ite_none_right_eq_some]
  constructor
  · rintro ⟨rfl, he⟩
    exact ⟨_, List.mem_singleton_self _, Option.some_inj.mp he, hname⟩
  · rintro ⟨x, hx, rfl, rfl⟩
    rw [List.mem_singleton.mp hx]
    exact ⟨hname, rfl⟩

/-- The tree keeps to the laws. -/
theorem tree_findsByName : FindsByName treeCrate Place.entryAt (fun _ => .file) Place.ofDir
    Place.children where
  root := fun _ => rfl
  openFile_ok := by
    intro v p f v' h
    rw [tree_openFile] at h
    split at h
    · next hp => rw [hp]; rfl
    · cases h
  openFile_entry := fun _ _ => rfl
  openDir_ok := by
    intro v p d v' h
    rw [tree_openDir] at h
    split at h
    · next hp =>
      cases h
      rw [hp]
      rfl
    · cases h
  openDir_entry := fun _ _ => rfl
  createFile_entry := fun h => h
  createDir_entry := fun h => h
  remove_ok := by intro v p v' h; cases h
  remove_entry := fun _ => rfl
  flush_entry := fun _ _ => rfl
  dropFile_entry := fun _ _ => rfl
  dropDir_entry := fun _ _ => rfl
  kinds := by
    intro f d
    cases d <;> decide
  iter_congr := by
    intro v d d' h
    cases d <;> cases d' <;> first | rfl | cases h
  openDir_iter := fun _ _ => rfl
  dropDir_iter := fun _ _ => rfl
  openDir_complete := by
    intro v p d hne h
    rcases tree_entry.mp h with ⟨hk, -⟩ | ⟨hk, -⟩ | ⟨-, hd⟩
    · exact absurd hk hne
    · exact ⟨false, v, by rw [tree_openDir, if_pos hk]⟩
    · cases d <;> cases hd
  openDir_none := by
    intro v p hp
    exact ⟨_, v, by rw [tree_openDir, if_neg (by rw [hp]; decide)]⟩
  iter_eq := fun _ => rfl
  child := by
    intro v k d c e h
    rcases tree_entry.mp h with ⟨rfl, hd⟩ | ⟨rfl, hd⟩ | ⟨rfl, hd⟩ <;> cases d <;> cases hd
    · exact child_of_listed rfl rfl rfl
    · exact child_of_listed rfl rfl (if_congr (and_iff_right rfl) rfl rfl)
  parent := by
    intro v k c e h
    rcases tree_entry.mp h with ⟨hk, -⟩ | ⟨hk, -⟩ | ⟨hk, -⟩
    · simp at hk
    · have hk' : k = [] := by
        have hlen := congrArg List.length hk
        simpa using hlen
      exact ⟨true, by rw [hk']; rfl⟩
    · have hk' : k = [Place.dirName] := by
        have hinit := congrArg List.dropLast hk
        simpa using hinit
      exact ⟨false, by rw [hk']; rfl⟩
  unique_name := by
    intro v e x y hx hy _
    cases e <;> simp_all [Place.children]
  name := by
    intro v e x hx
    cases e <;> simp only [Place.children, List.mem_singleton, List.not_mem_nil] at hx <;> subst hx <;>
      decide

theorem stat_finds_iff_tree :
    ∃ e, Place.entryAt () (components "/Dir//File.TXT/") = some e ∧
      Reports treeCrate Place.children new probeMounted () "/Dir//File.TXT/" e := by
  have hopens : Opens treeCrate (new : IdStore Unit Bool) probeMounted "/Dir//File.TXT/" :=
    .inl (by decide +kernel)
  have hspell : SpelledAlike Place.entryAt Place.ofDir Place.children () "/Dir//File.TXT/" := by
    intro d hd x hx _
    have hplace : Place.entryAt () (components "/Dir//File.TXT/").dropLast = some .dir := by
      decide +kernel
    rw [← Option.some_inj.mp (hplace.symm.trans hd)] at hx
    cases List.mem_singleton.mp hx
    decide
  have hfile : (Place.entryAt () (components "/Dir//File.TXT/")).isSome = true := by decide +kernel
  have hnamed : Named Place.entryAt (fun _ : Unit => Place.file) Place.ofDir new probeMounted :=
    named_new
  have hcurrent : probeMounted.Current () := ⟨rfl, rfl⟩
  exact (stat_finds_iff tree_findsByName hcurrent (hnamed.parentAsNamed _) hopens).mpr
    ⟨fun _ => hfile, by decide +kernel, by decide +kernel, hspell⟩

/-- **Opened and not found.**  The root directory is opened and has no name to be found by; the file
is opened in small letters, and is not listed in them; and behind three slashes the parent's name is
two, which cannot be opened. -/
theorem opened_not_found :
    (openDir treeCrate new probeMounted "/").isOk = true ∧
    (statPath treeCrate new probeMounted "/").result = some (.error nxFatdriveErrFileNotFound) ∧
    (openFile treeCrate new probeMounted "dir/file.txt").isOk = true ∧
    (statPath treeCrate new probeMounted "dir/file.txt").result =
      some (.error nxFatdriveErrFileNotFound) ∧
    (openDir treeCrate new probeMounted "///Dir").isOk = true ∧
    (statPath treeCrate new probeMounted "///Dir").result =
      some (.error (LibnxErrMapper.map (⟨.notFound, none⟩ : IoError))) := by
  refine ⟨?_, ?_, ?_, ?_, ?_, ?_⟩ <;> decide +kernel

end IdStore

namespace Globals

open IdStore

/-- After calls on a fresh store, none of which removes an entry that a name still resolves to, what
is open under a parent's name is that directory. -/
theorem run_parentAsNamed {U : Type} {g g₀ : Globals U φ F D} {cs : List FileCall}
    (hc : ResolvesPaths crate entry fileEntry dirEntry) (h₀ : ∀ s, g₀.store? = some s → s = .new)
    (hrun : Run (Guard (FileStep crate) fun g c => c.LeavesNoName crate g) g₀ cs g) {s : IdStore F D}
    (hs : g.store? = some s) (parent : Option String) :
    ParentAsNamed entry dirEntry s g.mounted parent := by
  have hn : OfStore (Named entry fileEntry dirEntry) g :=
    (named_kept hc).run hc.within h₀ (fun w => named_new) hrun
  exact (hn s hs).parentAsNamed parent

end Globals

end FatDrive
