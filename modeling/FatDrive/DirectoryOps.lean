import FatDrive.StatPath
import FatDrive.FatfsRawDrives

/-!
# FatDrive.DirectoryOps — two kinds of directories, and what their paths are relative to

A directory opens, creates and removes entries by path.  `FatfsDirectory` hands the path to the
directory of the `fatfs` crate it wraps; `FatfsSysDir` hands it to FatFs and leaves its own `DIR` out.
Both libraries are parameters, and so are their trees, which are looked at through `TreeView`.

`Obtained` are the directories reached from the root by opening and creating directories, with the
paths that led there, as long as what they lead to stays where it is; `Acts` says what a call does to
the entry at a place.  `relative_paths` says for which directories this is the place of the joined path.
-/

namespace FatDrive

open Lib

/-! ### Joined paths -/

/-- `p/q`. -/
def slash (p q : String) : String := p ++ "/" ++ q

/-- The path `q` below the paths `ps`, opened one after the other. -/
def under (ps : List String) (q : String) : String := ps.foldr slash q

@[simp] theorem toList_slash (p q : String) : (slash p q).toList = p.toList ++ '/' :: q.toList := by
  simp [slash]

theorem parts_slash (p q : String) : parts (slash p q) = parts p ++ parts q := by
  unfold parts
  rw [toList_slash, pieces_append_cons]

theorem parts_under (ps : List String) (q : String) :
    parts (under ps q) = ps.flatMap parts ++ parts q := by
  induction ps with
  | nil => rfl
  | cons p ps ih =>
    show parts (slash p (under ps q)) = _
    rw [parts_slash, ih, List.flatMap_cons, List.append_assoc]

/-! ### Entries, and what a call does to one -/

/-- A tree as it is looked at from outside.  `entry v k` is what the library finds at the names `k`, as
they are spelled, from the root: one entry may be found by several spellings (another letter case, a
short name), and through the links in a directory. -/
structure TreeView (τ E : Type) where
  entry : τ → Path → Option E
  isDir : E → Bool
  /-- No lock and no limit on open files stands in the way of an open. -/
  admits : τ → Prop

/-- The character that ends a C string. -/
def nul : Char := Char.ofNat 0

/-- A relative path that is written out: no part is empty. -/
def Clean (q : String) : Prop := [] ∉ q.toList.splitOn '/' ∧ nul ∉ q.toList

/-- Two names are links in every directory, to itself and to the one above. -/
def IsDots (n : List Char) : Prop := n = ['.'] ∨ n = ['.', '.']

/-- A name that is no link and that no library cuts up or off. -/
def PlainName (n : List Char) : Prop := ¬ IsDots n ∧ ∀ c ∈ n, ' '.toNat < c.toNat ∧ c ≠ '\\'

def Plain (k : Path) : Prop := ∀ n ∈ k, PlainName n

instance : DecidablePred IsDots := fun n => inferInstanceAs (Decidable (n = ['.'] ∨ n = ['.', '.']))

instance : DecidablePred PlainName := fun n =>
  @instDecidableAnd _ _ inferInstance (List.decidableBAll (fun c => ' '.toNat < c.toNat ∧ c ≠ '\\') n)

instance : DecidablePred Plain := fun k => inferInstanceAs (Decidable (∀ n ∈ k, PlainName n))

section Calls

variable {τ E : Type} (T : TreeView τ E)

/-- Nothing is changed but one entry, which was `before` and is `after`. -/
def OnlyAt (before after : Option E) (v v' : τ) : Prop :=
  ∀ k, Plain k → T.entry v' k ≠ T.entry v k →
    (T.entry v k = none ∨ T.entry v k = before) ∧ (T.entry v' k = none ∨ T.entry v' k = after)

/-- A call that opens the entry it finds, as a directory or as a file: it changes none, what it hands out
is that entry, and it does not miss one of its kind. -/
structure OpensAt (isDir : Bool) (q : String) (before got : Option E) (v v' : τ) : Prop where
  entry_eq : T.entry v' = T.entry v
  got_eq : ∀ e, got = some e → before = some e
  found : T.admits v → Clean q → ∀ e, before = some e → T.isDir e = isDir → got = some e

/-- A call that makes the entry, or finds it there. -/
structure MakesAt (before after got : Option E) (v v' : τ) : Prop where
  kept : ∀ k e, T.entry v k = some e → T.entry v' k = some e
  only : OnlyAt T before after v v'
  got_eq : ∀ e, got = some e → after = some e

/-- A call that removes the entry, which is then found in no way. -/
structure RemovesAt (before : Option E) (done : Bool) (v v' : τ) : Prop where
  only : OnlyAt T before none v v'
  gone : done = true → before ≠ none ∧ ∀ k, T.entry v k = before → T.entry v' k = none

end Calls

/-- What is handed out denotes an entry; an error denotes none. -/
def handed {τ E α : Type} (denotes : α → E) : Outcome IoError τ α → Option E
  | .ok a _ => some (denotes a)
  | _ => none

theorem handed_of_isOk {τ E α : Type} (denotes : α → E) {r : Outcome IoError τ α} (h : r.isOk = true) :
    ∃ e, handed denotes r = some e := by
  obtain ⟨a, v, rfl⟩ := Outcome.isOk_iff.mp h
  exact ⟨denotes a, rfl⟩

/-! ### The trait -/

/-- `DirectoryOps`, for directories `D` and files `F` on a tree `τ`. -/
structure DirectoryOps (τ F D : Type) where
  openDirectory : D → String → τ → Outcome IoError τ D
  createDirectory : D → String → τ → Outcome IoError τ D
  openFile : D → String → τ → Outcome IoError τ F
  createFile : D → String → τ → Outcome IoError τ F
  removePath : D → String → τ → Outcome IoError τ Unit

inductive DirCall where
  | openDirectory | createDirectory | openFile | createFile | removePath
  deriving DecidableEq, Repr

/-- The paths a call is asked about: none has a drive prefix, and the links in a directory are not
removed. -/
def DirCall.Takes (c : DirCall) (q : String) : Prop :=
  ':' ∉ q.toList ∧ (c = .removePath → ∀ n ∈ parts q, ¬ IsDots n)

namespace DirectoryOps

variable {τ F D E : Type} (ops : DirectoryOps τ F D) (T : TreeView τ E) (fileEntry : F → E)
  (dirEntry : D → E) (root : D)

/-- The place the paths of `ps` lead to, one after the other. -/
def place (ps : List String) : Path := ps.flatMap parts

/-- The directories obtained from the root by opening or creating them, one below the other, with the
paths this was done by and the tree at present.  Whatever else is done to the tree in between, the same
entry stays at their place. -/
inductive Obtained : List String → D → τ → Prop
  | root (v : τ) : Obtained [] root v
  | opened {ps : List String} {d d' : D} {p : String} {v v' : τ} : Obtained ps d v → p ≠ "" →
      ':' ∉ p.toList → ops.openDirectory d p v = .ok d' v' → Obtained (ps ++ [p]) d' v'
  | created {ps : List String} {d d' : D} {p : String} {v v' : τ} : Obtained ps d v → p ≠ "" →
      ':' ∉ p.toList → ops.createDirectory d p v = .ok d' v' → Obtained (ps ++ [p]) d' v'
  | stays {ps : List String} {d : D} {v v' : τ} : Obtained ps d v →
      T.entry v' (place ps) = T.entry v (place ps) → Obtained ps d v'

/-- The call, on `d` with the path `q`, acts on the entry at the place `k` of the tree. -/
def Acts (d : D) (q : String) (v : τ) (k : Path) : DirCall → Prop
  | .openDirectory =>
    OpensAt T true q (T.entry v k) (handed dirEntry (ops.openDirectory d q v)) v
      (ops.openDirectory d q v).state
  | .createDirectory =>
    MakesAt T (T.entry v k) (T.entry (ops.createDirectory d q v).state k)
      (handed dirEntry (ops.createDirectory d q v)) v (ops.createDirectory d q v).state
  | .openFile =>
    OpensAt T false q (T.entry v k) (handed fileEntry (ops.openFile d q v)) v (ops.openFile d q v).state
  | .createFile =>
    MakesAt T (T.entry v k) (T.entry (ops.createFile d q v).state k)
      (handed fileEntry (ops.createFile d q v)) v (ops.createFile d q v).state
  | .removePath =>
    RemovesAt T (T.entry v k) (ops.removePath d q v).isOk v (ops.removePath d q v).state

def succeeds (d : D) (q : String) (v : τ) : DirCall → Bool
  | .openDirectory => (ops.openDirectory d q v).isOk
  | .createDirectory => (ops.createDirectory d q v).isOk
  | .openFile => (ops.openFile d q v).isOk
  | .createFile => (ops.createFile d q v).isOk
  | .removePath => (ops.removePath d q v).isOk

/-- Every call on `d`, with every path, acts on the entry at the joined path. -/
def RelativeTo (ps : List String) (d : D) (v : τ) : Prop :=
  ∀ (c : DirCall) (q : String), c.Takes q → ops.Acts T fileEntry dirEntry d q v (parts (under ps q)) c

end DirectoryOps

/-! ### Directories of the `fatfs` crate -/

/-- What the program uses of `fatfs::Dir`. -/
structure FatfsDirs (τ F D : Type) where
  rootDir : D
  openDir : D → String → τ → Outcome IoError τ D
  createDir : D → String → τ → Outcome IoError τ D
  openFile : D → String → τ → Outcome IoError τ F
  createFile : D → String → τ → Outcome IoError τ F
  remove : D → String → τ → Outcome IoError τ Unit

/-- The crate resolves a path against the directory it is given, name by name, on trees whose drive serves
every transfer.  `below v d k` is what it finds at the names `k` from `d`; nothing is said of a directory
that the tree does not have, such as one that was removed. -/
structure FatfsDirs.ResolvesAgainst {τ F D E : Type} (crate : FatfsDirs τ F D) (T : TreeView τ E)
    (below : τ → D → Path → Option E) (fileEntry : F → E) (dirEntry : D → E) : Prop where
  entry_eq : ∀ v k, T.entry v k = below v crate.rootDir k
  root : ∀ v, T.entry v [] = some (dirEntry crate.rootDir)
  below_append : ∀ {v d k d'} (k' : Path), below v d k = some (dirEntry d') →
    below v d (k ++ k') = below v d' k'
  openDir : ∀ {v d k} (p : String), T.entry v k = some (dirEntry d) →
    OpensAt T true p (below v d (parts p)) (handed dirEntry (crate.openDir d p v)) v
      (crate.openDir d p v).state
  createDir : ∀ {v d k} (p : String), T.entry v k = some (dirEntry d) →
    MakesAt T (below v d (parts p)) (below (crate.createDir d p v).state d (parts p))
      (handed dirEntry (crate.createDir d p v)) v (crate.createDir d p v).state
  openFile : ∀ {v d k} (p : String), T.entry v k = some (dirEntry d) →
    OpensAt T false p (below v d (parts p)) (handed fileEntry (crate.openFile d p v)) v
      (crate.openFile d p v).state
  createFile : ∀ {v d k} (p : String), T.entry v k = some (dirEntry d) →
    MakesAt T (below v d (parts p)) (below (crate.createFile d p v).state d (parts p))
      (handed fileEntry (crate.createFile d p v)) v (crate.createFile d p v).state
  remove : ∀ {v d k} (p : String), T.entry v k = some (dirEntry d) → (∀ n ∈ parts p, ¬ IsDots n) →
    RemovesAt T (below v d (parts p)) (crate.remove d p v).isOk v (crate.remove d p v).state

structure FatfsDirectory (D : Type) where
  inner : D

namespace FatfsDirectory

variable {τ F D : Type} (crate : FatfsDirs τ F D)

def openDirectory (self : FatfsDirectory D) (path : String) (v : τ) :
    Outcome IoError τ (FatfsDirectory D) :=
  (crate.openDir self.inner path v).andThen fun inner v => .ok ⟨inner⟩ v

def createDirectory (self : FatfsDirectory D) (path : String) (v : τ) :
    Outcome IoError τ (FatfsDirectory D) :=
  (crate.createDir self.inner path v).andThen fun inner v => .ok ⟨inner⟩ v

def openFile (self : FatfsDirectory D) (path : String) (v : τ) : Outcome IoError τ F :=
  crate.openFile self.inner path v

def createFile (self : FatfsDirectory D) (path : String) (v : τ) : Outcome IoError τ F :=
  crate.createFile self.inner path v

def removePath (self : FatfsDirectory D) (path : String) (v : τ) : Outcome IoError τ Unit :=
  crate.remove self.inner path v

def directoryOps : DirectoryOps τ F (FatfsDirectory D) :=
  ⟨openDirectory crate, createDirectory crate, openFile crate, createFile crate, removePath crate⟩

/-- `FileSystemOps::root`. -/
def root : FatfsDirectory D := ⟨crate.rootDir⟩

open DirectoryOps

variable {crate} {E : Type} {T : TreeView τ E} {below : τ → D → Path → Option E} {fileEntry : F → E}
  {dirEntry : D → E} (hcrate : crate.ResolvesAgainst T below fileEntry dirEntry) {ps : List String}
  {d : FatfsDirectory D} {v : τ}
include hcrate

/-- What is found from a directory is what is found from the root behind its place. -/
theorem below_eq {k : Path} (hat : T.entry v k = some (dirEntry d.inner)) (k' : Path) :
    below v d.inner k' = T.entry v (k ++ k') := by
  rw [hcrate.entry_eq] at hat ⊢
  exact (hcrate.below_append k' hat).symm

/-- A directory is where the paths opened so far lead. -/
theorem entry_place (h : Obtained (directoryOps crate) T (root crate) ps d v) :
    T.entry v (place ps) = some (dirEntry d.inner) := by
  induction h with
  | root v => exact hcrate.root v
  | @opened ps d d' p v v' _ _ _ hopen ih =>
    obtain ⟨inner, v₁, hopen, hd⟩ := Outcome.andThen_eq_ok.mp hopen
    cases hd
    have hopens := hcrate.openDir p ih
    rw [hopen] at hopens
    have hfound := hopens.got_eq _ rfl
    rw [below_eq hcrate ih] at hfound
    rw [place, List.flatMap_append, List.flatMap_singleton]
    exact (congrFun hopens.entry_eq _).trans hfound
  | @created ps d d' p v v' _ _ _ hcreated ih =>
    obtain ⟨inner, v₁, hcreated, hd⟩ := Outcome.andThen_eq_ok.mp hcreated
    cases hd
    have hmakes := hcrate.createDir p ih
    rw [hcreated, Outcome.state_ok] at hmakes
    have hfound := hmakes.got_eq _ rfl
    -- the directory above is still there
    rw [below_eq hcrate (hmakes.kept _ _ ih)] at hfound
    rw [place, List.flatMap_append, List.flatMap_singleton]
    exact hfound
  | stays _ hstays ih => exact hstays.trans ih

omit hcrate in
theorem handed_wrap (r : Outcome IoError τ D) :
    handed (fun d : FatfsDirectory D => dirEntry d.inner) (r.andThen fun inner v => .ok ⟨inner⟩ v) =
      handed dirEntry r := by
  cases r <;> rfl

omit hcrate in
theorem state_wrap (r : Outcome IoError τ D) :
    (r.andThen fun inner v => .ok (⟨inner⟩ : FatfsDirectory D) v).state = r.state := by
  cases r <;> rfl

/-- **The `fatfs` backend** resolves every path relative to the directory. -/
theorem relativeTo_obtained (h : Obtained (directoryOps crate) T (root crate) ps d v) :
    RelativeTo (directoryOps crate) T fileEntry (fun d => dirEntry d.inner) ps d v := by
  have hat := entry_place hcrate h
  have hplace : ∀ q, parts (under ps q) = place ps ++ parts q := fun q => parts_under ps q
  intro c q hq
  rw [hplace]
  cases c with
  | openDirectory =>
    have hopens := hcrate.openDir q hat
    rw [below_eq hcrate hat] at hopens
    simp only [Acts, directoryOps, openDirectory, handed_wrap, state_wrap]
    exact hopens
  | createDirectory =>
    have hmakes := hcrate.createDir q hat
    rw [below_eq hcrate hat, below_eq hcrate (hmakes.kept _ _ hat)] at hmakes
    simp only [Acts, directoryOps, createDirectory, handed_wrap, state_wrap]
    exact hmakes
  | openFile =>
    have hopens := hcrate.openFile q hat
    rw [below_eq hcrate hat] at hopens
    exact hopens
  | createFile =>
    have hmakes := hcrate.createFile q hat
    rw [below_eq hcrate hat, below_eq hcrate (hmakes.kept _ _ hat)] at hmakes
    exact hmakes
  | removePath =>
    have hremoves := hcrate.remove q hat (hq.2 rfl)
    rw [below_eq hcrate hat] at hremoves
    exact hremoves

end FatfsDirectory

/-! ### Directories of FatFs -/

/-- What the program uses of FatFs on paths. -/
structure FatFsPaths (τ Fil Dir : Type) where
  fOpen : String → UInt8 → τ → (FResult × Fil) × τ
  fOpendir : String → τ → (FResult × Dir) × τ
  fMkdir : String → τ → FResult × τ
  fUnlink : String → τ → FResult × τ

def faOpenExisting : UInt8 := 0
def faCreateNew : UInt8 := 4

/-- What a function of FatFs leaves in the object it is given, if it succeeds. -/
def given {τ E α : Type} (denotes : α → E) (r : (FResult × α) × τ) : Option E :=
  if r.1.1 = .frOk then some (denotes r.1.2) else none

/-- FatFs resolves a path without a drive prefix from the root, on trees whose drive serves every
transfer; and an entry is at one depth of the tree, by whatever plain names it is found. -/
structure FatFsPaths.ResolvesFromRoot {τ Fil Dir E : Type} (ff : FatFsPaths τ Fil Dir)
    (T : TreeView τ E) (fileEntry : Fil → E) (dirEntry : Dir → E) : Prop where
  depth : ∀ {v k k' e}, Plain k → Plain k' → T.entry v k = some e → T.entry v k' = some e →
    k.length = k'.length
  fOpendir : ∀ {p} v, ':' ∉ p.toList →
    OpensAt T true p (T.entry v (parts p)) (given dirEntry (ff.fOpendir p v)) v (ff.fOpendir p v).2
  fMkdir : ∀ {p} v, ':' ∉ p.toList →
    MakesAt T (T.entry v (parts p)) (T.entry (ff.fMkdir p v).2 (parts p)) none v (ff.fMkdir p v).2
  fOpen : ∀ {p} v, ':' ∉ p.toList →
    OpensAt T false p (T.entry v (parts p)) (given fileEntry (ff.fOpen p faOpenExisting v)) v
      (ff.fOpen p faOpenExisting v).2
  fOpen_new : ∀ {p} v, ':' ∉ p.toList →
    MakesAt T (T.entry v (parts p)) (T.entry (ff.fOpen p faCreateNew v).2 (parts p))
      (given fileEntry (ff.fOpen p faCreateNew v)) v (ff.fOpen p faCreateNew v).2
  fUnlink : ∀ {p} v, ':' ∉ p.toList →
    RemovesAt T (T.entry v (parts p)) (decide ((ff.fUnlink p v).1 = .frOk)) v (ff.fUnlink p v).2

/-- `CString::new(path)?`. -/
def cString (path : String) : Except IoError String :=
  if nul ∈ path.toList then .error ⟨.invalidInput, none⟩ else .ok path

structure FatfsSysDir (Dir : Type) where
  inner : Dir

namespace FatfsSysDir

variable {τ Fil Dir : Type} (ff : FatFsPaths τ Fil Dir)

/-- `wrap_errors`, with the tree FatFs leaves. -/
def wrapped {α : Type} (possible : α) (err : FResult) (v : τ) : Outcome IoError τ α :=
  match wrapErrors possible err with
  | .ok a => .ok a v
  | .error e => .err e v

/-- Hand the path to a function of FatFs. -/
def withCString {α : Type} (path : String) (v : τ) (f : String → Outcome IoError τ α) :
    Outcome IoError τ α :=
  match cString path with
  | .ok cpath => f cpath
  | .error e => .err e v

def openDirectory (_self : FatfsSysDir Dir) (path : String) (v : τ) :
    Outcome IoError τ (FatfsSysDir Dir) :=
  withCString path v fun cpath =>
    let r := ff.fOpendir cpath v
    wrapped ⟨r.1.2⟩ r.1.1 r.2

def createDirectory (self : FatfsSysDir Dir) (path : String) (v : τ) :
    Outcome IoError τ (FatfsSysDir Dir) :=
  withCString path v fun cpath =>
    let r := ff.fMkdir cpath v
    (wrapped () r.1 r.2).andThen fun _ v => openDirectory ff self path v

/-- `open_file` and `create_file` differ in the mode. -/
def openWith (mode : UInt8) (_self : FatfsSysDir Dir) (path : String) (v : τ) :
    Outcome IoError τ Fil :=
  withCString path v fun cpath =>
    let r := ff.fOpen cpath mode v
    wrapped r.1.2 r.1.1 r.2

def openFile : FatfsSysDir Dir → String → τ → Outcome IoError τ Fil := openWith ff faOpenExisting

def createFile : FatfsSysDir Dir → String → τ → Outcome IoError τ Fil := openWith ff faCreateNew

def removePath (_self : FatfsSysDir Dir) (path : String) (v : τ) : Outcome IoError τ Unit :=
  withCString path v fun cpath =>
    let r := ff.fUnlink cpath v
    wrapped () r.1 r.2

def directoryOps : DirectoryOps τ Fil (FatfsSysDir Dir) :=
  ⟨openDirectory ff, createDirectory ff, openFile ff, createFile ff, removePath ff⟩

theorem wrapped_isOk {α : Type} {possible : α} {err : FResult} {v : τ} :
    (wrapped possible err v).isOk = true ↔ err = .frOk := by
  cases err <;> simp [wrapped, wrapErrors, Outcome.isOk]

theorem wrapped_isErr {α : Type} {possible : α} {err : FResult} {v : τ} :
    (wrapped possible err v).isErr = true ↔ err ≠ .frOk := by
  cases err <;> simp [wrapped, wrapErrors, Outcome.isErr]

theorem wrapped_eq_ok {α : Type} {possible a : α} {err : FResult} {v v' : τ} :
    wrapped possible err v = .ok a v' ↔ err = .frOk ∧ possible = a ∧ v = v' := by
  cases err <;> simp [wrapped, wrapErrors]

theorem wrapped_state {α : Type} (possible : α) (err : FResult) (v : τ) :
    (wrapped possible err v).state = v := by
  cases err <;> rfl

open DirectoryOps

variable {ff} {E : Type} {T : TreeView τ E} {fileEntry : Fil → E} {dirEntry : Dir → E}
  {ps : List String} {root d : FatfsSysDir Dir} {v : τ} {q : String}

/-- A path with a `NUL` in it does not get to FatFs. -/
theorem withCString_cases {α : Type} (path : String) (v : τ) (f : String → Outcome IoError τ α) :
    nul ∈ path.toList ∧ withCString path v f = .err ⟨.invalidInput, none⟩ v ∨
      nul ∉ path.toList ∧ withCString path v f = f path := by
  unfold withCString cString
  by_cases hp : nul ∈ path.toList
  · rw [if_pos hp]
    exact Or.inl ⟨hp, rfl⟩
  · rw [if_neg hp]
    exact Or.inr ⟨hp, rfl⟩

theorem handed_wrapped {α : Type} (denotes : α → E) (r : (FResult × α) × τ) :
    handed denotes (wrapped r.1.2 r.1.1 r.2) = given denotes r := by
  obtain ⟨⟨err, a⟩, v⟩ := r
  cases err <;> simp [handed, wrapped, wrapErrors, given]

/-- A refused path opens nothing. -/
theorem opensAt_refused {isDir : Bool} {before : Option E} (hnul : nul ∈ q.toList) :
    OpensAt T isDir q before none v v where
  entry_eq := rfl
  got_eq := nofun
  found := fun _ hclean => absurd hnul hclean.2

theorem makesAt_refused {before after : Option E} : MakesAt T before after none v v where
  kept := fun _ _ h => h
  only := fun _ _ hne => absurd rfl hne
  got_eq := nofun

theorem removesAt_refused {before : Option E} : RemovesAt T before false v v where
  only := fun _ _ hne => absurd rfl hne
  gone := fun h => by cases h

variable (hff : ff.ResolvesFromRoot T fileEntry dirEntry)
include hff

theorem openDirectory_opens (hq : ':' ∉ q.toList) :
    OpensAt T true q (T.entry v (parts q)) (handed (fun d => dirEntry d.inner) (openDirectory ff d q v)) v
      (openDirectory ff d q v).state := by
  unfold openDirectory
  rcases withCString_cases q v (fun cpath => let r := ff.fOpendir cpath v
    wrapped (⟨r.1.2⟩ : FatfsSysDir Dir) r.1.1 r.2) with ⟨hnul, he⟩ | ⟨-, he⟩
  · rw [he]
    exact opensAt_refused hnul
  · rw [he, wrapped_state]
    have hopens := hff.fOpendir v hq
    rw [← handed_wrapped] at hopens
    have hsame : handed (fun d : FatfsSysDir Dir => dirEntry d.inner)
          (wrapped ⟨(ff.fOpendir q v).1.2⟩ (ff.fOpendir q v).1.1 (ff.fOpendir q v).2) =
        handed dirEntry (wrapped (ff.fOpendir q v).1.2 (ff.fOpendir q v).1.1 (ff.fOpendir q v).2) := by
      cases (ff.fOpendir q v).1.1 <;> rfl
    rw [hsame]
    exact hopens

theorem openFile_opens (hq : ':' ∉ q.toList) :
    OpensAt T false q (T.entry v (parts q)) (handed fileEntry (openFile ff d q v)) v
      (openFile ff d q v).state := by
  unfold openFile openWith
  rcases withCString_cases q v (fun cpath => let r := ff.fOpen cpath faOpenExisting v
    wrapped r.1.2 r.1.1 r.2) with ⟨hnul, he⟩ | ⟨-, he⟩
  · rw [he]
    exact opensAt_refused hnul
  · rw [he, wrapped_state, handed_wrapped]
    exact hff.fOpen v hq

theorem createFile_makes (hq : ':' ∉ q.toList) :
    MakesAt T (T.entry v (parts q)) (T.entry (createFile ff d q v).state (parts q))
      (handed fileEntry (createFile ff d q v)) v (createFile ff d q v).state := by
  unfold createFile openWith
  rcases withCString_cases q v (fun cpath => let r := ff.fOpen cpath faCreateNew v
    wrapped r.1.2 r.1.1 r.2) with ⟨hnul, he⟩ | ⟨-, he⟩
  · rw [he]
    exact makesAt_refused
  · rw [he, wrapped_state, handed_wrapped]
    exact hff.fOpen_new v hq

theorem removePath_removes (hq : ':' ∉ q.toList) :
    RemovesAt T (T.entry v (parts q)) (removePath ff d q v).isOk v (removePath ff d q v).state := by
  unfold removePath
  rcases withCString_cases q v (fun cpath => let r := ff.fUnlink cpath v
    wrapped () r.1 r.2) with ⟨hnul, he⟩ | ⟨-, he⟩
  · rw [he]
    exact removesAt_refused
  · have hok : (wrapped () (ff.fUnlink q v).1 (ff.fUnlink q v).2).isOk =
        decide ((ff.fUnlink q v).1 = .frOk) := by
      rw [Bool.eq_iff_iff, wrapped_isOk, decide_eq_true_eq]
    rw [he, wrapped_state, hok]
    exact hff.fUnlink v hq

/-- The directory is made by FatFs, and then opened by the same path. -/
theorem createDirectory_makes (hq : ':' ∉ q.toList) :
    MakesAt T (T.entry v (parts q)) (T.entry (createDirectory ff d q v).state (parts q))
      (handed (fun d => dirEntry d.inner) (createDirectory ff d q v)) v
      (createDirectory ff d q v).state := by
  unfold createDirectory
  rcases withCString_cases q v (fun cpath => let r := ff.fMkdir cpath v
    (wrapped () r.1 r.2).andThen fun _ v => openDirectory ff d q v) with ⟨hnul, he⟩ | ⟨-, he⟩
  · rw [he]
    exact makesAt_refused
  · have hmakes := hff.fMkdir v hq
    have hopens := openDirectory_opens hff (d := d) (v := (ff.fMkdir q v).2) hq
    rw [he]
    dsimp only
    cases hmade : wrapped () (ff.fMkdir q v).1 (ff.fMkdir q v).2 with
    | ok u v₁ =>
      obtain ⟨-, -, rfl⟩ := wrapped_eq_ok.mp hmade
      rw [Outcome.andThen_ok]
      refine ⟨fun k e hk => ?_, fun k hk hne => ?_, fun e he => ?_⟩
      · rw [hopens.entry_eq]
        exact hmakes.kept k e hk
      · rw [hopens.entry_eq] at hne ⊢
        exact hmakes.only k hk hne
      · rw [hopens.entry_eq]
        exact hopens.got_eq e he
    | err e v₁ =>
      have hv := wrapped_state () (ff.fMkdir q v).1 (ff.fMkdir q v).2
      rw [hmade] at hv
      rw [Outcome.andThen_err,
        show (Outcome.err e v₁ : Outcome IoError τ (FatfsSysDir Dir)).state = _ from hv]
      exact ⟨hmakes.kept, hmakes.only, nofun⟩
    | panicked v₁ =>
      have hv := wrapped_state () (ff.fMkdir q v).1 (ff.fMkdir q v).2
      rw [hmade] at hv
      rw [Outcome.andThen_panicked,
        show (Outcome.panicked v₁ : Outcome IoError τ (FatfsSysDir Dir)).state = _ from hv]
      exact ⟨hmakes.kept, hmakes.only, nofun⟩

/-- Every call acts on the entry that its path leads to from the root, whatever the directory. -/
theorem acts_fromRoot {c : DirCall} (hq : c.Takes q) :
    Acts (directoryOps ff) T fileEntry (fun d => dirEntry d.inner) d q v (parts q) c := by
  cases c with
  | openDirectory => exact openDirectory_opens hff (d := d) hq.1
  | createDirectory => exact createDirectory_makes hff (d := d) hq.1
  | openFile => exact openFile_opens hff (d := d) hq.1
  | createFile => exact createFile_makes hff (d := d) hq.1
  | removePath => exact removePath_removes hff (d := d) hq.1

/-- Two plain places of one entry, one of them below the paths of `ps`. -/
theorem no_parts_of_same {e : E} (hplain : Plain (parts (under ps q)))
    (hroot : T.entry v (parts q) = some e) (hbelow : T.entry v (parts (under ps q)) = some e) :
    ∀ p ∈ ps, parts p = [] := by
  have hq : Plain (parts q) := fun n hn => hplain n (by
    rw [parts_under]
    exact List.mem_append_right _ hn)
  have hlen := hff.depth hplain hq hbelow hroot
  rw [parts_under, List.length_append] at hlen
  exact List.flatMap_eq_nil_iff.mp (List.length_eq_zero_iff.mp (by omega))

/-- **The FatFs backend** resolves every path from the root: a call that succeeds has acted on the entry
of the joined path only if the paths that led to the directory have no parts. -/
theorem no_parts_of_acts {c : DirCall} (hq : c.Takes q) (hplain : Plain (parts (under ps q)))
    (hok : (directoryOps ff).succeeds d q v c = true)
    (hacts : Acts (directoryOps ff) T fileEntry (fun d => dirEntry d.inner) d q v (parts (under ps q)) c) :
    ∀ p ∈ ps, parts p = [] := by
  have hroot := acts_fromRoot hff (d := d) (v := v) hq
  cases c with
  | openDirectory =>
    obtain ⟨e, hgot⟩ := handed_of_isOk (fun d : FatfsSysDir Dir => dirEntry d.inner) hok
    exact no_parts_of_same hff hplain (hroot.got_eq e hgot) (hacts.got_eq e hgot)
  | createDirectory =>
    obtain ⟨e, hgot⟩ := handed_of_isOk (fun d : FatfsSysDir Dir => dirEntry d.inner) hok
    exact no_parts_of_same hff hplain (hroot.got_eq e hgot) (hacts.got_eq e hgot)
  | openFile =>
    obtain ⟨e, hgot⟩ := handed_of_isOk fileEntry hok
    exact no_parts_of_same hff hplain (hroot.got_eq e hgot) (hacts.got_eq e hgot)
  | createFile =>
    obtain ⟨e, hgot⟩ := handed_of_isOk fileEntry hok
    exact no_parts_of_same hff hplain (hroot.got_eq e hgot) (hacts.got_eq e hgot)
  | removePath =>
    obtain ⟨hthere, hgone⟩ := hroot.gone hok
    have hnone := hgone _ rfl
    obtain ⟨e, he⟩ := Option.ne_none_iff_exists'.mp hthere
    have hplain' : Plain (parts q) := fun n hn => hplain n (by
      rw [parts_under]
      exact List.mem_append_right _ hn)
    -- the entry in the root has gone, so it was the one at the joined path
    have hone := (hacts.only (parts q) hplain' (by rw [hnone, he]; exact nofun)).1
    rw [he] at hone
    have hbelow := hone.resolve_left nofun
    exact no_parts_of_same hff hplain he hbelow.symm

omit hff in
theorem parts_under_of_root (hps : ∀ p ∈ ps, parts p = []) (q : String) :
    parts (under ps q) = parts q := by
  rw [parts_under, List.flatMap_eq_nil_iff.mpr hps, List.nil_append]

end FatfsSysDir

/-! ### Both -/

/-- A tree as the places of its entries, each with whether it is a directory. -/
abbrev EntryTree := AList fun _ : Path => Bool

namespace EntryTree

/-- What is at a place; the root is a directory. -/
def entry (v : EntryTree) (k : Path) : Option (Path × Bool) :=
  if k = [] then some ([], true) else (v.lookup k).map fun isDir => (k, isDir)

/-- Open an entry, or report that it is not there. -/
def openAt (v : EntryTree) (k : Path) (isDir : Bool) : Except IoError (Path × EntryTree) :=
  if entry v k = some (k, isDir) then .ok (k, v) else .error ⟨.notFound, none⟩

/-- Make an entry where there is none, in a directory. -/
def createAt (v : EntryTree) (k : Path) (isDir : Bool) : Except IoError (Path × EntryTree) :=
  if entry v k = none ∧ entry v k.dropLast = some (k.dropLast, true) then .ok (k, v.insert k isDir)
  else .error ⟨.alreadyExists, none⟩

def removeAt (v : EntryTree) (k : Path) : Except IoError (Path × EntryTree) :=
  if k ≠ [] ∧ entry v k ≠ none then .ok (k, v.erase k) else .error ⟨.notFound, none⟩

/-- The outcome of an operation of `fatfs`. -/
def outcome (v : EntryTree) (r : Except IoError (Path × EntryTree)) : Outcome IoError EntryTree Path :=
  match r with
  | .ok (k, v') => .ok k v'
  | .error e => .err e v

/-- The result of an operation of FatFs. -/
def result (v : EntryTree) (r : Except IoError (Path × EntryTree)) : (FResult × Path) × EntryTree :=
  match r with
  | .ok (k, v') => ((.frOk, k), v')
  | .error _ => ((.frFailed 4, []), v)

/-- The tree behind the `fatfs` crate.  A directory is its place. -/
def dirs : FatfsDirs EntryTree Path Path where
  rootDir := []
  openDir := fun d p v => outcome v (openAt v (d ++ parts p) true)
  createDir := fun d p v => outcome v (createAt v (d ++ parts p) true)
  openFile := fun d p v => outcome v (openAt v (d ++ parts p) false)
  createFile := fun d p v => outcome v (createAt v (d ++ parts p) false)
  remove := fun d p v => (outcome v (removeAt v (d ++ parts p))).andThen fun _ v => .ok () v

/-- The same tree behind FatFs. -/
def fatFs : FatFsPaths EntryTree Path Path where
  fOpen := fun p mode v => result v <|
    if mode = faOpenExisting then openAt v (parts p) false else createAt v (parts p) false
  fOpendir := fun p v => result v (openAt v (parts p) true)
  fMkdir := fun p v =>
    let r := result v (createAt v (parts p) true)
    (r.1.1, r.2)
  fUnlink := fun p v =>
    let r := result v (removeAt v (parts p))
    (r.1.1, r.2)

def view : TreeView EntryTree (Path × Bool) where
  entry := entry
  isDir := Prod.snd
  admits := fun _ => True

def fileAt (k : Path) : Path × Bool := (k, false)

def dirAt (k : Path) : Path × Bool := (k, true)

/-- What an operation hands out. -/
def got {E : Type} (denotes : Path → E) : Except IoError (Path × EntryTree) → Option E
  | .ok (k, _) => some (denotes k)
  | .error _ => none

section Operations

variable {v : EntryTree} {k : Path} {r : Except IoError (Path × EntryTree)}

theorem handed_outcome {E : Type} (denotes : Path → E) :
    handed denotes (outcome v r) = got denotes r := by
  cases r <;> rfl

theorem given_result {E : Type} (denotes : Path → E) :
    given denotes (result v r) = got denotes r := by
  cases r <;> rfl

theorem snd_result : (result v r).2 = (outcome v r).state := by
  cases r <;> rfl

theorem fst_result : decide ((result v r).1.1 = .frOk) = (outcome v r).isOk := by
  cases r <;> rfl

theorem entry_fst {e : Path × Bool} (h : entry v k = some e) : e.1 = k := by
  unfold entry at h
  split at h
  · next hk =>
    cases h
    exact hk.symm
  · obtain ⟨isDir, -, rfl⟩ := Option.map_eq_some_iff.mp h
    rfl

theorem entry_insert (hk : k ≠ []) (isDir : Bool) (k' : Path) :
    entry (v.insert k isDir) k' = if k' = k then some (k, isDir) else entry v k' := by
  by_cases hkk : k' = k
  · subst hkk
    simp [entry, hk]
  · simp [entry, hkk]

theorem entry_erase (hk : k ≠ []) (k' : Path) :
    entry (v.erase k) k' = if k' = k then none else entry v k' := by
  by_cases hkk : k' = k
  · subst hkk
    simp [entry, hk]
  · simp [entry, hkk]

theorem openAt_opens (v : EntryTree) (k : Path) (q : String) (isDir : Bool) :
    OpensAt view isDir q (entry v k) (got (fun k => (k, isDir)) (openAt v k isDir)) v
      (outcome v (openAt v k isDir)).state := by
  unfold openAt
  split
  · next he => exact ⟨rfl, fun e hg => he.trans hg, fun _ _ e hb _ => he.symm.trans hb⟩
  · next he =>
    refine ⟨rfl, nofun, fun _ _ e hb hdir => absurd ?_ he⟩
    obtain rfl := entry_fst hb
    rw [hb, ← hdir]
    rfl

theorem createAt_makes (v : EntryTree) (k : Path) (isDir : Bool) :
    MakesAt view (entry v k) (entry (outcome v (createAt v k isDir)).state k)
      (got (fun k => (k, isDir)) (createAt v k isDir)) v (outcome v (createAt v k isDir)).state := by
  unfold createAt
  split
  · next hfree =>
    have hk : k ≠ [] := by
      rintro rfl
      cases hfree.1
    refine ⟨fun k' e he => ?_, fun k' _ hne => ?_, fun e he => ?_⟩
    · show entry (v.insert k isDir) k' = some e
      rw [entry_insert hk, if_neg]
      · exact he
      · rintro rfl
        cases hfree.1.symm.trans he
    · change entry (v.insert k isDir) k' ≠ entry v k' at hne
      rw [entry_insert hk] at hne
      obtain rfl : k' = k := by
        by_contra hkk
        exact hne (if_neg hkk)
      exact ⟨Or.inr rfl, Or.inr rfl⟩
    · show entry (v.insert k isDir) k = some e
      rw [entry_insert hk, if_pos rfl]
      exact he
  · exact ⟨fun _ _ he => he, fun _ _ hne => absurd rfl hne, nofun⟩

theorem removeAt_removes (v : EntryTree) (k : Path) :
    RemovesAt view (entry v k) (outcome v (removeAt v k)).isOk v (outcome v (removeAt v k)).state := by
  unfold removeAt
  split
  · next hk =>
    refine ⟨fun k' _ hne => ?_, fun _ => ⟨hk.2, fun k' he => ?_⟩⟩
    · change entry (v.erase k) k' ≠ entry v k' at hne
      show _ ∧ (entry (v.erase k) k' = none ∨ entry (v.erase k) k' = none)
      rw [entry_erase hk.1] at hne ⊢
      obtain rfl : k' = k := by
        by_contra hkk
        exact hne (if_neg hkk)
      exact ⟨Or.inr rfl, Or.inl (if_pos rfl)⟩
    · obtain ⟨e, hb⟩ := Option.ne_none_iff_exists'.mp hk.2
      obtain rfl : k' = k := (entry_fst (he.trans hb)).symm.trans (entry_fst hb)
      exact (entry_erase hk.1 k').trans (if_pos rfl)
  · exact ⟨fun _ _ hne => absurd rfl hne, nofun⟩

end Operations

theorem dirs_resolve :
    dirs.ResolvesAgainst view (fun v d k => entry v (d ++ k)) fileAt dirAt where
  entry_eq := fun _ _ => rfl
  root := fun _ => rfl
  below_append := fun {v d k d'} k' h => by
    have hd : d' = d ++ k := entry_fst h
    rw [hd, List.append_assoc]
  openDir := fun {v d k} p _ => by
    have hopens := openAt_opens v (d ++ parts p) p true
    rw [← handed_outcome] at hopens
    exact hopens
  createDir := fun {v d k} p _ => by
    have hmakes := createAt_makes v (d ++ parts p) true
    rw [← handed_outcome] at hmakes
    exact hmakes
  openFile := fun {v d k} p _ => by
    have hopens := openAt_opens v (d ++ parts p) p false
    rw [← handed_outcome] at hopens
    exact hopens
  createFile := fun {v d k} p _ => by
    have hmakes := createAt_makes v (d ++ parts p) false
    rw [← handed_outcome] at hmakes
    exact hmakes
  remove := fun {v d k} p _ _ => by
    have hremoves := removeAt_removes v (d ++ parts p)
    simp only [dirs]
    cases hr : removeAt v (d ++ parts p) with
    | ok x =>
      rw [hr] at hremoves
      exact hremoves
    | error e =>
      rw [hr] at hremoves
      exact hremoves

theorem fatFs_resolves : fatFs.ResolvesFromRoot view fileAt dirAt where
  depth := fun _ _ h h' => by
    rw [← entry_fst h, ← entry_fst h']
  fOpendir := fun {p} v _ => by
    have hopens := openAt_opens v (parts p) p true
    rw [← given_result, ← snd_result] at hopens
    exact hopens
  fMkdir := fun {p} v _ => by
    have hmakes := createAt_makes v (parts p) true
    rw [← snd_result] at hmakes
    exact ⟨hmakes.kept, hmakes.only, nofun⟩
  fOpen := fun {p} v _ => by
    have hopens := openAt_opens v (parts p) p false
    rw [← given_result, ← snd_result] at hopens
    exact hopens
  fOpen_new := fun {p} v _ => by
    have hmakes := createAt_makes v (parts p) false
    rw [← given_result, ← snd_result] at hmakes
    exact hmakes
  fUnlink := fun {p} v _ => by
    have hremoves := removeAt_removes v (parts p)
    rw [← fst_result, ← snd_result] at hremoves
    exact hremoves

/-- A directory `a` with a file `x`, beside another file `x` in the root. -/
def twoNames : EntryTree :=
  (((∅ : EntryTree).insert [['a']] true).insert [['a'], ['x']] false).insert [['x']] false

end EntryTree

open DirectoryOps EntryTree

theorem obtained_dirs : Obtained (FatfsDirectory.directoryOps dirs) view (FatfsDirectory.root dirs) ["a"]
    ⟨[['a']]⟩ twoNames := by
  have hroot : Obtained (FatfsDirectory.directoryOps dirs) view (FatfsDirectory.root dirs) []
      (FatfsDirectory.root dirs) twoNames := .root twoNames
  have hopen : (FatfsDirectory.directoryOps dirs).openDirectory (FatfsDirectory.root dirs) "a" twoNames =
      .ok ⟨[['a']]⟩ twoNames := rfl
  exact hroot.opened (by decide) (by decide) hopen

theorem obtained_fatFs :
    Obtained (FatfsSysDir.directoryOps fatFs) view ⟨[]⟩ ["a"] ⟨[['a']]⟩ twoNames := by
  have hroot : Obtained (FatfsSysDir.directoryOps fatFs) view ⟨[]⟩ [] ⟨[]⟩ twoNames := .root twoNames
  have hopen : (FatfsSysDir.directoryOps fatFs).openDirectory ⟨[]⟩ "a" twoNames =
      .ok ⟨[['a']]⟩ twoNames := rfl
  exact hroot.opened (by decide) (by decide) hopen

end FatDrive
