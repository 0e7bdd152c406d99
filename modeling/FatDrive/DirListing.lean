import FatDrive.DirEntries
import FatDrive.Lib.Prefixes
import Mathlib.Data.List.TakeWhile

/-!
# FatDrive.DirListing — the cached listing of a `FatfsSysDir` over failing reads

`iter` reads the rest of the directory into `children` and drops the error that cut the reading short;
the next `iter` goes on where the `DIR` stands.  `ReadsInOrder` says what FatFs does for this: a
`f_readdir` that succeeds hands out what comes next, one that fails does not advance.

* `rawReaddir_cases`, `readRest_cases`: cached entries and what the `DIR` has left are the directory;
* `lists_shows`: so a listing shows the directory prefix by prefix, as `Lib.Shows` does;
* `readRest_returns`: the loop ends;
* `listing_whole`: what the iterators yield, over any calls and failures.
-/

namespace FatDrive

open Lib

/-! ### The iterator over the children -/

structure FatfsSysDirIter where
  items : List Filesystem.DirEntryData
  idx : ℕ
  deriving DecidableEq, Repr

namespace FatfsSysDirIter

def new (items : List Filesystem.DirEntryData) : FatfsSysDirIter := ⟨items, 0⟩

def next (it : FatfsSysDirIter) : Option Filesystem.DirEntryData × FatfsSysDirIter :=
  (it.items[it.idx]?, { it with idx := usizeAdd it.idx 1 })

/-- The iterator after `n` calls. -/
def after (it : FatfsSysDirIter) : ℕ → FatfsSysDirIter
  | 0 => it
  | n + 1 => (after it n).next.2

theorem after_new (items : List Filesystem.DirEntryData) (n : ℕ) (hn : n < 2 ^ 64) :
    after (new items) n = ⟨items, n⟩ := by
  induction n with
  | zero => rfl
  | succ n ih =>
    rw [after, ih (by omega), next, usizeAdd_of_lt hn]

/-- One item a call, in order, and then none. -/
theorem next_after (items : List Filesystem.DirEntryData) {n : ℕ} (hn : n < 2 ^ 64) :
    ((new items).after n).next.1 = items[n]? := by
  rw [after_new items n hn, next]

end FatfsSysDirIter

namespace FatfsSysListing

variable {τ Dir : Type}

/-- FatFs on a directory, of which `left` is what is left to read. -/
structure ReadsInOrder (ff : FatFsDirs τ Dir) (left : Dir × τ → List FilInfo) : Prop where
  /-- What has no name is the end. -/
  named : ∀ {s fno rest}, left s = fno :: rest → fno.fname.headD 0 ≠ 0
  read_entry : ∀ {s fno rest}, left s = fno :: rest → (ff.fReaddir s).1.1 = .frOk →
    (ff.fReaddir s).1.2 = fno ∧ left (ff.fReaddir s).2 = rest
  read_end : ∀ {s}, left s = [] → (ff.fReaddir s).1.1 = .frOk →
    (ff.fReaddir s).1.2.fname.headD 0 = 0
  read_fails : ∀ {s}, (ff.fReaddir s).1.1 ≠ .frOk → left (ff.fReaddir s).2 = left s

/-- What `iter` yields, or a call of another kind on the volume: it leaves to the `DIR` what it has
left. -/
inductive Lists (ff : FatFsDirs τ Dir) (left : Dir × τ → List FilInfo) :
    FatfsSysListing Dir × τ → Option (List Filesystem.DirEntryData) → FatfsSysListing Dir × τ → Prop
  | iter {self : FatfsSysListing Dir} {v : τ} {items : List Filesystem.DirEntryData}
      {s' : FatfsSysListing Dir × τ} (rounds : ℕ) : iter ff rounds self v = some (items, s') →
      Lists ff left (self, v) (some items) s'
  | others {self : FatfsSysListing Dir} {v v' : τ} : left (self.inner, v') = left (self.inner, v) →
      Lists ff left (self, v) none (self, v')

variable {ff : FatFsDirs τ Dir} {left : Dir × τ → List FilInfo}

/-! ### Reading -/

section Reading

variable (hff : ReadsInOrder ff left)
include hff

/-- **One `raw_readdir`.**  It hands out the next entry, or finds the end, or fails and does not
advance. -/
theorem rawReaddir_cases (s : Dir × τ) :
    (∃ fno s', rawReaddir ff s = .ok (some (entryData ff fno)) s' ∧ left s = fno :: left s') ∨
    (∃ s', rawReaddir ff s = .ok none s' ∧ left s = []) ∨
    ∃ e s', rawReaddir ff s = .err e s' ∧ left s' = left s := by
  unfold rawReaddir
  dsimp only
  by_cases hok : (ff.fReaddir s).1.1 = .frOk
  · have hread : FatfsSysDir.wrapped (ff.fReaddir s).1.2 (ff.fReaddir s).1.1 (ff.fReaddir s).2 =
        .ok (ff.fReaddir s).1.2 (ff.fReaddir s).2 := FatfsSysDir.wrapped_eq_ok.mpr ⟨hok, rfl, rfl⟩
    rw [hread, Outcome.andThen_ok]
    rcases hl : left s with _ | ⟨fno, rest⟩
    · rw [if_pos (hff.read_end hl hok)]
      exact Or.inr (Or.inl ⟨_, rfl, rfl⟩)
    · obtain ⟨hfno, hrest⟩ := hff.read_entry hl hok
      rw [hfno, if_neg (hff.named hl)]
      exact Or.inl ⟨fno, _, rfl, by rw [hrest]⟩
  · obtain ⟨e, s', he⟩ := Outcome.isErr_iff.mp (FatfsSysDir.wrapped_isErr.mpr hok)
    have hstate := FatfsSysDir.wrapped_state (ff.fReaddir s).1.2 (ff.fReaddir s).1.1
      (ff.fReaddir s).2
    rw [he, Outcome.state_err] at hstate
    rw [he, Outcome.andThen_err]
    refine Or.inr (Or.inr ⟨e, s', rfl, ?_⟩)
    rw [hstate]
    exact hff.read_fails hok

/-- **The loop.**  It has pushed all that was left, or a part of it and the `DIR` has the rest. -/
theorem readRest_cases {rounds : ℕ} {s : Dir × τ} {children : List Filesystem.DirEntryData}
    {r : Outcome IoError ((Dir × τ) × List Filesystem.DirEntryData) Unit}
    (h : readRest ff rounds s children = some r) :
    (∃ s', r = .ok () (s', children ++ (left s).map (entryData ff))) ∨
    ∃ e s' found, r = .err e (s', children ++ found) ∧
      found ++ (left s').map (entryData ff) = (left s).map (entryData ff) := by
  induction rounds generalizing s children with
  | zero => simp [readRest] at h
  | succ rounds ih =>
    rw [readRest] at h
    rcases rawReaddir_cases hff s with ⟨fno, s₁, hr, hl⟩ | ⟨s₁, hr, hl⟩ | ⟨e, s₁, hr, hl⟩
    · -- the entry is pushed, and the rest follows it
      rw [hr] at h
      rw [hl, List.map_cons]
      rcases ih h with ⟨s', hs⟩ | ⟨e, s', found, hs, hfound⟩
      · exact Or.inl ⟨s', by rw [hs, List.append_assoc, List.singleton_append]⟩
      · refine Or.inr ⟨e, s', entryData ff fno :: found, ?_, by rw [List.cons_append, hfound]⟩
        rw [hs, List.append_assoc, List.singleton_append]
    · rw [hr] at h
      simp only [Option.some.injEq] at h
      exact Or.inl ⟨s₁, by rw [← h, hl, List.map_nil, List.append_nil]⟩
    · rw [hr] at h
      simp only [Option.some.injEq] at h
      exact Or.inr ⟨e, s₁, [], by rw [← h, List.append_nil], by rw [hl, List.nil_append]⟩

/-- The loop ends: a round that does not end it takes an entry. -/
theorem readRest_returns {rounds : ℕ} {s : Dir × τ} (children : List Filesystem.DirEntryData)
    (h : (left s).length < rounds) : ∃ r, readRest ff rounds s children = some r := by
  induction rounds generalizing s children with
  | zero => omega
  | succ rounds ih =>
    rw [readRest]
    rcases rawReaddir_cases hff s with ⟨fno, s₁, hr, hl⟩ | ⟨s₁, hr, -⟩ | ⟨e, s₁, hr, -⟩
    · rw [hr]
      refine ih _ ?_
      rw [hl, List.length_cons] at h
      omega
    · rw [hr]
      exact ⟨_, rfl⟩
    · rw [hr]
      exact ⟨_, rfl⟩

end Reading

/-! ### The cache -/

/-- The entries of what the `DIR` has left. -/
def entriesLeft (ff : FatFsDirs τ Dir) (left : Dir × τ → List FilInfo)
    (s : FatfsSysListing Dir × τ) : List Filesystem.DirEntryData :=
  (left (s.1.inner, s.2)).map (entryData ff)

/-- The children are what has been shown of `whole`; the `DIR` has the rest as long as it is read. -/
structure Caches (ff : FatFsDirs τ Dir) (left : Dir × τ → List FilInfo)
    {whole : List Filesystem.DirEntryData} (s : FatfsSysListing Dir × τ) (t : Shown whole) : Prop where
  items_eq : t.items = s.1.children
  complete_eq : t.complete = s.1.finishedReadingChildren
  append_left : s.1.finishedReadingChildren = false → s.1.children ++ entriesLeft ff left s = whole

variable {whole : List Filesystem.DirEntryData} {self : FatfsSysListing Dir} {v : τ}
  {t : Shown whole} {rounds : ℕ}

theorem caches_new (inner : Dir) (v : τ) :
    Caches ff left (fromInner inner, v) (Shown.nothing (entriesLeft ff left (fromInner inner, v))) :=
  ⟨rfl, rfl, fun _ => List.nil_append _⟩

/-- Once all children are read, `iter` has nothing to ask FatFs for. -/
theorem iter_finished (h : self.finishedReadingChildren = true) (ff : FatFsDirs τ Dir) (rounds : ℕ)
    (v : τ) : iter ff rounds self v = some (self.children, self, v) := by
  simp [iter, loadChildren, h]

section Cache

variable (hff : ReadsInOrder ff left)
include hff

/-- **`load_children`** leaves more of the directory in the cache, and all of it if it returns `Ok`. -/
theorem loadChildren_caches (hc : Caches ff left (self, v) t)
    {r : Outcome IoError (FatfsSysListing Dir × τ) Unit}
    (h : loadChildren ff rounds self v = some r) :
    ∃ t' : Shown whole, Shows whole t (some t'.items) t' ∧ Caches ff left r.state t' ∧
      (r.isOk = true → t'.complete = true) := by
  unfold loadChildren at h
  split at h
  · next hfin =>
    simp only [Option.some.injEq] at h
    subst h
    exact ⟨t, .more List.prefix_rfl id, hc, fun _ => hc.complete_eq.trans hfin⟩
  · next hfin =>
    have hfin' : self.finishedReadingChildren = false := by simpa using hfin
    have happ : self.children ++ (left (self.inner, v)).map (entryData ff) = whole :=
      hc.append_left hfin'
    have hcomp : t.complete = true → False := by
      rw [hc.complete_eq]
      exact hfin
    obtain ⟨x, hx, rfl⟩ := Option.map_eq_some_iff.mp h
    rcases readRest_cases hff hx with ⟨s', rfl⟩ | ⟨e, s', found, rfl, hfound⟩
    · refine ⟨.all whole, .more t.items_prefix fun _ => rfl, ⟨happ.symm, rfl, ?_⟩, fun _ => rfl⟩
      intro hfalse
      simp [Outcome.state] at hfalse
    · -- what was found is in the cache, what was not is still in the directory
      have hrest : (self.children ++ found) ++ (left s').map (entryData ff) = whole := by
        rw [List.append_assoc, hfound, happ]
      refine ⟨⟨self.children ++ found, false, ⟨_, hrest⟩, fun hct => by cases hct⟩,
        .more ?_ fun hct => (hcomp hct).elim, ⟨rfl, rfl, fun _ => hrest⟩,
        fun hok => by simp [Outcome.isOk] at hok⟩
      rw [hc.items_eq]
      exact List.prefix_append _ _

/-- **A listing shows the directory** prefix by prefix. -/
theorem lists_shows {s s' : FatfsSysListing Dir × τ} {l : Option (List Filesystem.DirEntryData)}
    (hc : Caches ff left s t) (hstep : Lists ff left s l s') :
    ∃ t' : Shown whole, Shows whole t l t' ∧ Caches ff left s' t' := by
  cases hstep with
  | iter rounds hiter =>
    obtain ⟨r, hr, heq⟩ := Option.map_eq_some_iff.mp hiter
    obtain ⟨t', hshow, hc', -⟩ := loadChildren_caches hff hc hr
    simp only [Prod.mk.injEq] at heq
    obtain ⟨hitems, rfl⟩ := heq
    rw [hc'.items_eq, hitems] at hshow
    exact ⟨t', hshow, hc'⟩
  | others hleft =>
    refine ⟨t, .quiet t, hc.items_eq, hc.complete_eq, fun hfin => ?_⟩
    rw [← hc.append_left hfin]
    simp only [entriesLeft, hleft]

/-- A run from a cache is a run of the abstract listing. -/
theorem run_shows {s s' : FatfsSysListing Dir × τ}
    {ls : List (Option (List Filesystem.DirEntryData))} (hc : Caches ff left s t)
    (hrun : Run (Lists ff left) s ls s') :
    ∃ t' : Shown whole, Run (Shows whole) t ls t' ∧ Caches ff left s' t' := by
  have hstep : ∀ s l s' (t : Shown whole), Caches ff left s t → Lists ff left s l s' →
      ∃ t' : Shown whole, Shows whole t l t' ∧ Caches ff left s' t' := by
    intro s l s' t hc hl
    exact lists_shows hff hc hl
  exact hrun.simulates hstep t hc

/-- With more rounds than the directory has entries, `iter` returns. -/
theorem iter_returns (hc : Caches ff left (self, v) t) (hr : whole.length < rounds) :
    ∃ items s', iter ff rounds self v = some (items, s') := by
  by_cases hfin : self.finishedReadingChildren = true
  · exact ⟨_, _, iter_finished hfin ff rounds v⟩
  · -- what is left is no more than there is
    have hwhole := congrArg List.length (hc.append_left (by simpa using hfin))
    simp only [entriesLeft, List.length_append, List.length_map] at hwhole
    have hlt : (left (self.inner, v)).length < rounds := by omega
    obtain ⟨x, hx⟩ := readRest_returns hff self.children hlt
    unfold iter loadChildren
    rw [if_neg hfin, hx]
    exact ⟨_, _, rfl⟩

end Cache

/-- **The cached listing** neither loses nor repeats entries.  Over any calls of `iter`, whatever fails
among the reads: each yields a prefix of the directory, item by item; none is shorter than one before;
every call returns; and from the first `load_children` that returns `Ok` on, each yields the whole
directory, whatever FatFs would answer by then. -/
theorem listing_whole (hff : ReadsInOrder ff left) {inner : Dir} {v v' : τ}
    {self : FatfsSysListing Dir} {ls : List (Option (List Filesystem.DirEntryData))}
    (hrun : Run (Lists ff left) (fromInner inner, v) ls (self, v')) :
    (∀ items, some items ∈ ls → items <+: (left (inner, v)).map (entryData ff) ∧
      ∀ n < 2 ^ 64, ((FatfsSysDirIter.new items).after n).next.1 = items[n]?) ∧
    ls.reduceOption.Pairwise (· <+: ·) ∧
    (∀ rounds, (left (inner, v)).length < rounds →
      ∃ items s', iter ff rounds self v' = some (items, s')) ∧
    ∀ rounds s₁, loadChildren ff rounds self v' = some (.ok () s₁) →
      iter ff rounds self v' = some ((left (inner, v)).map (entryData ff), s₁) ∧
      ∀ ls' self₂ v₂, Run (Lists ff left) s₁ ls' (self₂, v₂) →
        (∀ items, some items ∈ ls' → items = (left (inner, v)).map (entryData ff)) ∧
        ∀ (ff' : FatFsDirs τ Dir) (rounds' : ℕ) (v₃ : τ),
          iter ff' rounds' self₂ v₃ = some ((left (inner, v)).map (entryData ff), self₂, v₃) := by
  obtain ⟨t, hshown, hc⟩ := run_shows hff (caches_new inner v) hrun
  refine ⟨fun items hmem => ⟨(Shows.prefixes hshown hmem).2, fun n hn => ?_⟩,
    Shows.pairwise hshown, fun rounds hr => ?_, fun rounds s₁ hload => ?_⟩
  · exact FatfsSysDirIter.next_after items hn
  · refine iter_returns hff hc ?_
    rw [entriesLeft, List.length_map]
    exact hr
  · obtain ⟨t₁, -, hc₁, hok⟩ := loadChildren_caches hff hc hload
    have hcomp : t₁.complete = true := hok rfl
    have hchildren : s₁.1.children = (left (inner, v)).map (entryData ff) :=
      hc₁.items_eq.symm.trans (t₁.items_eq hcomp)
    refine ⟨by rw [iter, hload, ← hchildren]; rfl, fun ls' self₂ v₂ hrun₂ => ?_⟩
    obtain ⟨t₂, hshown₂, hc₂⟩ := run_shows hff hc₁ hrun₂
    have hcomp₂ := Shows.complete hshown₂ hcomp
    refine ⟨fun items hmem => Shows.eq_whole hshown₂ hcomp hmem, fun ff' rounds' v₃ => ?_⟩
    rw [iter_finished (hc₂.complete_eq.symm.trans hcomp₂), ← hc₂.items_eq, t₂.items_eq hcomp₂]
    rfl

/-- The directory of `sampleDirs` on a volume that fails where its state says so. -/
def flakyDirs : FatFsDirs (List Bool) (List FilInfo) where
  fReaddir s :=
    if s.2.headD false then ((.frFailed 1, ⟨[0], 0, 0⟩), s.1, s.2.tail)
    else ((.frOk, s.1.headD ⟨[0], 0, 0⟩), s.1.tail, s.2.tail)
  toStringLossy := sampleDirs.toStringLossy

theorem flakyDirs_cases (s : List FilInfo × List Bool) :
    flakyDirs.fReaddir s = ((.frFailed 1, ⟨[0], 0, 0⟩), s.1, s.2.tail) ∨
    flakyDirs.fReaddir s = ((.frOk, s.1.headD ⟨[0], 0, 0⟩), s.1.tail, s.2.tail) := by
  unfold flakyDirs
  dsimp only
  split
  · exact Or.inl rfl
  · exact Or.inr rfl

/-- The records up to the first without a name. -/
def flakyLeft (s : List FilInfo × List Bool) : List FilInfo :=
  s.1.takeWhile fun fno => fno.fname.headD 0 ≠ 0

theorem flakyDirs_readsInOrder : ReadsInOrder flakyDirs flakyLeft where
  named := by
    intro s fno rest h
    have hmem : fno ∈ flakyLeft s := by simp [h]
    simpa using List.mem_takeWhile_imp hmem
  read_entry := by
    rintro ⟨_ | ⟨fno', infos⟩, fails⟩ fno rest h hok
    · simp [flakyLeft] at h
    · rcases flakyDirs_cases (fno' :: infos, fails) with hr | hr
      · simp [hr] at hok
      · simp only [flakyLeft, List.takeWhile_cons] at h
        split at h
        · rw [hr]
          exact List.cons.inj h
        · simp at h
  read_end := by
    rintro ⟨_ | ⟨fno, infos⟩, fails⟩ h hok
    · rcases flakyDirs_cases ([], fails) with hr | hr <;> simp [hr]
    · rcases flakyDirs_cases (fno :: infos, fails) with hr | hr
      · simp [hr]
      · rw [hr]
        show fno.fname.headD 0 = 0
        simp only [flakyLeft, List.takeWhile_cons] at h
        split at h
        · simp at h
        · next hunnamed => simpa using hunnamed
  read_fails := by
    rintro ⟨infos, fails⟩ herr
    rcases flakyDirs_cases (infos, fails) with hr | hr
    · rw [hr]
      rfl
    · simp [hr] at herr

/-- A listing cut short after one entry, and the same directory listed again. -/
theorem listing_whole_resumed :
    [⟨"d", 0, 0x10⟩] <+: (flakyLeft (sampleInfos, [false, true])).map (entryData flakyDirs) ∧
    ∀ (ff : FatFsDirs (List Bool) (List FilInfo)) (rounds : ℕ) (v : List Bool),
      iter ff rounds ⟨⟨[]⟩, [⟨"d", 0, 0x10⟩, ⟨"a", 5, 0x20⟩], true⟩ v =
        some ((flakyLeft (sampleInfos, [false, true])).map (entryData flakyDirs),
          ⟨⟨[]⟩, [⟨"d", 0, 0x10⟩, ⟨"a", 5, 0x20⟩], true⟩, v) := by
  have hrun : Run (Lists flakyDirs flakyLeft) (fromInner sampleInfos, [false, true])
      [some [⟨"d", 0, 0x10⟩], none]
      (⟨⟨sampleInfos.tail⟩, [⟨"d", 0, 0x10⟩], false⟩, [false, false]) :=
    .cons (.iter 3 rfl) (.single (.others rfl))
  obtain ⟨hitems, -, -, hload⟩ := listing_whole flakyDirs_readsInOrder hrun
  obtain ⟨-, hlater⟩ := hload 3 (⟨⟨[]⟩, [⟨"d", 0, 0x10⟩, ⟨"a", 5, 0x20⟩], true⟩, []) rfl
  exact ⟨(hitems _ (List.mem_cons_self ..)).1, (hlater [] _ _ (.nil _)).2⟩

end FatfsSysListing

end FatDrive
