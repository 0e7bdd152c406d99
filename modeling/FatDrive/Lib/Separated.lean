import Mathlib.Data.List.DropRight

/-!
# FatDrive.Lib.Separated — lists cut at a separator

`pieces sep l` are the non-empty parts of `l` between separators: what is left of a list once the
number of separators at each place does not matter.

* `replacePairs`: one pass that makes one separator of two, wherever it finds two;
* `trimEnd`: the separators at the end are dropped;
* `rsplitOnce`: what stands before the last separator, if there is one, and what stands after it.

Each keeps the pieces, or cuts off the last one.
-/

namespace FatDrive.Lib

variable {α : Type*} [DecidableEq α] {sep : α}

/-- The non-empty parts between separators. -/
def pieces (sep : α) (l : List α) : List (List α) := (l.splitOn sep).filter fun p => p ≠ []

@[simp] theorem pieces_nil : pieces sep ([] : List α) = [] := rfl

theorem pieces_append_cons (l l' : List α) :
    pieces sep (l ++ sep :: l') = pieces sep l ++ pieces sep l' := by
  unfold pieces
  rw [List.splitOn_append_cons_self, List.filter_append]

@[simp] theorem pieces_sep_cons (l : List α) : pieces sep (sep :: l) = pieces sep l :=
  pieces_append_cons [] l

@[simp] theorem pieces_append_sep (l : List α) : pieces sep (l ++ [sep]) = pieces sep l := by
  rw [pieces_append_cons, pieces_nil, List.append_nil]

/-- A list without separators is a piece. -/
theorem pieces_of_notMem {l : List α} (h : sep ∉ l) :
    pieces sep l = if l = [] then [] else [l] := by
  unfold pieces
  rw [List.splitOn_eq_singleton h]
  by_cases hl : l = [] <;> simp [hl]

/-! ### Pairs of separators -/

/-- Every pair of separators, from the left, is made one separator.  What comes out is not looked at
again: of `n` separators in a row half are left, rounded up. -/
def replacePairs (sep : α) : List α → List α
  | [] => []
  | [a] => [a]
  | a :: b :: l =>
    if a = sep ∧ b = sep then sep :: replacePairs sep l else a :: replacePairs sep (b :: l)

/-- The same pieces, up to the first separator as well. -/
def SamePieces (sep : α) (l l' : List α) : Prop :=
  (l.splitOn sep).head? = (l'.splitOn sep).head? ∧
    ((l.splitOn sep).tail.filter fun p => p ≠ []) = (l'.splitOn sep).tail.filter fun p => p ≠ []

theorem SamePieces.refl (l : List α) : SamePieces sep l l := ⟨rfl, rfl⟩

theorem SamePieces.pieces_eq {l l' : List α} (h : SamePieces sep l l') :
    pieces sep l = pieces sep l' := by
  obtain ⟨hhead, htail⟩ := h
  unfold pieces
  cases hl : l.splitOn sep with
  | nil => exact absurd hl (List.splitOn_ne_nil _ _)
  | cons p ps =>
    cases hl' : l'.splitOn sep with
    | nil => exact absurd hl' (List.splitOn_ne_nil _ _)
    | cons p' ps' =>
      rw [hl, hl'] at hhead htail
      cases hhead
      simp only [List.filter_cons, List.tail_cons] at htail ⊢
      rw [htail]

theorem SamePieces.cons {l l' : List α} (h : SamePieces sep l l') (a : α) :
    SamePieces sep (a :: l) (a :: l') := by
  by_cases ha : a = sep
  · subst ha
    have hp := h.pieces_eq
    unfold SamePieces
    simp only [List.splitOn_cons_eq_if_modifyHead, beq_self_eq_true, if_true, List.head?_cons,
      List.tail_cons, true_and]
    exact hp
  · obtain ⟨hhead, htail⟩ := h
    unfold SamePieces
    simp only [List.splitOn_cons_eq_if_modifyHead, beq_iff_eq, ha, if_false, List.head?_modifyHead,
      List.tail_modifyHead]
    exact ⟨by rw [hhead], htail⟩

theorem SamePieces.trans {l l' l'' : List α} (h : SamePieces sep l l') (h' : SamePieces sep l' l'') :
    SamePieces sep l l'' := ⟨h.1.trans h'.1, h.2.trans h'.2⟩

/-- A separator more between two pieces. -/
theorem samePieces_twice (l : List α) : SamePieces sep (sep :: l) (sep :: sep :: l) := by
  unfold SamePieces
  simp [List.splitOn_cons_eq_if_modifyHead]

theorem samePieces_replacePairs (l : List α) : SamePieces sep (replacePairs sep l) l := by
  fun_induction replacePairs sep l with
  | case1 => exact .refl _
  | case2 a => exact .refl _
  | case3 a b l h ih =>
    obtain ⟨rfl, rfl⟩ := h
    exact (ih.cons _).trans (samePieces_twice l)
  | case4 a b l h ih => exact ih.cons a

@[simp] theorem pieces_replacePairs (l : List α) : pieces sep (replacePairs sep l) = pieces sep l :=
  (samePieces_replacePairs l).pieces_eq

/-! ### The end of a list -/

/-- The separators at the end are dropped. -/
def trimEnd (sep : α) (l : List α) : List α := l.rdropWhile fun a => a = sep

@[simp] theorem pieces_trimEnd (l : List α) : pieces sep (trimEnd sep l) = pieces sep l := by
  unfold trimEnd
  induction l using List.reverseRecOn with
  | nil => rfl
  | append_singleton l a ih =>
    by_cases ha : a = sep
    · have hdrop := List.rdropWhile_concat_pos (fun a => decide (a = sep)) l a (decide_eq_true ha)
      rw [hdrop, ih, ha, pieces_append_sep]
    · rw [List.rdropWhile_concat_neg _ _ _ (by simpa using ha)]

theorem trimEnd_not_sep (l l' : List α) : trimEnd sep l ≠ l' ++ [sep] := by
  intro h
  have hne : l.rdropWhile (fun a => decide (a = sep)) ≠ [] := by
    intro h0
    have hnil : l' ++ [sep] = [] := h.symm.trans h0
    simp at hnil
  have hlast := List.rdropWhile_last_not (fun a => decide (a = sep)) l hne
  refine hlast ?_
  have hget : (l.rdropWhile fun a => decide (a = sep)).getLast hne = sep := by
    have heq : l.rdropWhile (fun a => decide (a = sep)) = l' ++ [sep] := h
    simp only [heq, List.getLast_append_singleton]
  rw [hget]
  exact decide_eq_true rfl

/-- What has no separator has none to drop. -/
theorem trimEnd_of_notMem {l : List α} (h : sep ∉ l) : trimEnd sep l = l := by
  refine List.rdropWhile_eq_self_iff.mpr fun hl hlast => h ?_
  rw [← of_decide_eq_true hlast]
  exact List.getLast_mem hl

/-! ### The last separator -/

/-- What stands before the last separator, if there is one, and what stands after it. -/
def rsplitOnce (sep : α) : List α → Option (List α) × List α
  | [] => (none, [])
  | a :: l =>
    match rsplitOnce sep l with
    | (some before, last) => (some (a :: before), last)
    | (none, last) => if a = sep then (some [], last) else (none, a :: last)

/-- The two parts put together again. -/
def rejoin (sep : α) : Option (List α) × List α → List α
  | (none, last) => last
  | (some before, last) => before ++ sep :: last

theorem rejoin_rsplitOnce (l : List α) : rejoin sep (rsplitOnce sep l) = l := by
  fun_induction rsplitOnce sep l with
  | case1 => rfl
  | case2 a l before last h ih =>
    rw [h] at ih
    exact congrArg (a :: ·) ih
  | case3 l last h ih =>
    rw [h] at ih
    exact congrArg (sep :: ·) ih
  | case4 a l last h ha ih =>
    rw [h] at ih
    exact congrArg (a :: ·) ih

theorem notMem_rsplitOnce (l : List α) : sep ∉ (rsplitOnce sep l).2 := by
  fun_induction rsplitOnce sep l with
  | case1 => simp
  | case2 a l before last h ih =>
    rw [h] at ih
    exact ih
  | case3 l last h ih =>
    rw [h] at ih
    exact ih
  | case4 a l last h ha ih =>
    rw [h] at ih
    intro hmem
    rcases List.mem_cons.mp hmem with hs | hs
    · exact ha hs.symm
    · exact ih hs

/-- A list that does not end in a separator has a piece, unless it is empty. -/
theorem eq_nil_of_pieces {l : List α} (hl : ∀ l', l ≠ l' ++ [sep]) (hp : pieces sep l = []) :
    l = [] := by
  have hjoin : rejoin sep (rsplitOnce sep l) = l := rejoin_rsplitOnce l
  have hlast : sep ∉ (rsplitOnce sep l).2 := notMem_rsplitOnce l
  generalize rsplitOnce sep l = parts at hjoin hlast
  obtain ⟨before, last⟩ := parts
  have hnil : pieces sep last = [] := by
    cases before with
    | none => rw [show last = l from hjoin, hp]
    | some before =>
      have happ : pieces sep before ++ pieces sep last = [] := by
        rw [← pieces_append_cons, show before ++ sep :: last = l from hjoin, hp]
      exact (List.append_eq_nil_iff.mp happ).2
  have hempty : last = [] := by
    by_contra hne
    rw [pieces_of_notMem hlast, if_neg hne] at hnil
    cases hnil
  cases before with
  | none => exact (show last = l from hjoin).symm.trans hempty
  | some before =>
    refine absurd ?_ (hl before)
    rw [← show before ++ sep :: last = l from hjoin, hempty]

/-- A list that does not end in a separator: its last piece stands after the last separator. -/
theorem pieces_rsplitOnce {l : List α} (hl : ∀ l', l ≠ l' ++ [sep]) (hp : pieces sep l ≠ []) :
    pieces sep l = pieces sep ((rsplitOnce sep l).1.getD []) ++ [(rsplitOnce sep l).2] := by
  have hjoin : rejoin sep (rsplitOnce sep l) = l := rejoin_rsplitOnce l
  have hlast : sep ∉ (rsplitOnce sep l).2 := notMem_rsplitOnce l
  generalize rsplitOnce sep l = parts at hjoin hlast ⊢
  obtain ⟨before, last⟩ := parts
  cases before with
  | none =>
    have hl' : last = l := hjoin
    subst hl'
    have hne : last ≠ [] := by
      rintro rfl
      exact hp rfl
    rw [pieces_of_notMem hlast, if_neg hne]
    rfl
  | some before =>
    have hl' : before ++ sep :: last = l := hjoin
    have hne : last ≠ [] := by
      rintro rfl
      exact hl before hl'.symm
    rw [← hl', pieces_append_cons, pieces_of_notMem hlast, if_neg hne]
    rfl

end FatDrive.Lib
