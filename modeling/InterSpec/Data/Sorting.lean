import Mathlib.Data.List.Sort

/-!
# Sorting by a key

`sorted(l, key=key)`: a stable sort that compares keys only.

* `Sorting.filter_sortBy`: the elements of one key keep their order.
* `Sorting.sortBy_eq_of_perm`: the order of the input does not matter when the key
  separates the elements.
* `Sorting.eq_of_sortBy_swap`: and it matters as soon as it does not.
* `Sorting.sorted_eq_of_mem_iff`: a sorted list without repetition is determined by
  its elements.
-/

namespace Sorting

variable {α κ : Type} [LinearOrder κ]

def sortBy (key : α → κ) (l : List α) : List α := l.insertionSort (fun a b => key a ≤ key b)

theorem sortBy_perm (key : α → κ) (l : List α) : (sortBy key l).Perm l :=
  List.perm_insertionSort _ l

theorem mem_sortBy {key : α → κ} {l : List α} {a : α} : a ∈ sortBy key l ↔ a ∈ l :=
  (sortBy_perm key l).mem_iff

theorem pairwise_sortBy (key : α → κ) (l : List α) :
    (sortBy key l).Pairwise (fun a b => key a ≤ key b) :=
  haveI : IsTrans α (fun a b => key a ≤ key b) := ⟨fun _ _ _ => le_trans⟩
  haveI : Std.Total (fun a b : α => key a ≤ key b) := ⟨fun a b => le_total (key a) (key b)⟩
  List.pairwise_insertionSort _ l

/-! ### Stability -/

theorem filter_orderedInsert (key : α → κ) (k : κ) (a : α) (l : List α) :
    (l.orderedInsert (fun a b => key a ≤ key b) a).filter (fun x => decide (key x = k)) =
      (a :: l).filter (fun x => decide (key x = k)) := by
  induction l with
  | nil => rfl
  | cons b l ih =>
    rw [List.orderedInsert_cons]
    by_cases hab : key a ≤ key b
    · rw [if_pos hab]
    · rw [if_neg hab, List.filter_cons, ih]
      -- `a` passes `b` only when their keys differ, so at most one of them is kept
      by_cases ha : key a = k
      · have hb : key b ≠ k := fun hb => hab (ha.trans hb.symm).le
        simp [ha, hb]
      · simp [List.filter_cons, ha]

/-- **The elements of one key stand in the sorted list as in the input.** -/
theorem filter_sortBy (key : α → κ) (k : κ) (l : List α) :
    (sortBy key l).filter (fun x => decide (key x = k)) =
      l.filter (fun x => decide (key x = k)) := by
  induction l with
  | nil => rfl
  | cons a l ih =>
    rw [sortBy, List.insertionSort_cons, filter_orderedInsert, List.filter_cons,
      List.filter_cons]
    exact congrArg (fun t => if decide (key a = k) = true then a :: t else t) ih

/-! ### The order of the input -/

/-- **A key that separates the elements makes the result independent of their order.** -/
theorem sortBy_eq_of_perm {key : α → κ} {l l' : List α}
    (hkey : ∀ a ∈ l, ∀ b ∈ l, key a = key b → a = b) (hl : l'.Perm l) :
    sortBy key l' = sortBy key l := by
  have hperm : (sortBy key l').Perm (sortBy key l) :=
    ((sortBy_perm key l').trans hl).trans (sortBy_perm key l).symm
  apply hperm.eq_of_pairwise _ (pairwise_sortBy key l') (pairwise_sortBy key l)
  intro a b ha hb hab hba
  have ha : a ∈ l := hl.mem_iff.mp (mem_sortBy.mp ha)
  exact hkey a ha b (mem_sortBy.mp hb) (le_antisymm hab hba)

/-- **Two elements of one key that can change places are equal.** -/
theorem eq_of_sortBy_swap {key : α → κ} {a b : α} {l : List α} (hkey : key a = key b)
    (h : sortBy key (a :: b :: l) = sortBy key (b :: a :: l)) : a = b := by
  have hfilter := congrArg (List.filter (fun x => decide (key x = key b))) h
  rw [filter_sortBy, filter_sortBy] at hfilter
  simp only [List.filter_cons, hkey, decide_true, if_true, List.cons.injEq] at hfilter
  exact hfilter.1

theorem eq_of_filterMap_swap {β : Type} {key : α → κ} {f : β → Option α} {x y : β} {a b : α}
    {l : List β} (hx : f x = some a) (hy : f y = some b) (hkey : key a = key b)
    (h : sortBy key ((x :: y :: l).filterMap f) = sortBy key ((y :: x :: l).filterMap f)) :
    a = b := by
  simp only [List.filterMap_cons, hx, hy] at h
  exact eq_of_sortBy_swap hkey h

/-- A sorted list without repetition is determined by its elements. -/
theorem sorted_eq_of_mem_iff {l l' : List κ} (hl : l.Nodup) (hl' : l'.Nodup)
    (hmem : ∀ a, a ∈ l ↔ a ∈ l') : l.insertionSort (· ≤ ·) = l'.insertionSort (· ≤ ·) := by
  have hperm : l'.Perm l := (List.perm_ext_iff_of_nodup hl' hl).mpr (fun a => (hmem a).symm)
  have hsorted : sortBy id l' = sortBy id l := sortBy_eq_of_perm (fun _ _ _ _ h => h) hperm
  exact hsorted.symm

end Sorting
