import InterSpec.Data.Sorting
import Mathlib.Algebra.BigOperators.Group.List.Basic
import Mathlib.Algebra.Order.Field.Basic

/-!
# Statistics of a list of measurements

The median and the mean of a list, over exact numbers, and its least and its greatest
value.  There is none of them for the empty list, and none of them depends on the order.

* `Statistics.median`: the middle of the sorted values, or the mean of the two middle ones.
* `Statistics.median_total`, `Statistics.mean_total`: a list that is not empty has them.
* `Statistics.median_perm`, `Statistics.mean_perm`, `Statistics.min?_perm`,
  `Statistics.max?_perm`: the order does not matter.
-/

namespace Statistics

variable {α : Type}

/-! ### Least and greatest -/

section Order

variable [LinearOrder α]

theorem min?_perm {l l' : List α} (h : l'.Perm l) : l'.min? = l.min? := by
  apply Option.ext
  intro a
  rw [List.min?_eq_some_iff, List.min?_eq_some_iff, h.mem_iff]
  exact and_congr_right (fun _ => forall_congr' (fun b => imp_congr_left h.mem_iff))

theorem max?_perm {l l' : List α} (h : l'.Perm l) : l'.max? = l.max? := by
  apply Option.ext
  intro a
  rw [List.max?_eq_some_iff, List.max?_eq_some_iff, h.mem_iff]
  exact and_congr_right (fun _ => forall_congr' (fun b => imp_congr_left h.mem_iff))

end Order

/-! ### Mean -/

section Mean

variable [Field α]

def mean (l : List α) : Option α := if l = [] then none else some (l.sum / (l.length : α))

theorem mean_total {l : List α} (h : l ≠ []) : ∃ m, mean l = some m := by
  rw [mean, if_neg h]
  exact ⟨_, rfl⟩

theorem mean_perm {l l' : List α} (h : l'.Perm l) : mean l' = mean l := by
  have hnil : l' = [] ↔ l = [] := by
    rw [← List.length_eq_zero_iff, h.length_eq, List.length_eq_zero_iff]
  simp only [mean, hnil, h.sum_eq, h.length_eq]

end Mean

/-! ### Median -/

variable [Field α] [LinearOrder α]

/-- For the empty list both middle values are missing. -/
def median (l : List α) : Option α :=
  let sorted := Sorting.sortBy id l
  let i := sorted.length / 2
  if sorted.length % 2 = 1 then sorted[i]?
  else do
    let low ← sorted[i - 1]?
    let high ← sorted[i]?
    return (low + high) / 2

theorem median_total {l : List α} (h : l ≠ []) : ∃ m, median l = some m := by
  have hlen : 0 < (Sorting.sortBy id l).length := by
    rw [(Sorting.sortBy_perm id l).length_eq]
    exact List.length_pos_iff.mpr h
  have hget : ∀ i : Nat, i < (Sorting.sortBy id l).length →
      ∃ m, (Sorting.sortBy id l)[i]? = some m := fun i hi => ⟨_, List.getElem?_eq_getElem hi⟩
  unfold median
  by_cases hodd : (Sorting.sortBy id l).length % 2 = 1
  · rw [if_pos hodd]
    exact hget _ (by omega)
  · rw [if_neg hodd]
    obtain ⟨low, hlow⟩ := hget ((Sorting.sortBy id l).length / 2 - 1) (by omega)
    obtain ⟨high, hhigh⟩ := hget ((Sorting.sortBy id l).length / 2) (by omega)
    rw [hlow, hhigh]
    exact ⟨_, rfl⟩

theorem median_perm {l l' : List α} (h : l'.Perm l) : median l' = median l := by
  have hsorted : Sorting.sortBy id l' = Sorting.sortBy id l :=
    Sorting.sortBy_eq_of_perm (fun _ _ _ _ he => he) h
  unfold median
  rw [hsorted]

end Statistics
