import Mathlib.Algebra.Order.Group.Int
import Mathlib.Algebra.BigOperators.Group.List.Basic
import Mathlib.Algebra.Ring.Int.Defs
import Mathlib.Tactic.Common

/-!
# Walks on the integers

A list of integers as the steps of a walk.  Brackets are the case of steps 1, -1 and 0, and
the bracket that closes an open one is where the walk returns.

* `Excursion`: a walk that ends where it starts and is never below.
* `Excursion.append`, `Excursion.nest`: how they are built.
* `Excursion.of_cons_one`: how one that begins with a step up comes apart.
* `firstZero`: a search for the step at which a depth reaches 0.
* `firstZero_eq_iff`: it finds the end of an excursion.
-/

namespace Walk

/-- The steps lead back to the start and never below it. -/
structure Excursion (ws : List Int) : Prop where
  nonneg : ∀ n, 0 ≤ (ws.take n).sum
  sum_eq : ws.sum = 0

theorem Excursion.nil : Excursion [] where
  nonneg n := by simp
  sum_eq := rfl

theorem Excursion.append {u v : List Int} (hu : Excursion u) (hv : Excursion v) :
    Excursion (u ++ v) where
  nonneg n := by
    rw [List.take_append, List.sum_append]
    exact Int.add_nonneg (hu.nonneg n) (hv.nonneg _)
  sum_eq := by rw [List.sum_append, hu.sum_eq, hv.sum_eq, Int.add_zero]

theorem excursion_zero_cons {ws : List Int} : Excursion (0 :: ws) ↔ Excursion ws := by
  constructor
  · intro h
    refine ⟨fun n => ?_, ?_⟩
    · have hn := h.nonneg (n + 1)
      rwa [List.take_succ_cons, List.sum_cons, Int.zero_add] at hn
    · have hsum := h.sum_eq
      rwa [List.sum_cons, Int.zero_add] at hsum
  · intro h
    refine ⟨fun n => ?_, ?_⟩
    · cases n with
      | zero => simp
      | succ n =>
        rw [List.take_succ_cons, List.sum_cons, Int.zero_add]
        exact h.nonneg n
    · rw [List.sum_cons, Int.zero_add, h.sum_eq]

theorem Excursion.of_zeros {ws : List Int} (h : ∀ w ∈ ws, w = 0) : Excursion ws := by
  induction ws with
  | nil => exact .nil
  | cons w ws ih =>
    rw [List.forall_mem_cons] at h
    rw [h.1]
    exact excursion_zero_cons.mpr (ih h.2)

/-- The points of the walk are the ends of its beginnings. -/
theorem excursion_iff {ws : List Int} :
    Excursion ws ↔ (∀ n ≤ ws.length, 0 ≤ (ws.take n).sum) ∧ ws.sum = 0 := by
  constructor
  · intro h
    exact ⟨fun n _ => h.nonneg n, h.sum_eq⟩
  · rintro ⟨hpre, hsum⟩
    refine ⟨fun n => ?_, hsum⟩
    by_cases hn : n ≤ ws.length
    · exact hpre n hn
    · rw [List.take_of_length_le (by omega), hsum]

instance decidableExcursion (ws : List Int) : Decidable (Excursion ws) :=
  decidable_of_iff _ excursion_iff.symm

theorem excursion_zeros_append {zs ws : List Int} (h : ∀ z ∈ zs, z = 0) :
    Excursion (zs ++ ws) ↔ Excursion ws := by
  induction zs with
  | nil => exact Iff.rfl
  | cons z zs ih =>
    rw [List.forall_mem_cons] at h
    rw [List.cons_append, h.1, excursion_zero_cons]
    exact ih h.2

theorem excursion_append_zeros {ws zs : List Int} (h : ∀ z ∈ zs, z = 0) :
    Excursion (ws ++ zs) ↔ Excursion ws := by
  have hzs := Excursion.of_zeros h
  constructor
  · intro hall
    refine ⟨fun n => ?_, ?_⟩
    · have hn := hall.nonneg (min n ws.length)
      rw [List.take_append_of_le_length (Nat.min_le_right _ _), ← List.take_take,
        List.take_length] at hn
      exact hn
    · have hsum := hall.sum_eq
      rwa [List.sum_append, hzs.sum_eq, Int.add_zero] at hsum
  · intro hws
    exact hws.append hzs

/-- An excursion between a step up and a step down, and another one behind it. -/
theorem Excursion.nest {u v : List Int} (hu : Excursion u) (hv : Excursion v) :
    Excursion (1 :: (u ++ -1 :: v)) where
  nonneg n := by
    cases n with
    | zero => simp
    | succ n =>
      have hpre := hu.nonneg n
      rw [List.take_succ_cons, List.sum_cons, List.take_append, List.sum_append]
      by_cases hn : n ≤ u.length
      · rw [Nat.sub_eq_zero_of_le hn, List.take_zero, List.sum_nil]
        omega
      · obtain ⟨k, hk⟩ : ∃ k, n - u.length = k + 1 := ⟨n - u.length - 1, by omega⟩
        have hpost := hv.nonneg k
        rw [hk, List.take_succ_cons, List.sum_cons, List.take_of_length_le (by omega), hu.sum_eq]
        omega
  sum_eq := by
    rw [List.sum_cons, List.sum_append, List.sum_cons, hu.sum_eq, hv.sum_eq]
    omega

/-! ### Walks above 0 -/

theorem above_nil {d : Int} : (∀ n, 1 ≤ d + (([] : List Int).take n).sum) ↔ 1 ≤ d := by
  simp

theorem above_cons {d w : Int} {ws : List Int} :
    (∀ n, 1 ≤ d + ((w :: ws).take n).sum) ↔ 1 ≤ d ∧ ∀ n, 1 ≤ d + w + (ws.take n).sum := by
  constructor
  · intro h
    refine ⟨?_, fun n => ?_⟩
    · have hn := h 0
      rwa [List.take_zero, List.sum_nil, Int.add_zero] at hn
    · have hn := h (n + 1)
      rwa [List.take_succ_cons, List.sum_cons, ← Int.add_assoc] at hn
  · rintro ⟨hd, h⟩ n
    cases n with
    | zero => rwa [List.take_zero, List.sum_nil, Int.add_zero]
    | succ n =>
      rw [List.take_succ_cons, List.sum_cons, ← Int.add_assoc]
      exact h n

/-- **A walk without steps below -1 from `d` to 0 passes through 1 just before it reaches
0 for the first time.** -/
theorem exists_first_zero {ws : List Int} : ∀ {d : Int}, 1 ≤ d → (∀ w ∈ ws, -1 ≤ w) →
    d + ws.sum = 0 → ∃ u v, ws = u ++ -1 :: v ∧ (∀ n, 1 ≤ d + (u.take n).sum) ∧ d + u.sum = 1 := by
  induction ws with
  | nil =>
    intro d hd _ hsum
    rw [List.sum_nil] at hsum
    omega
  | cons w ws ih =>
    intro d hd hws hsum
    rw [List.forall_mem_cons] at hws
    rw [List.sum_cons] at hsum
    have hw := hws.1
    by_cases hzero : d + w = 0
    · refine ⟨[], ws, ?_, above_nil.mpr hd, ?_⟩
      · rw [List.nil_append, show w = -1 by omega]
      · rw [List.sum_nil]
        omega
    · obtain ⟨u, v, rfl, hpre, hu⟩ := ih (d := d + w) (by omega) hws.2 (by omega)
      refine ⟨w :: u, v, rfl, above_cons.mpr ⟨hd, hpre⟩, ?_⟩
      rw [List.sum_cons]
      omega

theorem Excursion.of_cons_one {ws : List Int} (hws : ∀ w ∈ ws, -1 ≤ w)
    (h : Excursion (1 :: ws)) : ∃ u v, ws = u ++ -1 :: v ∧ Excursion u ∧ Excursion v := by
  have hsum := h.sum_eq
  rw [List.sum_cons] at hsum
  obtain ⟨u, v, rfl, hpre, hu⟩ := exists_first_zero (d := 1) (by omega) hws hsum
  refine ⟨u, v, rfl, ⟨fun n => ?_, by omega⟩, ⟨fun n => ?_, ?_⟩⟩
  · have hn := hpre n
    omega
  · have hn := h.nonneg (u.length + 1 + n + 1)
    rw [List.take_succ_cons, List.sum_cons, List.take_append, List.sum_append,
      List.take_of_length_le (by omega), show u.length + 1 + n - u.length = n + 1 by omega,
      List.take_succ_cons, List.sum_cons] at hn
    omega
  · rw [List.sum_append, List.sum_cons] at hsum
    omega

/-! ### The search -/

/-- The position of the step that takes the depth to 0; the first step has the position
`pos`. -/
def firstZero : Int → Nat → List Int → Option Nat
  | _, _, [] => none
  | depth, pos, w :: ws => if depth + w = 0 then some pos else firstZero (depth + w) (pos + 1) ws

theorem firstZero_ge {ws : List Int} : ∀ {depth : Int} {pos q : Nat},
    firstZero depth pos ws = some q → pos ≤ q := by
  induction ws with
  | nil => intro depth pos q h; cases h
  | cons w ws ih =>
    intro depth pos q h
    rw [firstZero] at h
    split at h
    · cases h
      exact Nat.le_refl _
    · exact Nat.le_of_succ_le (ih h)

/-- The search finds a step down when the depth is positive before it and 1 at it. -/
theorem firstZero_eq_iff_of_depth {v ws : List Int} : ∀ {depth : Int} {pos : Nat}, 1 ≤ depth →
    (∀ w ∈ ws, -1 ≤ w) → (firstZero depth pos (ws ++ -1 :: v) = some (pos + ws.length) ↔
      (∀ n, 1 ≤ depth + (ws.take n).sum) ∧ depth + ws.sum = 1) := by
  induction ws with
  | nil =>
    intro depth pos hd _
    rw [List.nil_append, firstZero, List.sum_nil]
    by_cases hzero : depth + -1 = 0
    · rw [if_pos hzero]
      exact iff_of_true rfl ⟨above_nil.mpr hd, by omega⟩
    · rw [if_neg hzero]
      refine iff_of_false (fun h => ?_) (fun h => hzero (by omega))
      have hge := firstZero_ge h
      rw [List.length_nil] at hge
      omega
  | cons w ws ih =>
    intro depth pos hd hws
    rw [List.forall_mem_cons] at hws
    have hw := hws.1
    rw [List.cons_append, firstZero, List.sum_cons, List.length_cons, above_cons]
    by_cases hzero : depth + w = 0
    · rw [if_pos hzero]
      refine iff_of_false (fun h => ?_) (fun h => ?_)
      · have heq := Option.some.inj h
        omega
      · have hone := h.1.2 0
        rw [List.take_zero, List.sum_nil] at hone
        omega
    · rw [if_neg hzero, show pos + (ws.length + 1) = pos + 1 + ws.length by omega,
        ih (by omega) hws.2]
      exact and_congr (and_iff_right hd).symm (by omega)

/-- **The search from depth 1 finds the step down behind an excursion**, and no other. -/
theorem firstZero_eq_iff {ws v : List Int} {pos : Nat} (hws : ∀ w ∈ ws, -1 ≤ w) :
    firstZero 1 pos (ws ++ -1 :: v) = some (pos + ws.length) ↔ Excursion ws := by
  rw [firstZero_eq_iff_of_depth (by omega) hws]
  constructor
  · rintro ⟨hpre, hsum⟩
    exact ⟨fun n => by have hn := hpre n; omega, by omega⟩
  · intro h
    have hsum := h.sum_eq
    exact ⟨fun n => by have hn := h.nonneg n; omega, by omega⟩

theorem firstZero_ne_of_zero {v ws : List Int} : ∀ {depth : Int} {pos : Nat}, depth ≠ 0 →
    firstZero depth pos (ws ++ 0 :: v) ≠ some (pos + ws.length) := by
  induction ws with
  | nil =>
    intro depth pos hd h
    rw [List.nil_append, firstZero, if_neg (by omega)] at h
    have hge := firstZero_ge h
    rw [List.length_nil] at hge
    omega
  | cons w ws ih =>
    intro depth pos hd h
    rw [List.cons_append, firstZero, List.length_cons] at h
    split at h
    · have heq := Option.some.inj h
      omega
    · rename_i hne
      exact ih hne (by rw [h]; congr 1; omega)

end Walk
