import InterSpec.Data.SortedMap
import Mathlib.Order.Monotone.Defs
import Mathlib.Order.Interval.Set.Defs
import Mathlib.Order.Disjoint
import Mathlib.Data.Set.BooleanAlgebra
import Mathlib.Order.CompletePartialOrder

/-!
# Maps of disjoint ranges

A sorted map whose entry `(i, a)` stands for the half-open range
`[start i, stop a)`.  `Separated` says that the ranges do not overlap: each one
ends before the next begins.  Two facts make such a map cheap to use.

* `Separated.prev_of_contains`: the only entry that can contain a point is the
  one before the point's upper bound, so one predecessor lookup replaces a
  scan of the whole map.
* `Separated.emplace`: a range that fits between its two neighbours fits among
  all the entries, so an insertion need only look at the neighbours.

`Separated.disjoint` restates separation as disjointness of sets.
-/

universe u v w

namespace SortedMap

variable {κ : Type u} {α : Type v} {β : Type w} [LinearOrder κ] [LinearOrder β]

/-- The entry `(i, a)` contains the point `x`. -/
def Contains (start : κ → β) (stop : α → β) (i : κ) (a : α) (x : β) : Prop :=
  start i ≤ x ∧ x < stop a

/-- Each range ends before the next one begins. -/
def Separated (start : κ → β) (stop : α → β) (m : SortedMap κ α) : Prop :=
  ∀ i a j b, m.find i = some a → m.find j = some b → i < j → stop a ≤ start j

variable {start : κ → β} {stop : α → β} {m : SortedMap κ α}

theorem separated_empty : Separated start stop (empty : SortedMap κ α) := by
  intro i a j b hi _ _
  cases hi

/-- **At most one entry contains a point.** -/
theorem Separated.key_unique (h : Separated start stop m) {i j : κ} {a b : α} {x : β}
    (hi : m.find i = some a) (hj : m.find j = some b) (hx : Contains start stop i a x)
    (hy : Contains start stop j b x) : i = j := by
  rcases lt_trichotomy i j with hlt | heq | hgt
  · have := h i a j b hi hj hlt
    exact absurd (lt_of_lt_of_le hx.2 (this.trans hy.1)) (lt_irrefl _)
  · exact heq
  · have := h j b i a hj hi hgt
    exact absurd (lt_of_lt_of_le hy.2 (this.trans hx.1)) (lt_irrefl _)

theorem Separated.value_unique (h : Separated start stop m) {i j : κ} {a b : α} {x : β}
    (hi : m.find i = some a) (hj : m.find j = some b) (hx : Contains start stop i a x)
    (hy : Contains start stop j b x) : a = b := by
  have hij := h.key_unique hi hj hx hy
  subst hij
  exact Option.some.inj (hi.symm.trans hj)

/-- **The entry that contains a point is the one before its upper bound.** -/
theorem Separated.prev_of_contains (h : Separated start stop m) (hs : StrictMono start) {i k : κ}
    {a : α} (hi : m.find i = some a) (hk : Contains start stop i a (start k)) :
    (m.upperBound k).prev = some (i, a) := by
  refine upperBound_prev_eq_some.mpr ⟨hi, hs.le_iff_le.mp hk.1, fun j b hj hjk => ?_⟩
  by_contra hij
  have hsep := h i a j b hi hj (not_le.mp hij)
  exact absurd (lt_of_lt_of_le hk.2 (hsep.trans (hs.monotone hjk))) (lt_irrefl _)

/-! ### Insertion and removal -/

/-- **A range that fits between its two neighbours fits among all the entries.** -/
theorem Separated.emplace (h : Separated start stop m) (hs : StrictMono start) {k : κ} {a : α}
    (hnone : m.find k = none)
    (hnext : ∀ j b, (m.lowerBound k).get = some (j, b) → stop a ≤ start j)
    (hprev : ∀ i c, (m.lowerBound k).prev = some (i, c) → stop c ≤ start k) :
    Separated start stop (m.emplace k a).1 := by
  have hafter : ∀ j b, m.find j = some b → k < j → stop a ≤ start j := by
    intro j b hj hkj
    cases hg : (m.lowerBound k).get with
    | none => exact absurd (lowerBound_get_eq_none.mp hg j b hj) (not_lt.mpr hkj.le)
    | some e =>
      obtain ⟨_, _, hmin⟩ := lowerBound_get_eq_some.mp hg
      exact (hnext e.1 e.2 hg).trans (hs.monotone (hmin j b hj hkj.le))
  have hbefore : ∀ i c, m.find i = some c → i < k → stop c ≤ start k := by
    intro i c hi hik
    cases hp : (m.lowerBound k).prev with
    | none => exact absurd (lowerBound_prev_eq_none.mp hp i c hi) (not_le.mpr hik)
    | some e =>
      obtain ⟨hfe, hek, hmax⟩ := lowerBound_prev_eq_some.mp hp
      rcases lt_or_eq_of_le (hmax i c hi hik) with hlt | heq
      · exact (h i c e.1 e.2 hi hfe hlt).trans (hs hek).le
      · have hce : c = e.2 := Option.some.inj (hi.symm.trans (heq ▸ hfe))
        exact hce ▸ hprev e.1 e.2 hp
  intro i c j b hi hj hij
  rw [find_emplace hnone] at hi hj
  split at hi
  · rename_i hik
    subst hik
    cases hi
    rw [if_neg (ne_of_gt hij)] at hj
    exact hafter j b hj hij
  · split at hj
    · rename_i hjk
      subst hjk
      cases hj
      exact hbefore i c hi hij
    · exact h i c j b hi hj hij

theorem Separated.erase (h : Separated start stop m) (k : κ) :
    Separated start stop (m.erase k) := by
  intro i a j b hi hj hij
  rw [find_erase] at hi hj
  split at hi
  · cases hi
  · split at hj
    · cases hj
    · exact h i a j b hi hj hij

/-! ### Separation as disjointness of sets -/

theorem Separated.disjoint (h : Separated start stop m) {i j : κ} {a b : α}
    (hi : m.find i = some a) (hj : m.find j = some b) (hne : i ≠ j) :
    Disjoint (Set.Ico (start i) (stop a)) (Set.Ico (start j) (stop b)) := by
  refine Set.disjoint_left.mpr (fun x hx hy => hne ?_)
  exact h.key_unique hi hj hx hy

end SortedMap
