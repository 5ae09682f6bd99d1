import Mathlib.Data.List.Basic
import Mathlib.Logic.Function.Basic

/-!
# Owners

A partial map of objects, and a list of who owns them.

* `Owns`: the list has each key at which there is an object, once.
* `Owns.add`, `Owns.change`, `Owns.remove`: what an update of the map does to the list.
* `filterMap_set_same`, `filterMap_set_perm`: what an entry of a table adds to such a list.
-/

/-- The list has each key at which there is an object, once. -/
def Owns {κ α : Type} (objects : κ → Option α) (owned : List κ) : Prop :=
  owned.Nodup ∧ ∀ a, objects a ≠ none ↔ a ∈ owned

namespace Owns

variable {κ α : Type} {objects : κ → Option α} {owned : List κ} {a : κ}

theorem perm {owned' : List κ} (h : Owns objects owned) (hp : owned.Perm owned') :
    Owns objects owned' :=
  ⟨hp.nodup_iff.mp h.1, fun a => (h.2 a).trans hp.mem_iff⟩

variable [DecidableEq κ]

theorem add (h : Owns objects owned) (hfresh : objects a = none) (x : α) :
    Owns (Function.update objects a (some x)) (a :: owned) := by
  refine ⟨List.nodup_cons.mpr ⟨fun hmem => (h.2 a).mpr hmem hfresh, h.1⟩, fun b => ?_⟩
  by_cases hb : b = a
  · subst hb
    simp
  · simp [hb, h.2 b]

theorem change (h : Owns objects owned) (hold : objects a ≠ none) (x : α) :
    Owns (Function.update objects a (some x)) owned := by
  refine ⟨h.1, fun b => ?_⟩
  by_cases hb : b = a
  · subst hb
    simp [← h.2 b, hold]
  · simp [hb, h.2 b]

theorem remove (h : Owns objects (a :: owned)) : Owns (Function.update objects a none) owned := by
  obtain ⟨hnot, hnodup⟩ := List.nodup_cons.mp h.1
  refine ⟨hnodup, fun b => ?_⟩
  by_cases hb : b = a
  · subst hb
    simp [hnot]
  · simp [hb, h.2 b]

end Owns

section FilterMap

variable {α β : Type} {f : α → Option β} {a : α}

/-- One entry is replaced by another with the same image. -/
theorem filterMap_set_same {a' : α} (ha : f a' = f a) {l : List α} : ∀ {i : Nat}, l[i]? = some a →
    (l.set i a').filterMap f = l.filterMap f := by
  induction l with
  | nil => intro i h; cases h
  | cons x l ih =>
    intro i h
    cases i with
    | zero =>
      cases h
      simp [List.filterMap_cons, ha]
    | succ i =>
      rw [List.set_cons_succ, List.filterMap_cons, List.filterMap_cons, ih h]

/-- One entry is replaced by one without an image. -/
theorem filterMap_set_perm {a' : α} {b : β} (ha : f a = some b) (ha' : f a' = none) {l : List α} :
    ∀ {i : Nat}, l[i]? = some a → (l.filterMap f).Perm (b :: (l.set i a').filterMap f) := by
  induction l with
  | nil => intro i h; cases h
  | cons x l ih =>
    intro i h
    cases i with
    | zero =>
      cases h
      simp [ha, ha']
    | succ i =>
      rw [List.set_cons_succ, List.filterMap_cons, List.filterMap_cons]
      cases hx : f x with
      | none => exact ih h
      | some y => exact (List.Perm.cons y (ih h)).trans (.swap b y _)

end FilterMap
