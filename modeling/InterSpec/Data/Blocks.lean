import Mathlib.Data.Set.Insert
import Mathlib.Logic.Function.Basic
import Mathlib.Tactic.Common

/-!
# Heaps of blocks

What the memory management of C promises, without addresses of single cells.  A heap has
blocks under names, each with a label that it keeps and with its cells, and it knows the names
that it does not give out any more.  Blocks do not overlap because they are apart by
definition.

* `Blocks.Act`, `Blocks.Step`: what can happen to a heap.
* `Step.frame`: a block that is not freed, moved or written stays as it is.
* `Step.spent`: a name that was given back is not given out again.
-/

/-- Blocks with labels in `β` and cells in `γ`, under names in `α`. -/
@[ext] structure Blocks (α β γ : Type) where
  live : α → Option (β × List γ)
  used : Set α

namespace Blocks

variable {α β γ : Type}

/-- The cells from `i` on become the members of the list. -/
def overwrite (l : List γ) (i : Nat) (vs : List γ) : List γ :=
  l.take i ++ vs ++ l.drop (i + vs.length)

/-- One list is a beginning of the other, up to the length they share. -/
def SameStart (l l' : List γ) : Prop := l'.take l.length = l.take l'.length

inductive Act (α β γ : Type)
  | idle
  | give (a : α) (b : β) (l : List γ)
  | free (a : α)
  | move (a a' : α) (l : List γ)
  | write (a : α) (i : Nat) (vs : List γ)
  | read (a : α) (i : Nat) (vs : List γ)

/-- The acts that change the block under the name. -/
def Act.Changes (q : α) : Act α β γ → Prop
  | .free a | .move a _ _ | .write a _ _ => a = q
  | _ => False

/-- The names of the blocks count as used. -/
def WellFormed (h : Blocks α β γ) : Prop := ∀ q x, h.live q = some x → q ∈ h.used

theorem WellFormed.ne_of_fresh {h : Blocks α β γ} (hw : WellFormed h) {q a : α}
    {x : β × List γ} (hq : h.live q = some x) (fresh : a ∉ h.used) : q ≠ a := by
  rintro rfl
  exact fresh (hw q x hq)

variable [DecidableEq α]

inductive Step (h : Blocks α β γ) : Act α β γ → Blocks α β γ → Prop
  | idle : Step h .idle h
  | give {a : α} {b : β} {l : List γ} {used : Set α} (fresh : a ∉ h.used)
      (grows : insert a h.used ⊆ used) :
      Step h (.give a b l) ⟨Function.update h.live a (some (b, l)), used⟩
  | free {a : α} {x : β × List γ} (found : h.live a = some x) :
      Step h (.free a) ⟨Function.update h.live a none, h.used⟩
  | move {a a' : α} {b : β} {l l' : List γ} {used : Set α} (found : h.live a = some (b, l))
      (fresh : a' ∉ h.used) (grows : insert a' h.used ⊆ used) (same : SameStart l l') :
      Step h (.move a a' l')
        ⟨Function.update (Function.update h.live a none) a' (some (b, l')), used⟩
  | write {a : α} {b : β} {l vs : List γ} {i : Nat} (found : h.live a = some (b, l))
      (fits : i + vs.length ≤ l.length) :
      Step h (.write a i vs) ⟨Function.update h.live a (some (b, overwrite l i vs)), h.used⟩
  | read {a : α} {b : β} {l : List γ} {i n : Nat} (found : h.live a = some (b, l))
      (fits : i + n ≤ l.length) : Step h (.read a i ((l.drop i).take n)) h

variable {h h' : Blocks α β γ} {act : Act α β γ} {q : α}

theorem Step.used_subset (hs : Step h act h') : h.used ⊆ h'.used := by
  cases hs with
  | idle => exact subset_rfl
  | give fresh grows => exact (Set.subset_insert _ _).trans grows
  | free found => exact subset_rfl
  | move found fresh grows same => exact (Set.subset_insert _ _).trans grows
  | write found fits => exact subset_rfl
  | read found fits => exact subset_rfl

/-- **A block that is not freed, moved or written stays as it is.** -/
theorem Step.frame (hw : WellFormed h) (hs : Step h act h') (hact : ¬ act.Changes q)
    {x : β × List γ} (hq : h.live q = some x) : h'.live q = some x := by
  cases hs with
  | idle => exact hq
  | give fresh grows =>
    exact (Function.update_of_ne (hw.ne_of_fresh hq fresh) _ _).trans hq
  | free found => exact (Function.update_of_ne (Ne.symm hact) _ _).trans hq
  | move found fresh grows same =>
    refine (Function.update_of_ne (hw.ne_of_fresh hq fresh) _ _).trans ?_
    exact (Function.update_of_ne (Ne.symm hact) _ _).trans hq
  | write found fits => exact (Function.update_of_ne (Ne.symm hact) _ _).trans hq
  | read found fits => exact hq

theorem Step.gone (hw : WellFormed h) (hs : Step h act h')
    (hact : act = .free q ∨ ∃ a' l, act = .move q a' l) : h'.live q = none := by
  rcases hact with rfl | ⟨a', l, rfl⟩
  · cases hs with
    | free found => exact Function.update_self _ _ _
  · cases hs with
    | move found fresh grows same =>
      refine (Function.update_of_ne (hw.ne_of_fresh found fresh) _ _).trans ?_
      exact Function.update_self _ _ _

/-- **A name that was given back is not given out again.** -/
theorem Step.spent (hs : Step h act h') (hused : q ∈ h.used) (hq : h.live q = none) :
    h'.live q = none := by
  have hfound : ∀ {a x}, h.live a = some x → q ≠ a := by
    rintro a x ha rfl
    exact nomatch hq.symm.trans ha
  have hfresh : ∀ {a}, a ∉ h.used → q ≠ a := by
    rintro a ha rfl
    exact ha hused
  cases hs with
  | idle => exact hq
  | give fresh grows => exact (Function.update_of_ne (hfresh fresh) _ _).trans hq
  | free found => exact (Function.update_of_ne (hfound found) _ _).trans hq
  | move found fresh grows same =>
    refine (Function.update_of_ne (hfresh fresh) _ _).trans ?_
    exact (Function.update_of_ne (hfound found) _ _).trans hq
  | write found fits => exact (Function.update_of_ne (hfound found) _ _).trans hq
  | read found fits => exact hq

end Blocks
