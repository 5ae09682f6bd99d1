import Mathlib.Data.List.Nodup

/-!
# Edits of a list

An edit replaces the items `[start, stop)` of a list by new ones.

* `Splice.patched`: all edits at once, each item replaced where it stands.
* `Splice.Edit.apply_patched`: **one edit in front of others**, applied to the list in which
  they are made, makes all of them at once.
* `Splice.patched_perm`: the order of the edits does not matter.
-/

namespace Splice

variable {α : Type}

structure Edit (α : Type) where
  start : Nat
  stop : Nat
  new : List α

namespace Edit

/-- The list with one edit made. -/
def apply (e : Edit α) (l : List α) : List α := l.take e.start ++ e.new ++ l.drop e.stop

end Edit

/-- What stands for item `a` at offset `i`: the new items where an edit begins, nothing
inside one, and the item itself elsewhere. -/
def image (edits : List (Edit α)) (i : Nat) (a : α) : List α :=
  match edits.find? (fun e => e.start == i) with
  | some e => e.new
  | none => if edits.any (fun e => decide (e.start < i ∧ i < e.stop)) then [] else [a]

/-- The part of a list that begins at offset `k`, with all edits made. -/
def patchedFrom (edits : List (Edit α)) : Nat → List α → List α
  | _, [] => []
  | k, a :: l => image edits k a ++ patchedFrom edits (k + 1) l

def patched (edits : List (Edit α)) (l : List α) : List α := patchedFrom edits 0 l

theorem patchedFrom_append (edits : List (Edit α)) (l l' : List α) : ∀ k,
    patchedFrom edits k (l ++ l') =
      patchedFrom edits k l ++ patchedFrom edits (k + l.length) l' := by
  induction l with
  | nil => intro k; rfl
  | cons a l ih =>
    intro k
    rw [List.cons_append, patchedFrom, ih, patchedFrom, List.append_assoc, List.length_cons,
      show k + 1 + l.length = k + (l.length + 1) from by omega]

theorem patchedFrom_congr {edits edits' : List (Edit α)} {l : List α} : ∀ {k : Nat},
    (∀ i a, k ≤ i → i < k + l.length → image edits i a = image edits' i a) →
      patchedFrom edits k l = patchedFrom edits' k l := by
  induction l with
  | nil => intro k _; rfl
  | cons a l ih =>
    intro k h
    rw [List.length_cons] at h
    rw [patchedFrom, patchedFrom, h k a (Nat.le_refl k) (by omega),
      ih (fun i b hi hlt => h i b (by omega) (by omega))]

theorem patchedFrom_eq_self {edits : List (Edit α)} {l : List α} : ∀ {k : Nat},
    (∀ e ∈ edits, k + l.length ≤ e.start) → patchedFrom edits k l = l := by
  induction l with
  | nil => intro k _; rfl
  | cons a l ih =>
    intro k h
    rw [List.length_cons] at h
    have himage : image edits k a = [a] := by
      have hfind : edits.find? (fun e => e.start == k) = none := by
        rw [List.find?_eq_none]
        intro e he hk
        have hle := h e he
        have heq : e.start = k := eq_of_beq hk
        omega
      have hany : edits.any (fun e => decide (e.start < k ∧ k < e.stop)) = false := by
        rw [List.any_eq_false]
        intro e he hin
        have hle := h e he
        have hlt := (of_decide_eq_true hin).1
        omega
      rw [image, hfind]
      dsimp only
      rw [hany, if_neg (by simp)]
    rw [patchedFrom, himage, ih (fun e he => by have := h e he; omega)]
    rfl

theorem patchedFrom_inside {edits : List (Edit α)} {e : Edit α} (he : e ∈ edits) {l : List α} :
    ∀ {k : Nat}, e.start < k → k + l.length ≤ e.stop →
      (∀ e' ∈ edits, e'.start ≤ e.start ∨ e.stop ≤ e'.start) → patchedFrom edits k l = [] := by
  induction l with
  | nil => intro k _ _ _; rfl
  | cons a l ih =>
    intro k hstart hstop hothers
    rw [List.length_cons] at hstop
    have himage : image edits k a = [] := by
      have hany : edits.any (fun e => decide (e.start < k ∧ k < e.stop)) = true :=
        List.any_eq_true.mpr ⟨e, he, decide_eq_true ⟨hstart, by omega⟩⟩
      have hfind : edits.find? (fun e => e.start == k) = none := by
        rw [List.find?_eq_none]
        intro e' he' hk
        have heq : e'.start = k := eq_of_beq hk
        rcases hothers e' he' with h | h <;> omega
      rw [image, hfind]
      dsimp only
      rw [if_pos hany]
    rw [patchedFrom, himage, ih (by omega) (by omega) hothers]
    rfl

/-- **One more edit, in front of all others.** -/
theorem Edit.apply_patched {e : Edit α} {edits : List (Edit α)} {l : List α}
    (hlt : e.start < e.stop) (hlen : e.stop ≤ l.length)
    (hbehind : ∀ e' ∈ edits, e.stop ≤ e'.start) :
    e.apply (patched edits l) = patched (e :: edits) l := by
  obtain ⟨x, w, z, rfl, hx, hw⟩ : ∃ x w z, l = x ++ (w ++ z) ∧ x.length = e.start ∧
      w.length = e.stop - e.start := by
    refine ⟨l.take e.start, (l.drop e.start).take (e.stop - e.start),
      (l.drop e.start).drop (e.stop - e.start), ?_, ?_, ?_⟩
    · rw [List.take_append_drop, List.take_append_drop]
    · rw [List.length_take]
      omega
    · rw [List.length_take, List.length_drop]
      omega
  cases w with
  | nil =>
    rw [List.length_nil] at hw
    omega
  | cons b y =>
    rw [List.length_cons] at hw
    have hbefore : patched edits (x ++ (b :: y ++ z)) =
        x ++ (b :: y) ++ patchedFrom edits e.stop z := by
      rw [← List.append_assoc, patched, patchedFrom_append, patchedFrom_eq_self, Nat.zero_add,
        List.length_append, List.length_cons, show x.length + (y.length + 1) = e.stop from by omega]
      intro e' he'
      have hle := hbehind e' he'
      rw [List.length_append, List.length_cons]
      omega
    have hfirst : image (e :: edits) (0 + x.length) b = e.new := by
      have hfind : (e :: edits).find? (fun e' => e'.start == 0 + x.length) = some e :=
        List.find?_cons_of_pos (by rw [hx, Nat.zero_add]; exact beq_self_eq_true _)
      rw [image, hfind]
    have hx' : patchedFrom (e :: edits) 0 x = x := by
      refine patchedFrom_eq_self (List.forall_mem_cons.mpr ⟨by omega, fun e' he' => ?_⟩)
      have hle := hbehind e' he'
      omega
    have hy' : patchedFrom (e :: edits) (0 + x.length + 1) y = [] := by
      refine patchedFrom_inside List.mem_cons_self (by omega) (by omega)
        (List.forall_mem_cons.mpr ⟨Or.inl (Nat.le_refl _), fun e' he' => Or.inr (hbehind e' he')⟩)
    have hz : patchedFrom (e :: edits) e.stop z = patchedFrom edits e.stop z := by
      refine patchedFrom_congr (fun i a hi _ => ?_)
      have hne : (e.start == i) = false := beq_false_of_ne (by omega)
      have hany : decide (e.start < i ∧ i < e.stop) = false := decide_eq_false (by omega)
      rw [image, image, List.find?_cons, hne, List.any_cons, hany, Bool.false_or]
    rw [hbefore, Edit.apply, List.append_assoc x, List.take_left' hx, ← List.append_assoc x,
      List.drop_left' (by rw [List.length_append, List.length_cons]; omega), patched,
      patchedFrom_append, hx', List.cons_append, patchedFrom, hfirst, patchedFrom_append, hy',
      List.nil_append, show 0 + x.length + 1 + y.length = e.stop from by omega, hz,
      List.append_assoc]

theorem find?_start_perm {edits edits' : List (Edit α)} (hperm : edits.Perm edits')
    (hnodup : (edits.map Edit.start).Nodup) (i : Nat) :
    edits.find? (fun e => e.start == i) = edits'.find? (fun e => e.start == i) := by
  cases h : edits.find? (fun e => e.start == i) with
  | none =>
    rw [List.find?_eq_none] at h
    rw [eq_comm, List.find?_eq_none]
    exact fun e he => h e (hperm.mem_iff.mpr he)
  | some e =>
    have hbeq := List.find?_some h
    have hstart : e.start = i := eq_of_beq hbeq
    have hmem := List.mem_of_find?_eq_some h
    cases h' : edits'.find? (fun e => e.start == i) with
    | none =>
      rw [List.find?_eq_none] at h'
      exact absurd (beq_iff_eq.mpr hstart) (h' e (hperm.mem_iff.mp hmem))
    | some e' =>
      have hbeq' := List.find?_some h'
      have hstart' : e'.start = i := eq_of_beq hbeq'
      have hmem' := hperm.mem_iff.mpr (List.mem_of_find?_eq_some h')
      rw [List.inj_on_of_nodup_map hnodup hmem hmem' (hstart.trans hstart'.symm)]

/-- **The order of the edits does not matter.** -/
theorem patched_perm {edits edits' : List (Edit α)} (hperm : edits.Perm edits')
    (hnodup : (edits.map Edit.start).Nodup) (l : List α) : patched edits l = patched edits' l := by
  refine patchedFrom_congr (fun i a _ _ => ?_)
  have hany : edits.any (fun e => decide (e.start < i ∧ i < e.stop)) =
      edits'.any (fun e => decide (e.start < i ∧ i < e.stop)) := by
    rw [Bool.eq_iff_iff, List.any_eq_true, List.any_eq_true]
    exact exists_congr (fun e => and_congr_left (fun _ => hperm.mem_iff))
  rw [image, image, find?_start_perm hperm hnodup, hany]

end Splice
