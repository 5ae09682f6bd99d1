import Mathlib.Tactic.Common

/-!
# Byte memories

A flat memory is a function of addresses, and the C library functions on it are
loops over consecutive cells.  `memchr` also lists the cells that it reads.

* `memchr_eq_some`, `memchr_eq_none`, `memchr_reads`: the first occurrence in a range,
  and that nothing outside the range is read.
* `load_storeList`, `storeList_of_out`: writing a list, and the frame.
* `load_storeList_inside`, `load_inside`: a part of a range.
* `load_memcpy`, `memcpy_of_out`: copying between ranges that do not overlap, and the
  frame.
* `StringAt`: a list and its terminator in memory, kept where its cells are kept.
-/

universe u

/-- A memory of cells. -/
abbrev Memory (α : Type u) := Nat → α

namespace Memory

variable {α : Type u}

def store (m : Memory α) (a : Nat) (v : α) : Memory α := fun b => if b = a then v else m b

/-- The cells from `a` on become the members of the list. -/
def storeList (m : Memory α) (a : Nat) : List α → Memory α
  | [] => m
  | v :: vs => storeList (store m a v) (a + 1) vs

/-- `n` cells from `a` on. -/
def load (m : Memory α) (a : Nat) : Nat → List α
  | 0 => []
  | n + 1 => m a :: load m (a + 1) n

/-- `n` cells are copied one after the other. -/
def memcpy (m : Memory α) (dst src : Nat) : Nat → Memory α
  | 0 => m
  | n + 1 => memcpy (store m dst (m src)) (dst + 1) (src + 1) n

/-- The first of `n` cells from `a` on that holds `c`, and the cells that were read. -/
def memchr [DecidableEq α] (m : Memory α) (c : α) (a : Nat) : Nat → Option Nat × List Nat
  | 0 => (none, [])
  | n + 1 =>
    if m a = c then (some a, [a])
    else
      let rest := memchr m c (a + 1) n
      (rest.1, a :: rest.2)

/-- The number of cells before the terminator, or all `limit` of them. -/
def strlen [DecidableEq α] (z : α) (m : Memory α) (a limit : Nat) : Nat :=
  ((memchr m z a limit).1.map (fun e => e - a)).getD limit

@[simp] theorem store_self (m : Memory α) (a : Nat) (v : α) : store m a v a = v := if_pos rfl

theorem store_of_ne {m : Memory α} {a b : Nat} {v : α} (h : b ≠ a) : store m a v b = m b :=
  if_neg h

/-! ### Reading -/

@[simp] theorem length_load (m : Memory α) (n : Nat) : ∀ a, (load m a n).length = n := by
  induction n with
  | zero => intro a; rfl
  | succ n ih => intro a; rw [load, List.length_cons, ih]

theorem getElem?_load (m : Memory α) (n : Nat) : ∀ (a i : Nat), i < n →
    (load m a n)[i]? = some (m (a + i)) := by
  induction n with
  | zero => intro a i hi; omega
  | succ n ih =>
    intro a i hi
    cases i with
    | zero => rfl
    | succ i =>
      rw [load, List.getElem?_cons_succ, ih (a + 1) i (by omega)]
      congr 2
      omega

theorem load_concat (m : Memory α) (n : Nat) :
    ∀ a, load m a (n + 1) = load m a n ++ [m (a + n)] := by
  induction n with
  | zero => intro a; rfl
  | succ n ih =>
    intro a
    rw [load, ih (a + 1), load, List.cons_append, show a + 1 + n = a + (n + 1) by omega]

theorem load_congr {m m' : Memory α} (n : Nat) : ∀ {a : Nat},
    (∀ b, a ≤ b → b < a + n → m' b = m b) → load m' a n = load m a n := by
  induction n with
  | zero => intro a _; rfl
  | succ n ih =>
    intro a h
    rw [load, load, h a (Nat.le_refl a) (by omega), ih (fun b hb hlt => h b (by omega) (by omega))]

section Search

variable [DecidableEq α] {m : Memory α} {c : α}

/-- **The search finds the first cell of the range that holds `c`.** -/
theorem memchr_eq_some {n : Nat} : ∀ {a e : Nat}, (memchr m c a n).1 = some e ↔
    (a ≤ e ∧ e < a + n) ∧ m e = c ∧ ∀ b, a ≤ b → b < e → m b ≠ c := by
  induction n with
  | zero =>
    intro a e
    exact iff_of_false nofun (fun h => by omega)
  | succ n ih =>
    intro a e
    rw [memchr]
    by_cases ha : m a = c
    · rw [if_pos ha]
      constructor
      · intro h
        obtain rfl : a = e := Option.some.inj h
        exact ⟨⟨Nat.le_refl a, by omega⟩, ha, fun b hb hlt => by omega⟩
      · rintro ⟨⟨hae, _⟩, _, hfirst⟩
        have heq : a = e := by
          by_contra hne
          exact hfirst a (Nat.le_refl a) (by omega) ha
        rw [heq]
    · rw [if_neg ha]
      refine ih.trans ⟨?_, ?_⟩
      · rintro ⟨⟨h1, h2⟩, he, hfirst⟩
        refine ⟨⟨by omega, by omega⟩, he, fun b hb hlt => ?_⟩
        by_cases hba : b = a
        · rw [hba]
          exact ha
        · exact hfirst b (by omega) hlt
      · rintro ⟨⟨h1, h2⟩, he, hfirst⟩
        have hne : a ≠ e := fun h => ha (h ▸ he)
        exact ⟨⟨by omega, by omega⟩, he, fun b hb hlt => hfirst b (by omega) hlt⟩

theorem memchr_eq_none {n : Nat} : ∀ {a : Nat}, (memchr m c a n).1 = none ↔
    ∀ b, a ≤ b → b < a + n → m b ≠ c := by
  induction n with
  | zero =>
    intro a
    exact iff_of_true rfl (fun b hb hlt => by omega)
  | succ n ih =>
    intro a
    rw [memchr]
    by_cases ha : m a = c
    · rw [if_pos ha]
      exact iff_of_false nofun (fun h => h a (Nat.le_refl a) (by omega) ha)
    · rw [if_neg ha]
      refine ih.trans ⟨fun h b hb hlt => ?_, fun h b hb hlt => h b (by omega) (by omega)⟩
      by_cases hba : b = a
      · rw [hba]
        exact ha
      · exact h b (by omega) (by omega)

/-- **The search stays in its range.** -/
theorem memchr_reads {n : Nat} : ∀ {a : Nat}, ∀ b ∈ (memchr m c a n).2, a ≤ b ∧ b < a + n := by
  induction n with
  | zero => intro a b hb; cases hb
  | succ n ih =>
    intro a b hb
    rw [memchr] at hb
    by_cases ha : m a = c
    · rw [if_pos ha] at hb
      obtain rfl := List.mem_singleton.mp hb
      exact ⟨Nat.le_refl _, by omega⟩
    · rw [if_neg ha] at hb
      rcases List.mem_cons.mp hb with rfl | hb
      · exact ⟨Nat.le_refl _, by omega⟩
      · have := ih b hb
        omega

end Search

/-! ### Writing -/

theorem storeList_of_out {vs : List α} : ∀ {m : Memory α} {a b : Nat},
    (b < a ∨ a + vs.length ≤ b) → storeList m a vs b = m b := by
  induction vs with
  | nil => intro m a b _; rfl
  | cons v vs ih =>
    intro m a b h
    rw [List.length_cons] at h
    rw [storeList, ih (by omega), store_of_ne (by omega)]

theorem load_storeList (vs : List α) : ∀ (m : Memory α) (a : Nat),
    load (storeList m a vs) a vs.length = vs := by
  induction vs with
  | nil => intro m a; rfl
  | cons v vs ih =>
    intro m a
    rw [storeList, List.length_cons, load, ih, storeList_of_out (by omega), store_self]

/-- A write inside a range, as a change of the cells of the range. -/
theorem load_storeList_inside {m : Memory α} {a i n : Nat} {vs : List α}
    (h : i + vs.length ≤ n) : load (storeList m (a + i) vs) a n =
      (load m a n).take i ++ vs ++ (load m a n).drop (i + vs.length) := by
  have hwritten := load_storeList vs m (a + i)
  apply List.ext_getElem?
  intro k
  by_cases hk : k < n
  · rw [getElem?_load _ _ _ _ hk]
    by_cases hin : i ≤ k ∧ k < i + vs.length
    · have hcell := getElem?_load (storeList m (a + i) vs) vs.length (a + i) (k - i) (by omega)
      rw [hwritten, show a + i + (k - i) = a + k by omega] at hcell
      rw [List.append_assoc, List.getElem?_append_right (by rw [List.length_take]; omega),
        List.length_take, length_load, Nat.min_eq_left (by omega),
        List.getElem?_append_left (by omega), hcell]
    · rw [storeList_of_out (by omega), ← getElem?_load m n a k hk]
      by_cases hlo : k < i
      · rw [List.append_assoc, List.getElem?_append_left (by
          rw [List.length_take, length_load]
          omega), List.getElem?_take_of_lt hlo]
      · rw [List.getElem?_append_right (by
          rw [List.length_append, List.length_take, length_load]
          omega), List.getElem?_drop, List.length_append, List.length_take, length_load]
        congr 1
        omega
  · rw [List.getElem?_eq_none (by rw [length_load]; omega), List.getElem?_eq_none (by
      rw [List.length_append, List.length_append, List.length_take, List.length_drop, length_load]
      omega)]

theorem load_inside {m : Memory α} {a i n k : Nat} (h : i + k ≤ n) :
    load m (a + i) k = ((load m a n).drop i).take k := by
  apply List.ext_getElem?
  intro j
  by_cases hj : j < k
  · rw [getElem?_load _ _ _ _ hj, List.getElem?_take_of_lt hj, List.getElem?_drop,
      getElem?_load _ _ _ _ (by omega), Nat.add_assoc]
  · rw [List.getElem?_eq_none (by rw [length_load]; omega), List.getElem?_eq_none (by
      rw [List.length_take, List.length_drop, length_load]
      omega)]

theorem load_take {m : Memory α} {a k n : Nat} (h : k ≤ n) :
    (load m a n).take k = load m a k :=
  (load_inside (i := 0) (by omega)).symm

theorem memcpy_of_out {n : Nat} : ∀ {m : Memory α} {dst src b : Nat},
    (b < dst ∨ dst + n ≤ b) → memcpy m dst src n b = m b := by
  induction n with
  | zero => intro m dst src b _; rfl
  | succ n ih =>
    intro m dst src b h
    rw [memcpy, ih (by omega), store_of_ne (by omega)]

/-- **A copy between ranges that do not overlap.** -/
theorem load_memcpy {n : Nat} : ∀ {m : Memory α} {dst src : Nat},
    (dst + n ≤ src ∨ src + n ≤ dst) → load (memcpy m dst src n) dst n = load m src n := by
  induction n with
  | zero => intro m dst src _; rfl
  | succ n ih =>
    intro m dst src h
    rw [memcpy, load, load, memcpy_of_out (by omega), store_self, ih (by omega)]
    congr 1
    exact load_congr n (fun b hb hlt => store_of_ne (by omega))

/-! ### Terminated strings -/

/-- The list lies at `a` with the terminator `z` behind it, and `z` is not in it. -/
structure StringAt (z : α) (m : Memory α) (a : Nat) (s : List α) : Prop where
  free : z ∉ s
  load : load m a (s.length + 1) = s ++ [z]

theorem StringAt.congr {z : α} {m m' : Memory α} {a : Nat} {s : List α} (h : StringAt z m a s)
    (hsame : ∀ b, a ≤ b → b < a + (s.length + 1) → m' b = m b) : StringAt z m' a s :=
  ⟨h.free, (load_congr _ hsame).trans h.load⟩

theorem StringAt.getElem {z : α} {m : Memory α} {a : Nat} {s : List α} (h : StringAt z m a s)
    {i : Nat} (hi : i < s.length) : m (a + i) = s[i] := by
  have hget := getElem?_load m (s.length + 1) a i (by omega)
  rw [h.load, List.getElem?_append_left hi, List.getElem?_eq_getElem hi] at hget
  exact (Option.some.inj hget).symm

theorem StringAt.terminator {z : α} {m : Memory α} {a : Nat} {s : List α}
    (h : StringAt z m a s) : m (a + s.length) = z := by
  have hget := getElem?_load m (s.length + 1) a s.length (by omega)
  rw [h.load, List.getElem?_concat_length] at hget
  exact (Option.some.inj hget).symm

theorem StringAt.load_text {z : α} {m : Memory α} {a : Nat} {s : List α}
    (h : StringAt z m a s) : Memory.load m a s.length = s := by
  have hload := h.load
  rw [load_concat] at hload
  exact (List.append_inj' hload rfl).1

theorem StringAt.unique {z : α} {m : Memory α} {a : Nat} {s t : List α} (hs : StringAt z m a s)
    (ht : StringAt z m a t) : s = t := by
  have hle : ∀ {s t : List α}, StringAt z m a s → StringAt z m a t → s.length ≤ t.length := by
    intro s t hs ht
    by_contra hlt
    have hcell := hs.getElem (show t.length < s.length by omega)
    rw [ht.terminator] at hcell
    exact hs.free (hcell ▸ List.getElem_mem _)
  have hlen := Nat.le_antisymm (hle hs ht) (hle ht hs)
  rw [← hs.load_text, ← ht.load_text, hlen]

theorem StringAt.memchr [DecidableEq α] {z : α} {m : Memory α} {a n : Nat} {s : List α}
    (h : StringAt z m a s) (hn : s.length < n) : (memchr m z a n).1 = some (a + s.length) := by
  refine memchr_eq_some.mpr ⟨⟨by omega, by omega⟩, h.terminator, fun b hb hlt hz => ?_⟩
  have hi : b - a < s.length := by omega
  have hget := h.getElem hi
  rw [Nat.add_sub_cancel' hb, hz] at hget
  exact h.free (hget ▸ List.getElem_mem hi)

theorem StringAt.strlen [DecidableEq α] {z : α} {m : Memory α} {a limit : Nat} {s : List α}
    (h : StringAt z m a s) (hlimit : s.length < limit) : strlen z m a limit = s.length := by
  rw [Memory.strlen, h.memchr hlimit, Option.map_some, Option.getD_some, Nat.add_sub_cancel_left]

/-- Where a range has a terminator in it, a string begins at the start of the range. -/
theorem exists_stringAt [DecidableEq α] {z : α} {m : Memory α} {a n : Nat}
    (h : ∃ b, a ≤ b ∧ b < a + n ∧ m b = z) : ∃ s, StringAt z m a s ∧ s.length < n := by
  obtain ⟨b, hab, hbn, hz⟩ := h
  cases he : (Memory.memchr m z a n).1 with
  | none => exact absurd hz (memchr_eq_none.mp he b hab hbn)
  | some e =>
    obtain ⟨⟨h1, h2⟩, hcell, hfirst⟩ := memchr_eq_some.mp he
    refine ⟨load m a (e - a), ⟨fun hmem => ?_, ?_⟩, by rw [length_load]; omega⟩
    · obtain ⟨i, hi, hget⟩ := List.getElem_of_mem hmem
      rw [length_load] at hi
      have hload := getElem?_load m (e - a) a i hi
      rw [List.getElem?_eq_getElem (by rwa [length_load]), hget] at hload
      exact hfirst (a + i) (by omega) (by omega) (Option.some.inj hload).symm
    · rw [length_load, load_concat, Nat.add_sub_cancel' h1, hcell]

theorem stringAt_storeList {z : α} {s : List α} (hfree : z ∉ s) (m : Memory α) (a : Nat) :
    StringAt z (storeList m a (s ++ [z])) a s where
  free := hfree
  load := by
    have hload := load_storeList (s ++ [z]) m a
    rwa [List.length_append, List.length_singleton] at hload

theorem StringAt.memcpy {z : α} {m : Memory α} {dst src : Nat} {s : List α}
    (h : StringAt z m src s)
    (hapart : dst + (s.length + 1) ≤ src ∨ src + (s.length + 1) ≤ dst) :
    StringAt z (memcpy m dst src (s.length + 1)) dst s where
  free := h.free
  load := (load_memcpy hapart).trans h.load

end Memory
