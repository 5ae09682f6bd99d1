import Mathlib.Data.List.Induction
import Mathlib.Data.List.Nodup

/-!
# Insertion ordered dictionaries

A `Dict` is a list of entries with pairwise different keys, in the order in
which the keys were first set.

* `Dict.set`: a new key goes to the end, a key that is there keeps its place and
  gets the new value.
* `Dict.get?_set`, `Dict.keys_set`: what `set` does to the two views.
* `Dict.mem_entries`: the entries are the graph of `get?`.
* `Dict.find?_of_nodup`: the same for a plain list with different keys.
* `Dict.lastBinding`: a list of bindings in which a later one replaces an earlier one.
-/

structure Dict (κ α : Type) where
  entries : List (κ × α)
  nodup : (entries.map Prod.fst).Nodup

namespace Dict

variable {κ α : Type}

def empty : Dict κ α := ⟨[], List.nodup_nil⟩

def keys (d : Dict κ α) : List κ := d.entries.map Prod.fst

variable [DecidableEq κ]

/-! ### Entry lists -/

def lookup (k : κ) : List (κ × α) → Option α
  | [] => none
  | (j, a) :: rest => if j = k then some a else lookup k rest

def update (k : κ) (a : α) : List (κ × α) → List (κ × α)
  | [] => [(k, a)]
  | (j, b) :: rest => if j = k then (k, a) :: rest else (j, b) :: update k a rest

theorem lookup_eq_none {k : κ} {l : List (κ × α)} :
    lookup k l = none ↔ k ∉ l.map Prod.fst := by
  induction l with
  | nil => exact iff_of_true rfl List.not_mem_nil
  | cons e l ih =>
    obtain ⟨j, a⟩ := e
    by_cases hj : j = k
    · rw [lookup, if_pos hj, List.map_cons, hj]
      exact iff_of_false nofun (fun h => h List.mem_cons_self)
    · rw [lookup, if_neg hj, ih, List.map_cons, List.mem_cons, not_or]
      exact ⟨fun h => ⟨fun he => hj he.symm, h⟩, fun h => h.2⟩

theorem lookup_eq_some {k : κ} {a : α} {l : List (κ × α)} (hl : (l.map Prod.fst).Nodup) :
    lookup k l = some a ↔ (k, a) ∈ l := by
  induction l with
  | nil => exact iff_of_false nofun List.not_mem_nil
  | cons e l ih =>
    obtain ⟨j, b⟩ := e
    rw [List.map_cons, List.nodup_cons] at hl
    by_cases hj : j = k
    · subst hj
      rw [lookup, if_pos rfl, List.mem_cons]
      constructor
      · intro h
        cases h
        exact .inl rfl
      · rintro (h | h)
        · cases h
          rfl
        · exact absurd (List.mem_map_of_mem h) hl.1
    · rw [lookup, if_neg hj, ih hl.2, List.mem_cons]
      exact ⟨.inr, fun h => h.resolve_left (fun he => hj (Prod.mk.inj he).1.symm)⟩

theorem lookup_update (k j : κ) (a : α) (l : List (κ × α)) :
    lookup j (update k a l) = if j = k then some a else lookup j l := by
  induction l with
  | nil =>
    show (if k = j then some a else none) = if j = k then some a else none
    by_cases h : j = k
    · rw [if_pos h, if_pos h.symm]
    · rw [if_neg h, if_neg (Ne.symm h)]
  | cons e l ih =>
    obtain ⟨i, b⟩ := e
    by_cases hi : i = k
    · rw [update, if_pos hi, lookup, lookup, hi]
      by_cases h : j = k
      · rw [if_pos h, if_pos h.symm]
      · rw [if_neg h, if_neg (Ne.symm h), if_neg (Ne.symm h)]
    · rw [update, if_neg hi, lookup, lookup, ih]
      by_cases h : i = j
      · rw [if_pos h, if_pos h, if_neg (fun he => hi (h.trans he))]
      · rw [if_neg h, if_neg h]

theorem map_fst_update (k : κ) (a : α) (l : List (κ × α)) : (update k a l).map Prod.fst =
    if k ∈ l.map Prod.fst then l.map Prod.fst else l.map Prod.fst ++ [k] := by
  induction l with
  | nil => rfl
  | cons e l ih =>
    obtain ⟨j, b⟩ := e
    by_cases hj : j = k
    · rw [update, if_pos hj, hj, List.map_cons, List.map_cons, if_pos List.mem_cons_self]
    · rw [update, if_neg hj, List.map_cons, ih, List.map_cons]
      by_cases hk : k ∈ l.map Prod.fst
      · rw [if_pos hk, if_pos (List.mem_cons_of_mem _ hk)]
      · rw [if_neg hk, if_neg (fun h => (List.mem_cons.mp h).elim (fun he => hj he.symm) hk),
          List.cons_append]

/-- The value of a key in a list in which a later binding replaces an earlier one. -/
def lastBinding (k : κ) (l : List (κ × α)) : Option α := lookup k l.reverse

theorem lastBinding_eq_some {k : κ} {a : α} {l : List (κ × α)} (hl : (l.map Prod.fst).Nodup) :
    lastBinding k l = some a ↔ (k, a) ∈ l := by
  rw [lastBinding, lookup_eq_some (by rwa [List.map_reverse, List.nodup_reverse]),
    List.mem_reverse]

theorem find?_of_nodup {β : Type} {key : β → κ} {x : β} : ∀ {l : List β},
    (l.map key).Nodup → x ∈ l → l.find? (fun y => decide (key y = key x)) = some x := by
  intro l
  induction l with
  | nil => exact fun _ hx => nomatch hx
  | cons y l ih =>
    intro hl hx
    rw [List.map_cons, List.nodup_cons] at hl
    rcases List.mem_cons.mp hx with rfl | hx
    · exact List.find?_cons_of_pos (decide_eq_true rfl)
    · have hne : key y ≠ key x := fun he => hl.1 (he ▸ List.mem_map_of_mem hx)
      rw [List.find?_cons_of_neg (by rw [decide_eq_false hne]; exact nofun)]
      exact ih hl.2 hx

/-! ### Dictionaries -/

def get? (d : Dict κ α) (k : κ) : Option α := lookup k d.entries

def set (d : Dict κ α) (k : κ) (a : α) : Dict κ α where
  entries := update k a d.entries
  nodup := by
    rw [map_fst_update]
    by_cases hk : k ∈ d.entries.map Prod.fst
    · rw [if_pos hk]
      exact d.nodup
    · rw [if_neg hk, List.nodup_append]
      exact ⟨d.nodup, List.nodup_singleton k, fun x hx y hy hxy =>
        hk (List.mem_singleton.mp hy ▸ hxy ▸ hx)⟩

theorem get?_empty (k : κ) : (empty : Dict κ α).get? k = none := rfl

theorem get?_set (d : Dict κ α) (k j : κ) (a : α) :
    (d.set k a).get? j = if j = k then some a else d.get? j := lookup_update k j a d.entries

theorem keys_set (d : Dict κ α) (k : κ) (a : α) :
    (d.set k a).keys = if k ∈ d.keys then d.keys else d.keys ++ [k] :=
  map_fst_update k a d.entries

theorem get?_eq_none {d : Dict κ α} {k : κ} : d.get? k = none ↔ k ∉ d.keys := lookup_eq_none

/-- **The entries are the graph of `get?`.** -/
theorem mem_entries {d : Dict κ α} {k : κ} {a : α} : (k, a) ∈ d.entries ↔ d.get? k = some a :=
  (lookup_eq_some d.nodup).symm

theorem mem_keys_set {d : Dict κ α} {k j : κ} {a : α} :
    j ∈ (d.set k a).keys ↔ j ∈ d.keys ∨ j = k := by
  rw [keys_set]
  by_cases hk : k ∈ d.keys
  · rw [if_pos hk]
    exact ⟨.inl, fun h => h.elim id (fun he => he ▸ hk)⟩
  · rw [if_neg hk, List.mem_append, List.mem_singleton]

end Dict
