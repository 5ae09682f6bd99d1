import Mathlib.Data.List.Sort
import Mathlib.Data.List.Nodup
import Mathlib.Order.Basic

/-!
# Sorted maps with iterators

A finite map kept as a list of entries in strictly increasing key order, with
the interface of an ordered associative container: `find`, `emplace` (which
does not overwrite), `erase`, and the two bounds `lowerBound` and `upperBound`.

A bound is an **iterator**, that is a cut of the entries into those before it
and those from it on.  `Iter.get` reads the entry at the iterator (`none` at
the end) and `Iter.prev` the entry just before it (`none` at the beginning).

Every lemma about the map is stated through `find`, so no proof outside this
file looks at the list:

* `find_emplace`, `find_erase` say what the two updates do to `find`;
* `upperBound_prev_eq_some`, `lowerBound_get_eq_some`, `lowerBound_prev_eq_some`
  and their `none` forms say which entry a bound is next to;
* `ext_find`: a map is determined by its `find`.
-/

universe u v

/-- A finite map, as its entries in strictly increasing key order. -/
structure SortedMap (κ : Type u) (α : Type v) [LinearOrder κ] where
  entries : List (κ × α)
  sorted : entries.Pairwise (fun x y => x.1 < y.1)

namespace SortedMap

variable {κ : Type u} {α : Type v} [LinearOrder κ]

instance [DecidableEq α] : DecidableEq (SortedMap κ α) := fun m n =>
  decidable_of_iff (m.entries = n.entries)
    ⟨fun h => by cases m; cases n; cases h; rfl, fun h => h ▸ rfl⟩

/-- The empty map. -/
def empty : SortedMap κ α := ⟨[], List.Pairwise.nil⟩

def size (m : SortedMap κ α) : Nat := m.entries.length

def isEmpty (m : SortedMap κ α) : Bool := m.entries.isEmpty

/-- The values, in key order. -/
def values (m : SortedMap κ α) : List α := m.entries.map Prod.snd

def find (m : SortedMap κ α) (k : κ) : Option α :=
  (m.entries.find? (fun e => decide (e.1 = k))).map Prod.snd

/-! ### Entries and `find` -/

theorem key_inj (m : SortedMap κ α) {e f : κ × α} (he : e ∈ m.entries) (hf : f ∈ m.entries)
    (h : e.1 = f.1) : e = f := by
  have hnd : (m.entries.map Prod.fst).Nodup :=
    List.pairwise_map.mpr (m.sorted.imp (fun hlt => ne_of_lt hlt))
  exact List.inj_on_of_nodup_map hnd he hf h

theorem find_eq_some {m : SortedMap κ α} {k : κ} {a : α} :
    m.find k = some a ↔ (k, a) ∈ m.entries := by
  constructor
  · intro h
    obtain ⟨e, he, rfl⟩ := Option.map_eq_some_iff.mp h
    have hk : e.1 = k := by simpa using List.find?_some he
    exact hk ▸ List.mem_of_find?_eq_some he
  · intro h
    cases hf : m.entries.find? (fun e => decide (e.1 = k)) with
    | none => exact absurd (List.find?_eq_none.mp hf _ h) (by simp)
    | some e =>
      have hk : e.1 = k := by simpa using List.find?_some hf
      have he : e = (k, a) := m.key_inj (List.mem_of_find?_eq_some hf) h hk
      rw [find, hf, he]
      rfl

theorem find_eq_none {m : SortedMap κ α} {k : κ} :
    m.find k = none ↔ ∀ a, (k, a) ∉ m.entries := by
  rw [Option.eq_none_iff_forall_not_mem]
  simp only [Option.mem_def, find_eq_some]

theorem mem_values {m : SortedMap κ α} {a : α} : a ∈ m.values ↔ ∃ k, m.find k = some a := by
  simp [values, find_eq_some]

@[simp] theorem find_empty (k : κ) : (empty : SortedMap κ α).find k = none := rfl

@[simp] theorem size_empty : (empty : SortedMap κ α).size = 0 := rfl

@[simp] theorem values_empty : (empty : SortedMap κ α).values = [] := rfl

theorem isEmpty_iff {m : SortedMap κ α} : m.isEmpty = true ↔ ∀ k, m.find k = none := by
  constructor
  · intro h k
    exact find_eq_none.mpr (by simp [List.isEmpty_iff.mp h])
  · intro h
    refine List.isEmpty_iff.mpr (List.eq_nil_iff_forall_not_mem.mpr (fun e he => ?_))
    exact find_eq_none.mp (h e.1) e.2 he

theorem find_of_size_zero {m : SortedMap κ α} (h : m.size = 0) (k : κ) : m.find k = none :=
  isEmpty_iff.mp (List.isEmpty_iff.mpr (List.length_eq_zero_iff.mp h)) k

theorem nodup_entries (m : SortedMap κ α) : m.entries.Nodup :=
  m.sorted.imp (fun hlt he => absurd (he ▸ hlt) (lt_irrefl _))

/-- **A sorted map is determined by its `find`.** -/
theorem ext_find {m n : SortedMap κ α} (h : ∀ k, m.find k = n.find k) : m = n := by
  have hmem : ∀ e, e ∈ m.entries ↔ e ∈ n.entries := fun e => by
    rw [← find_eq_some (a := e.2), ← find_eq_some (a := e.2), h]
  have hperm : m.entries.Perm n.entries :=
    (List.perm_ext_iff_of_nodup m.nodup_entries n.nodup_entries).mpr hmem
  have hent : m.entries = n.entries :=
    hperm.eq_of_pairwise (fun _ _ _ _ h1 h2 => absurd (lt_trans h1 h2) (lt_irrefl _))
      m.sorted n.sorted
  cases m
  cases n
  cases hent
  rfl

/-! ### Updates -/

/-- Insert an entry in front of the first one whose key is not smaller. -/
def insertEntry (k : κ) (a : α) : List (κ × α) → List (κ × α)
  | [] => [(k, a)]
  | e :: l => if e.1 < k then e :: insertEntry k a l else (k, a) :: e :: l

theorem mem_insertEntry {k : κ} {a : α} {x : κ × α} :
    ∀ {l : List (κ × α)}, x ∈ insertEntry k a l ↔ x = (k, a) ∨ x ∈ l := by
  intro l
  induction l with
  | nil => simp [insertEntry]
  | cons e l ih =>
    rw [insertEntry]
    split
    · rw [List.mem_cons, ih, List.mem_cons]
      exact or_left_comm
    · exact List.mem_cons

theorem length_insertEntry (k : κ) (a : α) (l : List (κ × α)) :
    (insertEntry k a l).length = l.length + 1 := by
  induction l with
  | nil => rfl
  | cons e l ih =>
    rw [insertEntry]
    split
    · rw [List.length_cons, ih, List.length_cons]
    · rfl

theorem sorted_insertEntry {k : κ} {a : α} : ∀ {l : List (κ × α)},
    l.Pairwise (fun x y => x.1 < y.1) → (∀ b, (k, b) ∉ l) →
    (insertEntry k a l).Pairwise (fun x y => x.1 < y.1) := by
  intro l
  induction l with
  | nil => intro _ _; exact List.pairwise_singleton _ _
  | cons e l ih =>
    intro hs hk
    obtain ⟨he, hl⟩ := List.pairwise_cons.mp hs
    rw [insertEntry]
    split
    · rename_i hlt
      refine List.pairwise_cons.mpr ⟨fun x hx => ?_, ih hl (fun b hb => hk b (.tail _ hb))⟩
      rcases mem_insertEntry.mp hx with rfl | hm
      · exact hlt
      · exact he x hm
    · rename_i hnlt
      have hke : k < e.1 := by
        refine lt_of_le_of_ne (not_lt.mp hnlt) (fun heq => hk e.2 ?_)
        rw [heq]
        exact List.mem_cons_self
      refine List.pairwise_cons.mpr ⟨fun x hx => ?_, hs⟩
      rcases List.mem_cons.mp hx with rfl | hm
      · exact hke
      · exact lt_trans hke (he x hm)

/-- Insert unless the key is present; the flag says whether it was inserted. -/
def emplace (m : SortedMap κ α) (k : κ) (a : α) : SortedMap κ α × Bool :=
  match h : m.find k with
  | some _ => (m, false)
  | none => (⟨insertEntry k a m.entries, sorted_insertEntry m.sorted (find_eq_none.mp h)⟩, true)

def erase (m : SortedMap κ α) (k : κ) : SortedMap κ α :=
  ⟨m.entries.filter (fun e => decide (e.1 ≠ k)), m.sorted.filter _⟩

theorem emplace_of_some {m : SortedMap κ α} {k : κ} {b : α} (h : m.find k = some b) (a : α) :
    m.emplace k a = (m, false) := by
  unfold emplace
  split
  · rfl
  · rename_i hn
    rw [h] at hn
    cases hn

theorem emplace_of_none {m : SortedMap κ α} {k : κ} (h : m.find k = none) (a : α) :
    (m.emplace k a).1.entries = insertEntry k a m.entries ∧ (m.emplace k a).2 = true := by
  unfold emplace
  split
  · rename_i hs
    rw [h] at hs
    cases hs
  · exact ⟨rfl, rfl⟩

theorem emplace_entries {m : SortedMap κ α} {k : κ} (h : m.find k = none) (a : α) :
    (m.emplace k a).1.entries = insertEntry k a m.entries := (emplace_of_none h a).1

theorem emplace_inserted {m : SortedMap κ α} {k : κ} (a : α) :
    (m.emplace k a).2 = true ↔ m.find k = none := by
  constructor
  · intro h
    cases hf : m.find k with
    | none => rfl
    | some b =>
      rw [emplace_of_some hf] at h
      cases h
  · intro h
    exact (emplace_of_none h a).2

/-- **`find` after an `emplace` that inserts.** -/
theorem find_emplace {m : SortedMap κ α} {k : κ} (h : m.find k = none) (a : α) (j : κ) :
    (m.emplace k a).1.find j = if j = k then some a else m.find j := by
  refine Option.ext (fun b => ?_)
  rw [find_eq_some, emplace_entries h, mem_insertEntry, Prod.mk.injEq]
  split
  · rename_i hj
    subst hj
    have hb := find_eq_none.mp h b
    simp [hb, eq_comm]
  · rename_i hj
    simp [hj, find_eq_some]

theorem find_emplace_eq_some {m : SortedMap κ α} {k : κ} (h : m.find k = none) {a b : α} {j : κ} :
    (m.emplace k a).1.find j = some b ↔ m.find j = some b ∨ j = k ∧ b = a := by
  rw [find_eq_some, emplace_entries h, mem_insertEntry, Prod.mk.injEq, find_eq_some, or_comm]

theorem find_erase (m : SortedMap κ α) (k j : κ) :
    (m.erase k).find j = if j = k then none else m.find j := by
  refine Option.ext (fun b => ?_)
  rw [find_eq_some, erase, List.mem_filter]
  split
  · rename_i hj
    simp [hj]
  · rename_i hj
    simp [hj, find_eq_some]

theorem size_emplace {m : SortedMap κ α} {k : κ} (h : m.find k = none) (a : α) :
    (m.emplace k a).1.size = m.size + 1 := by
  rw [size, emplace_entries h, length_insertEntry, size]

theorem size_erase {m : SortedMap κ α} {k : κ} {a : α} (h : m.find k = some a) :
    (m.erase k).size + 1 = m.size := by
  classical
  have hmem := find_eq_some.mp h
  have hfilter : m.entries.filter (fun e => decide (e.1 ≠ k)) = m.entries.erase (k, a) := by
    rw [m.nodup_entries.erase_eq_filter]
    refine List.filter_congr (fun e he => ?_)
    by_cases hk : e.1 = k
    · have : e = (k, a) := m.key_inj he hmem hk
      simp [this]
    · have : e ≠ (k, a) := fun heq => hk (by rw [heq])
      simp [hk, this]
  have hlen : (m.erase k).size = m.entries.length - 1 := by
    rw [← List.length_erase_of_mem hmem, ← hfilter]
    rfl
  have hpos := List.length_pos_of_mem hmem
  rw [hlen, size]
  omega

/-! ### Iterators -/

/-- An iterator: the entries before it, and those from it on. -/
structure Iter (κ : Type u) (α : Type v) where
  before : List (κ × α)
  after : List (κ × α)

/-- The entry at the iterator; none at the end. -/
def Iter.get (it : Iter κ α) : Option (κ × α) := it.after.head?

/-- The entry just before the iterator; none at the beginning. -/
def Iter.prev (it : Iter κ α) : Option (κ × α) := it.before.getLast?

/-- The iterator behind the entries whose keys satisfy `p`. -/
def cut (m : SortedMap κ α) (p : κ → Bool) : Iter κ α :=
  ⟨m.entries.takeWhile (fun e => p e.1), m.entries.dropWhile (fun e => p e.1)⟩

/-- The first entry whose key is at least `k`. -/
def lowerBound (m : SortedMap κ α) (k : κ) : Iter κ α := m.cut (fun j => decide (j < k))

/-- The first entry whose key is above `k`. -/
def upperBound (m : SortedMap κ α) (k : κ) : Iter κ α := m.cut (fun j => decide (j ≤ k))

/-- On a sorted list a downward closed test holds on an initial segment. -/
theorem takeWhile_dropWhile_eq_filter {p : κ → Bool} (hp : ∀ i j, i < j → p j = true → p i = true) :
    ∀ {l : List (κ × α)}, l.Pairwise (fun x y => x.1 < y.1) →
      l.takeWhile (fun e => p e.1) = l.filter (fun e => p e.1) ∧
      l.dropWhile (fun e => p e.1) = l.filter (fun e => !p e.1) := by
  intro l
  induction l with
  | nil => intro _; exact ⟨rfl, rfl⟩
  | cons e l ih =>
    intro hs
    obtain ⟨he, hl⟩ := List.pairwise_cons.mp hs
    cases hpe : p e.1 with
    | true =>
      have h := ih hl
      simp only [List.takeWhile_cons, List.dropWhile_cons, List.filter_cons, hpe, if_true, h.1, h.2,
        Bool.not_true, Bool.false_eq_true, if_false, and_self]
    | false =>
      -- every later key is larger, so the test fails there too
      have hall : ∀ x ∈ l, p x.1 = false := by
        intro x hx
        by_contra hc
        have := hp _ _ (he x hx) (by simpa using hc)
        rw [hpe] at this
        cases this
      have h1 : l.filter (fun x => p x.1) = [] :=
        List.filter_eq_nil_iff.mpr (fun x hx => by simp [hall x hx])
      have h2 : l.filter (fun x => !p x.1) = l :=
        List.filter_eq_self.mpr (fun x hx => by simp [hall x hx])
      simp [hpe, h1, h2]

theorem head?_eq_some_of_sorted {l : List (κ × α)} (hs : l.Pairwise (fun x y => x.1 < y.1))
    {e : κ × α} : l.head? = some e ↔ e ∈ l ∧ ∀ x ∈ l, e.1 ≤ x.1 := by
  cases l with
  | nil => simp
  | cons f l =>
    have hf := (List.pairwise_cons.mp hs).1
    rw [List.head?_cons, Option.some.injEq]
    constructor
    · rintro rfl
      refine ⟨List.mem_cons_self, fun x hx => ?_⟩
      rcases List.mem_cons.mp hx with rfl | hm
      · exact le_rfl
      · exact le_of_lt (hf x hm)
    · rintro ⟨he, hmin⟩
      rcases List.mem_cons.mp he with heq | hm
      · exact heq.symm
      · exact absurd (lt_of_lt_of_le (hf e hm) (hmin f List.mem_cons_self)) (lt_irrefl _)

theorem getLast?_eq_some_of_sorted {l : List (κ × α)} (hs : l.Pairwise (fun x y => x.1 < y.1))
    {e : κ × α} : l.getLast? = some e ↔ e ∈ l ∧ ∀ x ∈ l, x.1 ≤ e.1 := by
  constructor
  · intro h
    obtain ⟨ys, rfl⟩ := List.getLast?_eq_some_iff.mp h
    refine ⟨by simp, fun x hx => ?_⟩
    rcases List.mem_append.mp hx with hm | hm
    · exact le_of_lt ((List.pairwise_append.mp hs).2.2 x hm e (by simp))
    · rw [List.mem_singleton.mp hm]
  · rintro ⟨he, hmax⟩
    cases hlast : l.getLast? with
    | none => simp [List.getLast?_eq_none_iff.mp hlast] at he
    | some f =>
      obtain ⟨ys, rfl⟩ := List.getLast?_eq_some_iff.mp hlast
      rcases List.mem_append.mp he with hm | hm
      · have hlt := (List.pairwise_append.mp hs).2.2 e hm f (by simp)
        exact absurd (lt_of_lt_of_le hlt (hmax f (by simp))) (lt_irrefl _)
      · rw [List.mem_singleton.mp hm]

section Cut

variable {m : SortedMap κ α} {p : κ → Bool} (hp : ∀ i j, i < j → p j = true → p i = true)
include hp

theorem cut_prev_eq_some {j : κ} {a : α} : (m.cut p).prev = some (j, a) ↔
    m.find j = some a ∧ p j = true ∧ ∀ i b, m.find i = some b → p i = true → i ≤ j := by
  rw [Iter.prev, cut, (takeWhile_dropWhile_eq_filter hp m.sorted).1,
    getLast?_eq_some_of_sorted (m.sorted.filter _)]
  simp only [List.mem_filter, find_eq_some, and_imp, Prod.forall, and_assoc]

theorem cut_prev_eq_none : (m.cut p).prev = none ↔
    ∀ i b, m.find i = some b → p i = false := by
  rw [Iter.prev, cut, (takeWhile_dropWhile_eq_filter hp m.sorted).1, List.getLast?_eq_none_iff,
    List.filter_eq_nil_iff]
  simp only [find_eq_some, Prod.forall, Bool.not_eq_true]

theorem cut_get_eq_some {j : κ} {a : α} : (m.cut p).get = some (j, a) ↔
    m.find j = some a ∧ p j = false ∧ ∀ i b, m.find i = some b → p i = false → j ≤ i := by
  rw [Iter.get, cut, (takeWhile_dropWhile_eq_filter hp m.sorted).2,
    head?_eq_some_of_sorted (m.sorted.filter _)]
  simp only [List.mem_filter, find_eq_some, and_imp, Prod.forall, and_assoc, Bool.not_eq_eq_eq_not,
    Bool.not_true]

theorem cut_get_eq_none : (m.cut p).get = none ↔
    ∀ i b, m.find i = some b → p i = true := by
  rw [Iter.get, cut, (takeWhile_dropWhile_eq_filter hp m.sorted).2, List.head?_eq_none_iff,
    List.filter_eq_nil_iff]
  simp only [find_eq_some, Prod.forall, Bool.not_eq_true, Bool.not_eq_false_eq_eq_true]

end Cut

/-- **The entry before `upperBound k`** is the one with the greatest key not above `k`. -/
theorem upperBound_prev_eq_some {m : SortedMap κ α} {k j : κ} {a : α} :
    (m.upperBound k).prev = some (j, a) ↔
      m.find j = some a ∧ j ≤ k ∧ ∀ i b, m.find i = some b → i ≤ k → i ≤ j := by
  rw [upperBound, cut_prev_eq_some (by simpa using fun i j hij hj => (hij.trans_le hj).le)]
  simp only [decide_eq_true_eq]

theorem upperBound_prev_eq_none {m : SortedMap κ α} {k : κ} :
    (m.upperBound k).prev = none ↔ ∀ i b, m.find i = some b → k < i := by
  rw [upperBound, cut_prev_eq_none (by simpa using fun i j hij hj => (hij.trans_le hj).le)]
  simp only [decide_eq_false_iff_not, not_le]

/-- **The entry before `lowerBound k`** is the one with the greatest key below `k`. -/
theorem lowerBound_prev_eq_some {m : SortedMap κ α} {k j : κ} {a : α} :
    (m.lowerBound k).prev = some (j, a) ↔
      m.find j = some a ∧ j < k ∧ ∀ i b, m.find i = some b → i < k → i ≤ j := by
  rw [lowerBound, cut_prev_eq_some (by simpa using fun i j hij hj => hij.trans hj)]
  simp only [decide_eq_true_eq]

theorem lowerBound_prev_eq_none {m : SortedMap κ α} {k : κ} :
    (m.lowerBound k).prev = none ↔ ∀ i b, m.find i = some b → k ≤ i := by
  rw [lowerBound, cut_prev_eq_none (by simpa using fun i j hij hj => hij.trans hj)]
  simp only [decide_eq_false_iff_not, not_lt]

/-- **The entry at `lowerBound k`** is the one with the least key not below `k`. -/
theorem lowerBound_get_eq_some {m : SortedMap κ α} {k j : κ} {a : α} :
    (m.lowerBound k).get = some (j, a) ↔
      m.find j = some a ∧ k ≤ j ∧ ∀ i b, m.find i = some b → k ≤ i → j ≤ i := by
  rw [lowerBound, cut_get_eq_some (by simpa using fun i j hij hj => hij.trans hj)]
  simp only [decide_eq_false_iff_not, not_lt]

theorem lowerBound_get_eq_none {m : SortedMap κ α} {k : κ} :
    (m.lowerBound k).get = none ↔ ∀ i b, m.find i = some b → i < k := by
  rw [lowerBound, cut_get_eq_none (by simpa using fun i j hij hj => hij.trans hj)]
  simp only [decide_eq_true_eq]

end SortedMap
