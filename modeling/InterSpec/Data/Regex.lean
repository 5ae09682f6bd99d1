import Mathlib.Data.List.Basic

/-!
# Regular expressions that are searched and replaced

Backtracking search for a sequence of items, as `re` does it: what is tried first is what
is found, and the search goes on behind the match.  A pattern begins with a plain text, so
that no match is empty.  A plain text alone is such a pattern, so `find`, `count` and `subn`
are also what `in`, `str.count` and `str.replace` do.

* `Regex.run_sound`, `Regex.run_complete`: a match is found exactly where a part of the text
  is in the language of the pattern.
* `Regex.find`: the leftmost match, as what is before and what is behind it.
* `Regex.find_plain_isSome_iff`, `Regex.find_plain_eq_some_iff`: a plain text is found where it
  is a part, at its first occurrence.
* `Regex.subn`: the replacement of the first matches, and how many there were.
* `Regex.count`: how many matches there are that do not overlap.
* `Regex.count_of_none`, `Regex.count_of_some`: the count goes on behind the first match.
-/

namespace Regex

variable {α : Type}

/-- A character, `.*?` where the dot matches everything, and `[q]+`. -/
inductive Item (α : Type)
  | char (c : α)
  | lazyAny
  | many (q : α → Bool)

/-- What the items match. -/
inductive Matches : List (Item α) → List α → Prop
  | nil : Matches [] []
  | char {c : α} {items : List (Item α)} {w : List α} (h : Matches items w) :
      Matches (.char c :: items) (c :: w)
  | lazyAny {items : List (Item α)} {w : List α} (u : List α) (h : Matches items w) :
      Matches (.lazyAny :: items) (u ++ w)
  | many {q : α → Bool} {items : List (Item α)} {u w : List α} (hne : u ≠ [])
      (hu : ∀ a ∈ u, q a = true) (h : Matches items w) : Matches (.many q :: items) (u ++ w)

/-! ### Backtracking -/

/-- The shortest part to skip before `next`, which gives what is behind its match. -/
def skipThen (next : List α → Option (List α)) : List α → Option (List α)
  | [] => next []
  | a :: s => (next (a :: s)).or (skipThen next s)

/-- The longest part of `q`s before `next`. -/
def manyThen (q : α → Bool) (next : List α → Option (List α)) : List α → Option (List α)
  | [] => none
  | a :: s => if q a then (manyThen q next s).or (next s) else none

theorem skipThen_sound {next : List α → Option (List α)} {s r : List α}
    (h : skipThen next s = some r) : ∃ u t, s = u ++ t ∧ next t = some r := by
  induction s with
  | nil => exact ⟨[], [], rfl, h⟩
  | cons a s ih =>
    rcases Option.or_eq_some_iff.mp h with hnow | ⟨_, hlater⟩
    · exact ⟨[], a :: s, rfl, hnow⟩
    · obtain ⟨u, t, rfl, ht⟩ := ih hlater
      exact ⟨a :: u, t, rfl, ht⟩

theorem skipThen_complete {next : List α → Option (List α)} {t : List α}
    (h : (next t).isSome) (u : List α) : (skipThen next (u ++ t)).isSome := by
  induction u with
  | nil =>
    cases t with
    | nil => exact h
    | cons a t =>
      rw [List.nil_append, skipThen, Option.isSome_or, h, Bool.true_or]
  | cons a u ih => rw [List.cons_append, skipThen, Option.isSome_or, ih, Bool.or_true]

theorem manyThen_sound {q : α → Bool} {next : List α → Option (List α)} {s r : List α}
    (h : manyThen q next s = some r) :
    ∃ u t, u ≠ [] ∧ (∀ a ∈ u, q a = true) ∧ s = u ++ t ∧ next t = some r := by
  induction s with
  | nil => cases h
  | cons a s ih =>
    by_cases ha : q a = true
    · rw [manyThen, if_pos ha] at h
      rcases Option.or_eq_some_iff.mp h with hmore | ⟨_, hlast⟩
      · obtain ⟨u, t, _, hu, rfl, ht⟩ := ih hmore
        exact ⟨a :: u, t, List.cons_ne_nil a u, List.forall_mem_cons.mpr ⟨ha, hu⟩, rfl, ht⟩
      · exact ⟨[a], s, List.cons_ne_nil a [], List.forall_mem_singleton.mpr ha, rfl, hlast⟩
    · rw [manyThen, if_neg ha] at h
      cases h

theorem manyThen_complete {q : α → Bool} {next : List α → Option (List α)} {t : List α}
    (h : (next t).isSome) {u : List α} (hne : u ≠ []) (hu : ∀ a ∈ u, q a = true) :
    (manyThen q next (u ++ t)).isSome := by
  induction u with
  | nil => exact absurd rfl hne
  | cons a u ih =>
    obtain ⟨ha, hu⟩ := List.forall_mem_cons.mp hu
    rw [List.cons_append, manyThen, if_pos ha, Option.isSome_or]
    cases u with
    | nil => rw [List.nil_append, h, Bool.or_true]
    | cons b u => rw [ih (List.cons_ne_nil b u) hu, Bool.true_or]

variable [DecidableEq α]

def Item.run (next : List α → Option (List α)) : Item α → List α → Option (List α)
  | .char _, [] => none
  | .char c, a :: s => if a = c then next s else none
  | .lazyAny, s => skipThen next s
  | .many q, s => manyThen q next s

/-- What is behind the first match of the items at the beginning of the text. -/
def run : List (Item α) → List α → Option (List α)
  | [] => some
  | item :: items => item.run (run items)

/-- **What is found is a match.** -/
theorem run_sound {items : List (Item α)} : ∀ {s r : List α}, run items s = some r →
    ∃ m, s = m ++ r ∧ Matches items m := by
  induction items with
  | nil =>
    intro s r h
    cases h
    exact ⟨[], rfl, .nil⟩
  | cons item items ih =>
    intro s r h
    cases item with
    | char c =>
      cases s with
      | nil => cases h
      | cons a s =>
        by_cases ha : a = c
        · subst ha
          rw [run, Item.run, if_pos rfl] at h
          obtain ⟨m, rfl, hm⟩ := ih h
          exact ⟨a :: m, rfl, .char hm⟩
        · rw [run, Item.run, if_neg ha] at h
          cases h
    | lazyAny =>
      obtain ⟨u, t, rfl, ht⟩ := skipThen_sound h
      obtain ⟨m, rfl, hm⟩ := ih ht
      exact ⟨u ++ m, (List.append_assoc u m r).symm, .lazyAny u hm⟩
    | many q =>
      obtain ⟨u, t, hne, hu, rfl, ht⟩ := manyThen_sound h
      obtain ⟨m, rfl, hm⟩ := ih ht
      exact ⟨u ++ m, (List.append_assoc u m r).symm, .many hne hu hm⟩

/-- **Where there is a match, one is found.** -/
theorem run_complete {items : List (Item α)} {m : List α} (h : Matches items m) (r : List α) :
    (run items (m ++ r)).isSome := by
  induction h with
  | nil => rfl
  | @char c items w h ih =>
    rw [List.cons_append, run, Item.run, if_pos rfl]
    exact ih
  | lazyAny u h ih =>
    rw [List.append_assoc]
    exact skipThen_complete ih u
  | many hne hu h ih =>
    rw [List.append_assoc]
    exact manyThen_complete ih hne hu

end Regex

/-! ### Patterns -/

structure Regex (α : Type) where
  head : List α
  tail : List (Regex.Item α)
  head_ne : head ≠ []

namespace Regex

variable {α : Type}

def text (s : List α) : List (Item α) := s.map Item.char

def items (p : Regex α) : List (Item α) := text p.head ++ p.tail

/-- The pattern of a plain text. -/
def plain (s : List α) (h : s ≠ []) : Regex α := ⟨s, [], h⟩

theorem ne_nil_of_matches {p : Regex α} {m : List α} (h : Matches p.items m) : m ≠ [] := by
  obtain ⟨head, tail, hne⟩ := p
  cases head with
  | nil => exact absurd rfl hne
  | cons c head =>
    cases h
    exact List.cons_ne_nil _ _

theorem matches_text {s m : List α} : Matches (text s) m ↔ m = s := by
  induction s generalizing m with
  | nil =>
    constructor
    · intro h
      cases h
      rfl
    · rintro rfl
      exact .nil
  | cons c s ih =>
    constructor
    · intro h
      cases h with
      | char h => rw [ih.mp h]
    · rintro rfl
      exact .char (ih.mpr rfl)

theorem matches_plain {s m : List α} {h : s ≠ []} : Matches (plain s h).items m ↔ m = s := by
  rw [items, plain, List.append_nil, matches_text]

variable [DecidableEq α]

/-- The leftmost match: what is before it and what is behind it. -/
def search (items : List (Item α)) : List α → Option (List α × List α)
  | [] => none
  | a :: s =>
    match run items (a :: s) with
    | some rest => some ([], rest)
    | none => (search items s).map (fun found => (a :: found.1, found.2))

def find (p : Regex α) (s : List α) : Option (List α × List α) := search p.items s

/-- The text with the first `n` matches replaced, and how many were replaced. -/
def subn (p : Regex α) (new : List α) : Nat → List α → List α × Nat
  | 0, s => (s, 0)
  | n + 1, s =>
    match p.find s with
    | none => (s, 0)
    | some (before, rest) => (before ++ new ++ (p.subn new n rest).1, (p.subn new n rest).2 + 1)

/-- The number of matches that do not overlap: there are at most as many as characters. -/
def count (p : Regex α) (s : List α) : Nat := (p.subn [] s.length s).2

theorem search_eq_some {items : List (Item α)} {s before rest : List α}
    (h : search items s = some (before, rest)) :
    ∃ m, s = before ++ m ++ rest ∧ Matches items m := by
  induction s generalizing before with
  | nil => cases h
  | cons a s ih =>
    rw [search] at h
    cases hmatch : run items (a :: s) with
    | some r =>
      rw [hmatch] at h
      cases h
      exact run_sound hmatch
    | none =>
      rw [hmatch] at h
      obtain ⟨found, hfound, he⟩ := Option.map_eq_some_iff.mp h
      cases he
      obtain ⟨m, hs, hm⟩ := ih hfound
      exact ⟨m, congrArg (a :: ·) hs, hm⟩

/-- **There is a match exactly when the text has a part in the language.** -/
theorem find_isSome_iff {p : Regex α} {s : List α} :
    (p.find s).isSome ↔ ∃ a m b, s = a ++ m ++ b ∧ Matches p.items m := by
  constructor
  · intro h
    obtain ⟨⟨before, rest⟩, hfound⟩ := Option.isSome_iff_exists.mp h
    obtain ⟨m, hs, hm⟩ := search_eq_some hfound
    exact ⟨before, m, rest, hs, hm⟩
  · rintro ⟨a, m, b, rfl, hm⟩
    unfold find
    induction a with
    | nil =>
      obtain ⟨c, w, rfl⟩ := List.exists_cons_of_ne_nil (ne_nil_of_matches hm)
      obtain ⟨r, hr⟩ := Option.isSome_iff_exists.mp (run_complete hm b)
      rw [List.cons_append] at hr
      rw [List.nil_append, List.cons_append, search, hr]
      rfl
    | cons c a ih =>
      rw [List.cons_append, List.cons_append, search]
      cases run p.items (c :: (a ++ m ++ b)) with
      | some r => rfl
      | none => exact Option.isSome_map.trans ih

/-- **A plain text is found where it is a part.** -/
theorem find_plain_isSome_iff {s t : List α} {h : s ≠ []} :
    ((plain s h).find t).isSome ↔ s <:+: t := by
  rw [find_isSome_iff]
  constructor
  · rintro ⟨a, m, b, rfl, hm⟩
    rw [matches_plain.mp hm]
    exact ⟨a, b, rfl⟩
  · rintro ⟨a, b, rfl⟩
    exact ⟨a, s, b, rfl, matches_plain.mpr rfl⟩

theorem search_leftmost {items : List (Item α)} {s before rest : List α}
    (h : search items s = some (before, rest)) {a m b : List α} (hs : s = a ++ m ++ b)
    (hm : Matches items m) : before.length ≤ a.length := by
  induction s generalizing before a with
  | nil => cases h
  | cons c s ih =>
    rw [search] at h
    cases hmatch : run items (c :: s) with
    | some r =>
      rw [hmatch] at h
      cases h
      exact Nat.zero_le _
    | none =>
      rw [hmatch] at h
      obtain ⟨found, hfound, he⟩ := Option.map_eq_some_iff.mp h
      cases he
      cases a with
      | nil =>
        have hsome := run_complete hm b
        rw [List.nil_append] at hs
        rw [← hs, hmatch] at hsome
        cases hsome
      | cons d a =>
        rw [List.cons_append, List.cons_append] at hs
        exact Nat.succ_le_succ (ih hfound (List.cons.inj hs).2)

/-- **A plain text is found at its first occurrence.** -/
theorem find_plain_eq_some_iff {s t before rest : List α} {h : s ≠ []} :
    (plain s h).find t = some (before, rest) ↔ t = before ++ s ++ rest ∧
      ∀ a b, t = a ++ s ++ b → before.length ≤ a.length := by
  have hsound : ∀ {before rest}, (plain s h).find t = some (before, rest) →
      t = before ++ s ++ rest ∧ ∀ a b, t = a ++ s ++ b → before.length ≤ a.length := by
    intro before rest hfind
    obtain ⟨m, ht, hm⟩ := search_eq_some hfind
    obtain rfl := matches_plain.mp hm
    exact ⟨ht, fun a b hab => search_leftmost hfind hab hm⟩
  constructor
  · exact hsound
  · rintro ⟨ht, hfirst⟩
    have hsome : ((plain s h).find t).isSome :=
      find_plain_isSome_iff.mpr ⟨before, rest, ht.symm⟩
    obtain ⟨⟨a, b⟩, hfind⟩ := Option.isSome_iff_exists.mp hsome
    obtain ⟨hab, hleast⟩ := hsound hfind
    have hlen : before.length = a.length :=
      Nat.le_antisymm (hfirst a b hab) (hleast before rest ht)
    rw [ht, List.append_assoc, List.append_assoc] at hab
    obtain ⟨rfl, htail⟩ := List.append_inj hab hlen
    rw [hfind, List.append_cancel_left htail]

theorem eq_of_find_plain {s t before rest : List α} {h : s ≠ []}
    (hfind : (plain s h).find t = some (before, rest)) : t = before ++ s ++ rest :=
  (find_plain_eq_some_iff.mp hfind).1

theorem find_length {p : Regex α} {s before rest : List α}
    (h : p.find s = some (before, rest)) : rest.length < s.length := by
  obtain ⟨m, rfl, hm⟩ := search_eq_some h
  have hpos : 0 < m.length := List.length_pos_iff.mpr (ne_nil_of_matches hm)
  rw [List.length_append, List.length_append]
  omega

/-- Neither the new text nor a limit that is large enough matters to the count. -/
theorem subn_snd (p : Regex α) (new : List α) {n : Nat} : ∀ {k : Nat} {s : List α},
    s.length ≤ n → s.length ≤ k → (p.subn new n s).2 = (p.subn [] k s).2 := by
  induction n with
  | zero =>
    intro k s hn _
    rw [List.length_eq_zero_iff.mp (Nat.le_zero.mp hn)]
    cases k with
    | zero => rfl
    | succ k => rfl
  | succ n ih =>
    intro k s hn hk
    cases k with
    | zero =>
      rw [List.length_eq_zero_iff.mp (Nat.le_zero.mp hk)]
      rfl
    | succ k =>
      rw [subn, subn]
      cases hfind : p.find s with
      | none => rfl
      | some found =>
        have hlt := find_length hfind
        exact congrArg (· + 1) (ih (by omega) (by omega))

theorem count_of_none {p : Regex α} {s : List α} (h : p.find s = none) : p.count s = 0 := by
  rw [count]
  cases s with
  | nil => rfl
  | cons a s => rw [List.length_cons, subn, h]

/-- **The count goes on behind the first match.** -/
theorem count_of_some {p : Regex α} {s before rest : List α}
    (h : p.find s = some (before, rest)) : p.count s = p.count rest + 1 := by
  have hlt := find_length h
  cases s with
  | nil => cases h
  | cons a s =>
    rw [count, List.length_cons, subn, h]
    exact congrArg (· + 1) (p.subn_snd [] (Nat.le_of_lt_succ hlt) (Nat.le_refl _))

theorem count_pos_iff {p : Regex α} {s : List α} : 0 < p.count s ↔ (p.find s).isSome := by
  cases h : p.find s with
  | none =>
    rw [count_of_none h]
    exact iff_of_false (Nat.lt_irrefl 0) Bool.false_ne_true
  | some found =>
    rw [count_of_some h]
    exact iff_of_true (Nat.succ_pos _) rfl

theorem subn_one_of_some {p : Regex α} {s before rest : List α} (new : List α)
    (h : p.find s = some (before, rest)) : p.subn new 1 s = (before ++ new ++ rest, 1) := by
  rw [subn, h]
  rfl

theorem subn_one_of_none {p : Regex α} {s : List α} (new : List α) (h : p.find s = none) :
    p.subn new 1 s = (s, 0) := by
  rw [subn, h]

end Regex
