import InterSpec.Runtime.Heap

/-!
# Reallocation as a move

`reallocate` inserts the replacement before it erases the source, in one map, and four
different outcomes share the return value 0.

* `Moved`: what a move does.  The replacement takes over the type and the site of its
  source, and nothing else changes.
* `find_cursor_before`: no record was ever made at the cursor.
* `reallocate_exact`: the outcomes of a call on any reachable state.
-/

namespace InterSpec.Runtime

/-- The state `t` is `s` with the record `a` of `p` moved to `q`, with a new size. -/
structure Moved (s t : Runtime) (p q newSize : UInt64) (a : Allocation) : Prop where
  result_ne_zero : q ≠ 0
  result_ne_source : q ≠ p
  source_gone : t.allocations.find p = none
  replacement : t.allocations.find q = some ⟨q, newSize, a.typeHash, a.siteId⟩
  disjoint : Disjoint (Set.Ico q.toNat (q.toNat + newSize.toNat))
    (Set.Ico p.toNat (p.toNat + a.size.toNat))
  others : ∀ r, r ≠ p → r ≠ q → t.allocations.find r = s.allocations.find r
  allocationCount : t.allocationCount = s.allocationCount
  arena : t.base = s.base ∧ t.capacity = s.capacity ∧ t.arenaValid = s.arenaValid
  types : t.types = s.types ∧ t.typeIds = s.typeIds
  sites : t.sites = s.sites ∧ t.sitesById = s.sitesById ∧ t.siteTypes = s.siteTypes

/-- **A record that is moved to the cursor.** -/
theorem moved_record {s : Runtime} (h : Layout s) {p newSize : UInt64} {a : Allocation}
    (hp : s.allocations.find p = some a) :
    Moved s ((s.record newSize a.typeHash a.siteId).remove p) p s.cursor newSize a := by
  have hne : s.cursor ≠ p := by
    intro hc
    rw [← hc, h.cursor_fresh] at hp
    cases hp
  have hfind := find_record h newSize a.typeHash a.siteId
  have hlive : (s.record newSize a.typeHash a.siteId).allocations.find p = some a := by
    rw [hfind, if_neg hne.symm, hp]
  refine ⟨h.cursor_ne_zero hp, hne, ?_, ?_, ?_, fun r hr hr' => ?_, ?_, ⟨rfl, rfl, rfl⟩, ⟨rfl, rfl⟩,
    ⟨rfl, rfl, rfl⟩⟩
  · rw [find_remove, if_pos rfl]
  · rw [find_remove, if_neg hne, hfind, if_pos rfl]
  · -- the source ends, padding included, at or below the cursor
    have hend := h.base_lt_cursor hp
    have hpad := le_roundUp8 a.size.toNat
    refine (Set.disjoint_left.mpr (fun n hn hn' => ?_))
    have h₁ := hn.1
    have h₂ := hn'.2
    omega
  · rw [find_remove, if_neg hr, hfind, if_neg hr']
  · have hadd : (s.record newSize a.typeHash a.siteId).allocations.size = s.allocations.size + 1 :=
      SortedMap.size_emplace h.cursor_fresh _
    have hsub := SortedMap.size_erase hlive
    show (((s.record newSize a.typeHash a.siteId).allocations).erase p).size = s.allocations.size
    omega

/-- **No record was ever made at the cursor.** -/
theorem find_cursor_before {s : Runtime} (h : Layout s) (ops : List Op)
    (hvalid : (s.after ops).arenaValid = true) :
    s.allocations.find (s.after ops).cursor = none := by
  cases hfind : s.allocations.find (s.after ops).cursor with
  | none => rfl
  | some a =>
    have hgrows := grows_after h ops
    have hin := h.inArena _ _ hfind
    have hend := h.base_lt_cursor hfind
    have hpos := roundUp8_pos (Nat.ne_of_gt hin.size_pos)
    rw [h.toNat_cursor hin.valid, (layout_after h ops).toNat_cursor hvalid, hgrows.base_eq] at hend
    have hused := hgrows.used_le
    omega

/-- **Reallocation is an atomic move that keeps the provenance.**  On any reachable state a
call that is not given the base of a live record, or whose new size is not 0 and does not
fit, returns 0 and changes nothing.  With the new size 0 it removes that record and returns
0.  Otherwise it moves the record to a base that no state of the run has had a record
at. -/
theorem reallocate_exact (arenaBase arenaSize : UInt64) (ops : List Op) (ptr newSize : UInt64) :
    let s := (new arenaBase arenaSize).after ops
    (s.allocations.find ptr = none ∨ (newSize ≠ 0 ∧ ¬ s.Fits newSize) →
      s.reallocate ptr newSize = (s, 0)) ∧
    ∀ a, s.allocations.find ptr = some a →
      (newSize = 0 → s.reallocate ptr newSize = (s.remove ptr, 0) ∧
        ∀ r, (s.remove ptr).allocations.find r =
          if r = ptr then none else s.allocations.find r) ∧
      (s.Fits newSize →
        Moved s (s.reallocate ptr newSize).1 ptr (s.reallocate ptr newSize).2 newSize a ∧
        ∀ earlier later, ops = earlier ++ later →
          ((new arenaBase arenaSize).after earlier).allocations.find
            (s.reallocate ptr newSize).2 = none) := by
  intro s
  have h : Layout s := layout_reachable arenaBase arenaSize ops
  refine ⟨?_, fun a hp => ⟨?_, fun hf => ?_⟩⟩
  · rintro (hnone | ⟨hz, hf⟩)
    · exact reallocate_of_none hnone
    · cases hp : s.allocations.find ptr with
      | none => exact reallocate_of_none hp
      | some a => rw [reallocate_of_find h hp hz, if_neg hf]
  · rintro rfl
    exact ⟨reallocate_zero hp, find_remove s ptr⟩
  · rw [reallocate_of_find h hp hf.2.1, if_pos hf]
    refine ⟨moved_record h hp, fun earlier later hops => ?_⟩
    have hlater : s = ((new arenaBase arenaSize).after earlier).after later := by
      rw [← after_append, ← hops]
    have hvalid := hf.1
    rw [hlater] at hvalid ⊢
    exact find_cursor_before (layout_reachable arenaBase arenaSize earlier) later hvalid

/-- A move in an arena based at 0: the record at 0 goes to 8, and its type goes with it. -/
theorem reallocate_exact_at_null :
    let s := (new 0 64).after [.registerType 1 7, .allocate 5 1]
    Moved s (s.reallocate 0 12).1 0 (s.reallocate 0 12).2 12 ⟨0, 5, 7, 0⟩ := by
  intro s
  exact ((reallocate_exact 0 64 [.registerType 1 7, .allocate 5 1] 0 12).2 ⟨0, 5, 7, 0⟩ rfl).2
    ⟨rfl, by decide, by decide⟩ |>.1

end InterSpec.Runtime
