import InterSpec.Runtime.Heap
import InterSpec.Runtime.PolicyRuntime

/-!
# Callbacks

`allocate_from_callback` looks at one bit of its first attempt, a zero result, and that bit
does not say why the attempt failed.  The second attempt can not turn a failure at one site
into a record of another, since a request that does not fit fits nowhere.

* `PolicyOp`: what can be done to a `PolicyRuntime`.  It hands out its `Runtime`, so every
  call of that runtime is among it.
* `policyAfter_eq`: a run of these is a run of the runtime.
* `allocateFromCallback_frame`: a callback adds one record or does nothing.
* `callback_exact`: which of the two program counters decides.
-/

namespace InterSpec.Runtime

/-- A call of `runtime()`, or a callback with the two program counters of the backend. -/
inductive PolicyOp
  | runtime (op : Op)
  | callback (size pc nextPc : UInt64)
deriving DecidableEq, Repr

def policyStep : Machine Runtime PolicyOp Ret := fun s op =>
  match op with
  | .runtime op => step s op
  | .callback size pc nextPc =>
    ((s.allocateFromCallback size pc nextPc).1, .word (s.allocateFromCallback size pc nextPc).2)

/-- The state after a list of calls and callbacks. -/
def policyAfter (s : Runtime) (ops : List PolicyOp) : Runtime := Machine.after policyStep s ops

theorem allocateFromCallback_reachable (s : Runtime) (size pc nextPc : UInt64) :
    ∃ ops, (s.allocateFromCallback size pc nextPc).1 = s.after ops := by
  unfold allocateFromCallback
  by_cases hfirst : (s.allocateFromPc size pc).2 ≠ 0
  · exact ⟨[.allocateFromPc size pc], by rw [if_pos hfirst]; rfl⟩
  · rw [if_neg hfirst]
    by_cases hnext : nextPc ≠ 0 ∧ nextPc ≠ pc
    · exact ⟨[.allocateFromPc size pc, .allocateFromPc size nextPc], by rw [if_pos hnext]; rfl⟩
    · exact ⟨[.allocateFromPc size pc], by rw [if_neg hnext]; rfl⟩

/-- **A run with callbacks is a run of the runtime.** -/
theorem policyAfter_eq (ops : List PolicyOp) : ∀ s : Runtime,
    ∃ calls, s.policyAfter ops = s.after calls := by
  induction ops with
  | nil => intro s; exact ⟨[], rfl⟩
  | cons op ops ih =>
    intro s
    have hop : ∃ first, (policyStep s op).1 = s.after first := by
      cases op with
      | runtime op => exact ⟨[op], rfl⟩
      | callback size pc nextPc => exact allocateFromCallback_reachable s size pc nextPc
    obtain ⟨first, hfirst⟩ := hop
    obtain ⟨rest, hrest⟩ := ih (policyStep s op).1
    refine ⟨first ++ rest, ?_⟩
    rw [after_append, ← hfirst, ← hrest]
    rfl

/-- **Every state that callbacks lead to is sound.** -/
theorem sound_policyAfter (arenaBase arenaSize : UInt64) (ops : List PolicyOp) :
    Sound ((new arenaBase arenaSize).policyAfter ops) := by
  obtain ⟨calls, hcalls⟩ := policyAfter_eq ops (new arenaBase arenaSize)
  rw [hcalls]
  exact sound_reachable arenaBase arenaSize calls

theorem base_policyAfter (arenaBase arenaSize : UInt64) (ops : List PolicyOp) :
    ((new arenaBase arenaSize).policyAfter ops).base = arenaBase := by
  obtain ⟨calls, hcalls⟩ := policyAfter_eq ops (new arenaBase arenaSize)
  rw [hcalls]
  exact (arena_after (layout_new arenaBase arenaSize) calls).1

/-! ### One callback -/

/-- The state `t` is `s` with the new record `a`. -/
structure Added (s t : Runtime) (a : Allocation) : Prop where
  fresh : s.allocations.find a.base = none
  find : ∀ q, t.allocations.find q = if q = a.base then some a else s.allocations.find q
  types : t.types = s.types ∧ t.typeIds = s.typeIds
  sites : t.sites = s.sites ∧ t.sitesById = s.sitesById ∧ t.siteTypes = s.siteTypes

theorem added_record {s : Runtime} (h : Layout s) (size typeHash : UInt64) (siteId : SiteId) :
    Added s (s.record size typeHash siteId) ⟨s.cursor, size, typeHash, siteId⟩ where
  fresh := h.cursor_fresh
  find := find_record h size typeHash siteId
  types := ⟨rfl, rfl⟩
  sites := ⟨rfl, rfl, rfl⟩

/-- The site of a callback is the one of the first program counter, if that has one. -/
theorem callbackSite_eq_some {s : Runtime} (h : Registry s) {pc nextPc : UInt64}
    {site : AllocationSite} (hsite : s.callbackSite pc nextPc = some site) :
    site ∈ s.sites.values ∧
      (site.Covers pc ∨ (∀ other ∈ s.sites.values, ¬ other.Covers pc) ∧ site.Covers nextPc) := by
  unfold callbackSite at hsite
  cases hpc : s.findSiteUnlocked pc with
  | some first =>
    rw [hpc] at hsite
    cases hsite
    obtain ⟨hmem, hcovers⟩ := (findSiteUnlocked_eq_some h).mp hpc
    exact ⟨hmem, .inl hcovers⟩
  | none =>
    rw [hpc] at hsite
    dsimp only at hsite
    by_cases hnext : nextPc ≠ 0 ∧ nextPc ≠ pc
    · rw [if_pos hnext] at hsite
      obtain ⟨hmem, hcovers⟩ := (findSiteUnlocked_eq_some h).mp hsite
      exact ⟨hmem, .inr ⟨(findSiteUnlocked_eq_none h).mp hpc, hcovers⟩⟩
    · rw [if_neg hnext] at hsite
      cases hsite

/-- **A callback adds the record of one request at one site, or does nothing.** -/
theorem allocateFromCallback_frame {s : Runtime} (h : Sound s) (hbase : s.base ≠ 0)
    (size pc nextPc : UInt64) : s.allocateFromCallback size pc nextPc = (s, 0) ∨
      ∃ site ∈ s.sites.values,
        (site.Covers pc ∨ (∀ other ∈ s.sites.values, ¬ other.Covers pc) ∧ site.Covers nextPc) ∧
        Added s (s.allocateFromCallback size pc nextPc).1
          ⟨(s.allocateFromCallback size pc nextPc).2, size, site.typeHash, site.id⟩ := by
  rw [allocateFromCallback_eq h.layout hbase]
  cases hsite : s.callbackSite pc nextPc with
  | none => exact .inl rfl
  | some site =>
    dsimp only
    by_cases hf : s.Fits size
    · rw [if_pos hf]
      obtain ⟨hmem, hcovers⟩ := callbackSite_eq_some h.registry hsite
      exact .inr ⟨site, hmem, hcovers, added_record h.layout size site.typeHash site.id⟩
    · exact .inl (if_neg hf)

/-- **The fallback never relabels.**  In every state of a policy whose arena does not
start at 0: a callback from a registered range is the allocation of that range, also when
it fails; a callback of which neither program counter is in a range returns 0 and changes
nothing; and any other is the allocation of the range of the second program counter.  A
callback adds at most one record. -/
theorem callback_exact (arenaBase arenaSize : UInt64) (hbase : arenaBase ≠ 0)
    (ops : List PolicyOp) (size pc nextPc : UInt64) :
    let s := (new arenaBase arenaSize).policyAfter ops
    let result := s.allocateFromCallback size pc nextPc
    ((∃ site ∈ s.sites.values, site.Covers pc) → result = s.allocateFromPc size pc) ∧
    ((∀ site ∈ s.sites.values, ¬ site.Covers pc) →
      (nextPc = 0 ∨ ∀ site ∈ s.sites.values, ¬ site.Covers nextPc) → result = (s, 0)) ∧
    ((∀ site ∈ s.sites.values, ¬ site.Covers pc) → nextPc ≠ 0 →
      (∃ site ∈ s.sites.values, site.Covers nextPc) → result = s.allocateFromPc size nextPc) ∧
    (result = (s, 0) ∨ ∃ site ∈ s.sites.values,
      (site.Covers pc ∨ (∀ other ∈ s.sites.values, ¬ other.Covers pc) ∧ site.Covers nextPc) ∧
      Added s result.1 ⟨result.2, size, site.typeHash, site.id⟩) := by
  intro s result
  have h : Sound s := sound_policyAfter arenaBase arenaSize ops
  have hbase' : s.base ≠ 0 := by rw [base_policyAfter]; exact hbase
  refine ⟨?_, fun hpc hnext => ?_, fun hpc hz hnext => ?_,
    allocateFromCallback_frame h hbase' size pc nextPc⟩
  · rintro ⟨site, hmem, hcovers⟩
    exact allocateFromCallback_of_find h.layout hbase'
      ((findSiteUnlocked_eq_some h.registry).mpr ⟨hmem, hcovers⟩)
  · have hnone := (findSiteUnlocked_eq_none h.registry).mpr hpc
    show s.allocateFromCallback size pc nextPc = (s, 0)
    rw [allocateFromCallback_of_none hnone]
    by_cases hn : nextPc ≠ 0 ∧ nextPc ≠ pc
    · rw [if_pos hn, allocateFromPc_of_none]
      exact (findSiteUnlocked_eq_none h.registry).mpr (hnext.resolve_left hn.1)
    · rw [if_neg hn]
  · have hnone := (findSiteUnlocked_eq_none h.registry).mpr hpc
    -- the second program counter is in a range and the first is not
    have hne : nextPc ≠ pc := by
      rintro rfl
      obtain ⟨site, hmem, hcovers⟩ := hnext
      exact hpc site hmem hcovers
    show s.allocateFromCallback size pc nextPc = s.allocateFromPc size nextPc
    rw [allocateFromCallback_of_none hnone, if_pos ⟨hz, hne⟩]

/-- Both program counters are registered and the arena is full: nothing is allocated. -/
theorem callback_exact_full :
    let s := (new 16 8).policyAfter
      [.runtime (.registerType 1 7), .runtime (.registerAllocationSite 1 100 104 1),
        .runtime (.registerAllocationSite 2 104 108 1), .callback 5 100 0]
    s.allocateFromCallback 5 104 100 = s.allocateFromPc 5 104 := by
  refine (callback_exact 16 8 (by decide)
    [.runtime (.registerType 1 7), .runtime (.registerAllocationSite 1 100 104 1),
      .runtime (.registerAllocationSite 2 104 108 1), .callback 5 100 0] 5 104 100).1 ?_
  exact ⟨⟨2, 104, 108, 1, 7⟩, by decide, by decide⟩

end InterSpec.Runtime
