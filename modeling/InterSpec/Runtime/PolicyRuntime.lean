import InterSpec.Runtime.Registry

/-!
# The policy runtime

`PolicyRuntime` of `include/interspec/policy_runtime.h`, which binds a generated
policy to a sandbox.  It holds nothing but a `Runtime`; the program counters are
what the backend reports for one callback.

* `allocateFromCallback_of_find`: when the callback comes from a registered range
  the second program counter is never used, also when the allocation fails.
* `allocateFromCallback_eq`: which site decides (`callbackSite`), and what it does.
* `SameHeap`: two runtimes with one heap, whatever is registered in them.  Release,
  size and reallocation never tell them apart (`SameHeap.release`,
  `SameHeap.reallocate`), and an allocation by program counter in the one is an
  allocation by site id in the other (`SameHeap.allocateFromCallback`).
-/

namespace InterSpec

namespace Runtime

/-- `PolicyRuntime::initialize`. -/
def initializePolicy {ρ : Type} (s : Runtime) (registerTypes : Runtime → Runtime × Bool)
    (registerSites : Runtime → ρ → Runtime × Bool) (resolve : ρ) : Runtime × Bool :=
  if (registerTypes s).2 = false then ((registerTypes s).1, false)
  else registerSites (registerTypes s).1 resolve

/-- `PolicyRuntime::allocate_from_callback`, with the results of
`callback_program_counter` and `callback_new_program_counter`. -/
def allocateFromCallback (s : Runtime) (size pc nextPc : UInt64) : Runtime × UInt64 :=
  let result := s.allocateFromPc size pc
  if result.2 ≠ 0 then result
  else if nextPc ≠ 0 ∧ nextPc ≠ pc then result.1.allocateFromPc size nextPc
  else result

theorem Layout.cursor_ne_zero_of_base {s : Runtime} (h : Layout s) (hbase : s.base ≠ 0)
    (hv : s.arenaValid = true) : s.cursor ≠ 0 := by
  intro h0
  have hcur := h.toNat_cursor hv
  have hb : 0 < s.base.toNat := UInt64.lt_iff_toNat_lt.mp (UInt64.pos_iff_ne_zero.mpr hbase)
  have hz : s.cursor.toNat = 0 := by rw [h0]; rfl
  omega

theorem allocateFromPc_of_not_fits {s : Runtime} (h : Layout s) {size : UInt64}
    (hf : ¬ s.Fits size) (pc : UInt64) : s.allocateFromPc size pc = (s, 0) := by
  cases hs : s.findSiteUnlocked pc with
  | none => exact allocateFromPc_of_none hs
  | some site => rw [allocateFromPc_of_find h hs, if_neg hf]

/-- When the first program counter is registered and its record would not be at
address 0, the second one is not used. -/
theorem allocateFromCallback_eq_first {s : Runtime} (h : Layout s) {size pc nextPc : UInt64}
    {site : AllocationSite} (hs : s.findSiteUnlocked pc = some site)
    (hcur : s.Fits size → s.cursor ≠ 0) :
    s.allocateFromCallback size pc nextPc = s.allocateFromPc size pc := by
  unfold allocateFromCallback
  by_cases hf : s.Fits size
  · rw [allocateFromPc_of_find h hs, if_pos hf]
    exact if_pos (hcur hf)
  · rw [allocateFromPc_of_not_fits h hf]
    by_cases hn : nextPc ≠ 0 ∧ nextPc ≠ pc
    · rw [if_neg (fun hc => hc rfl), if_pos hn]
      exact allocateFromPc_of_not_fits h hf nextPc
    · rw [if_neg (fun hc => hc rfl), if_neg hn]

/-- **A callback from a registered range allocates at that range's site.** -/
theorem allocateFromCallback_of_find {s : Runtime} (h : Layout s) (hbase : s.base ≠ 0)
    {size pc nextPc : UInt64} {site : AllocationSite} (hs : s.findSiteUnlocked pc = some site) :
    s.allocateFromCallback size pc nextPc = s.allocateFromPc size pc :=
  allocateFromCallback_eq_first h hs (fun hf => h.cursor_ne_zero_of_base hbase hf.1)

/-- When the first program counter is not registered, the second one decides. -/
theorem allocateFromCallback_of_none {s : Runtime} {size pc nextPc : UInt64}
    (hs : s.findSiteUnlocked pc = none) : s.allocateFromCallback size pc nextPc =
      if nextPc ≠ 0 ∧ nextPc ≠ pc then s.allocateFromPc size nextPc else (s, 0) := by
  rw [allocateFromCallback, allocateFromPc_of_none hs]
  exact if_neg (fun hc => hc rfl)

/-- The site that a callback allocates at. -/
def callbackSite (s : Runtime) (pc nextPc : UInt64) : Option AllocationSite :=
  match s.findSiteUnlocked pc with
  | some site => some site
  | none => if nextPc ≠ 0 ∧ nextPc ≠ pc then s.findSiteUnlocked nextPc else none

/-- **In an arena that does not start at 0 a callback is one request at one site.** -/
theorem allocateFromCallback_eq {s : Runtime} (h : Layout s) (hbase : s.base ≠ 0)
    (size pc nextPc : UInt64) : s.allocateFromCallback size pc nextPc =
      match s.callbackSite pc nextPc with
      | none => (s, 0)
      | some site =>
        if s.Fits size then (s.record size site.typeHash site.id, s.cursor) else (s, 0) := by
  unfold callbackSite
  cases hpc : s.findSiteUnlocked pc with
  | some site => rw [allocateFromCallback_of_find h hbase hpc, allocateFromPc_of_find h hpc]
  | none =>
    rw [allocateFromCallback_of_none hpc]
    by_cases hnext : nextPc ≠ 0 ∧ nextPc ≠ pc
    · rw [if_pos hnext]
      dsimp only
      rw [if_pos hnext]
      cases hs : s.findSiteUnlocked nextPc with
      | some site => rw [allocateFromPc_of_find h hs]
      | none => rw [allocateFromPc_of_none hs]
    · rw [if_neg hnext]
      dsimp only
      rw [if_neg hnext]

/-! ### Two runtimes with one heap -/

structure SameHeap (s t : Runtime) : Prop where
  base : t.base = s.base
  capacity : t.capacity = s.capacity
  arenaValid : t.arenaValid = s.arenaValid
  used : t.used = s.used
  allocations : t.allocations = s.allocations

namespace SameHeap

variable {s t : Runtime}

theorem cursor (h : SameHeap s t) : t.cursor = s.cursor := by
  rw [Runtime.cursor, Runtime.cursor, h.base, h.used]

theorem fits (h : SameHeap s t) (size : UInt64) : t.Fits size ↔ s.Fits size := by
  rw [Fits, Fits, h.arenaValid, h.used, h.capacity]

theorem record (h : SameHeap s t) (size typeHash : UInt64) (siteId : SiteId) :
    SameHeap (s.record size typeHash siteId) (t.record size typeHash siteId) where
  base := h.base
  capacity := h.capacity
  arenaValid := h.arenaValid
  used := by
    show t.used + UInt64.ofNat (roundUp8 size.toNat) = s.used + UInt64.ofNat (roundUp8 size.toNat)
    rw [h.used]
  allocations := by
    show (t.allocations.emplace t.cursor ⟨t.cursor, size, typeHash, siteId⟩).1 =
      (s.allocations.emplace s.cursor ⟨s.cursor, size, typeHash, siteId⟩).1
    rw [h.allocations, h.cursor]

theorem remove (h : SameHeap s t) (p : UInt64) : SameHeap (s.remove p) (t.remove p) where
  base := h.base
  capacity := h.capacity
  arenaValid := h.arenaValid
  used := h.used
  allocations := by
    show t.allocations.erase p = s.allocations.erase p
    rw [h.allocations]

theorem request (h : SameHeap s t) (size typeHash : UInt64) (siteId : SiteId) :
    (if s.Fits size then (s.record size typeHash siteId, s.cursor) else (s, (0 : UInt64))).2 =
      (if t.Fits size then (t.record size typeHash siteId, t.cursor) else (t, (0 : UInt64))).2 ∧
    SameHeap
      (if s.Fits size then (s.record size typeHash siteId, s.cursor) else (s, (0 : UInt64))).1
      (if t.Fits size then (t.record size typeHash siteId, t.cursor) else (t, (0 : UInt64))).1 := by
  by_cases hf : s.Fits size
  · rw [if_pos hf, if_pos ((h.fits size).mpr hf)]
    exact ⟨h.cursor.symm, h.record size typeHash siteId⟩
  · rw [if_neg hf, if_neg (fun hc => hf ((h.fits size).mp hc))]
    exact ⟨rfl, h⟩

theorem release (h : SameHeap s t) (p : UInt64) :
    (s.release p).2 = (t.release p).2 ∧ SameHeap (s.release p).1 (t.release p).1 := by
  cases hp : s.allocations.find p with
  | none =>
    rw [release_of_none hp, release_of_none (by rw [h.allocations]; exact hp)]
    exact ⟨rfl, h⟩
  | some a =>
    rw [release_of_find hp, release_of_find (a := a) (by rw [h.allocations]; exact hp)]
    exact ⟨rfl, h.remove p⟩

theorem reallocate (h : SameHeap s t) (hs : Layout s) (ht : Layout t) (p newSize : UInt64) :
    (s.reallocate p newSize).2 = (t.reallocate p newSize).2 ∧
      SameHeap (s.reallocate p newSize).1 (t.reallocate p newSize).1 := by
  cases hp : s.allocations.find p with
  | none =>
    rw [reallocate_of_none hp, reallocate_of_none (by rw [h.allocations]; exact hp)]
    exact ⟨rfl, h⟩
  | some a =>
    have hp' : t.allocations.find p = some a := by rw [h.allocations]; exact hp
    by_cases hz : newSize = 0
    · subst hz
      rw [reallocate_zero hp, reallocate_zero hp']
      exact ⟨rfl, h.remove p⟩
    · rw [reallocate_of_find hs hp hz, reallocate_of_find ht hp' hz]
      by_cases hf : s.Fits newSize
      · rw [if_pos hf, if_pos ((h.fits newSize).mpr hf)]
        exact ⟨h.cursor.symm, (h.record newSize a.typeHash a.siteId).remove p⟩
      · rw [if_neg hf, if_neg (fun hc => hf ((h.fits newSize).mp hc))]
        exact ⟨rfl, h⟩

theorem allocationSize (h : SameHeap s t) (p size : UInt64) :
    s.allocationSize p size = t.allocationSize p size := by
  rw [Runtime.allocationSize, Runtime.allocationSize, h.allocations]

/-- **A callback from a range of the one runtime and the site id of that range in the
other allocate alike.** -/
theorem allocateFromCallback (h : SameHeap s t) (hs : Layout s) (ht : Layout t)
    (hbase : s.base ≠ 0) {size pc nextPc : UInt64} {site : AllocationSite}
    (hpc : s.findSiteUnlocked pc = some site)
    (hid : t.siteTypes.find site.id = some site.typeHash) :
    (s.allocateFromCallback size pc nextPc).2 = (t.allocateFromSite size site.id).2 ∧
      SameHeap (s.allocateFromCallback size pc nextPc).1 (t.allocateFromSite size site.id).1 := by
  rw [allocateFromCallback_of_find hs hbase hpc, allocateFromPc_of_find hs hpc,
    allocateFromSite_of_find ht hid]
  exact h.request size site.typeHash site.id

end SameHeap

end Runtime

end InterSpec
