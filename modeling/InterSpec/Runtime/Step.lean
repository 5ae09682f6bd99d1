import InterSpec.Data.Machine
import InterSpec.Runtime.Layout

/-!
# Runs of the runtime

`Op` lists the public member functions with their arguments and `step` calls
one of them; the mutex `mu_` makes each call atomic, so whatever clients there
are, an execution is a list of calls.  `after s ops` is the state in which a
list of calls ends.

`step_change` is the only place where the calls are unfolded.  It says what a
call can do to a laid out state: nothing, bind a type, a site or a range, make a
record at the cursor, remove a record, or move one (`Change`), with the guards
each change has passed.  Every invariant below is proved from it.
-/

namespace InterSpec.Runtime

/-- The `const` member functions. -/
inductive Query
  | base
  | capacity
  | arenaValid
  | allocationCount
  | allocationSiteCount
  | allocationSize (ptr size : UInt64)
  | allocationSite (ptr : UInt64) (siteId : SiteId)
  | remainingBytes (ptr expectedType bytes : UInt64)
  | check (ptr bytes expectedType : UInt64)
deriving DecidableEq, Repr

inductive Op
  | registerType (id : TypeId) (typeHash : UInt64)
  | registerAllocationSiteId (id : SiteId) (typeId : TypeId)
  | registerAllocationSite (id : SiteId) (beginPc endPc : UInt64) (typeId : TypeId)
  | allocate (size : UInt64) (typeId : TypeId)
  | allocateFromSite (size : UInt64) (siteId : SiteId)
  | allocateFromPc (size callerPc : UInt64)
  | release (ptr : UInt64)
  | reallocate (ptr newSize : UInt64)
  | query (q : Query)
deriving DecidableEq, Repr

/-- What a call returns, out parameters included. -/
inductive Ret
  | flag (b : Bool)
  | word (w : UInt64)
  | count (n : Nat)
  | size (found : Bool) (size : UInt64)
  | site (found : Bool) (siteId : SiteId)
  | remaining (r : CheckResult) (bytes : UInt64)
  | verdict (r : CheckResult)
deriving DecidableEq, Repr

def answer (s : Runtime) : Query → Ret
  | .base => .word s.base
  | .capacity => .word s.capacity
  | .arenaValid => .flag s.arenaValid
  | .allocationCount => .count s.allocationCount
  | .allocationSiteCount => .count s.allocationSiteCount
  | .allocationSize ptr size => .size (s.allocationSize ptr size).1 (s.allocationSize ptr size).2
  | .allocationSite ptr siteId =>
    .site (s.allocationSite ptr siteId).1 (s.allocationSite ptr siteId).2
  | .remainingBytes ptr expectedType bytes =>
    .remaining (s.remainingBytes ptr expectedType bytes).1
      (s.remainingBytes ptr expectedType bytes).2
  | .check ptr bytes expectedType => .verdict (s.check ptr bytes expectedType)

/-- One call. -/
def step : Machine Runtime Op Ret := fun s op =>
  match op with
  | .registerType id typeHash =>
    ((s.registerType id typeHash).1, .flag (s.registerType id typeHash).2)
  | .registerAllocationSiteId id typeId =>
    ((s.registerAllocationSiteId id typeId).1, .flag (s.registerAllocationSiteId id typeId).2)
  | .registerAllocationSite id beginPc endPc typeId =>
    ((s.registerAllocationSite id beginPc endPc typeId).1,
      .flag (s.registerAllocationSite id beginPc endPc typeId).2)
  | .allocate size typeId => ((s.allocate size typeId).1, .word (s.allocate size typeId).2)
  | .allocateFromSite size siteId =>
    ((s.allocateFromSite size siteId).1, .word (s.allocateFromSite size siteId).2)
  | .allocateFromPc size callerPc =>
    ((s.allocateFromPc size callerPc).1, .word (s.allocateFromPc size callerPc).2)
  | .release ptr => ((s.release ptr).1, .flag (s.release ptr).2)
  | .reallocate ptr newSize =>
    ((s.reallocate ptr newSize).1, .word (s.reallocate ptr newSize).2)
  | .query q => (s, s.answer q)

/-- The state after a list of calls. -/
def after (s : Runtime) (ops : List Op) : Runtime := Machine.after step s ops

@[simp] theorem after_nil (s : Runtime) : s.after [] = s := rfl

@[simp] theorem after_cons (s : Runtime) (op : Op) (ops : List Op) :
    s.after (op :: ops) = (step s op).1.after ops := rfl

theorem after_append (s : Runtime) (ops later : List Op) :
    s.after (ops ++ later) = (s.after ops).after later := Machine.after_append step ops later s

theorem after_concat (s : Runtime) (ops : List Op) (op : Op) :
    s.after (ops ++ [op]) = (step (s.after ops) op).1 := Machine.after_concat step s ops op

/-! ### What a call can do -/

/-- The hash and the site id a new record may carry. -/
inductive Authority (s : Runtime) : UInt64 → SiteId → Prop
  | type {t : TypeId} {typeHash : UInt64} (ht : s.types.find t = some typeHash) :
      Authority s typeHash 0
  | site {i : SiteId} {typeHash : UInt64} (hi : s.siteTypes.find i = some typeHash) :
      Authority s typeHash i
  | range {pc : UInt64} {site : AllocationSite} (hs : s.findSiteUnlocked pc = some site) :
      Authority s site.typeHash site.id

def bindType (s : Runtime) (id : TypeId) (typeHash : UInt64) : Runtime :=
  { s with
      types := (s.types.emplace id typeHash).1
      typeIds := (s.typeIds.emplace typeHash id).1 }

def bindSite (s : Runtime) (id : SiteId) (typeHash : UInt64) : Runtime :=
  { s with siteTypes := (s.siteTypes.emplace id typeHash).1 }

def bindRange (s : Runtime) (site : AllocationSite) : Runtime :=
  { s with
      sites := (s.sites.emplace site.beginPc site).1
      sitesById := (s.sitesById.emplace site.id site.beginPc).1
      siteTypes := (s.siteTypes.emplace site.id site.typeHash).1 }

/-- The state a call leaves, with the guards it has passed. -/
inductive Change (s : Runtime) : Runtime → Prop
  | same : Change s s
  | bindType {id : TypeId} {typeHash : UInt64} (hid : id ≠ 0) (hnew : s.types.find id = none)
      (hhash : s.typeIds.find typeHash = none) : Change s (s.bindType id typeHash)
  | bindSite {id : SiteId} {t : TypeId} {typeHash : UInt64} (hid : id ≠ 0)
      (ht : s.types.find t = some typeHash) (hnew : s.siteTypes.find id = none) :
      Change s (s.bindSite id typeHash)
  | bindRange {site : AllocationSite} (hid : site.id ≠ 0) (hbegin : site.beginPc ≠ 0)
      (hend : site.beginPc < site.endPc) (ht : s.types.find site.typeId = some site.typeHash)
      (hnew : s.sitesById.find site.id = none) (hsite : s.siteTypes.find site.id = none)
      (hfree : s.overlapsNeighbour site.beginPc site.endPc = false)
      (hbase : s.sites.find site.beginPc = none) : Change s (s.bindRange site)
  | record {size typeHash : UInt64} {siteId : SiteId} (ha : Authority s typeHash siteId)
      (hf : s.Fits size) : Change s (s.record size typeHash siteId)
  | remove {p : UInt64} {a : Allocation} (hlive : s.allocations.find p = some a) :
      Change s (s.remove p)
  | move {p newSize : UInt64} {a : Allocation} (hlive : s.allocations.find p = some a)
      (hf : s.Fits newSize) : Change s ((s.record newSize a.typeHash a.siteId).remove p)

theorem registerType_eq (s : Runtime) (id : TypeId) (typeHash : UInt64) :
    s.registerType id typeHash = (s, false) ∨
      (id ≠ 0 ∧ s.types.find id = none ∧ s.typeIds.find typeHash = none) ∧
        s.registerType id typeHash = (s.bindType id typeHash, true) := by
  by_cases h : id = 0 ∨ s.types.find id ≠ none ∨ s.typeIds.find typeHash ≠ none
  · exact .inl (if_pos h)
  · refine .inr ⟨?_, if_neg h⟩
    simpa only [not_or, not_not, ne_eq] using h

theorem registerAllocationSiteId_eq (s : Runtime) (id : SiteId) (typeId : TypeId) :
    s.registerAllocationSiteId id typeId = (s, false) ∨
      ∃ typeHash, s.types.find typeId = some typeHash ∧
        (id ≠ 0 ∧ s.siteTypes.find id = none) ∧
        s.registerAllocationSiteId id typeId = (s.bindSite id typeHash, true) := by
  unfold registerAllocationSiteId
  cases ht : s.types.find typeId with
  | none => exact .inl rfl
  | some typeHash =>
    by_cases h : id = 0 ∨ s.siteTypes.find id ≠ none
    · exact .inl (if_pos h)
    · refine .inr ⟨typeHash, rfl, ?_, if_neg h⟩
      simpa only [not_or, not_not, ne_eq] using h

theorem registerAllocationSite_eq (s : Runtime) (id : SiteId) (beginPc endPc : UInt64)
    (typeId : TypeId) :
    s.registerAllocationSite id beginPc endPc typeId = (s, false) ∨
      ∃ typeHash, s.types.find typeId = some typeHash ∧
        (id ≠ 0 ∧ beginPc ≠ 0 ∧ beginPc < endPc ∧ s.sitesById.find id = none ∧
          s.siteTypes.find id = none ∧ s.overlapsNeighbour beginPc endPc = false ∧
          s.sites.find beginPc = none) ∧
        s.registerAllocationSite id beginPc endPc typeId =
          (s.bindRange ⟨id, beginPc, endPc, typeId, typeHash⟩, true) := by
  unfold registerAllocationSite
  cases ht : s.types.find typeId with
  | none => exact .inl rfl
  | some typeHash =>
    dsimp only
    by_cases h : id = 0 ∨ beginPc = 0 ∨ endPc ≤ beginPc ∨ s.sitesById.find id ≠ none ∨
        s.siteTypes.find id ≠ none
    · exact .inl (if_pos h)
    rw [if_neg h]
    simp only [not_or, not_not, ne_eq, not_le] at h
    by_cases hover : s.overlapsNeighbour beginPc endPc = true
    · exact .inl (if_pos hover)
    rw [if_neg hover]
    by_cases hins : (s.sites.emplace beginPc ⟨id, beginPc, endPc, typeId, typeHash⟩).2 = false
    · exact .inl (if_pos hins)
    · have hbase := (SortedMap.emplace_inserted _).mp (by simpa using hins)
      exact .inr ⟨typeHash, rfl, ⟨h.1, h.2.1, h.2.2.1, h.2.2.2.1, h.2.2.2.2,
        by simpa using hover, hbase⟩, if_neg hins⟩

/-- The three allocating calls, from the hash and the site id they look up. -/
theorem allocate_eq_of_authority {s : Runtime} (h : Layout s) {size typeHash : UInt64}
    {siteId : SiteId} {r : Runtime × UInt64} (hr : r = if size = 0 then (s, 0) else
      s.allocateWithHashUnlocked size typeHash siteId) :
    r = if s.Fits size then (s.record size typeHash siteId, s.cursor) else (s, 0) := by
  rw [hr, allocateWithHashUnlocked_eq h]
  by_cases hz : size = 0
  · rw [if_pos hz, if_neg (fun hf => hf.2.1 hz)]
  · rw [if_neg hz]

theorem allocate_of_find {s : Runtime} (h : Layout s) {size typeHash : UInt64} {typeId : TypeId}
    (ht : s.types.find typeId = some typeHash) : s.allocate size typeId =
      if s.Fits size then (s.record size typeHash 0, s.cursor) else (s, 0) :=
  allocate_eq_of_authority h (by rw [allocate, ht])

theorem allocateFromSite_of_find {s : Runtime} (h : Layout s) {size typeHash : UInt64}
    {siteId : SiteId} (hi : s.siteTypes.find siteId = some typeHash) :
    s.allocateFromSite size siteId =
      if s.Fits size then (s.record size typeHash siteId, s.cursor) else (s, 0) :=
  allocate_eq_of_authority h (by rw [allocateFromSite, hi])

theorem allocateFromPc_of_find {s : Runtime} (h : Layout s) {size pc : UInt64}
    {site : AllocationSite} (hs : s.findSiteUnlocked pc = some site) :
    s.allocateFromPc size pc =
      if s.Fits size then (s.record size site.typeHash site.id, s.cursor) else (s, 0) :=
  allocate_eq_of_authority h (by rw [allocateFromPc, hs])

theorem allocate_of_none {s : Runtime} {size : UInt64} {typeId : TypeId}
    (ht : s.types.find typeId = none) : s.allocate size typeId = (s, 0) := by
  rw [allocate, ht]

theorem allocateFromSite_of_none {s : Runtime} {size : UInt64} {siteId : SiteId}
    (hi : s.siteTypes.find siteId = none) : s.allocateFromSite size siteId = (s, 0) := by
  rw [allocateFromSite, hi]

theorem allocateFromPc_of_none {s : Runtime} {size pc : UInt64}
    (hs : s.findSiteUnlocked pc = none) : s.allocateFromPc size pc = (s, 0) := by
  rw [allocateFromPc, hs]

theorem release_of_none {s : Runtime} {p : UInt64} (hp : s.allocations.find p = none) :
    s.release p = (s, false) := by
  rw [release, hp]

theorem release_of_find {s : Runtime} {p : UInt64} {a : Allocation}
    (hp : s.allocations.find p = some a) : s.release p = (s.remove p, true) := by
  rw [release, hp]
  rfl

/-- When some record is live the cursor is not null, so a move never looks like
a failure. -/
theorem Layout.cursor_ne_zero {s : Runtime} (h : Layout s) {p : UInt64} {a : Allocation}
    (hp : s.allocations.find p = some a) : s.cursor ≠ 0 := by
  intro h0
  have h1 := h.base_lt_cursor hp
  have h2 := roundUp8_pos (Nat.ne_of_gt (h.inArena p a hp).size_pos)
  have h3 : s.cursor.toNat = 0 := by rw [h0]; rfl
  omega

theorem reallocate_of_none {s : Runtime} {p newSize : UInt64}
    (hp : s.allocations.find p = none) : s.reallocate p newSize = (s, 0) := by
  rw [reallocate, hp]

theorem reallocate_zero {s : Runtime} {p : UInt64} {a : Allocation}
    (hp : s.allocations.find p = some a) : s.reallocate p 0 = (s.remove p, 0) := by
  rw [reallocate, hp]
  rfl

/-- **Reallocation of a live record moves it when the new size fits, and
otherwise changes nothing.** -/
theorem reallocate_of_find {s : Runtime} (h : Layout s) {p newSize : UInt64} {a : Allocation}
    (hp : s.allocations.find p = some a) (hz : newSize ≠ 0) : s.reallocate p newSize =
      if s.Fits newSize then ((s.record newSize a.typeHash a.siteId).remove p, s.cursor)
      else (s, 0) := by
  rw [reallocate, hp]
  dsimp only
  rw [if_neg hz, allocateWithHashUnlocked_eq h]
  by_cases hf : s.Fits newSize
  · simp only [if_pos hf, if_neg (h.cursor_ne_zero hp)]
    rfl
  · simp only [if_neg hf, if_true]

theorem change_ite {s : Runtime} {size typeHash : UInt64} {siteId : SiteId}
    (ha : Authority s typeHash siteId) : Change s
      (if s.Fits size then (s.record size typeHash siteId, s.cursor) else (s, 0)).1 := by
  by_cases hf : s.Fits size
  · rw [if_pos hf]; exact .record ha hf
  · rw [if_neg hf]; exact .same

/-- **What a call can do to a laid out state.** -/
theorem step_change {s : Runtime} (h : Layout s) (op : Op) : Change s (step s op).1 := by
  cases op with
  | registerType id typeHash =>
    show Change s (s.registerType id typeHash).1
    rcases s.registerType_eq id typeHash with he | ⟨⟨h1, h2, h3⟩, he⟩
    · rw [he]; exact .same
    · rw [he]; exact .bindType h1 h2 h3
  | registerAllocationSiteId id typeId =>
    show Change s (s.registerAllocationSiteId id typeId).1
    rcases s.registerAllocationSiteId_eq id typeId with he | ⟨hash, ht, ⟨h1, h2⟩, he⟩
    · rw [he]; exact .same
    · rw [he]; exact .bindSite h1 ht h2
  | registerAllocationSite id beginPc endPc typeId =>
    show Change s (s.registerAllocationSite id beginPc endPc typeId).1
    rcases s.registerAllocationSite_eq id beginPc endPc typeId with
      he | ⟨hash, ht, ⟨h1, h2, h3, h4, h5, h6, h7⟩, he⟩
    · rw [he]; exact .same
    · rw [he]; exact .bindRange h1 h2 h3 ht h4 h5 h6 h7
  | allocate size typeId =>
    show Change s (s.allocate size typeId).1
    cases ht : s.types.find typeId with
    | none => rw [allocate_of_none ht]; exact .same
    | some typeHash => rw [allocate_of_find h ht]; exact change_ite (.type ht)
  | allocateFromSite size siteId =>
    show Change s (s.allocateFromSite size siteId).1
    cases hi : s.siteTypes.find siteId with
    | none => rw [allocateFromSite_of_none hi]; exact .same
    | some typeHash => rw [allocateFromSite_of_find h hi]; exact change_ite (.site hi)
  | allocateFromPc size callerPc =>
    show Change s (s.allocateFromPc size callerPc).1
    cases hs : s.findSiteUnlocked callerPc with
    | none => rw [allocateFromPc_of_none hs]; exact .same
    | some site => rw [allocateFromPc_of_find h hs]; exact change_ite (.range hs)
  | release ptr =>
    show Change s (s.release ptr).1
    cases hp : s.allocations.find ptr with
    | none => rw [release_of_none hp]; exact .same
    | some a => rw [release_of_find hp]; exact .remove hp
  | reallocate ptr newSize =>
    show Change s (s.reallocate ptr newSize).1
    cases hp : s.allocations.find ptr with
    | none => rw [reallocate_of_none hp]; exact .same
    | some a =>
      by_cases hz : newSize = 0
      · subst hz
        rw [reallocate_zero hp]
        exact .remove hp
      · rw [reallocate_of_find h hp hz]
        by_cases hf : s.Fits newSize
        · rw [if_pos hf]; exact .move hp hf
        · rw [if_neg hf]; exact .same
  | query q => exact .same

/-! ### The layout along runs -/

theorem Change.layout {s t : Runtime} (hc : Change s t) (h : Layout s) : Layout t := by
  cases hc with
  | same => exact h
  | bindType => exact h.congr rfl rfl rfl rfl rfl
  | bindSite => exact h.congr rfl rfl rfl rfl rfl
  | bindRange => exact h.congr rfl rfl rfl rfl rfl
  | record _ hf => exact h.record hf _ _
  | remove => exact h.remove _
  | move _ hf => exact (h.record hf _ _).remove _

theorem layout_step (s : Runtime) (op : Op) (h : Layout s) : Layout (step s op).1 :=
  (step_change h op).layout h

theorem layout_after {s : Runtime} (h : Layout s) (ops : List Op) : Layout (s.after ops) :=
  Machine.after_induction layout_step ops s h

/-- **Every reachable state is laid out.** -/
theorem layout_reachable (arenaBase arenaSize : UInt64) (ops : List Op) :
    Layout ((new arenaBase arenaSize).after ops) :=
  layout_after (layout_new arenaBase arenaSize) ops

theorem Change.arena {s t : Runtime} (hc : Change s t) :
    t.base = s.base ∧ t.capacity = s.capacity ∧ t.arenaValid = s.arenaValid := by
  cases hc <;> exact ⟨rfl, rfl, rfl⟩

theorem arena_after {s : Runtime} (h : Layout s) (ops : List Op) :
    (s.after ops).base = s.base ∧ (s.after ops).capacity = s.capacity ∧
      (s.after ops).arenaValid = s.arenaValid :=
  Machine.after_relation
    (R := fun s t : Runtime => t.base = s.base ∧ t.capacity = s.capacity ∧
      t.arenaValid = s.arenaValid)
    (fun _ => ⟨rfl, rfl, rfl⟩)
    (fun _ _ _ h1 h2 => ⟨h2.1.trans h1.1, h2.2.1.trans h1.2.1, h2.2.2.trans h1.2.2⟩)
    layout_step (fun _ op hs => (step_change hs op).arena) ops s h

end InterSpec.Runtime
