import InterSpec.Runtime.PolicyRuntime

/-!
# What a zero return says

The allocating calls return 0 for a failure, and 0 is also an address.  In an
arena that starts at 0 the first record is made at address 0, so the call that
makes it looks like a failure; in every other arena, and for every other request,
0 is returned exactly by the calls that leave the state alone.

* `ZeroMeansNoEffect s call`: the return value tells what the call has done.
* `RecordsAtNull s call`: the call makes the first record of an arena at 0.
* `zeroMeansNoEffect_iff`: one excludes the other, at every laid out state.
-/

namespace InterSpec.Runtime

/-- The allocating member functions of `Runtime` and `PolicyRuntime`. -/
inductive AllocatingCall
  | allocate (size : UInt64) (typeId : TypeId)
  | allocateFromSite (size : UInt64) (siteId : SiteId)
  | allocateFromPc (size callerPc : UInt64)
  | allocateFromCallback (size pc nextPc : UInt64)
deriving DecidableEq, Repr

namespace AllocatingCall

def perform (s : Runtime) : AllocatingCall → Runtime × UInt64
  | allocate size typeId => s.allocate size typeId
  | allocateFromSite size siteId => s.allocateFromSite size siteId
  | allocateFromPc size callerPc => s.allocateFromPc size callerPc
  | allocateFromCallback size pc nextPc => s.allocateFromCallback size pc nextPc

def size : AllocatingCall → UInt64
  | allocate size _ => size
  | allocateFromSite size _ => size
  | allocateFromPc size _ => size
  | allocateFromCallback size _ _ => size

/-- The type, the site or a program counter of the call is registered. -/
def Authorised (s : Runtime) : AllocatingCall → Prop
  | allocate _ typeId => s.types.find typeId ≠ none
  | allocateFromSite _ siteId => s.siteTypes.find siteId ≠ none
  | allocateFromPc _ callerPc => s.findSiteUnlocked callerPc ≠ none
  | allocateFromCallback _ pc nextPc =>
    s.findSiteUnlocked pc ≠ none ∨ nextPc ≠ 0 ∧ nextPc ≠ pc ∧ s.findSiteUnlocked nextPc ≠ none

end AllocatingCall

/-- One record is added, at `p`; the cursor moves by its padded size and nothing else
changes. -/
structure OneRecordAdded (s t : Runtime) (p size : UInt64) : Prop where
  fresh : s.allocations.find p = none
  added : ∃ typeHash siteId, ∀ q, t.allocations.find q =
    if q = p then some ⟨p, size, typeHash, siteId⟩ else s.allocations.find q
  used : t.used.toNat = s.used.toNat + roundUp8 size.toNat
  rest : t = { s with allocations := t.allocations, used := t.used }

/-- The return value of an allocating call tells what the call has done. -/
structure ZeroMeansNoEffect (s : Runtime) (call : AllocatingCall) : Prop where
  zero : (call.perform s).2 = 0 ↔ (call.perform s).1 = s
  nonzero : (call.perform s).2 ≠ 0 →
    OneRecordAdded s (call.perform s).1 (call.perform s).2 call.size

/-- The call is the first to make a record in an arena that starts at address 0. -/
def RecordsAtNull (s : Runtime) (call : AllocatingCall) : Prop :=
  s.base = 0 ∧ s.used = 0 ∧ call.Authorised s ∧ s.Fits call.size

theorem oneRecordAdded_record {s : Runtime} (h : Layout s) {size : UInt64} (hf : s.Fits size)
    (typeHash : UInt64) (siteId : SiteId) :
    OneRecordAdded s (s.record size typeHash siteId) s.cursor size where
  fresh := h.cursor_fresh
  added := ⟨typeHash, siteId, find_record h size typeHash siteId⟩
  used := hf.toNat_used
  rest := rfl

theorem record_ne {s : Runtime} (h : Layout s) (size typeHash : UInt64) (siteId : SiteId) :
    s.record size typeHash siteId ≠ s := by
  intro he
  have hfind := find_record h size typeHash siteId s.cursor
  rw [he, if_pos rfl, h.cursor_fresh] at hfind
  cases hfind

/-- The cursor is null only where the arena starts at 0 and is empty. -/
theorem Layout.cursor_eq_zero {s : Runtime} (h : Layout s) (hv : s.arenaValid = true) :
    s.cursor = 0 ↔ s.base = 0 ∧ s.used = 0 := by
  rw [← UInt64.toNat_inj, ← UInt64.toNat_inj, ← UInt64.toNat_inj, h.toNat_cursor hv]
  show s.base.toNat + s.used.toNat = 0 ↔ s.base.toNat = 0 ∧ s.used.toNat = 0
  omega

/-! ### One request -/

theorem zeroMeansNoEffect_of_request {s : Runtime} (h : Layout s) {call : AllocatingCall}
    {typeHash : UInt64} {siteId : SiteId} (ha : call.Authorised s)
    (hop : call.perform s = if s.Fits call.size then
      (s.record call.size typeHash siteId, s.cursor) else (s, 0)) :
    ZeroMeansNoEffect s call ↔ ¬ RecordsAtNull s call := by
  by_cases hf : s.Fits call.size
  · rw [if_pos hf] at hop
    have hne := record_ne h call.size typeHash siteId
    constructor
    · rintro hz ⟨hb, hu, _, _⟩
      apply hne
      have hfst := hz.zero.mp (by rw [hop]; exact (h.cursor_eq_zero hf.1).mpr ⟨hb, hu⟩)
      rwa [hop] at hfst
    · intro hno
      have hcur : s.cursor ≠ 0 := by
        intro h0
        obtain ⟨hb, hu⟩ := (h.cursor_eq_zero hf.1).mp h0
        exact hno ⟨hb, hu, ha, hf⟩
      refine ⟨?_, fun _ => ?_⟩
      · rw [hop]
        exact iff_of_false hcur hne
      · rw [hop]
        exact oneRecordAdded_record h hf typeHash siteId
  · rw [if_neg hf] at hop
    refine iff_of_true ⟨?_, fun hne => ?_⟩ (fun hnull => hf hnull.2.2.2)
    · rw [hop]
      exact iff_of_true rfl rfl
    · rw [hop] at hne
      exact absurd rfl hne

theorem zeroMeansNoEffect_of_refused {s : Runtime} {call : AllocatingCall}
    (ha : ¬ call.Authorised s) (hop : call.perform s = (s, 0)) :
    ZeroMeansNoEffect s call ↔ ¬ RecordsAtNull s call := by
  refine iff_of_true ⟨?_, fun hne => ?_⟩ (fun hnull => ha hnull.2.2.1)
  · rw [hop]
    exact iff_of_true rfl rfl
  · rw [hop] at hne
    exact absurd rfl hne

/-! ### The callback and its second program counter -/

/-- A callback that has made a record at address 0 takes the answer for a failure. -/
theorem allocateFromCallback_at_null {s : Runtime} (h : Layout s) {size pc nextPc : UInt64}
    {site : AllocationSite} (hs : s.findSiteUnlocked pc = some site) (hf : s.Fits size)
    (h0 : s.cursor = 0) : s.allocateFromCallback size pc nextPc =
      if nextPc ≠ 0 ∧ nextPc ≠ pc then
        (s.record size site.typeHash site.id).allocateFromPc size nextPc
      else (s.record size site.typeHash site.id, 0) := by
  rw [allocateFromCallback, allocateFromPc_of_find h hs, if_pos hf, h0]
  exact if_neg (fun hc => hc rfl)

theorem not_zeroMeansNoEffect_at_null {s : Runtime} (h : Layout s) {size pc nextPc : UInt64}
    {site : AllocationSite} (hs : s.findSiteUnlocked pc = some site) (hf : s.Fits size)
    (h0 : s.cursor = 0) : ¬ ZeroMeansNoEffect s (.allocateFromCallback size pc nextPc) := by
  intro hz
  have hop : s.allocateFromCallback size pc nextPc = _ := allocateFromCallback_at_null h hs hf h0
  have ht : Layout (s.record size site.typeHash site.id) := h.record hf _ _
  have hused := hf.toNat_used
  have hpos := roundUp8_pos (n := size.toNat) (fun hc => hf.2.1 (UInt64.toNat_inj.mp hc))
  -- a zero in front of the first record
  have hleft : ¬ s.allocateFromCallback size pc nextPc =
      (s.record size site.typeHash site.id, 0) := by
    intro he
    have hfst : s.record size site.typeHash site.id = s := by
      have hiff := hz.zero
      rw [AllocatingCall.perform, he] at hiff
      exact hiff.mp rfl
    exact record_ne h _ _ _ hfst
  by_cases hn : nextPc ≠ 0 ∧ nextPc ≠ pc
  · rw [if_pos hn] at hop
    cases hnext : (s.record size site.typeHash site.id).findSiteUnlocked nextPc with
    | none =>
      rw [allocateFromPc_of_none hnext] at hop
      exact hleft hop
    | some next =>
      rw [allocateFromPc_of_find ht hnext] at hop
      by_cases hf2 : (s.record size site.typeHash site.id).Fits size
      · rw [if_pos hf2] at hop
        have hcur : (s.record size site.typeHash site.id).cursor ≠ 0 := by
          intro hc
          have hu := ((ht.cursor_eq_zero hf2.1).mp hc).2
          have hzero : (s.record size site.typeHash site.id).used.toNat = 0 := by rw [hu]; rfl
          have : (s.record size site.typeHash site.id).used.toNat =
            s.used.toNat + roundUp8 size.toNat := hused
          omega
        have hone := hz.nonzero
        rw [AllocatingCall.perform, hop] at hone
        have h1 := (hone hcur).used
        have h2 : ((s.record size site.typeHash site.id).record size next.typeHash
          next.id).used.toNat = (s.record size site.typeHash site.id).used.toNat +
            roundUp8 size.toNat := hf2.toNat_used
        have h3 : (s.record size site.typeHash site.id).used.toNat =
          s.used.toNat + roundUp8 size.toNat := hused
        rw [h2, h3] at h1
        have h4 : (AllocatingCall.allocateFromCallback size pc nextPc).size = size := rfl
        rw [h4] at h1
        omega
      · rw [if_neg hf2] at hop
        exact hleft hop
  · rw [if_neg hn] at hop
    exact hleft hop

/-! ### Every call -/

/-- **A zero tells the truth unless the call makes the first record of an arena at 0.** -/
theorem zeroMeansNoEffect_iff {s : Runtime} (h : Layout s) (call : AllocatingCall) :
    ZeroMeansNoEffect s call ↔ ¬ RecordsAtNull s call := by
  cases call with
  | allocate size typeId =>
    cases ht : s.types.find typeId with
    | none => exact zeroMeansNoEffect_of_refused (fun ha => ha ht) (allocate_of_none ht)
    | some typeHash =>
      exact zeroMeansNoEffect_of_request h (by rw [AllocatingCall.Authorised, ht]; exact nofun)
        (allocate_of_find h ht)
  | allocateFromSite size siteId =>
    cases hi : s.siteTypes.find siteId with
    | none => exact zeroMeansNoEffect_of_refused (fun ha => ha hi) (allocateFromSite_of_none hi)
    | some typeHash =>
      exact zeroMeansNoEffect_of_request h (by rw [AllocatingCall.Authorised, hi]; exact nofun)
        (allocateFromSite_of_find h hi)
  | allocateFromPc size callerPc =>
    cases hs : s.findSiteUnlocked callerPc with
    | none => exact zeroMeansNoEffect_of_refused (fun ha => ha hs) (allocateFromPc_of_none hs)
    | some site =>
      exact zeroMeansNoEffect_of_request h (by rw [AllocatingCall.Authorised, hs]; exact nofun)
        (allocateFromPc_of_find h hs)
  | allocateFromCallback size pc nextPc =>
    cases hs : s.findSiteUnlocked pc with
    | some site =>
      have ha : (AllocatingCall.allocateFromCallback size pc nextPc).Authorised s :=
        .inl (by rw [hs]; exact nofun)
      by_cases hnull : s.Fits size ∧ s.cursor = 0
      · obtain ⟨hf, h0⟩ := hnull
        obtain ⟨hb, hu⟩ := (h.cursor_eq_zero hf.1).mp h0
        exact iff_of_false (not_zeroMeansNoEffect_at_null h hs hf h0)
          (fun hno => hno ⟨hb, hu, ha, hf⟩)
      · apply zeroMeansNoEffect_of_request h ha
        have hcur : s.Fits size → s.cursor ≠ 0 := fun hf h0 => hnull ⟨hf, h0⟩
        rw [AllocatingCall.perform, allocateFromCallback_eq_first h hs hcur]
        exact allocateFromPc_of_find h hs
    | none =>
      have hop : s.allocateFromCallback size pc nextPc = _ := allocateFromCallback_of_none hs
      by_cases hn : nextPc ≠ 0 ∧ nextPc ≠ pc
      · rw [if_pos hn] at hop
        cases hnext : s.findSiteUnlocked nextPc with
        | none =>
          refine zeroMeansNoEffect_of_refused ?_ (hop.trans (allocateFromPc_of_none hnext))
          rintro (ha | ha)
          · exact ha hs
          · exact ha.2.2 hnext
        | some site =>
          have ha : (AllocatingCall.allocateFromCallback size pc nextPc).Authorised s :=
            .inr ⟨hn.1, hn.2, by rw [hnext]; exact nofun⟩
          exact zeroMeansNoEffect_of_request h ha (hop.trans (allocateFromPc_of_find h hnext))
      · rw [if_neg hn] at hop
        refine zeroMeansNoEffect_of_refused ?_ hop
        rintro (ha | ha)
        · exact ha hs
        · exact hn ⟨ha.1, ha.2.1⟩

/-- **When zero returns tell the truth.**  For one call: unless it makes the first record
of an arena at 0.  For all calls of all runs: unless the arena starts at 0 and has room for
a record. -/
theorem zero_return_iff (arenaBase arenaSize : UInt64) :
    (∀ ops call, ZeroMeansNoEffect ((new arenaBase arenaSize).after ops) call ↔
      ¬ RecordsAtNull ((new arenaBase arenaSize).after ops) call) ∧
    ((∀ ops call, ZeroMeansNoEffect ((new arenaBase arenaSize).after ops) call) ↔
      ¬ (arenaBase = 0 ∧ 8 ≤ arenaSize.toNat)) := by
  have hcall : ∀ ops call, ZeroMeansNoEffect ((new arenaBase arenaSize).after ops) call ↔
      ¬ RecordsAtNull ((new arenaBase arenaSize).after ops) call :=
    fun ops call => zeroMeansNoEffect_iff (layout_reachable arenaBase arenaSize ops) call
  refine ⟨hcall, ?_, ?_⟩
  · rintro hall ⟨hbase, hroom⟩
    -- bind a type, then ask for one byte
    let ops : List Op := [.registerType 1 0]
    let s := (new arenaBase arenaSize).after ops
    have hlayout := layout_reachable arenaBase arenaSize ops
    have hvalid : s.arenaValid = true := by
      refine hlayout.valid_iff.mpr ?_
      show arenaBase.toNat + arenaSize.toNat ≤ 2 ^ 64 - 1
      have hsize := arenaSize.toNat_lt
      have hz : arenaBase.toNat = 0 := by rw [hbase]; rfl
      omega
    refine (hcall ops (.allocate 1 1)).mp (hall ops (.allocate 1 1))
      ⟨hbase, rfl, ?_, hvalid, ?_, ?_⟩
    · show s.types.find 1 ≠ none
      exact nofun
    · decide
    · show 0 + roundUp8 1 ≤ arenaSize.toNat
      rw [Nat.zero_add]
      exact hroom
  · intro hno ops call
    refine (hcall ops call).mpr (fun hnull => hno ?_)
    obtain ⟨hbase, _, _, hf⟩ := hnull
    obtain ⟨hb, hc, _⟩ := arena_after (layout_new arenaBase arenaSize) ops
    have hpos := roundUp8_pos (fun h0 => hf.2.1 (UInt64.toNat_inj.mp h0))
    have hfit := hf.2.2
    rw [hc] at hfit
    have hcap : (new arenaBase arenaSize).capacity.toNat = arenaSize.toNat := rfl
    exact ⟨hb.symm.trans hbase, by omega⟩

/-- The first allocation of an arena of 64 bytes at address 0 is recorded and returns 0. -/
theorem zero_return_recorded :
    let s := (new 0 64).after [.registerType 1 7]
    (s.allocate 8 1).2 = 0 ∧ (s.allocate 8 1).1 ≠ s ∧
      ¬ ZeroMeansNoEffect s (.allocate 8 1) := by
  intro s
  have hne : (s.allocate 8 1).1 ≠ s := by decide
  have hzero : (s.allocate 8 1).2 = 0 := by decide
  exact ⟨hzero, hne, fun hz => hne (hz.zero.mp hzero)⟩

end InterSpec.Runtime
