import InterSpec.Tools.Authority

/-!
# The two backends

The same policy for the label based and for the import based backend.  One finds
the site of an allocation from the program counter of the callback, the other is
told its id by the import.

* `naclStep`, `wasmStep`: what each does for one event of the untrusted side.
* `Linked`, `linked_step`: the simulation between them.
* `backends_agree_iff`: the two T policies bind the same sites, both are registered,
  and every run of the one is a run of the other, exactly when there are fewer than
  `2 ^ 32` types.
-/

namespace InterSpec.Tools

open InterSpec.Runtime

/-! ### Events -/

/-- What the untrusted side asks for.  An allocation is made at a site; the program
counters are those that the label based backend reports for its callback. -/
inductive Event
  | allocate (site : Nat) (size pc nextPc : UInt64)
  | release (ptr : UInt64)
  | size (ptr : UInt64)
  | reallocate (ptr newSize : UInt64)
deriving DecidableEq, Repr

/-- The callback comes from the range of its site. -/
def Event.From (ranges : List SiteRange) : Event → Prop
  | .allocate site _ pc _ => ∃ e, ranges[site]? = some e ∧ e.Covers pc
  | _ => True

def naclStep : Machine Runtime Event Ret := fun s event =>
  match event with
  | .allocate _ size pc nextPc =>
    ((s.allocateFromCallback size pc nextPc).1, .word (s.allocateFromCallback size pc nextPc).2)
  | .release ptr => step s (.release ptr)
  | .size ptr => step s (.query (.allocationSize ptr 0))
  | .reallocate ptr newSize => step s (.reallocate ptr newSize)

def wasmStep (siteId : Nat → SiteId) : Machine Runtime Event Ret := fun s event =>
  match event with
  | .allocate site size _ _ => step s (.allocateFromSite size (siteId site))
  | .release ptr => step s (.release ptr)
  | .size ptr => step s (.query (.allocationSize ptr 0))
  | .reallocate ptr newSize => step s (.reallocate ptr newSize)

/-! ### The simulation -/

/-- The two runtimes have one heap, and each range of the one is bound to the hash
that its site has in the other. -/
structure Linked (ranges : List SiteRange) (siteId : Nat → SiteId) (s t : Runtime) : Prop where
  sound : Sound s
  layout : Layout t
  base : s.base ≠ 0
  heap : SameHeap s t
  sites : ∀ (i : Nat) (e : SiteRange) (pc : UInt64), ranges[i]? = some e → e.Covers pc →
    ∃ site, s.findSiteUnlocked pc = some site ∧ site.id = siteId i ∧
      t.siteTypes.find (siteId i) = some site.typeHash

section Simulation

variable {ranges : List SiteRange} {siteId : Nat → SiteId} {s t : Runtime}

theorem Linked.step (h : Linked ranges siteId s t) {op op' : Op} (hop : op.registers = false)
    (hop' : op'.registers = false) (hheap : SameHeap (step s op).1 (step t op').1) :
    Linked ranges siteId (Runtime.step s op).1 (Runtime.step t op').1 where
  sound := sound_step s op h.sound
  layout := layout_step t op' h.layout
  base := by
    rw [(step_change h.sound.layout op).arena.1]
    exact h.base
  heap := hheap
  sites i e pc hi hpc := by
    obtain ⟨site, hfind, hid, htype⟩ := h.sites i e pc hi hpc
    refine ⟨site, ?_, hid, ?_⟩
    · rw [findSiteUnlocked, (sameRegistry_step h.sound.layout hop).sites]
      exact hfind
    · rw [(sameRegistry_step h.layout hop').siteTypes]
      exact htype

/-- **One event has one answer and keeps the link.** -/
theorem linked_step (h : Linked ranges siteId s t) {event : Event} (he : event.From ranges) :
    (naclStep s event).2 = (wasmStep siteId t event).2 ∧
      Linked ranges siteId (naclStep s event).1 (wasmStep siteId t event).1 := by
  have hs := h.sound.layout
  cases event with
  | allocate i size pc nextPc =>
    obtain ⟨e, hi, hpc⟩ := he
    obtain ⟨site, hfind, hid, htype⟩ := h.sites i e pc hi hpc
    rw [← hid] at htype
    have hpcs : s.allocateFromCallback size pc nextPc = s.allocateFromPc size pc :=
      allocateFromCallback_of_find hs h.base hfind
    have hboth : (s.allocateFromCallback size pc nextPc).2 = (t.allocateFromSite size site.id).2 ∧
        SameHeap (s.allocateFromCallback size pc nextPc).1 (t.allocateFromSite size site.id).1 :=
      h.heap.allocateFromCallback hs h.layout h.base hfind htype
    rw [hpcs] at hboth
    have hnacl : naclStep s (.allocate i size pc nextPc) =
        Runtime.step s (.allocateFromPc size pc) := by
      rw [naclStep, hpcs]
      rfl
    have hwasm : wasmStep siteId t (.allocate i size pc nextPc) =
        Runtime.step t (.allocateFromSite size site.id) := by
      rw [hid]
      rfl
    rw [hnacl, hwasm]
    exact ⟨congrArg Ret.word hboth.1, h.step rfl rfl hboth.2⟩
  | release ptr =>
    obtain ⟨hout, hheap⟩ := h.heap.release ptr
    have hnext : Linked ranges siteId (Runtime.step s (.release ptr)).1
        (Runtime.step t (.release ptr)).1 := h.step rfl rfl hheap
    exact ⟨congrArg Ret.flag hout, hnext⟩
  | size ptr =>
    refine ⟨?_, h⟩
    show Ret.size (s.allocationSize ptr 0).1 (s.allocationSize ptr 0).2 =
      Ret.size (t.allocationSize ptr 0).1 (t.allocationSize ptr 0).2
    rw [h.heap.allocationSize]
  | reallocate ptr newSize =>
    obtain ⟨hout, hheap⟩ := h.heap.reallocate hs h.layout ptr newSize
    have hnext : Linked ranges siteId (Runtime.step s (.reallocate ptr newSize)).1
        (Runtime.step t (.reallocate ptr newSize)).1 := h.step rfl rfl hheap
    exact ⟨congrArg Ret.word hout, hnext⟩

/-- **Linked runtimes answer every run alike and end with the same records.** -/
theorem linked_run (h : Linked ranges siteId s t) {events : List Event}
    (he : ∀ event ∈ events, event.From ranges) :
    Machine.outputs naclStep s events = Machine.outputs (wasmStep siteId) t events ∧
      (Machine.after naclStep s events).allocations =
        (Machine.after (wasmStep siteId) t events).allocations := by
  have hsame : List.Forall₂ (fun x y => x = y ∧ x.From ranges) events events :=
    List.forall₂_same.mpr (fun x hx => ⟨rfl, he x hx⟩)
  have hstep : ∀ (s t : Runtime) (x y : Event), Linked ranges siteId s t →
      x = y ∧ x.From ranges → (naclStep s x).2 = (wasmStep siteId t y).2 ∧
        Linked ranges siteId (naclStep s x).1 (wasmStep siteId t y).1 := by
    rintro s t x _ h ⟨rfl, hx⟩
    exact linked_step h hx
  obtain ⟨hout, hend⟩ := Machine.run_simulation hstep hsame s t h
  exact ⟨hout, hend.heap.allocations.symm⟩

end Simulation

/-! ### Labels -/

theorem underscore_not_mem_digits (n : Nat) : '_' ∉ digits n := by
  intro h
  have hdigit : ('_').isDigit = true := Nat.isDigit_of_mem_toDigits (by decide) (by decide) h
  exact absurd hdigit (by decide)

theorem label_siteId {x y suffix : Str} {i j : Nat} (h : label x i suffix = label y j suffix) :
    i = j := by
  have hcancel : x ++ "_".toList ++ digits i = y ++ "_".toList ++ digits j :=
    List.append_cancel_right h
  have hrev := congrArg List.reverse hcancel
  rw [List.append_assoc, List.append_assoc, List.reverse_append, List.reverse_append,
    List.reverse_append, List.reverse_append, List.append_assoc, List.append_assoc] at hrev
  have hread : ∀ (k : Nat) (z : Str),
      ((digits k).reverse ++ ("_".toList.reverse ++ z)).takeWhile (fun c => c != '_') =
        (digits k).reverse := by
    intro k z
    rw [List.takeWhile_append_of_pos]
    · exact List.append_nil _
    · intro c hc
      rw [List.mem_reverse] at hc
      exact bne_iff_ne.mpr (fun he => underscore_not_mem_digits k (he ▸ hc))
  have hdigits := congrArg (List.takeWhile (fun c => c != '_')) hrev
  rw [hread, hread] at hdigits
  exact digits_injective (List.reverse_injective hdigits)

theorem label_begin_ne_end (x y : Str) (i j : Nat) :
    label x i "_begin".toList ≠ label y j "_end".toList := by
  intro h
  have hbegin : (label x i "_begin".toList).getLast? = some 'n' := by
    rw [label, List.getLast?_append]
    rfl
  have hend : (label y j "_end".toList).getLast? = some 'd' := by
    rw [label, List.getLast?_append]
    rfl
  rw [h, hend] at hbegin
  exact absurd hbegin (by decide)

/-- Addresses that tell all labels apart. -/
theorem exists_address : ∃ address : Str → Nat, ∀ stem i,
    address (label stem i "_begin".toList) = 2 * i ∧
      address (label stem i "_end".toList) = 2 * i + 1 := by
  classical
  refine ⟨fun sym =>
    if h : ∃ i stem, sym = label stem i "_begin".toList then 2 * h.choose
    else if h : ∃ i stem, sym = label stem i "_end".toList then 2 * h.choose + 1
    else 0, fun stem i => ⟨?_, ?_⟩⟩
  · have h : ∃ j x, label stem i "_begin".toList = label x j "_begin".toList := ⟨i, stem, rfl⟩
    obtain ⟨x, hx⟩ := h.choose_spec
    beta_reduce
    rw [dif_pos h, ← label_siteId hx]
  · have h : ∃ j x, label stem i "_end".toList = label x j "_end".toList := ⟨i, stem, rfl⟩
    have hno : ¬ ∃ j x, label stem i "_end".toList = label x j "_begin".toList :=
      fun ⟨j, x, hx⟩ => label_begin_ne_end x stem j i hx.symm
    obtain ⟨x, hx⟩ := h.choose_spec
    beta_reduce
    rw [dif_neg hno, dif_pos h, ← label_siteId hx]

/-! ### Registration -/

/-- The label pairs are mapped to ranges that are not empty, start above 0 and are
apart. -/
structure GoodResolver (p : TPolicy) (resolve : Str → UInt64) : Prop where
  begin_pos : ∀ e ∈ TPolicy.ranges resolve (p.sites ++ p.helperSites), 0 < e.beginPc
  nonempty : ∀ e ∈ TPolicy.ranges resolve (p.sites ++ p.helperSites), e.beginPc < e.endPc
  apart : (TPolicy.ranges resolve (p.sites ++ p.helperSites)).Pairwise SiteRange.Apart

/-- The policy runtime, initialised with the functions of the header. -/
def TPolicy.initialized (p : TPolicy) (arenaBase arenaSize : UInt64) (resolve : Str → UInt64) :
    Runtime × Bool :=
  (new arenaBase arenaSize).initializePolicy p.registerTypes p.registerAllocationPolicy resolve

/-- `kWasmAllocationSites[i].site_id`. -/
def WasmTPolicy.siteId (q : WasmTPolicy) (i : Nat) : SiteId :=
  (q.sites[i]?.map (fun row => row.siteId)).getD 0

/-- **Every label based policy has a good resolver.**  No two of its labels are the
same. -/
theorem exists_goodResolver {p : TPolicy} (hlen : (p.sites ++ p.helperSites).length < 2 ^ 32)
    (hlabels : ∀ (i : Nat) (row : SitePolicy), (p.sites ++ p.helperSites)[i]? = some row →
      ∃ stem, row.beginSymbol = label stem (i + 1) "_begin".toList ∧
        row.endSymbol = label stem (i + 1) "_end".toList) :
    ∃ resolve, GoodResolver p resolve := by
  obtain ⟨address, haddress⟩ := exists_address
  refine ⟨fun sym => UInt64.ofNat (address sym), ?_⟩
  have hrange : ∀ (i : Nat) (e : SiteRange),
      (TPolicy.ranges (fun sym => UInt64.ofNat (address sym))
        (p.sites ++ p.helperSites))[i]? = some e →
      e.beginPc.toNat = 2 * (i + 1) ∧ e.endPc.toNat = 2 * (i + 1) + 1 := by
    intro i e he
    rw [TPolicy.ranges, List.getElem?_map] at he
    obtain ⟨row, hrow, rfl⟩ := Option.map_eq_some_iff.mp he
    obtain ⟨stem, hbegin, hend⟩ := hlabels i row hrow
    have hi := (List.getElem?_eq_some_iff.mp hrow).1
    show (UInt64.ofNat (address row.beginSymbol)).toNat = _ ∧
      (UInt64.ofNat (address row.endSymbol)).toNat = _
    rw [hbegin, hend, (haddress stem (i + 1)).1, (haddress stem (i + 1)).2,
      UInt64.toNat_ofNat_of_lt' (by show _ < 2 ^ 64; omega),
      UInt64.toNat_ofNat_of_lt' (by show _ < 2 ^ 64; omega)]
    exact ⟨rfl, rfl⟩
  refine ⟨fun e he => ?_, fun e he => ?_, ?_⟩
  · obtain ⟨i, hi, rfl⟩ := List.getElem_of_mem he
    obtain ⟨hbegin, _⟩ := hrange i _ (List.getElem?_eq_getElem hi)
    exact UInt64.lt_iff_toNat_lt.mpr (by rw [hbegin]; show 0 < _; omega)
  · obtain ⟨i, hi, rfl⟩ := List.getElem_of_mem he
    obtain ⟨hbegin, hend⟩ := hrange i _ (List.getElem?_eq_getElem hi)
    exact UInt64.lt_iff_toNat_lt.mpr (by omega)
  · rw [List.pairwise_iff_getElem]
    intro i j hi hj hij
    obtain ⟨_, hend⟩ := hrange i _ (List.getElem?_eq_getElem hi)
    obtain ⟨hbegin, _⟩ := hrange j _ (List.getElem?_eq_getElem hj)
    exact .inl (UInt64.le_iff_toNat_le.mpr (by omega))

theorem TPolicy.registerAllocationPolicy_eq (p : TPolicy) (s : Runtime) (resolve : Str → UInt64) :
    p.registerAllocationPolicy s resolve =
      s.registerRanges (TPolicy.ranges resolve (p.sites ++ p.helperSites)) := by
  rw [TPolicy.ranges, List.map_append, registerRanges, registerAll_append]
  rfl

/-- Both T policies bind the declared sites, numbered from 1 with the precise ones
first, to the same types; both are registered; and every run of the one backend is
a run of the other. -/
structure BackendsAgree (policy : Policy) (boundary : Boundary) (p : TPolicy) (q : WasmTPolicy) :
    Prop where
  types : p.types = q.types
  sites : (p.sites ++ p.helperSites).map (fun row => (row.siteId, row.typeId)) =
    q.sites.map (fun row => (row.siteId, row.typeId))
  precise : p.sites.length = policy.allocations.length
  count : q.sites.length = (declaredSites policy boundary).length
  bound : ∀ (i : Nat) (type : Str) (helper : Option Str),
    (declaredSites policy boundary)[i]? = some (type, helper) →
      ∃ row : WasmSitePolicy, q.sites[i]? = some row ∧ row.siteId.toNat = i + 1 ∧
        (row.typeId, hashType type) ∈ q.types
  runs : ∀ arenaBase arenaSize resolve, arenaBase ≠ 0 → GoodResolver p resolve →
    (p.initialized arenaBase arenaSize resolve).2 = true ∧
    (q.registerTypes (new arenaBase arenaSize)).2 = true ∧
    (q.registerWasmAllocationPolicy (q.registerTypes (new arenaBase arenaSize)).1).2 = true ∧
    ∀ events, (∀ event ∈ events,
        event.From (TPolicy.ranges resolve (p.sites ++ p.helperSites))) →
      Machine.outputs naclStep (p.initialized arenaBase arenaSize resolve).1 events =
        Machine.outputs (wasmStep q.siteId) (q.install arenaBase arenaSize) events ∧
      (Machine.after naclStep (p.initialized arenaBase arenaSize resolve).1 events).allocations =
        (Machine.after (wasmStep q.siteId) (q.install arenaBase arenaSize) events).allocations

section Agree

variable {isWord : Char → Bool} {policy : Policy} {boundary : Boundary}
  {namespaceName source' namespaceName' : Str} {header : THeader} {wasm : WasmOutput}
  {p : TPolicy} {q : WasmTPolicy} {arenaBase arenaSize : UInt64} {resolve : Str → UInt64}

theorem ranges_entry (resolve : Str → UInt64) (l : List SitePolicy) :
    (TPolicy.ranges resolve l).map SiteRange.entry =
      l.map (fun row => (row.siteId, row.typeId)) := by
  rw [TPolicy.ranges, List.map_map]
  rfl

/-- **The label based policy is registered**, from a state in which only its types
are. -/
theorem registerAllocationPolicy_spec {types declared : List Str} {s : Runtime} (hs : Sound s)
    (htable : (p.sites ++ p.helperSites).map (fun row => (row.siteId, row.typeId)) =
      siteTable types declared 0)
    (hknown : ∀ name ∈ declared, name ∈ types) (hfit : SiteNumbersFit 0 declared.length)
    (htypes : ∀ name ∈ types, s.types.find (typeNumber types name) = some (hashType name))
    (hsites : ∀ b, s.sites.find b = none) (hnone : ∀ id, s.siteTypes.find id = none)
    (hgood : GoodResolver p resolve) :
    (p.registerAllocationPolicy s resolve).2 = true ∧
      HoldsRanges s (TPolicy.ranges resolve (p.sites ++ p.helperSites))
        (p.registerAllocationPolicy s resolve).1 := by
  rw [p.registerAllocationPolicy_eq]
  refine registerRanges_spec _ s {
    registry := hs.registry
    sites := ?_
    begin_pos := hgood.begin_pos
    nonempty := hgood.nonempty
    free := fun e _ b site hb => ?_
    apart := hgood.apart }
  · rw [ranges_entry, htable]
    exact readySites_siteTable hknown hfit htypes hnone
  · rw [hsites b] at hb
    cases hb

theorem linked_install
    (hlink : (p.sites ++ p.helperSites).map (fun row => (row.siteId, row.typeId)) =
      siteTable (allTypes policy boundary) (declaredTypes policy boundary) 0)
    (htypes : p.types = q.types)
    (wacc : WasmAccepted isWord policy source' namespaceName' boundary 0 wasm)
    (hq : wasm.tHeader.compile = some q) (hbase : arenaBase ≠ 0) (hgood : GoodResolver p resolve)
    (ht : (q.registerTypes (new arenaBase arenaSize)).2 = true) :
    (p.initialized arenaBase arenaSize resolve).2 = true ∧
      Linked (TPolicy.ranges resolve (p.sites ++ p.helperSites)) q.siteId
        (p.initialized arenaBase arenaSize resolve).1 (q.install arenaBase arenaSize) := by
  obtain ⟨-, hqsites, _⟩ := wacc.compiled hq
  have hsame : p.registerTypes = q.registerTypes := by
    funext s
    rw [TPolicy.registerTypes, WasmTPolicy.registerTypes, htypes]
  have hinit : p.initialized arenaBase arenaSize resolve =
      p.registerAllocationPolicy (q.registerTypes (new arenaBase arenaSize)).1 resolve := by
    rw [TPolicy.initialized, initializePolicy, hsame, ht]
    exact if_neg (by decide)
  have hfind := wacc.find_types hq ht
  have hsound : Sound (q.registerTypes (new arenaBase arenaSize)).1 :=
    sound_registerTypes _ (sound_new arenaBase arenaSize)
  obtain ⟨types, typeIds, hframe⟩ := registerTypes_frame q.types true (new arenaBase arenaSize)
  have hframe : (q.registerTypes (new arenaBase arenaSize)).1 =
      { new arenaBase arenaSize with types := types, typeIds := typeIds } := hframe
  obtain ⟨hok, hholds⟩ := registerAllocationPolicy_spec hsound hlink wacc.known
    wacc.siteNumbersFit hfind (fun b => by rw [hframe]; rfl) (fun id => by rw [hframe]; rfl) hgood
  obtain ⟨sites, sitesById, siteTypes, hnacl⟩ := registerRanges_frame
    (TPolicy.ranges resolve (p.sites ++ p.helperSites))
    (q.registerTypes (new arenaBase arenaSize)).1
  rw [← p.registerAllocationPolicy_eq] at hnacl
  obtain ⟨siteTypes', hwasm⟩ := registerSiteIds_frame
    (q.sites.map (fun site => (site.siteId, site.typeId)))
    (q.registerTypes (new arenaBase arenaSize)).1
  have hwasm : q.install arenaBase arenaSize =
      { (q.registerTypes (new arenaBase arenaSize)).1 with siteTypes := siteTypes' } := hwasm
  rw [hinit]
  refine ⟨hok, {
    sound := ?_
    layout := (q.sound_install arenaBase arenaSize).layout
    base := ?_
    heap := ?_
    sites := fun i e pc hi hpc => ?_ }⟩
  · rw [p.registerAllocationPolicy_eq]
    exact sound_registerRanges _ hsound
  · rw [hnacl, hframe]
    exact hbase
  · rw [hnacl, hwasm]
    exact ⟨rfl, rfl, rfl, rfl, rfl⟩
  · have hentry := congrArg (fun l : List (SiteId × TypeId) => l[i]?)
      ((ranges_entry resolve (p.sites ++ p.helperSites)).trans hlink)
    rw [List.getElem?_map, hi, siteTable, List.getElem?_mapIdx] at hentry
    obtain ⟨name, hname, heq⟩ := Option.map_eq_some_iff.mp hentry.symm
    have hid : siteNumber 0 i = e.id := (Prod.mk.inj heq).1
    have htype : typeNumber (allTypes policy boundary) name = e.typeId := (Prod.mk.inj heq).2
    have hknown := hfind name (wacc.known name (List.mem_of_getElem? hname))
    rw [htype] at hknown
    have hsite := hholds.found e (List.mem_of_getElem? hi) _ hknown
    have hsiteId : q.siteId i = siteNumber 0 i := by
      rw [WasmTPolicy.siteId, wacc.site_getElem? hq, hname]
      rfl
    refine ⟨e.site (hashType name), ?_, ?_, ?_⟩
    · exact (findSiteUnlocked_eq_some hholds.registry).mpr
        ⟨hholds.registry.mem_sites.mpr hsite, hpc⟩
    · rw [hsiteId, hid]
      rfl
    · rw [hsiteId]
      exact ((wacc.installed hq ht).2.2 _ _).mpr ⟨i, name, hname, rfl, rfl⟩

end Agree

/-- **The two backends agree exactly when there are fewer than `2 ^ 32` types**, for
every policy and boundary that both generators accept, the import based one with
base 0. -/
theorem backends_agree_iff {isWord : Char → Bool} {policy : Policy} {boundary : Boundary}
    {source namespaceName source' namespaceName' : Str} {nacl : Str × UHeader × THeader}
    {wasm : WasmOutput} {p : TPolicy} {q : WasmTPolicy}
    (hnacl : generateBoundary isWord policy source namespaceName boundary = .ok nacl)
    (hwasm : generateWasmBoundary isWord policy source' namespaceName' boundary 0 = .ok wasm)
    (hp : nacl.2.2.compile = some p) (hq : wasm.tHeader.compile = some q) :
    BackendsAgree policy boundary p q ↔ (allTypes policy boundary).length < 2 ^ 32 := by
  have acc := generateBoundary_ok hnacl
  have wacc := generateWasmBoundary_ok hwasm
  obtain ⟨htypes, htable, _⟩ := acc.compiled wacc.precise hp
  obtain ⟨hqtypes, hqtable, _⟩ := wacc.compiled hq
  have hsame : p.types = q.types := htypes.trans hqtypes.symm
  have hlen := congrArg List.length htable
  rw [List.length_map, length_siteTable] at hlen
  constructor
  · intro h
    obtain ⟨resolve, hgood⟩ := exists_goodResolver (by rw [hlen]; exact wacc.siteNumbersFit.lt)
      (fun i row hrow => by
        rw [acc.compiled_rows wacc.precise hp, List.getElem?_map] at hrow
        obtain ⟨e, he, rfl⟩ := Option.map_eq_some_iff.mp hrow
        obtain ⟨t, stem, _, rfl⟩ := labelRows_getElem? policy boundary namespaceName he
        exact ⟨stem, rfl, rfl⟩)
    obtain ⟨_, hreg, _⟩ := h.runs 0x1000 0x100 resolve (by decide) hgood
    exact (typeNumbersFit_iff_lt acc.nodup).mp ((wacc.registerTypes_eq_true hq _ _).mp hreg)
  · intro h
    have hfit := (typeNumbersFit_iff_lt acc.nodup).mpr h
    have hqlen := congrArg List.length hqtable
    rw [List.length_map, length_siteTable, ← length_declaredSites] at hqlen
    exact {
      types := hsame
      sites := htable.trans hqtable.symm
      precise := acc.length_sites wacc.precise hp
      count := hqlen
      bound := fun i type helper hi => by
        have hname := declaredTypes_getElem? hi
        have hget := congrArg (fun l : List (SiteId × TypeId) => l[i]?) hqtable
        rw [List.getElem?_map, siteTable, List.getElem?_mapIdx, hname] at hget
        obtain ⟨row, hrow, heq⟩ := Option.map_eq_some_iff.mp hget
        have hid : row.siteId = siteNumber 0 i := (Prod.mk.inj heq).1
        have htype : row.typeId = typeNumber (allTypes policy boundary) type :=
          (Prod.mk.inj heq).2
        refine ⟨row, hrow, ?_, ?_⟩
        · rw [hid]
          exact toNat_siteNumber wacc.siteNumbersFit (List.getElem?_eq_some_iff.mp hname).1
        · rw [htype, hqtypes]
          exact List.mem_map.mpr ⟨type,
            mem_typeIds_keys.mpr (wacc.known type (List.mem_of_getElem? hname)), rfl⟩
      runs := fun arenaBase arenaSize resolve hbase hgood => by
        have ht := (wacc.registerTypes_eq_true hq arenaBase arenaSize).mpr hfit
        obtain ⟨hok, hlinked⟩ := linked_install htable hsame wacc hq hbase hgood ht
        exact ⟨hok, ht, (wacc.installed hq ht).1, fun events he => linked_run hlinked he⟩ }

/-- A source allocation and a helper. -/
theorem backends_agree_node : ∃ (nacl : Str × UHeader × THeader) (wasm : WasmOutput)
    (p : TPolicy) (q : WasmTPolicy),
    generateBoundary asciiWord nodePolicy nodeSource "interspec::node".toList bufferBoundary =
      .ok nacl ∧
    generateWasmBoundary asciiWord nodePolicy nodeSource "interspec::node".toList bufferBoundary 0 =
      .ok wasm ∧
    nacl.2.2.compile = some p ∧ wasm.tHeader.compile = some q ∧
    BackendsAgree nodePolicy bufferBoundary p q := by
  obtain ⟨nacl, hnacl, p, hp⟩ : ∃ nacl, generateBoundary asciiWord nodePolicy nodeSource
      "interspec::node".toList bufferBoundary = .ok nacl ∧ ∃ p, nacl.2.2.compile = some p :=
    ⟨_, rfl, _, rfl⟩
  obtain ⟨wasm, hwasm, q, hq⟩ : ∃ wasm, generateWasmBoundary asciiWord nodePolicy nodeSource
      "interspec::node".toList bufferBoundary 0 = .ok wasm ∧ ∃ q, wasm.tHeader.compile = some q :=
    ⟨_, rfl, _, rfl⟩
  exact ⟨nacl, wasm, p, q, hnacl, hwasm, hp, hq,
    (backends_agree_iff hnacl hwasm hp hq).mpr (by decide)⟩

/-- **`2 ^ 32` types.**  Both generators accept the policy and both headers compile, but
both runtimes refuse to register its types. -/
theorem too_many_types_diverge : ∃ (nacl : Str × UHeader × THeader) (wasm : WasmOutput)
    (p : TPolicy) (q : WasmTPolicy),
    generateBoundary asciiWord (typesPolicy (typeNames (2 ^ 32))) [] "interspec::node".toList
      noBoundary = .ok nacl ∧
    generateWasmBoundary asciiWord (typesPolicy (typeNames (2 ^ 32))) [] "interspec::node".toList
      noBoundary 0 = .ok wasm ∧
    nacl.2.2.compile = some p ∧ wasm.tHeader.compile = some q ∧
    (q.registerTypes (new 0x1000 0x100)).2 = false ∧
    ¬ BackendsAgree (typesPolicy (typeNames (2 ^ 32))) noBoundary p q := by
  have hgood : GoodNames (typeNames (2 ^ 32)) := goodNames_typeNames (by decide)
  obtain ⟨nacl, p, hnacl, hp⟩ :=
    generateBoundary_typesPolicy asciiWord hgood [] "interspec::node".toList
  obtain ⟨wasm, q, hwasm, hq⟩ :=
    generateWasmBoundary_typesPolicy asciiWord hgood [] "interspec::node".toList 0
  have wacc := generateWasmBoundary_ok hwasm
  have hrefused : ¬ (q.registerTypes (new 0x1000 0x100)).2 = true := by
    rw [wacc.registerTypes_eq_true hq, allTypes_typesPolicy]
    exact not_typeNumbersFit_typeNames
  have hempty : p.sites ++ p.helperSites = [] := by
    have hlen := congrArg List.length
      ((generateBoundary_ok hnacl).compiled wacc.precise hp).2.1
    rw [List.length_map, length_siteTable] at hlen
    exact List.length_eq_zero_iff.mp hlen
  refine ⟨nacl, wasm, p, q, hnacl, hwasm, hp, hq, Bool.eq_false_iff.mpr hrefused, fun h => ?_⟩
  -- without sites every resolver is good
  have hresolve : GoodResolver p (fun _ => 1) := by
    constructor <;> rw [hempty]
    · exact nofun
    · exact nofun
    · exact .nil
  exact hrefused (h.runs 0x1000 0x100 _ (by decide) hresolve).2.1

end InterSpec.Tools
