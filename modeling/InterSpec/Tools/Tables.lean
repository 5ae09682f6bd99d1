import InterSpec.Tools.Accepted

/-!
# The compiled tables

The tables and constants of the two T headers of an accepted policy, as functions
of the policy and the boundary.

* `typePairs`: the type ids with their hashes.
* `siteTable`: the site ids with their type ids, `labelRows` with their labels too.
* `WasmAccepted.compiled`, `BoundaryAccepted.compiled`: what `compile` gives.
-/

namespace InterSpec.Tools

open Fallible InterSpec.Runtime

/-! ### Types -/

/-- `kTypeId` of a name. -/
def typeNumber (types : List Str) (name : Str) : TypeId :=
  UInt32.ofNat (((typeIds types).get? name).getD 0)

/-- The type table: the id and the hash of every name. -/
def typePairs (types : List Str) : List (TypeId × UInt64) :=
  (typeIds types).keys.map (fun name => (typeNumber types name, hashType name))

theorem get?_of_mem {types : List Str} {name : Str} (h : name ∈ types) :
    ∃ k, (typeIds types).get? name = some k := by
  cases hk : (typeIds types).get? name with
  | none => exact absurd (mem_typeIds_keys.mpr h) (Dict.get?_eq_none.mp hk)
  | some k => exact ⟨k, rfl⟩

theorem map_compileType (types : List Str) :
    (typeConstants (typeIds types)).map compileType = typePairs types := by
  rw [typeConstants, List.map_map, typePairs, Dict.keys, List.map_map]
  refine List.map_congr_left (fun e he => ?_)
  have hget : (typeIds types).get? e.1 = some e.2 := Dict.mem_entries.mp he
  show (UInt32.ofNat e.2, hashType e.1) =
    (UInt32.ofNat (((typeIds types).get? e.1).getD 0), hashType e.1)
  rw [hget]
  rfl

theorem typeConstant_of_mem {types : List Str} {name : Str}
    (hnodup : ((typeConstants (typeIds types)).map (fun c => c.ident)).Nodup)
    (h : name ∈ types) : ∃ c, typeConstant (typeConstants (typeIds types)) (cpp name) = some c ∧
      c.typeId = typeNumber types name ∧ c.hash = hashType name := by
  obtain ⟨k, hk⟩ := get?_of_mem h
  have hmem : (⟨cpp name, k, hashType name⟩ : TypeConstant) ∈ typeConstants (typeIds types) :=
    List.mem_map.mpr ⟨(name, k), Dict.mem_entries.mpr hk, rfl⟩
  refine ⟨⟨cpp name, k, hashType name⟩, Dict.find?_of_nodup hnodup hmem, ?_, rfl⟩
  rw [typeNumber, hk]
  rfl

theorem compileUse_eq_some {types : List TypeConstant} {use : UseConstant} {r : Str × AccessPolicy}
    (h : compileUse types use = some r) : (use.offset < 2 ^ 64 ∧ use.bytes < 2 ^ 64) ∧
      ∃ c, typeConstant types use.typeIdent = some c ∧
        r = (use.ident, ⟨c.hash, UInt64.ofNat use.offset, UInt64.ofNat use.bytes⟩) := by
  obtain ⟨_, hguard, h⟩ := Option.bind_eq_some_iff.mp h
  obtain ⟨c, hc, h⟩ := Option.bind_eq_some_iff.mp h
  cases h
  exact ⟨(Option.guard_eq_some' _).mp hguard, c, hc, rfl⟩

/-- The compiled constant of a use. -/
def accessPolicyFor (use : PolicyUse) : AccessPolicy :=
  ⟨hashType use.type, UInt64.ofNat use.offset.toNat, UInt64.ofNat (wasmUseBytes use).toNat⟩

/-- **The constants of the uses.**  Every use has one, and its numbers fit. -/
theorem compiled_uses {policy : Policy} {types : List Str}
    {compiled : List (Str × AccessPolicy)}
    (hdistinct : DistinctIdents (typeConstants (typeIds types)) (policy.uses.map useConstantFor))
    (hknown : ∀ use ∈ policy.uses, use.type ∈ types)
    (h : (policy.uses.map useConstantFor).mapM (compileUse (typeConstants (typeIds types))) =
      some compiled) :
    ∀ use ∈ policy.uses, useConstantOf compiled (cpp use.name) = some (accessPolicyFor use) ∧
      use.offset.toNat < 2 ^ 64 ∧ (wasmUseBytes use).toNat < 2 ^ 64 := by
  have hall := Fallible.mapM_forall h
  have hcompiled : compiled = policy.uses.map (fun use => (cpp use.name, accessPolicyFor use)) := by
    rw [List.mapM_map] at h
    refine Fallible.mapM_eq_some h (fun use hu r hr => ?_)
    obtain ⟨_, c, hc, rfl⟩ := compileUse_eq_some hr
    obtain ⟨c', hc', _, hhash⟩ := typeConstant_of_mem hdistinct.1 (hknown use hu)
    obtain rfl : c = c' := Option.some.inj (hc.symm.trans hc')
    rw [hhash]
    rfl
  intro use hu
  obtain ⟨r, hr⟩ := hall _ (List.mem_map_of_mem hu)
  obtain ⟨hfits, _⟩ := compileUse_eq_some hr
  refine ⟨?_, hfits⟩
  have hmem : (cpp use.name, accessPolicyFor use) ∈ compiled := by
    rw [hcompiled]
    exact List.mem_map.mpr ⟨use, hu, rfl⟩
  have hnodup : (compiled.map Prod.fst).Nodup := by
    have hidents := hdistinct.2
    rw [List.map_map] at hidents
    rw [hcompiled, List.map_map]
    exact hidents
  rw [useConstantOf, Dict.find?_of_nodup hnodup hmem]
  rfl

/-- The ids and types of the sites whose declared types are `declared`. -/
def siteTable (types declared : List Str) (siteIdBase : Int) : List (SiteId × TypeId) :=
  declared.mapIdx (fun i t => (UInt32.ofInt (siteIdBase + (i + 1 : Nat)), typeNumber types t))

theorem recordsFor_type_mem {policy : Policy} {boundary : Boundary} {namespaceName : Str}
    {siteIdBase : Int} {r : SiteRecord}
    (h : r ∈ recordsFor policy boundary namespaceName siteIdBase) :
    r.type ∈ declaredTypes policy boundary := by
  obtain ⟨i, hi, rfl⟩ := List.mem_mapIdx.mp h
  rw [← declaredSites_map_fst]
  exact List.mem_map_of_mem (List.getElem_mem hi)

theorem recordsFor_map (policy : Policy) (boundary : Boundary) (namespaceName : Str)
    (siteIdBase : Int) : (recordsFor policy boundary namespaceName siteIdBase).map
      (fun r => (UInt32.ofInt r.siteId, typeNumber (allTypes policy boundary) r.type)) =
    siteTable (allTypes policy boundary) (declaredTypes policy boundary) siteIdBase := by
  apply List.ext_getElem?
  intro i
  rw [recordsFor, siteTable, ← declaredSites_map_fst, List.getElem?_map, List.getElem?_mapIdx,
    List.getElem?_mapIdx, List.getElem?_map, Option.map_map, Option.map_map]
  rfl

theorem WasmAccepted.compiled {isWord : Char → Bool} {policy : Policy}
    {source namespaceName : Str} {boundary : Boundary} {siteIdBase : Int} {out : WasmOutput}
    {p : WasmTPolicy}
    (acc : WasmAccepted isWord policy source namespaceName boundary siteIdBase out)
    (hc : out.tHeader.compile = some p) :
    p.types = typePairs (allTypes policy boundary) ∧
    p.sites.map (fun site => (site.siteId, site.typeId)) =
      siteTable (allTypes policy boundary) (declaredTypes policy boundary) siteIdBase ∧
    ∀ use ∈ policy.uses, useConstantOf p.uses (cpp use.name) = some (accessPolicyFor use) ∧
      use.offset.toNat < 2 ^ 64 ∧ (wasmUseBytes use).toNat < 2 ^ 64 := by
  obtain ⟨_, hdistinct, hc⟩ := Option.bind_eq_some_iff.mp hc
  obtain ⟨sites, hsites, hc⟩ := Option.bind_eq_some_iff.mp hc
  obtain ⟨uses, huses, hc⟩ := Option.bind_eq_some_iff.mp hc
  cases hc
  have hdistinct := (Option.guard_eq_some' _).mp hdistinct
  rw [acc.tHeader] at hdistinct huses hsites ⊢
  rw [wasmTHeaderFor, List.mapM_map] at hsites
  refine ⟨map_compileType _, ?_, compiled_uses hdistinct acc.usesKnown huses⟩
  have hrows := Fallible.mapM_eq_some hsites
    (g := fun r => ⟨UInt32.ofInt r.siteId, typeNumber (allTypes policy boundary) r.type,
      r.importName, r.helperName.isSome⟩) (fun r hr row hrow => ?_)
  · rw [hrows, List.map_map, ← recordsFor_map policy boundary namespaceName siteIdBase]
    rfl
  · obtain ⟨_, _, hrow⟩ := Option.bind_eq_some_iff.mp hrow
    obtain ⟨c, hc, hrow⟩ := Option.bind_eq_some_iff.mp hrow
    obtain ⟨c', hc', hid, _⟩ := typeConstant_of_mem hdistinct.1
      (acc.known _ (recordsFor_type_mem hr))
    obtain rfl : c = c' := Option.some.inj (hc.symm.trans hc')
    cases hrow
    rw [hid]

/-- A label of a site. -/
def label (stem : Str) (siteId : Nat) (suffix : Str) : Str :=
  stem ++ "_".toList ++ digits siteId ++ suffix

/-- The rows of the label based tables when every allocation has a site, precise
sites first. -/
def labelRows (policy : Policy) (boundary : Boundary) (namespaceName : Str) : List SiteEntry :=
  policy.allocations.mapIdx (fun i a => siteEntry (i + 1) a) ++
    boundary.helperSites.mapIdx (fun i helper =>
      helperEntry namespaceName (policy.allocations.length + 1 + i) helper)

theorem preciseSites_filter (l : List PolicyAllocation) :
    ∀ k, (preciseSites k l).map (fun p => siteEntry p.siteId p.allocation) =
      (l.filter (fun a => a.site.isSome)).mapIdx (fun i a => siteEntry (k + i) a) := by
  induction l with
  | nil => intro k; rfl
  | cons a l ih =>
    intro k
    rw [preciseSites, List.filter_cons]
    cases a.site with
    | none => exact ih k
    | some site =>
      dsimp only
      rw [if_pos Option.isSome_some, List.map_cons, List.mapIdx_cons, ih (k + 1)]
      congr 1
      apply List.ext_getElem?
      intro i
      rw [List.getElem?_mapIdx, List.getElem?_mapIdx, show k + 1 + i = k + (i + 1) from by omega]

theorem preciseSites_map {l : List PolicyAllocation} (h : ∀ a ∈ l, a.site.isSome = true) (k : Nat) :
    (preciseSites k l).map (fun p => siteEntry p.siteId p.allocation) =
      l.mapIdx (fun i a => siteEntry (k + i) a) := by
  rw [preciseSites_filter, List.filter_eq_self.mpr h]

theorem BoundaryAccepted.rows {policy : Policy} {namespaceName : Str} {boundary : Boundary}
    {header : THeader} (acc : BoundaryAccepted policy namespaceName boundary header)
    (h : ∀ a ∈ policy.allocations, a.site.isSome = true) :
    header.sites ++ header.helperSites = labelRows policy boundary namespaceName := by
  rw [acc.sites, acc.helperSites, preciseSites_map h, List.filter_eq_self.mpr h, labelRows]
  congr 1
  apply List.ext_getElem?
  intro i
  rw [List.getElem?_mapIdx, List.getElem?_mapIdx, Nat.add_comm 1 i]

theorem length_labelRows (policy : Policy) (boundary : Boundary) (namespaceName : Str) :
    (labelRows policy boundary namespaceName).length =
      (declaredTypes policy boundary).length := by
  rw [labelRows, declaredTypes, List.length_append, List.length_append, List.length_mapIdx,
    List.length_mapIdx, List.length_map, List.length_map]

theorem labelRows_getElem? (policy : Policy) (boundary : Boundary) (namespaceName : Str)
    {i : Nat} {row : SiteEntry} (h : (labelRows policy boundary namespaceName)[i]? = some row) :
    ∃ t stem, (declaredTypes policy boundary)[i]? = some t ∧
      row = ⟨i + 1, cpp t, label stem (i + 1) "_begin".toList,
        label stem (i + 1) "_end".toList⟩ := by
  unfold labelRows at h
  unfold declaredTypes
  by_cases hi : i < policy.allocations.length
  · rw [List.getElem?_append_left (by rwa [List.length_mapIdx]), List.getElem?_mapIdx,
      List.getElem?_eq_getElem hi] at h
    cases h
    refine ⟨policy.allocations[i].type,
      "interspec_alloc_site_".toList ++ symbol policy.allocations[i].function, ?_, rfl⟩
    rw [List.getElem?_append_left (by rwa [List.length_map]), List.getElem?_map,
      List.getElem?_eq_getElem hi]
    rfl
  · rw [List.getElem?_append_right (by rw [List.length_mapIdx]; omega), List.getElem?_mapIdx,
      List.length_mapIdx] at h
    obtain ⟨helper, hh, rfl⟩ := Option.map_eq_some_iff.mp h
    refine ⟨helper.type, "interspec_alloc_site_".toList ++ symbol namespaceName ++ "_".toList ++
      symbol helper.name, ?_, ?_⟩
    · rw [List.getElem?_append_right (by rw [List.length_map]; omega), List.getElem?_map,
        List.length_map, hh]
      rfl
    · rw [show policy.allocations.length + 1 + (i - policy.allocations.length) = i + 1 from by
        omega]
      rfl

/-- A row with its type id looked up. -/
def compiledRow (types : List TypeConstant) (e : SiteEntry) : SitePolicy :=
  ⟨UInt32.ofNat e.siteId, ((typeConstant types e.typeIdent).map TypeConstant.typeId).getD 0,
    e.beginSymbol, e.endSymbol⟩

theorem compileSite_eq_some {types : List TypeConstant} {e : SiteEntry} {site : SitePolicy}
    (h : compileSite types e = some site) : site = compiledRow types e := by
  obtain ⟨_, _, h⟩ := Option.bind_eq_some_iff.mp h
  obtain ⟨c, hc, h⟩ := Option.bind_eq_some_iff.mp h
  cases h
  rw [compiledRow, hc]
  rfl

/-- The compiled rows, when every allocation has a site. -/
theorem BoundaryAccepted.compiled_rows {policy : Policy} {namespaceName : Str}
    {boundary : Boundary} {header : THeader} {p : TPolicy}
    (acc : BoundaryAccepted policy namespaceName boundary header)
    (h : ∀ a ∈ policy.allocations, a.site.isSome = true) (hc : header.compile = some p) :
    p.sites ++ p.helperSites =
      (labelRows policy boundary namespaceName).map (compiledRow header.types) := by
  obtain ⟨_, _, hc⟩ := Option.bind_eq_some_iff.mp hc
  obtain ⟨sites, hsites, hc⟩ := Option.bind_eq_some_iff.mp hc
  obtain ⟨helperSites, hhelpers, hc⟩ := Option.bind_eq_some_iff.mp hc
  obtain ⟨uses, _, hc⟩ := Option.bind_eq_some_iff.mp hc
  cases hc
  show sites ++ helperSites = _
  rw [Fallible.mapM_eq_some hsites (fun _ _ _ => compileSite_eq_some),
    Fallible.mapM_eq_some hhelpers (fun _ _ _ => compileSite_eq_some), ← List.map_append,
    acc.rows h]

theorem BoundaryAccepted.length_sites {policy : Policy} {namespaceName : Str}
    {boundary : Boundary} {header : THeader} {p : TPolicy}
    (acc : BoundaryAccepted policy namespaceName boundary header)
    (h : ∀ a ∈ policy.allocations, a.site.isSome = true) (hc : header.compile = some p) :
    p.sites.length = policy.allocations.length := by
  obtain ⟨_, _, hc⟩ := Option.bind_eq_some_iff.mp hc
  obtain ⟨sites, hsites, hc⟩ := Option.bind_eq_some_iff.mp hc
  obtain ⟨helperSites, _, hc⟩ := Option.bind_eq_some_iff.mp hc
  obtain ⟨uses, _, hc⟩ := Option.bind_eq_some_iff.mp hc
  cases hc
  show sites.length = _
  rw [Fallible.mapM_eq_some hsites (fun _ _ _ => compileSite_eq_some), List.length_map, acc.sites,
    preciseSites_map h, List.length_mapIdx]

/-- **The compiled label based policy**, when every allocation has a site. -/
theorem BoundaryAccepted.compiled {policy : Policy} {namespaceName : Str} {boundary : Boundary}
    {header : THeader} {p : TPolicy} (acc : BoundaryAccepted policy namespaceName boundary header)
    (h : ∀ a ∈ policy.allocations, a.site.isSome = true) (hc : header.compile = some p) :
    p.types = typePairs (allTypes policy boundary) ∧
    (p.sites ++ p.helperSites).map (fun site => (site.siteId, site.typeId)) =
      siteTable (allTypes policy boundary) (declaredTypes policy boundary) 0 ∧
    ∀ use ∈ policy.uses, useConstantOf p.uses (cpp use.name) = some (accessPolicyFor use) ∧
      use.offset.toNat < 2 ^ 64 ∧ (wasmUseBytes use).toNat < 2 ^ 64 := by
  have hrows := acc.compiled_rows h hc
  obtain ⟨_, hdistinct, hc⟩ := Option.bind_eq_some_iff.mp hc
  obtain ⟨sites, _, hc⟩ := Option.bind_eq_some_iff.mp hc
  obtain ⟨helperSites, _, hc⟩ := Option.bind_eq_some_iff.mp hc
  obtain ⟨uses, huses, hc⟩ := Option.bind_eq_some_iff.mp hc
  cases hc
  have hdistinct := (Option.guard_eq_some' _).mp hdistinct
  rw [acc.types, acc.uses] at hdistinct huses
  refine ⟨by rw [acc.types, map_compileType], ?_, compiled_uses hdistinct acc.usesKnown huses⟩
  rw [hrows]
  apply List.ext_getElem?
  intro i
  rw [siteTable, List.getElem?_map, List.getElem?_map, List.getElem?_mapIdx]
  cases hget : (labelRows policy boundary namespaceName)[i]? with
  | none =>
    have hlen := List.getElem?_eq_none_iff.mp hget
    rw [length_labelRows] at hlen
    rw [List.getElem?_eq_none hlen]
    rfl
  | some e =>
    obtain ⟨t, stem, ht, rfl⟩ := labelRows_getElem? policy boundary namespaceName hget
    obtain ⟨c, hc, hnum, _⟩ := typeConstant_of_mem hdistinct.1
      (acc.known t (List.mem_of_getElem? ht))
    rw [ht]
    show some (UInt32.ofNat (i + 1),
      ((typeConstant header.types (cpp t)).map TypeConstant.typeId).getD 0) = some _
    rw [acc.types, hc, Int.zero_add, Word.ofInt_natCast]
    exact congrArg some (Prod.ext rfl hnum)

end InterSpec.Tools
