import InterSpec.Tools.Compiled
import Mathlib.Data.Option.Basic

/-!
# What an accepted policy emits

Both generators, read backwards: from a successful run to the tables it emits,
as functions of the policy and the boundary.

* `declaredSites`: the sites in the order of their numbers, with their types.
* `WasmAccepted`, `generateWasmBoundary_ok`: the import based generator.
* `Generated`, `generate_ok`: a run of `generate`.
* `BoundaryAccepted`, `generateBoundary_ok`: the label based one.
-/

namespace InterSpec.Tools

open Fallible InterSpec.Runtime

/-! ### Declarations -/

/-- The types of the policy and the new ones of the boundary. -/
def allTypes (policy : Policy) (boundary : Boundary) : List Str :=
  composedTypes policy.types boundary.types

/-- The sites, precise ones first, with their types and the names of the helpers. -/
def declaredSites (policy : Policy) (boundary : Boundary) : List (Str × Option Str) :=
  policy.allocations.map (fun a => (a.type, none)) ++
    boundary.helperSites.map (fun h => (h.type, some h.name))

/-- The type declared for each site. -/
def declaredTypes (policy : Policy) (boundary : Boundary) : List Str :=
  policy.allocations.map (fun a => a.type) ++ boundary.helperSites.map (fun h => h.type)

theorem declaredSites_map_fst (policy : Policy) (boundary : Boundary) :
    (declaredSites policy boundary).map Prod.fst = declaredTypes policy boundary := by
  rw [declaredSites, List.map_append, List.map_map, List.map_map]
  rfl

theorem length_declaredSites (policy : Policy) (boundary : Boundary) :
    (declaredSites policy boundary).length = (declaredTypes policy boundary).length := by
  rw [← declaredSites_map_fst, List.length_map]

/-- The constant of a use: a dynamic use, or one without bytes, has 0 bytes. -/
def useConstantFor (use : PolicyUse) : UseConstant :=
  ⟨cpp use.name, cpp use.type, use.offset.toNat, (wasmUseBytes use).toNat⟩

theorem useConstant_eq_ok {known : List Str} {use : PolicyUse} {size : Except PolicyError Int}
    {c : UseConstant} (h : useConstant known use size = .ok c) : use.type ∈ known ∧
      ∃ n, size = .ok n ∧ 0 ≤ n ∧
        c = ⟨cpp use.name, cpp use.type, use.offset.toNat, n.toNat⟩ := by
  obtain ⟨_, hknown, h⟩ := bind_eq_ok.mp h
  obtain ⟨n, hn, h⟩ := bind_eq_ok.mp h
  obtain ⟨_, hsign, h⟩ := bind_eq_ok.mp h
  have hsign := ensure_eq_ok.mp hsign
  cases h
  exact ⟨ensure_eq_ok.mp hknown, n, hn, by omega, rfl⟩

/-! ### Site records -/

def recordFor (namespaceName : Str) (siteIdBase : Int) (localSiteId : Nat)
    (site : Str × Option Str) : SiteRecord where
  siteId := siteIdBase + localSiteId
  localSiteId := localSiteId
  type := site.1
  importName := importName (cpp namespaceName) localSiteId
  cName := siteCName namespaceName localSiteId
  helperName := site.2

/-- The records of the declared sites, numbered from one. -/
def recordsFor (policy : Policy) (boundary : Boundary) (namespaceName : Str) (siteIdBase : Int) :
    List SiteRecord :=
  (declaredSites policy boundary).mapIdx (fun i site =>
    recordFor namespaceName siteIdBase (i + 1) site)

/-- The number fits and the namespace has a stem. -/
def SiteFits (namespaceName : Str) (siteIdBase : Int) (localSiteId : Nat) : Prop :=
  0 ≤ siteIdBase ∧ 0 < siteIdBase + localSiteId ∧ siteIdBase + localSiteId ≤ maxSiteId ∧
    cpp namespaceName ≠ []

theorem siteRecord_eq_ok {namespaceName : Str} {siteIdBase : Int} {localSiteId : Nat} {type : Str}
    {helperName : Option Str} {r : SiteRecord}
    (h : siteRecord namespaceName siteIdBase localSiteId type helperName = .ok r) :
    r = recordFor namespaceName siteIdBase localSiteId (type, helperName) ∧
      SiteFits namespaceName siteIdBase localSiteId := by
  obtain ⟨id, hid, h⟩ := bind_eq_ok.mp h
  obtain ⟨name, hname, h⟩ := bind_eq_ok.mp h
  obtain ⟨_, hbase, hid⟩ := bind_eq_ok.mp hid
  obtain ⟨_, hrange, hid⟩ := bind_eq_ok.mp hid
  obtain ⟨stem, hstem, hname⟩ := bind_eq_ok.mp hname
  obtain ⟨_, hempty, hstem⟩ := bind_eq_ok.mp hstem
  have hbase := ensure_eq_ok.mp hbase
  have hrange := ensure_eq_ok.mp hrange
  cases hid
  cases hstem
  cases hname
  cases h
  refine ⟨rfl, ?_, ?_, ?_, ensure_eq_ok.mp hempty⟩ <;> omega

/-- **The records are those of the declared sites, and every number fits.** -/
theorem siteRecords_eq_ok {policy : Policy} {boundary : Boundary} {namespaceName : Str}
    {siteIdBase : Int} {r : List SiteRecord × Nat}
    (h : siteRecords policy boundary namespaceName siteIdBase = .ok r) :
    r.1 = recordsFor policy boundary namespaceName siteIdBase ∧
      r.2 = policy.allocations.length ∧ (∀ a ∈ policy.allocations, a.site.isSome = true) ∧
      ∀ i < (declaredTypes policy boundary).length, SiteFits namespaceName siteIdBase (i + 1) := by
  obtain ⟨precise, hprecise, h⟩ := bind_eq_ok.mp h
  obtain ⟨helpers, hhelpers, h⟩ := bind_eq_ok.mp h
  cases h
  obtain ⟨hhelpers, _, _⟩ := numberedFresh_eq_ok hhelpers
  have hbody : ∀ (k : Nat) (a : PolicyAllocation) (b : SiteRecord),
      (do ensure (a.site.isSome = true) PolicyError.noPreciseSite
          siteRecord namespaceName siteIdBase k a.type none) = .ok b →
        a.site.isSome = true ∧ b = recordFor namespaceName siteIdBase k (a.type, none) ∧
          SiteFits namespaceName siteIdBase k := by
    intro k a b hb
    obtain ⟨_, hsite, hb⟩ := bind_eq_ok.mp hb
    exact ⟨ensure_eq_ok.mp hsite, siteRecord_eq_ok hb⟩
  have hlist := numbered_eq_mapIdx (fun k a b hb => (hbody k a b hb).2.1) hprecise
  have hlist' := numbered_eq_mapIdx (fun k _ b hb => (siteRecord_eq_ok hb).1) hhelpers
  obtain ⟨hlen, hall⟩ := numbered_eq_ok hprecise
  obtain ⟨_, hall'⟩ := numbered_eq_ok hhelpers
  refine ⟨?_, hlen, fun a ha => ?_, fun i hi => ?_⟩
  · show precise ++ helpers = _
    rw [recordsFor, declaredSites, List.mapIdx_append, hlist, hlist']
    congr 1
    · apply List.ext_getElem?
      intro i
      rw [List.getElem?_mapIdx, List.getElem?_mapIdx, List.getElem?_map, Option.map_map,
        Nat.add_comm 1 i]
      rfl
    · apply List.ext_getElem?
      intro i
      rw [List.getElem?_mapIdx, List.getElem?_mapIdx, List.getElem?_map, Option.map_map,
        List.length_map, hlen,
        show policy.allocations.length + 1 + i = i + policy.allocations.length + 1 from by omega]
      rfl
  · obtain ⟨i, hi, rfl⟩ := List.getElem_of_mem ha
    obtain ⟨b, _, hb⟩ := hall i _ (List.getElem?_eq_getElem hi)
    exact (hbody _ _ b hb).1
  · rw [declaredTypes, List.length_append, List.length_map, List.length_map] at hi
    by_cases hlt : i < policy.allocations.length
    · obtain ⟨b, _, hb⟩ := hall i _ (List.getElem?_eq_getElem hlt)
      have hfits := (hbody _ _ b hb).2.2
      rwa [Nat.add_comm 1 i] at hfits
    · have hj : i - policy.allocations.length < boundary.helperSites.length := by omega
      obtain ⟨b, _, hb⟩ := hall' _ _ (List.getElem?_eq_getElem hj)
      have hfits := (siteRecord_eq_ok hb).2
      rwa [hlen, show policy.allocations.length + 1 + (i - policy.allocations.length) = i + 1 from
        by omega] at hfits

/-! ### The import based generator -/

def wasmTHeaderFor (policy : Policy) (boundary : Boundary) (namespaceName : Str)
    (siteIdBase : Int) : WasmTHeader where
  namespaceName := namespaceName
  types := typeConstants (typeIds (allTypes policy boundary))
  siteIdBase := siteIdBase
  preciseCount := policy.allocations.length
  helperCount :=
    (recordsFor policy boundary namespaceName siteIdBase).length - policy.allocations.length
  sites := (recordsFor policy boundary namespaceName siteIdBase).map
    (fun r => ⟨r.siteId, cpp r.type, r.importName, r.helperName.isSome⟩)
  uses := policy.uses.map useConstantFor

structure WasmAccepted (isWord : Char → Bool) (policy : Policy) (source namespaceName : Str)
    (boundary : Boundary) (siteIdBase : Int) (out : WasmOutput) : Prop where
  known : ∀ t ∈ declaredTypes policy boundary, t ∈ allTypes policy boundary
  precise : ∀ a ∈ policy.allocations, a.site.isSome = true
  fits : ∀ i < (declaredTypes policy boundary).length, SiteFits namespaceName siteIdBase (i + 1)
  hashes : ((typeIds (allTypes policy boundary)).keys.map hashType).Nodup
  usesKnown : ∀ use ∈ policy.uses, use.type ∈ allTypes policy boundary
  instrumented : (rewriteOrder (preciseSites 1 policy.allocations)).foldlM
    (fun source p => instrumentWasmSite isWord source p.allocation p.site p.siteId namespaceName)
    source = .ok out.instrumented
  uHeader : out.uHeader = generateWasmUHeader (allTypes policy boundary)
    (recordsFor policy boundary namespaceName siteIdBase)
  tHeader : out.tHeader = wasmTHeaderFor policy boundary namespaceName siteIdBase
  hostImports : out.hostImports =
    generateHostImports (recordsFor policy boundary namespaceName siteIdBase)

/-- **The generator succeeds when its checks and its loop do**, and emits the tables of the
records. -/
theorem generateWasmBoundary_eq_ok {isWord : Char → Bool} {policy : Policy}
    {source namespaceName : Str} {boundary : Boundary} {siteIdBase : Int} {out : WasmOutput} :
    generateWasmBoundary isWord policy source namespaceName boundary siteIdBase = .ok out ↔
      ∃ types records, composeTypes policy.types boundary.types = .ok types ∧
        (∀ a ∈ policy.allocations, a.type ∈ types) ∧
        (∀ helper ∈ boundary.helperSites, helper.type ∈ types) ∧
        siteRecords { policy with types := types } boundary namespaceName siteIdBase =
          .ok records ∧
        (rewriteOrder (preciseSites 1 policy.allocations)).foldlM (fun source p =>
          instrumentWasmSite isWord source p.allocation p.site p.siteId namespaceName) source =
            .ok out.instrumented ∧
        generateWasmTHeader { policy with types := types } records.1 records.2 namespaceName
          siteIdBase = .ok out.tHeader ∧
        out.uHeader = generateWasmUHeader types records.1 ∧
        out.hostImports = generateHostImports records.1 := by
  constructor
  · intro h
    obtain ⟨types, htypes, h⟩ := bind_eq_ok.mp h
    obtain ⟨_, hknown, h⟩ := bind_eq_ok.mp h
    obtain ⟨_, hknown', h⟩ := bind_eq_ok.mp h
    obtain ⟨records, hrecords, h⟩ := bind_eq_ok.mp h
    obtain ⟨instrumented, hinstrumented, h⟩ := bind_eq_ok.mp h
    obtain ⟨tHeader, hheader, h⟩ := bind_eq_ok.mp h
    cases h
    exact ⟨types, records, htypes, fun a ha => ensure_eq_ok.mp (forEach_eq_ok.mp hknown a ha),
      fun a ha => ensure_eq_ok.mp (forEach_eq_ok.mp hknown' a ha), hrecords, hinstrumented,
      hheader, rfl, rfl⟩
  · obtain ⟨instrumented, uHeader, tHeader, hostImports⟩ := out
    rintro ⟨types, records, htypes, hknown, hknown', hrecords, hinstrumented, hheader, rfl, rfl⟩
    exact bind_eq_ok.mpr ⟨types, htypes, bind_eq_ok.mpr ⟨(),
      forEach_eq_ok.mpr (fun a ha => ensure_eq_ok.mpr (hknown a ha)), bind_eq_ok.mpr ⟨(),
      forEach_eq_ok.mpr (fun a ha => ensure_eq_ok.mpr (hknown' a ha)), bind_eq_ok.mpr ⟨records,
      hrecords, bind_eq_ok.mpr ⟨instrumented, hinstrumented, bind_eq_ok.mpr ⟨tHeader, hheader,
      rfl⟩⟩⟩⟩⟩⟩

theorem generateWasmBoundary_ok {isWord : Char → Bool} {policy : Policy}
    {source namespaceName : Str} {boundary : Boundary} {siteIdBase : Int} {out : WasmOutput}
    (h : generateWasmBoundary isWord policy source namespaceName boundary siteIdBase = .ok out) :
    WasmAccepted isWord policy source namespaceName boundary siteIdBase out := by
  obtain ⟨types, records, htypes, hknown, hknown', hrecords, hinstrumented, hheader, hu,
    himports⟩ := generateWasmBoundary_eq_ok.mp h
  obtain ⟨_, hhashes, hheader⟩ := bind_eq_ok.mp hheader
  obtain ⟨uses, huses, hheader⟩ := bind_eq_ok.mp hheader
  have hheader := Except.ok.inj hheader
  obtain rfl : types = allTypes policy boundary := composeTypes_eq_ok htypes
  obtain ⟨hlist, hcount, hprecise, hfits⟩ := siteRecords_eq_ok hrecords
  have hlist : records.1 = recordsFor policy boundary namespaceName siteIdBase := hlist
  have hmap : uses = policy.uses.map useConstantFor := by
    refine numbered_eq_map (fun k use c hc => ?_) huses
    obtain ⟨_, n, hn, _, rfl⟩ := useConstant_eq_ok hc
    cases hn
    rfl
  refine ⟨fun t ht => ?_, hprecise, hfits, (checkHashes_eq_ok.mp hhashes).1, fun use hu => ?_,
    hinstrumented, by rw [hu, hlist], ?_, by rw [himports, hlist]⟩
  · rcases List.mem_append.mp ht with ht | ht
    · obtain ⟨a, ha, rfl⟩ := List.mem_map.mp ht
      exact hknown a ha
    · obtain ⟨a, ha, rfl⟩ := List.mem_map.mp ht
      exact hknown' a ha
  · obtain ⟨i, hi, rfl⟩ := List.getElem_of_mem hu
    obtain ⟨c, _, hc⟩ := (numbered_eq_ok huses).2 i _ (List.getElem?_eq_getElem hi)
    exact mem_typeIds_keys.mp (useConstant_eq_ok hc).1
  · rw [wasmTHeaderFor, ← hlist, ← hheader, hmap, hcount]

/-! ### The label based generator -/

/-- What a run of `generate` has checked, the steps by which it gets to its text, and the
headers that it emits. -/
structure Generated (isWord : Char → Bool) (policy : Policy) (source : Str)
    (out : Str × UHeader × THeader) : Prop where
  distinct : (typeIds policy.types).entries.length = policy.types.length
  hashes : ((typeIds policy.types).keys.map hashType).Nodup
  known : ∀ a ∈ policy.allocations, a.type ∈ (typeIds policy.types).keys
  text : ∃ replaced marked,
    fold (fun t p => instrumentSite isWord t p.allocation p.site p.siteId) source
      (rewriteOrder (preciseSites 1 policy.allocations)) = .ok replaced ∧
    fold (markPreciseFunctionNoinline isWord) replaced
      (preciseFunctions (preciseSites 1 policy.allocations)) = .ok marked ∧
    fold (instrumentLegacy isWord) marked
      (policy.allocations.filter (fun a => a.site.isNone)) = .ok out.1
  uHeader : out.2.1 = ⟨typeMacros (typeIds policy.types), []⟩
  uses : numbered (fun _ use => useConstant (typeIds policy.types).keys use (declaredBytes use)) 0
    policy.uses = .ok out.2.2.uses
  tHeader : out.2.2 = ⟨defaultNamespace, typeConstants (typeIds policy.types),
    (preciseSites 1 policy.allocations).map (fun p => siteEntry p.siteId p.allocation),
    out.2.2.uses, [], []⟩

theorem generate_ok {isWord : Char → Bool} {policy : Policy} {source : Str}
    {out : Str × UHeader × THeader} (h : generate isWord policy source = .ok out) :
    Generated isWord policy source out := by
  obtain ⟨_, hlen, h⟩ := bind_eq_ok.mp h
  obtain ⟨_, hhashes, h⟩ := bind_eq_ok.mp h
  obtain ⟨_, hknown, h⟩ := bind_eq_ok.mp h
  obtain ⟨replaced, hreplaced, h⟩ := bind_eq_ok.mp h
  obtain ⟨marked, hmarked, h⟩ := bind_eq_ok.mp h
  obtain ⟨final, hfinal, h⟩ := bind_eq_ok.mp h
  obtain ⟨uses, huses, h⟩ := bind_eq_ok.mp h
  cases h
  rw [foldlM_eq_fold] at hreplaced hmarked hfinal
  exact {
    distinct := ensure_eq_ok.mp hlen
    hashes := (checkHashes_eq_ok.mp hhashes).1
    known := fun a ha => ensure_eq_ok.mp (forEach_eq_ok.mp hknown a ha)
    text := ⟨replaced, marked, hreplaced, hmarked, hfinal⟩
    uHeader := rfl
    uses := huses
    tHeader := rfl }

/-- The use that `prepare_policy` leaves. -/
def preparedUse (use : PolicyUse) : PolicyUse :=
  if use.dynamicBytes then { use with bytes := some 0 } else use

theorem prepareUse_eq_ok {use prepared : PolicyUse} (h : prepareUse use = .ok prepared) :
    prepared = preparedUse use := by
  unfold prepareUse at h
  unfold preparedUse
  by_cases hd : use.dynamicBytes = true
  · rw [if_pos hd] at h ⊢
    obtain ⟨_, _, h⟩ := bind_eq_ok.mp h
    cases h
    rfl
  · rw [if_neg hd] at h ⊢
    cases h
    rfl

theorem declaredBytes_eq_ok {use : PolicyUse} {n : Int} (h : declaredBytes use = .ok n) :
    use.bytes = some n := by
  unfold declaredBytes at h
  cases hb : use.bytes with
  | none => rw [hb] at h; cases h
  | some bytes => rw [hb] at h; cases h; rfl

/-- **The two generators emit the same constant for a use.**  The label based one
takes a fixed use only with its bytes. -/
theorem useConstant_preparedUse {known : List Str} {use : PolicyUse} {c : UseConstant}
    (h : useConstant known (preparedUse use) (declaredBytes (preparedUse use)) = .ok c) :
    (use.type ∈ known ∧ c = useConstantFor use) ∧
      (use.dynamicBytes = false → ∃ n, use.bytes = some n ∧ 0 ≤ n) := by
  obtain ⟨hknown, n, hn, hsign, rfl⟩ := useConstant_eq_ok h
  have hbytes := declaredBytes_eq_ok hn
  unfold preparedUse at hknown hbytes ⊢
  unfold useConstantFor wasmUseBytes
  by_cases hd : use.dynamicBytes = true
  · rw [if_pos hd] at hknown hbytes ⊢
    cases hbytes
    exact ⟨⟨hknown, by rw [if_pos hd]⟩, fun hf => nomatch hd.symm.trans hf⟩
  · rw [if_neg hd] at hknown hbytes ⊢
    exact ⟨⟨hknown, by rw [if_neg hd, hbytes]; rfl⟩, fun _ => ⟨n, hbytes, hsign⟩⟩

structure BoundaryAccepted (policy : Policy) (namespaceName : Str) (boundary : Boundary)
    (header : THeader) : Prop where
  nodup : (allTypes policy boundary).Nodup
  known : ∀ t ∈ declaredTypes policy boundary, t ∈ allTypes policy boundary
  hashes : ((typeIds (allTypes policy boundary)).keys.map hashType).Nodup
  usesKnown : ∀ use ∈ policy.uses, use.type ∈ allTypes policy boundary
  types : header.types = typeConstants (typeIds (allTypes policy boundary))
  sites : header.sites =
    (preciseSites 1 policy.allocations).map (fun p => siteEntry p.siteId p.allocation)
  helperSites : header.helperSites = boundary.helperSites.mapIdx (fun i helper =>
    helperEntry namespaceName
      ((policy.allocations.filter (fun a => a.site.isSome)).length + 1 + i) helper)
  uses : header.uses = policy.uses.map useConstantFor
  fixedBytes : ∀ use ∈ policy.uses, use.dynamicBytes = false → ∃ n, use.bytes = some n ∧ 0 ≤ n

/-- **A boundary is generated from the policy with the composed types and the prepared
uses**, and then gets its helper sites. -/
theorem generateBoundary_parts {isWord : Char → Bool} {policy : Policy}
    {source namespaceName : Str} {boundary : Boundary} {out : Str × UHeader × THeader}
    (h : generateBoundary isWord policy source namespaceName boundary = .ok out) :
    ∃ generated entries dynamicUses,
      Generated isWord { policy with
        types := allTypes policy boundary
        uses := policy.uses.map preparedUse } source generated ∧
      helperEntries (allTypes policy boundary) namespaceName
        (policy.allocations.filter (fun a => a.site.isSome)).length boundary.helperSites =
          .ok entries ∧
      out = (generated.1,
        { generated.2.1 with
          asmMacros := (boundary.helperSites.zip entries).flatMap
            (fun e => helperAsmMacros e.1 e.2) },
        { generated.2.2 with
          namespaceName := namespaceName
          helperSites := entries
          dynamicUses := dynamicUses }) := by
  obtain ⟨prepared, hprepared, h⟩ := bind_eq_ok.mp h
  obtain ⟨generated, hgenerated, h⟩ := bind_eq_ok.mp h
  obtain ⟨entries, hentries, h⟩ := bind_eq_ok.mp h
  cases h
  obtain ⟨types, htypes, hprepared⟩ := bind_eq_ok.mp hprepared
  obtain ⟨uses, huses, hprepared⟩ := bind_eq_ok.mp hprepared
  cases hprepared
  obtain rfl : types = allTypes policy boundary := composeTypes_eq_ok htypes
  obtain rfl : uses = policy.uses.map preparedUse :=
    numbered_eq_map (fun _ _ _ hb => prepareUse_eq_ok hb) huses
  exact ⟨generated, entries, _, generate_ok hgenerated, hentries, rfl⟩

theorem generateBoundary_ok {isWord : Char → Bool} {policy : Policy}
    {source namespaceName : Str} {boundary : Boundary} {out : Str × UHeader × THeader}
    (h : generateBoundary isWord policy source namespaceName boundary = .ok out) :
    BoundaryAccepted policy namespaceName boundary out.2.2 := by
  obtain ⟨generated, entries, dynamicUses, gen, hentries, rfl⟩ := generateBoundary_parts h
  have hconstants := (numbered_map _ preparedUse policy.uses 0).symm.trans gen.uses
  obtain ⟨hentries, _, _⟩ := numberedFresh_eq_ok hentries
  refine ⟨nodup_of_length_typeIds (by rw [Dict.keys, List.length_map]; exact gen.distinct),
    fun t ht => ?_, gen.hashes, fun use hu => ?_, congrArg THeader.types gen.tHeader,
    congrArg THeader.sites gen.tHeader, numbered_eq_mapIdx (fun k helper b hb => ?_) hentries,
    numbered_eq_map (fun k use c hc => ?_) hconstants, fun use hu => ?_⟩
  · rcases List.mem_append.mp ht with ht | ht
    · obtain ⟨a, ha, rfl⟩ := List.mem_map.mp ht
      exact mem_typeIds_keys.mp (gen.known a ha)
    · obtain ⟨a, ha, rfl⟩ := List.mem_map.mp ht
      obtain ⟨i, hi, rfl⟩ := List.getElem_of_mem ha
      obtain ⟨b, _, hb⟩ := (numbered_eq_ok hentries).2 i _ (List.getElem?_eq_getElem hi)
      obtain ⟨_, hb, _⟩ := bind_eq_ok.mp hb
      exact ensure_eq_ok.mp hb
  · obtain ⟨i, hi, rfl⟩ := List.getElem_of_mem hu
    obtain ⟨c, _, hc⟩ := (numbered_eq_ok hconstants).2 i _ (List.getElem?_eq_getElem hi)
    exact mem_typeIds_keys.mp (useConstant_preparedUse hc).1.1
  · obtain ⟨_, _, hb⟩ := bind_eq_ok.mp hb
    cases hb
    rfl
  · exact (useConstant_preparedUse hc).1.2
  · obtain ⟨i, hi, rfl⟩ := List.getElem_of_mem hu
    obtain ⟨c, _, hc⟩ := (numbered_eq_ok hconstants).2 i _ (List.getElem?_eq_getElem hi)
    exact (useConstant_preparedUse hc).2

end InterSpec.Tools
