import InterSpec.Runtime.Provenance
import InterSpec.Tools.TypeNames

/-!
# The authority of the imports

A module can allocate only through the imports that were generated for it, and
each import passes one site id.

* `TypeAuthority`, `type_authority_iff`: after the generated registrations every
  live record carries the id and the declared type of the site whose import
  started its chain, exactly when the numbers of the types fit 32 bits.
* `foreign_imports_denied`: where the site ids of two policies are apart, the
  imports of the one allocate nothing in a runtime of the other.
-/

namespace InterSpec.Tools

open InterSpec.Runtime

/-- A fresh runtime on which the two registration functions have run. -/
def WasmTPolicy.install (q : WasmTPolicy) (arenaBase arenaSize : UInt64) : Runtime :=
  (q.registerWasmAllocationPolicy (q.registerTypes (new arenaBase arenaSize)).1).1

theorem WasmTPolicy.sound_install (q : WasmTPolicy) (arenaBase arenaSize : UInt64) :
    Sound (q.install arenaBase arenaSize) :=
  sound_registerSiteIds _ (sound_registerTypes _ (sound_new arenaBase arenaSize))

theorem WasmTPolicy.install_empty (q : WasmTPolicy) (arenaBase arenaSize : UInt64) (p : UInt64) :
    (q.install arenaBase arenaSize).allocations.find p = none := by
  obtain ⟨siteTypes, hs⟩ := registerSiteIds_frame
    (q.sites.map (fun site => (site.siteId, site.typeId)))
    (q.registerTypes (new arenaBase arenaSize)).1
  obtain ⟨types, typeIds, ht⟩ := registerTypes_frame q.types true (new arenaBase arenaSize)
  have hins : q.install arenaBase arenaSize =
      { (q.registerTypes (new arenaBase arenaSize)).1 with siteTypes := siteTypes } := hs
  have hreg : (q.registerTypes (new arenaBase arenaSize)).1 =
      { new arenaBase arenaSize with types := types, typeIds := typeIds } := ht
  rw [hins, hreg]
  rfl

/-! ### Calls of the imports -/

theorem dispatch_registers {imports : List HostImport} {c : ImportCall} {op : Op}
    (h : dispatch imports c = some op) : op.registers = false := by
  cases c with
  | allocate name size =>
    obtain ⟨id, _, rfl⟩ := Option.map_eq_some_iff.mp h
    rfl
  | release ptr => cases h; rfl
  | size ptr => cases h; rfl
  | reallocate ptr newSize => cases h; rfl

theorem dispatched_registers {imports : List HostImport} {calls : List ImportCall} {ops : List Op}
    (h : calls.mapM (dispatch imports) = some ops) : ∀ op ∈ ops, op.registers = false := by
  intro op hop
  obtain ⟨k, hk, rfl⟩ := List.getElem_of_mem hop
  obtain ⟨c, _, hc⟩ := Fallible.mapM_getElem? h (List.getElem?_eq_getElem hk)
  exact dispatch_registers hc

theorem siteTypes_after {s : Runtime} (h : Sound s) {imports : List HostImport}
    {calls : List ImportCall} {ops : List Op} (hops : calls.mapM (dispatch imports) = some ops) :
    (s.after ops).siteTypes = s.siteTypes :=
  (sameRegistry_after h.layout (dispatched_registers hops)).siteTypes

theorem dispatch_fixedBy {s : Runtime} {imports : List HostImport} {c : ImportCall} {op : Op}
    {typeHash : UInt64} {siteId : SiteId} (hc : dispatch imports c = some op)
    (hf : FixedBy s op typeHash siteId) : ∃ name size, c = .allocate name size ∧
      hostSiteId imports name = some siteId ∧ s.siteTypes.find siteId = some typeHash := by
  cases c with
  | allocate name size =>
    obtain ⟨id, hid, rfl⟩ := Option.map_eq_some_iff.mp hc
    cases hf with
    | allocateFromSite hi => exact ⟨name, size, rfl, hid, hi⟩
  | release ptr => cases hc; cases hf
  | size ptr => cases hc; cases hf
  | reallocate ptr newSize => cases hc; cases hf

section Tables

variable {isWord : Char → Bool} {policy : Policy} {source namespaceName : Str}
  {boundary : Boundary} {siteIdBase : Int} {out : WasmOutput} {q : WasmTPolicy}

theorem WasmAccepted.siteNumbersFit
    (acc : WasmAccepted isWord policy source namespaceName boundary siteIdBase out) :
    SiteNumbersFit siteIdBase (declaredTypes policy boundary).length := by
  intro i hi
  obtain ⟨_, hpos, hmax, _⟩ := acc.fits i hi
  rw [maxSiteId] at hmax
  omega

/-- Row `i` of the T table, import `i` of the module and host import `i` are those
of declared site `i`. -/
theorem WasmAccepted.import_eq
    (acc : WasmAccepted isWord policy source namespaceName boundary siteIdBase out) {i : Nat}
    {type : Str} {helper : Option Str}
    (h : (declaredSites policy boundary)[i]? = some (type, helper)) :
    out.uHeader.imports[i]? = some ⟨siteCName namespaceName (i + 1),
      importName (cpp namespaceName) (i + 1), helper.map allocMacro⟩ ∧
    out.hostImports[i]? = some ⟨importName (cpp namespaceName) (i + 1),
      siteIdBase + (i + 1 : Nat)⟩ := by
  rw [acc.uHeader, acc.hostImports, generateWasmUHeader, generateHostImports, recordsFor,
    List.getElem?_map, List.getElem?_map, List.getElem?_mapIdx, h]
  exact ⟨rfl, rfl⟩

theorem WasmAccepted.hostSiteId_eq_some
    (acc : WasmAccepted isWord policy source namespaceName boundary siteIdBase out) {name : Str}
    {id : SiteId} (h : hostSiteId out.hostImports name = some id) :
    ∃ i site, (declaredSites policy boundary)[i]? = some site ∧
      name = importName (cpp namespaceName) (i + 1) ∧ id = siteNumber siteIdBase i := by
  obtain ⟨w, hw, rfl⟩ := Option.map_eq_some_iff.mp h
  have hfound := List.find?_some hw
  have hname : w.importName = name := of_decide_eq_true hfound
  have hmem := List.mem_of_find?_eq_some hw
  rw [acc.hostImports, generateHostImports] at hmem
  obtain ⟨r, hr, rfl⟩ := List.mem_map.mp hmem
  obtain ⟨i, hi, rfl⟩ := List.mem_mapIdx.mp hr
  exact ⟨i, _, List.getElem?_eq_getElem hi, hname.symm, rfl⟩

theorem declaredTypes_getElem? {i : Nat} {type : Str} {helper : Option Str}
    (h : (declaredSites policy boundary)[i]? = some (type, helper)) :
    (declaredTypes policy boundary)[i]? = some type := by
  rw [← declaredSites_map_fst, List.getElem?_map, h]
  rfl

theorem WasmAccepted.site_getElem?
    (acc : WasmAccepted isWord policy source namespaceName boundary siteIdBase out)
    (hq : out.tHeader.compile = some q) (j : Nat) :
    q.sites[j]?.map (fun row => row.siteId) =
      (declaredTypes policy boundary)[j]?.map (fun _ => siteNumber siteIdBase j) := by
  have htable := congrArg (fun l => l[j]?.map Prod.fst) (acc.compiled hq).2.1
  rw [List.getElem?_map, Option.map_map, siteTable, List.getElem?_mapIdx, Option.map_map] at htable
  exact htable

end Tables

/-! ### Type authority -/

/-- The record `a` carries the id of site `i`, and of no other, and the hash of the
type declared for it; and call `k` went to the import that stands for that site in
the instrumented source and in the macro of the helper. -/
structure OfSite (policy : Policy) (boundary : Boundary) (namespaceName : Str) (out : WasmOutput)
    (q : WasmTPolicy) (calls : List ImportCall) (k : Nat) (a : Allocation) (i : Nat) : Prop where
  declared : ∃ type helper declaration size,
    (declaredSites policy boundary)[i]? = some (type, helper) ∧
    out.uHeader.imports[i]? = some declaration ∧
    declaration.cName = siteCName namespaceName (i + 1) ∧
    declaration.helperMacro = helper.map allocMacro ∧
    calls[k]? = some (.allocate declaration.importName size) ∧
    a.typeHash = hashType type
  unique : ∀ j, q.sites[j]?.map (fun row => row.siteId) = some a.siteId ↔ j = i

/-- Both registrations succeed and bind one site for each declared one; and every
live record, after any calls of the imports, is of the site whose import started
its chain. -/
structure TypeAuthority (policy : Policy) (boundary : Boundary) (namespaceName : Str)
    (out : WasmOutput) (q : WasmTPolicy) (arenaBase arenaSize : UInt64) : Prop where
  types : (q.registerTypes (new arenaBase arenaSize)).2 = true
  sites : (q.registerWasmAllocationPolicy (q.registerTypes (new arenaBase arenaSize)).1).2 = true
  count : (q.install arenaBase arenaSize).allocationSiteCount =
    (declaredSites policy boundary).length
  bound : ∀ (i : Nat) (type : Str) (helper : Option Str),
    (declaredSites policy boundary)[i]? = some (type, helper) →
      ∃ row : WasmSitePolicy, q.sites[i]? = some row ∧
        (q.install arenaBase arenaSize).siteTypes.find row.siteId = some (hashType type)
  live : ∀ calls ops, calls.mapM (dispatch out.hostImports) = some ops → ∀ p a,
    ((q.install arenaBase arenaSize).after ops).allocations.find p = some a →
      ∃ k, chainStart (q.install arenaBase arenaSize) ops p = some k ∧
        ∃ i, OfSite policy boundary namespaceName out q calls k a i

section Tables

variable {isWord : Char → Bool} {policy : Policy} {source namespaceName : Str}
  {boundary : Boundary} {siteIdBase : Int} {out : WasmOutput} {q : WasmTPolicy}

theorem WasmAccepted.registerTypes_eq_true
    (acc : WasmAccepted isWord policy source namespaceName boundary siteIdBase out)
    (hq : out.tHeader.compile = some q) (arenaBase arenaSize : UInt64) :
    (q.registerTypes (new arenaBase arenaSize)).2 = true ↔
      TypeNumbersFit (allTypes policy boundary) := by
  rw [WasmTPolicy.registerTypes, (acc.compiled hq).1]
  exact registerTypes_typePairs acc.hashes arenaBase arenaSize

theorem WasmAccepted.find_types
    (acc : WasmAccepted isWord policy source namespaceName boundary siteIdBase out)
    (hq : out.tHeader.compile = some q) {arenaBase arenaSize : UInt64}
    (ht : (q.registerTypes (new arenaBase arenaSize)).2 = true) :
    ∀ name ∈ allTypes policy boundary, (q.registerTypes (new arenaBase arenaSize)).1.types.find
      (typeNumber (allTypes policy boundary) name) = some (hashType name) := by
  intro name hname
  rw [WasmTPolicy.registerTypes, (acc.compiled hq).1] at ht ⊢
  exact find_typeNumber ht hname

theorem WasmAccepted.installed
    (acc : WasmAccepted isWord policy source namespaceName boundary siteIdBase out)
    (hq : out.tHeader.compile = some q) {arenaBase arenaSize : UInt64}
    (ht : (q.registerTypes (new arenaBase arenaSize)).2 = true) :
    (q.registerWasmAllocationPolicy (q.registerTypes (new arenaBase arenaSize)).1).2 = true ∧
    (q.install arenaBase arenaSize).siteTypes.size = (declaredTypes policy boundary).length ∧
    ∀ id k, (q.install arenaBase arenaSize).siteTypes.find id = some k ↔
      ∃ i name, (declaredTypes policy boundary)[i]? = some name ∧
        id = siteNumber siteIdBase i ∧ k = hashType name := by
  obtain ⟨-, hsites, _⟩ := acc.compiled hq
  have hempty : (q.registerTypes (new arenaBase arenaSize)).1.siteTypes = .empty := by
    obtain ⟨types, typeIds, he⟩ := registerTypes_frame q.types true (new arenaBase arenaSize)
    exact congrArg Runtime.siteTypes he
  have hnone : ∀ id, (q.registerTypes (new arenaBase arenaSize)).1.siteTypes.find id = none := by
    intro id
    rw [hempty]
    rfl
  have hzero : (q.registerTypes (new arenaBase arenaSize)).1.siteTypes.size = 0 := by
    rw [hempty]
    rfl
  have hfind := acc.find_types hq ht
  have hready := readySites_siteTable acc.known acc.siteNumbersFit hfind hnone
  rw [← hsites] at hready
  obtain ⟨hok, hholds⟩ := registerSiteIds_spec _ _ hready
  rw [hsites] at hholds
  refine ⟨hok, ?_, fun id k => ?_⟩
  · have hsize := hholds.size
    rw [hzero, length_siteTable, Nat.zero_add] at hsize
    rw [← hsize, ← hsites]
    rfl
  · rw [← find_of_holdsSites hholds acc.known hfind hnone, ← hsites]
    rfl

/-- A live record is of the site whose import started its chain. -/
theorem WasmAccepted.ofSite
    (acc : WasmAccepted isWord policy source namespaceName boundary siteIdBase out)
    (hq : out.tHeader.compile = some q) {arenaBase arenaSize : UInt64}
    (ht : (q.registerTypes (new arenaBase arenaSize)).2 = true) {calls : List ImportCall}
    {ops : List Op} (hops : calls.mapM (dispatch out.hostImports) = some ops) {p : UInt64}
    {a : Allocation}
    (hp : ((q.install arenaBase arenaSize).after ops).allocations.find p = some a) :
    ∃ k, chainStart (q.install arenaBase arenaSize) ops p = some k ∧
      ∃ i, OfSite policy boundary namespaceName out q calls k a i := by
  have hsound := q.sound_install arenaBase arenaSize
  obtain ⟨k, hk, op, hop, hfix⟩ :=
    chainStart_spec hsound (q.install_empty arenaBase arenaSize) ops p a hp
  obtain ⟨c, hcall, hc⟩ := Fallible.mapM_getElem? hops hop
  obtain ⟨name, size, rfl, hid, htype⟩ := dispatch_fixedBy hc hfix
  -- the sites are still those that were registered
  have htaken : ((q.install arenaBase arenaSize).after (ops.take k)).siteTypes =
      (q.install arenaBase arenaSize).siteTypes :=
    (sameRegistry_after hsound.layout
      (fun op hop => dispatched_registers hops op (List.mem_of_mem_take hop))).siteTypes
  rw [htaken] at htype
  obtain ⟨i, ⟨type, helper⟩, hsite, hname, hnum⟩ := acc.hostSiteId_eq_some hid
  have hi := declaredTypes_getElem? hsite
  have hlt : i < (declaredTypes policy boundary).length := (List.getElem?_eq_some_iff.mp hi).1
  obtain ⟨j, name', hj, hnum', hhash⟩ := ((acc.installed hq ht).2.2 _ _).mp htype
  obtain rfl : i = j := siteNumber_injective acc.siteNumbersFit hlt
    (List.getElem?_eq_some_iff.mp hj).1 (hnum.symm.trans hnum')
  obtain rfl : type = name' := Option.some.inj (hi.symm.trans hj)
  obtain ⟨himport, _⟩ := acc.import_eq hsite
  refine ⟨k, hk, i, ⟨type, helper, _, size, hsite, himport, rfl, rfl, ?_, hhash⟩, fun l => ?_⟩
  · rw [hcall, hname]
  · rw [acc.site_getElem? hq, hnum]
    constructor
    · intro hl
      obtain ⟨name', hget, heq⟩ := Option.map_eq_some_iff.mp hl
      exact siteNumber_injective acc.siteNumbersFit (List.getElem?_eq_some_iff.mp hget).1 hlt heq
    · rintro rfl
      rw [hi]
      rfl

end Tables

/-- **The imports of a policy carry its type authority exactly when the numbers of
its types fit 32 bits.** -/
theorem type_authority_iff {isWord : Char → Bool} {policy : Policy} {source namespaceName : Str}
    {boundary : Boundary} {siteIdBase : Int} {out : WasmOutput} {q : WasmTPolicy}
    (h : generateWasmBoundary isWord policy source namespaceName boundary siteIdBase = .ok out)
    (hq : out.tHeader.compile = some q) (arenaBase arenaSize : UInt64) :
    TypeAuthority policy boundary namespaceName out q arenaBase arenaSize ↔
      TypeNumbersFit (allTypes policy boundary) := by
  have acc := generateWasmBoundary_ok h
  refine ⟨fun hauth => (acc.registerTypes_eq_true hq arenaBase arenaSize).mp hauth.types,
    fun hfit => ?_⟩
  have ht := (acc.registerTypes_eq_true hq arenaBase arenaSize).mpr hfit
  obtain ⟨hsites, hsize, hfind⟩ := acc.installed hq ht
  exact {
    types := ht
    sites := hsites
    count := by
      rw [length_declaredSites]
      exact hsize
    bound := fun i type helper hi => by
      have hget := acc.site_getElem? hq i
      have htype := declaredTypes_getElem? hi
      rw [htype] at hget
      obtain ⟨row, hrow, hid⟩ := Option.map_eq_some_iff.mp hget
      exact ⟨row, hrow, (hfind _ _).mpr ⟨i, type, htype, hid, rfl⟩⟩
    live := fun calls ops hops p a hp => acc.ofSite hq ht hops hp }

/-- One allocation in the source. -/
def nodePolicy : Policy :=
  ⟨["node".toList], [⟨"make".toList, "node".toList, some ⟨1, 25, 1, 33⟩⟩], []⟩

def nodeSource : Str := "void *make(void){return malloc(8);}".toList

/-- One helper, with a type of its own. -/
def bufferBoundary : Boundary := ⟨["buffer".toList], [⟨"grab".toList, "buffer".toList⟩]⟩

/-- The authority of a source allocation and a helper. -/
theorem type_authority_node : ∃ (out : WasmOutput) (q : WasmTPolicy),
    generateWasmBoundary asciiWord nodePolicy nodeSource "interspec::node".toList bufferBoundary 0 =
      .ok out ∧
    out.tHeader.compile = some q ∧
    TypeAuthority nodePolicy bufferBoundary "interspec::node".toList out q 0x1000 0x100 := by
  obtain ⟨out, h, q, hq⟩ : ∃ out, generateWasmBoundary asciiWord nodePolicy nodeSource
      "interspec::node".toList bufferBoundary 0 = .ok out ∧ ∃ q, out.tHeader.compile = some q :=
    ⟨_, rfl, _, rfl⟩
  exact ⟨out, q, h, hq,
    (type_authority_iff h hq 0x1000 0x100).mpr (typeNumbersFit_of_lt (by decide))⟩

theorem not_typeNumbersFit_typeNames : ¬ TypeNumbersFit (typeNames (2 ^ 32)) := by
  have hgood : GoodNames (typeNames (2 ^ 32)) := goodNames_typeNames (by decide)
  rw [typeNumbersFit_iff_lt hgood.nodup, length_typeNames]
  exact lt_irrefl _

/-- **`2 ^ 32` types.**  The policy is accepted and its header compiles, but a fresh
runtime refuses to register its types. -/
theorem too_many_types_refused : ∃ (out : WasmOutput) (q : WasmTPolicy),
    generateWasmBoundary asciiWord (typesPolicy (typeNames (2 ^ 32))) [] "interspec::node".toList
      noBoundary 0 = .ok out ∧
    out.tHeader.compile = some q ∧
    (q.registerTypes (new 0x1000 0x100)).2 = false ∧
    ¬ TypeAuthority (typesPolicy (typeNames (2 ^ 32))) noBoundary "interspec::node".toList out q
      0x1000 0x100 := by
  have hgood : GoodNames (typeNames (2 ^ 32)) := goodNames_typeNames (by decide)
  obtain ⟨out, q, h, hq⟩ :=
    generateWasmBoundary_typesPolicy asciiWord hgood [] "interspec::node".toList 0
  have hrefused : ¬ (q.registerTypes (new 0x1000 0x100)).2 = true := by
    rw [(generateWasmBoundary_ok h).registerTypes_eq_true hq, allTypes_typesPolicy]
    exact not_typeNumbersFit_typeNames
  exact ⟨out, q, h, hq, Bool.eq_false_iff.mpr hrefused, fun hauth => hrefused hauth.types⟩

/-! ### Site ids of two policies -/

section Apart

variable {isWord : Char → Bool} {policy policyB : Policy}
  {source namespaceName sourceB namespaceNameB : Str} {boundary boundaryB : Boundary}
  {siteIdBase siteIdBaseB : Int} {out outB : WasmOutput} {q : WasmTPolicy}

/-- `id` lies in the interval of the site ids of a policy. -/
def InInterval (siteIdBase : Int) (policy : Policy) (boundary : Boundary) (id : Int) : Prop :=
  siteIdBase + 1 ≤ id ∧ id ≤ siteIdBase + (declaredSites policy boundary).length

theorem WasmAccepted.siteIds
    (acc : WasmAccepted isWord policy source namespaceName boundary siteIdBase out) :
    out.hostImports.map (fun w => w.siteId) = out.tHeader.sites.map (fun row => row.siteId) ∧
    out.tHeader.sites.map (fun row => row.siteId) =
      (declaredSites policy boundary).mapIdx (fun i _ => siteIdBase + (i + 1 : Nat)) := by
  rw [acc.hostImports, acc.tHeader, generateHostImports, wasmTHeaderFor, List.map_map,
    List.map_map, recordsFor, Fallible.map_mapIdx, Fallible.map_mapIdx]
  exact ⟨rfl, rfl⟩

theorem WasmAccepted.siteId_mem
    (acc : WasmAccepted isWord policy source namespaceName boundary siteIdBase out) {id : Int}
    (h : id ∈ out.tHeader.sites.map (fun row => row.siteId)) :
    InInterval siteIdBase policy boundary id ∧ 0 < id ∧ id < 2 ^ 32 := by
  rw [acc.siteIds.2] at h
  obtain ⟨i, hi, rfl⟩ := List.mem_mapIdx.mp h
  have hfit := acc.siteNumbersFit i (by rwa [← length_declaredSites])
  refine ⟨⟨?_, ?_⟩, hfit⟩ <;> omega

theorem WasmAccepted.nodup_siteIds
    (acc : WasmAccepted isWord policy source namespaceName boundary siteIdBase out) :
    (out.tHeader.sites.map (fun row => row.siteId)).Nodup := by
  rw [acc.siteIds.2, List.nodup_iff_getElem?_ne_getElem?]
  intro i j hij hj hget
  rw [List.length_mapIdx] at hj
  rw [List.getElem?_mapIdx, List.getElem?_mapIdx, List.getElem?_eq_getElem hj,
    List.getElem?_eq_getElem (by omega)] at hget
  have heq : siteIdBase + (i + 1 : Nat) = siteIdBase + (j + 1 : Nat) := Option.some.inj hget
  omega

theorem nodup_siteIds_append
    (accA : WasmAccepted isWord policy source namespaceName boundary siteIdBase out)
    (accB : WasmAccepted isWord policyB sourceB namespaceNameB boundaryB siteIdBaseB outB)
    (hapart : ∀ id, InInterval siteIdBase policy boundary id →
      ¬ InInterval siteIdBaseB policyB boundaryB id) :
    ((out.tHeader.sites ++ outB.tHeader.sites).map (fun row => row.siteId)).Nodup := by
  rw [List.map_append, List.nodup_append]
  refine ⟨accA.nodup_siteIds, accB.nodup_siteIds, fun a ha b hb hab => ?_⟩
  have hb := (accB.siteId_mem hb).1
  rw [← hab] at hb
  exact hapart a (accA.siteId_mem ha).1 hb

/-- Registering a policy binds none of the sites of a policy apart from it, even
when a registration is refused. -/
theorem install_foreign
    (accB : WasmAccepted isWord policyB sourceB namespaceNameB boundaryB siteIdBaseB outB)
    (hq : outB.tHeader.compile = some q) {id : Int} (h0 : 0 < id) (h32 : id < 2 ^ 32)
    (hid : ¬ InInterval siteIdBaseB policyB boundaryB id) (arenaBase arenaSize : UInt64) :
    (q.install arenaBase arenaSize).siteTypes.find (UInt32.ofInt id) = none := by
  have hother : UInt32.ofInt id ∉
      (q.sites.map (fun site => (site.siteId, site.typeId))).map Prod.fst := by
    intro hmem
    rw [(accB.compiled hq).2.1] at hmem
    obtain ⟨e, he, heq⟩ := List.mem_map.mp hmem
    obtain ⟨i, name, hget, rfl⟩ := mem_siteTable.mp he
    have hlt := (List.getElem?_eq_some_iff.mp hget).1
    have hfit := accB.siteNumbersFit i hlt
    have heq : siteIdBaseB + (i + 1 : Nat) = id :=
      Word.ofInt_injective ⟨hfit.1.le, hfit.2⟩ ⟨h0.le, h32⟩ heq
    rw [← length_declaredSites] at hlt
    exact hid ⟨by omega, by omega⟩
  obtain ⟨types, typeIds, he⟩ := registerTypes_frame q.types true (new arenaBase arenaSize)
  have he : (q.registerTypes (new arenaBase arenaSize)).1 = _ := he
  rw [WasmTPolicy.install, WasmTPolicy.registerWasmAllocationPolicy,
    registerSiteIds_other hother, he]
  rfl

theorem import_denied
    (accA : WasmAccepted isWord policy source namespaceName boundary siteIdBase out)
    (accB : WasmAccepted isWord policyB sourceB namespaceNameB boundaryB siteIdBaseB outB)
    (hapart : ∀ id, InInterval siteIdBase policy boundary id →
      ¬ InInterval siteIdBaseB policyB boundaryB id)
    (hq : outB.tHeader.compile = some q) (arenaBase arenaSize : UInt64) {calls : List ImportCall}
    {ops : List Op} (hops : calls.mapM (dispatch outB.hostImports) = some ops) {w : HostImport}
    (hw : w ∈ out.hostImports) (size : UInt64) :
    ∃ op, dispatch out.hostImports (.allocate w.importName size) = some op ∧
      step ((q.install arenaBase arenaSize).after ops) op =
        ((q.install arenaBase arenaSize).after ops, .word 0) := by
  have hsome : (out.hostImports.find? (fun v => decide (v.importName = w.importName))).isSome := by
    rw [List.find?_isSome]
    exact ⟨w, hw, decide_eq_true rfl⟩
  obtain ⟨v, hv⟩ := Option.isSome_iff_exists.mp hsome
  have hmem : v.siteId ∈ out.tHeader.sites.map (fun row => row.siteId) := by
    rw [← accA.siteIds.1]
    exact List.mem_map_of_mem (List.mem_of_find?_eq_some hv)
  obtain ⟨hin, h0, h32⟩ := accA.siteId_mem hmem
  refine ⟨.allocateFromSite size (UInt32.ofInt v.siteId), by rw [dispatch, hostSiteId, hv]; rfl, ?_⟩
  have hnone := install_foreign accB hq h0 h32 (hapart _ hin) arenaBase arenaSize
  rw [← siteTypes_after (q.sound_install arenaBase arenaSize) hops] at hnone
  show ((allocateFromSite _ size _).1, Ret.word (allocateFromSite _ size _).2) = _
  rw [allocateFromSite_of_none hnone]

/-! ### Another base -/

/-- The T header with its base and the ids of its table shifted. -/
def WasmTHeader.shift (d : Int) (header : WasmTHeader) : WasmTHeader :=
  { header with
      siteIdBase := header.siteIdBase + d
      sites := header.sites.map (fun row => { row with siteId := row.siteId + d }) }

def HostImport.shift (d : Int) (w : HostImport) : HostImport := { w with siteId := w.siteId + d }

def SiteRecord.shift (d : Int) (r : SiteRecord) : SiteRecord := { r with siteId := r.siteId + d }

theorem recordsFor_shift (policy : Policy) (boundary : Boundary) (namespaceName : Str)
    (siteIdBase siteIdBaseB : Int) : recordsFor policy boundary namespaceName siteIdBaseB =
      (recordsFor policy boundary namespaceName siteIdBase).map
        (SiteRecord.shift (siteIdBaseB - siteIdBase)) := by
  rw [recordsFor, recordsFor, Fallible.map_mapIdx, List.mapIdx_eq_mapIdx_iff]
  intro i _
  rw [SiteRecord.shift, recordFor, recordFor]
  congr 1
  show siteIdBaseB + (i + 1 : Nat) = siteIdBase + (i + 1 : Nat) + (siteIdBaseB - siteIdBase)
  omega

/-- **Another base shifts the site ids and changes nothing else.** -/
theorem WasmAccepted.shift
    (acc : WasmAccepted isWord policy source namespaceName boundary siteIdBase out)
    (accB : WasmAccepted isWord policy source namespaceName boundary siteIdBaseB outB) :
    outB.instrumented = out.instrumented ∧ outB.uHeader = out.uHeader ∧
      outB.tHeader = out.tHeader.shift (siteIdBaseB - siteIdBase) ∧
      outB.hostImports = out.hostImports.map (HostImport.shift (siteIdBaseB - siteIdBase)) := by
  refine ⟨?_, ?_, ?_, ?_⟩
  · exact Except.ok.inj (accB.instrumented.symm.trans acc.instrumented)
  · rw [accB.uHeader, acc.uHeader, recordsFor_shift policy boundary namespaceName siteIdBase,
      generateWasmUHeader, List.map_map]
    rfl
  · rw [accB.tHeader, acc.tHeader, wasmTHeaderFor,
      recordsFor_shift policy boundary namespaceName siteIdBase, List.length_map, List.map_map,
      WasmTHeader.shift, wasmTHeaderFor, List.map_map]
    dsimp only
    congr 1
    omega
  · rw [accB.hostImports, acc.hostImports,
      recordsFor_shift policy boundary namespaceName siteIdBase, generateHostImports,
      generateHostImports, List.map_map, List.map_map]
    rfl

end Apart

/-- **Site ids of another policy are worth nothing.**  Where the intervals of two
policies are apart, their site ids are different 32-bit numbers, the imports of
the first are refused in every state that the imports of the second can reach
from its registration, and moving a policy to another base shifts its ids and
changes nothing else. -/
theorem foreign_imports_denied {isWord : Char → Bool} {policyA policyB : Policy}
    {sourceA namespaceA sourceB namespaceB : Str} {boundaryA boundaryB : Boundary}
    {baseA baseB : Int} {outA outB : WasmOutput}
    (hA : generateWasmBoundary isWord policyA sourceA namespaceA boundaryA baseA = .ok outA)
    (hB : generateWasmBoundary isWord policyB sourceB namespaceB boundaryB baseB = .ok outB)
    (hapart : ∀ id, InInterval baseA policyA boundaryA id →
      ¬ InInterval baseB policyB boundaryB id) :
    (((outA.tHeader.sites ++ outB.tHeader.sites).map (fun row => row.siteId)).Nodup ∧
      (∀ row ∈ outA.tHeader.sites ++ outB.tHeader.sites, 0 < row.siteId ∧ row.siteId < 2 ^ 32) ∧
      outA.hostImports.map (fun w => w.siteId) =
        outA.tHeader.sites.map (fun row => row.siteId) ∧
      outB.hostImports.map (fun w => w.siteId) =
        outB.tHeader.sites.map (fun row => row.siteId)) ∧
    (∀ q, outB.tHeader.compile = some q → ∀ arenaBase arenaSize (calls : List ImportCall) ops,
      calls.mapM (dispatch outB.hostImports) = some ops → ∀ w ∈ outA.hostImports, ∀ size,
        ∃ op, dispatch outA.hostImports (.allocate w.importName size) = some op ∧
          step ((q.install arenaBase arenaSize).after ops) op =
            ((q.install arenaBase arenaSize).after ops, .word 0)) ∧
    ∀ base out, generateWasmBoundary isWord policyA sourceA namespaceA boundaryA base = .ok out →
      out.instrumented = outA.instrumented ∧ out.uHeader = outA.uHeader ∧
        out.tHeader = outA.tHeader.shift (base - baseA) ∧
        out.hostImports = outA.hostImports.map (HostImport.shift (base - baseA)) := by
  have accA := generateWasmBoundary_ok hA
  have accB := generateWasmBoundary_ok hB
  refine ⟨⟨nodup_siteIds_append accA accB hapart, fun row hrow => ?_, accA.siteIds.1,
    accB.siteIds.1⟩, fun q hq arenaBase arenaSize calls ops hops w hw size =>
      import_denied accA accB hapart hq arenaBase arenaSize hops hw size,
    fun base out h => accA.shift (generateWasmBoundary_ok h)⟩
  rcases List.mem_append.mp hrow with hrow | hrow
  · exact (accA.siteId_mem (List.mem_map_of_mem hrow)).2
  · exact (accB.siteId_mem (List.mem_map_of_mem hrow)).2

/-- One policy under two names, with two ids each: the call of the first helper is
refused where the second one has allocated. -/
theorem foreign_helper_denied : ∃ (outA outB : WasmOutput) (q : WasmTPolicy) (ops : List Op)
    (w : HostImport),
    generateWasmBoundary asciiWord nodePolicy nodeSource "interspec::node".toList bufferBoundary 0 =
      .ok outA ∧
    generateWasmBoundary asciiWord nodePolicy nodeSource "interspec::other".toList bufferBoundary
      2 = .ok outB ∧
    outB.tHeader.compile = some q ∧
    [ImportCall.allocate "interspecWasmAllocInterspecOtherSite1".toList 8].mapM
      (dispatch outB.hostImports) = some ops ∧
    outA.hostImports[1]? = some w ∧
    ∃ op, dispatch outA.hostImports (.allocate w.importName 8) = some op ∧
      step ((q.install 0x1000 0x100).after ops) op =
        ((q.install 0x1000 0x100).after ops, .word 0) := by
  obtain ⟨outA, hA, w, hw⟩ : ∃ outA, generateWasmBoundary asciiWord nodePolicy nodeSource
      "interspec::node".toList bufferBoundary 0 = .ok outA ∧ ∃ w, outA.hostImports[1]? = some w :=
    ⟨_, rfl, _, rfl⟩
  obtain ⟨outB, hB, q, hq, ops, hops⟩ : ∃ outB, generateWasmBoundary asciiWord nodePolicy
      nodeSource "interspec::other".toList bufferBoundary 2 = .ok outB ∧
      ∃ q, outB.tHeader.compile = some q ∧
        ∃ ops, [ImportCall.allocate "interspecWasmAllocInterspecOtherSite1".toList 8].mapM
          (dispatch outB.hostImports) = some ops := ⟨_, rfl, _, rfl, _, rfl⟩
  have hapart : ∀ id, InInterval 0 nodePolicy bufferBoundary id →
      ¬ InInterval 2 nodePolicy bufferBoundary id := by
    intro id hid hid'
    have hle : id ≤ 0 + 2 := hid.2
    have hge : 2 + 1 ≤ id := hid'.1
    omega
  exact ⟨outA, outB, q, ops, w, hA, hB, hq, hops, hw,
    (foreign_imports_denied hA hB hapart).2.1 q hq 0x1000 0x100 _ ops hops w
      (List.mem_of_getElem? hw) 8⟩

end InterSpec.Tools
