import InterSpec.Tools.Generate

/-!
# The import based generator

`generate_wasm_boundary` of `tools/generate_wasm_boundary_policy.py`.  Each site
becomes an import of its own, and the trusted side of the import passes the
runtime id of the site, which is its local number shifted by a base.

* `runtimeSiteId`: the shifted number, which must fit `uint32_t`.
* `siteRecords`: one record for each precise allocation, then one for each helper.
* `generateWasmBoundary`: the instrumented source, the U header, the T header and
  the host imports.
-/

namespace InterSpec.Tools

open Fallible

/-! ### Site records -/

def maxSiteId : Int := 2 ^ 32 - 1

def cStem (namespaceName : Str) : Str := (symbol namespaceName).map Char.toLower

def importStem (namespaceName : Str) : Except PolicyError Str := do
  let value := cpp namespaceName
  ensure (value ≠ []) .emptyNamespace
  return value

/-- The import name, from the stem of the namespace. -/
def importName (stem : Str) (localSiteId : Nat) : Str :=
  "interspecWasmAlloc".toList ++ stem ++ "Site".toList ++ digits localSiteId

def siteImportName (namespaceName : Str) (localSiteId : Nat) : Except PolicyError Str := do
  let stem ← importStem namespaceName
  return importName stem localSiteId

def siteCName (namespaceName : Str) (localSiteId : Nat) : Str :=
  "interspec_wasm_alloc_".toList ++ cStem namespaceName ++ "_site_".toList ++ digits localSiteId

def allocMacro (name : Str) : Str := "INTERSPEC_SITE_".toList ++ macroName name ++ "_ALLOC".toList

def runtimeSiteId (siteIdBase : Int) (localSiteId : Nat) : Except PolicyError Int := do
  ensure (¬ (siteIdBase < 0 ∨ maxSiteId < siteIdBase)) .baseOutOfRange
  let siteId := siteIdBase + localSiteId
  ensure (¬ (siteId ≤ 0 ∨ maxSiteId < siteId)) .siteIdOverflow
  return siteId

structure SiteRecord where
  siteId : Int
  localSiteId : Nat
  type : Str
  importName : Str
  cName : Str
  helperName : Option Str
deriving DecidableEq, Repr

def siteRecord (namespaceName : Str) (siteIdBase : Int) (localSiteId : Nat) (type : Str)
    (helperName : Option Str) : Except PolicyError SiteRecord := do
  let siteId ← runtimeSiteId siteIdBase localSiteId
  let name ← siteImportName namespaceName localSiteId
  return ⟨siteId, localSiteId, type, name, siteCName namespaceName localSiteId, helperName⟩

/-- The records and the number of precise ones. -/
def siteRecords (policy : Policy) (boundary : Boundary) (namespaceName : Str) (siteIdBase : Int) :
    Except PolicyError (List SiteRecord × Nat) := do
  let precise ← numbered (fun localSiteId (allocation : PolicyAllocation) => do
    ensure (allocation.site.isSome = true) .noPreciseSite
    siteRecord namespaceName siteIdBase localSiteId allocation.type none) 1 policy.allocations
  let preciseCount := precise.length
  let helpers ← numberedFresh (fun helper : HelperSite => helper.name) .duplicateHelper
    (fun localSiteId helper =>
      siteRecord namespaceName siteIdBase localSiteId helper.type (some helper.name))
    [] (preciseCount + 1) boundary.helperSites
  return (precise ++ helpers, preciseCount)

/-! ### Headers -/

/-- An `extern` declaration with its import attribute, and the helper macro that calls it. -/
structure ImportDeclaration where
  cName : Str
  importName : Str
  helperMacro : Option Str
deriving DecidableEq, Repr

structure WasmUHeader where
  typeMacros : List (Str × Nat)
  imports : List ImportDeclaration
deriving DecidableEq, Repr

/-- A row `{siteId, kTypeId{typeIdent}, "importName", helper}`. -/
structure WasmSiteEntry where
  siteId : Int
  typeIdent : Str
  importName : Str
  helper : Bool
deriving DecidableEq, Repr

structure WasmTHeader where
  namespaceName : Str
  types : List TypeConstant
  siteIdBase : Int
  preciseCount : Nat
  helperCount : Nat
  sites : List WasmSiteEntry
  uses : List UseConstant
deriving DecidableEq, Repr

/-- `w2c_env_{importName}`, which passes `siteId`. -/
structure HostImport where
  importName : Str
  siteId : Int
deriving DecidableEq, Repr

def generateWasmUHeader (types : List Str) (records : List SiteRecord) : WasmUHeader where
  typeMacros := typeMacros (typeIds types)
  imports := records.map (fun r => ⟨r.cName, r.importName, r.helperName.map allocMacro⟩)

/-- A dynamic use is emitted with 0 bytes, and so is a use without bytes. -/
def wasmUseBytes (use : PolicyUse) : Int := if use.dynamicBytes then 0 else use.bytes.getD 0

def generateWasmTHeader (policy : Policy) (records : List SiteRecord) (preciseCount : Nat)
    (namespaceName : Str) (siteIdBase : Int) : Except PolicyError WasmTHeader := do
  let ids := typeIds policy.types
  checkHashes .empty ids.keys
  let uses ← numbered (fun _ use => useConstant ids.keys use (.ok (wasmUseBytes use))) 0 policy.uses
  return {
    namespaceName := namespaceName
    types := typeConstants ids
    siteIdBase := siteIdBase
    preciseCount := preciseCount
    helperCount := records.length - preciseCount
    sites := records.map (fun r => ⟨r.siteId, cpp r.type, r.importName, r.helperName.isSome⟩)
    uses := uses }

def generateHostImports (records : List SiteRecord) : List HostImport :=
  records.map (fun r => ⟨r.importName, r.siteId⟩)

/-! ### `generate_wasm_boundary` -/

def instrumentWasmSite (isWord : Char → Bool) (source : Str) (allocation : PolicyAllocation)
    (site : SourceSpan) (localSiteId : Nat) (namespaceName : Str) : Except PolicyError Str := do
  let anchor ← siteAnchor source site
  let call ← selectedCall isWord source allocation.function anchor
  let replacement := "(void*)(uintptr_t)".toList ++ siteCName namespaceName localSiteId ++
    "((uint32_t)(".toList ++ call.2.2 ++ "))".toList
  return source.take call.1 ++ replacement ++ source.drop call.2.1

structure WasmOutput where
  instrumented : Str
  uHeader : WasmUHeader
  tHeader : WasmTHeader
  hostImports : List HostImport
deriving DecidableEq, Repr

def generateWasmBoundary (isWord : Char → Bool) (policy : Policy) (source namespaceName : Str)
    (boundary : Boundary) (siteIdBase : Int) : Except PolicyError WasmOutput := do
  let types ← composeTypes policy.types boundary.types
  let composed := { policy with types := types }
  forEach (fun allocation => ensure (allocation.type ∈ types)
    (.unknownAllocationType allocation.type)) composed.allocations
  forEach (fun helper => ensure (helper.type ∈ types) (.unknownHelperType helper.type))
    boundary.helperSites
  let records ← siteRecords composed boundary namespaceName siteIdBase
  let instrumented ← (rewriteOrder (preciseSites 1 composed.allocations)).foldlM
    (fun source p => instrumentWasmSite isWord source p.allocation p.site p.siteId namespaceName)
    source
  let tHeader ← generateWasmTHeader composed records.1 records.2 namespaceName siteIdBase
  return {
    instrumented := instrumented
    uHeader := generateWasmUHeader types records.1
    tHeader := tHeader
    hostImports := generateHostImports records.1 }

end InterSpec.Tools
