import InterSpec.Tools.Numbering
import InterSpec.Tools.Source

/-!
# The label based generator

`generate` of `tools/generate_policy.py` and `generate_boundary` of
`tools/generate_boundary_policy.py`.  A header is kept as the data in it: the
constants, the table rows and the names it emits.  The text around them is the
same for every policy and is left out, and so is the search for the marker that
closes the namespace, which the emitted text always has.

* `generate`: the instrumented source, the `#define`s of the type ids, and the
  T policy with the sites that have a source span.
* `generateBoundary`: the same for the policy composed with a boundary, with the
  helper sites numbered after the precise ones.
-/

namespace InterSpec.Tools

open Fallible

/-! ### Headers -/

/-- `constexpr TypeId kTypeId{ident} = {id};` and
`constexpr uint64_t kTypeHash{ident} = UINT64_C({hash});`. -/
structure TypeConstant where
  ident : Str
  id : Nat
  hash : UInt64
deriving DecidableEq, Repr

/-- A row `{siteId, kTypeId{typeIdent}, "beginSymbol", "endSymbol"}` of a table of sites. -/
structure SiteEntry where
  siteId : Nat
  typeIdent : Str
  beginSymbol : Str
  endSymbol : Str
deriving DecidableEq, Repr

/-- `constexpr AccessPolicy kUse{ident}{kTypeHash{typeIdent}, offset, bytes};`. -/
structure UseConstant where
  ident : Str
  typeIdent : Str
  offset : Nat
  bytes : Nat
deriving DecidableEq, Repr

/-- `#define name value` for a type id, or a macro with an assembler text. -/
structure UHeader where
  typeMacros : List (Str × Nat)
  asmMacros : List (Str × Str)
deriving DecidableEq, Repr

structure THeader where
  namespaceName : Str
  types : List TypeConstant
  sites : List SiteEntry
  uses : List UseConstant
  helperSites : List SiteEntry
  dynamicUses : List Str
deriving DecidableEq, Repr

def typeConstants (ids : Dict Str Nat) : List TypeConstant :=
  ids.entries.map (fun entry => ⟨cpp entry.1, entry.2, hashType entry.1⟩)

def typeMacros (ids : Dict Str Nat) : List (Str × Nat) :=
  ids.entries.map (fun entry => ("INTERSPEC_TYPE_ID_".toList ++ macroName entry.1, entry.2))

/-- The constant of a use of `size` bytes. -/
def useConstant (known : List Str) (use : PolicyUse) (size : Except PolicyError Int) :
    Except PolicyError UseConstant := do
  ensure (use.type ∈ known) (.unknownUseType use.type)
  let size ← size
  ensure (¬ (use.offset < 0 ∨ size < 0)) (.negativeRange use.name)
  return ⟨cpp use.name, cpp use.type, use.offset.toNat, size.toNat⟩

/-! ### `generate` -/

/-- `int(use["bytes"])`. -/
def declaredBytes (use : PolicyUse) : Except PolicyError Int :=
  match use.bytes with
  | some bytes => .ok bytes
  | none => .error .missingBytes

def siteEntry (siteId : Nat) (allocation : PolicyAllocation) : SiteEntry where
  siteId := siteId
  typeIdent := cpp allocation.type
  beginSymbol := (siteSymbols allocation siteId).1
  endSymbol := (siteSymbols allocation siteId).2

/-- The functions with a precise site, sorted, each once. -/
def preciseFunctions (sites : List PreciseSite) : List Str :=
  (sites.map (fun p => p.allocation.function)).dedup.insertionSort (· ≤ ·)

def defaultNamespace : Str := "interspec::generated".toList

def generate (isWord : Char → Bool) (policy : Policy) (source : Str) :
    Except PolicyError (Str × UHeader × THeader) := do
  let ids := typeIds policy.types
  ensure (ids.entries.length = policy.types.length) .duplicateType
  checkHashes .empty ids.keys
  forEach (fun allocation => ensure (allocation.type ∈ ids.keys)
    (.unknownAllocationType allocation.type)) policy.allocations
  let precise := preciseSites 1 policy.allocations
  let legacy := policy.allocations.filter (fun allocation => allocation.site.isNone)
  let source ← (rewriteOrder precise).foldlM
    (fun source p => instrumentSite isWord source p.allocation p.site p.siteId) source
  let source ← (preciseFunctions precise).foldlM (markPreciseFunctionNoinline isWord) source
  let source ← legacy.foldlM (instrumentLegacy isWord) source
  let uses ← numbered (fun _ use => useConstant ids.keys use (declaredBytes use)) 0 policy.uses
  return (source, ⟨typeMacros ids, []⟩,
    ⟨defaultNamespace, typeConstants ids, precise.map (fun p => siteEntry p.siteId p.allocation),
      uses, [], []⟩)

/-! ### `generate_boundary` -/

/-- A dynamic use gets no bytes. -/
def prepareUse (use : PolicyUse) : Except PolicyError PolicyUse :=
  if use.dynamicBytes then do
    ensure (use.bytes.getD 0 = 0) (.dynamicWithBytes use.name)
    return { use with bytes := some 0 }
  else .ok use

/-- The composed policy and the names of its dynamic uses. -/
def preparePolicy (policy : Policy) (boundary : Boundary) :
    Except PolicyError (Policy × List Str) := do
  let types ← composeTypes policy.types boundary.types
  let uses ← numbered (fun _ use => prepareUse use) 0 policy.uses
  return ({ policy with types := types, uses := uses },
    (uses.filter (fun use => use.dynamicBytes)).map (fun use => use.name))

/-- Helper labels carry the namespace: they are global to the linked module. -/
def helperSymbols (namespaceName name : Str) (siteId : Nat) : Str × Str :=
  let stem := "interspec_alloc_site_".toList ++ symbol namespaceName ++ "_".toList ++
    symbol name ++ "_".toList ++ digits siteId
  (stem ++ "_begin".toList, stem ++ "_end".toList)

def helperEntry (namespaceName : Str) (siteId : Nat) (helper : HelperSite) : SiteEntry where
  siteId := siteId
  typeIdent := cpp helper.type
  beginSymbol := (helperSymbols namespaceName helper.name siteId).1
  endSymbol := (helperSymbols namespaceName helper.name siteId).2

def labelMacro (name suffix : Str) : Str :=
  "INTERSPEC_SITE_".toList ++ macroName name ++ "_".toList ++ suffix

/-- The two macros with which the helper marks its site. -/
def helperAsmMacros (helper : HelperSite) (entry : SiteEntry) : List (Str × Str) :=
  [(labelMacro helper.name "BEGIN".toList, exportedLabelAsm entry.beginSymbol),
    (labelMacro helper.name "END".toList, exportedLabelAsm entry.endSymbol)]

def helperEntries (known : List Str) (namespaceName : Str) (preciseCount : Nat)
    (helpers : List HelperSite) : Except PolicyError (List SiteEntry) :=
  numberedFresh (fun helper : HelperSite => helper.name) .duplicateHelper
    (fun siteId helper => do
      ensure (helper.type ∈ known) (.unknownHelperType helper.type)
      return helperEntry namespaceName siteId helper) [] (preciseCount + 1) helpers

def generateBoundary (isWord : Char → Bool) (policy : Policy) (source namespaceName : Str)
    (boundary : Boundary) : Except PolicyError (Str × UHeader × THeader) := do
  let prepared ← preparePolicy policy boundary
  let generated ← generate isWord prepared.1 source
  let preciseCount := (policy.allocations.filter (fun a => a.site.isSome)).length
  let entries ← helperEntries prepared.1.types namespaceName preciseCount boundary.helperSites
  let macros := (boundary.helperSites.zip entries).flatMap (fun e => helperAsmMacros e.1 e.2)
  return (generated.1, { generated.2.1 with asmMacros := macros },
    { generated.2.2 with
        namespaceName := namespaceName
        helperSites := entries
        dynamicUses := prepared.2 })

end InterSpec.Tools
