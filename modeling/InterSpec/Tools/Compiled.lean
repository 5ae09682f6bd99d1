import InterSpec.Runtime.PolicyRuntime
import InterSpec.Runtime.Registration
import InterSpec.Runtime.Step
import InterSpec.Tools.Wasm

/-!
# What the generated headers mean

The C++ meaning of a T header and of the host imports.  A header compiles when
the constants it declares have different names, every name it uses is declared,
and every number in a braced initialiser fits its type; `compile` gives the
tables and constants of the program.  A type id is initialised without braces,
so it is truncated to 32 bits.

* `TPolicy`, `WasmTPolicy`: the compiled tables, with the functions of the header
  that register them.
* `checkedAccess`, `checkedDynamicAccess`, `wasmCheck`: the checks of the headers.
* `ImportCall`, `dispatch`: the calls of a module to the host imports, as the calls
  of the runtime that they make.
-/

namespace InterSpec.Tools

open InterSpec.Runtime

/-! ### Constants -/

structure AccessPolicy where
  typeHash : UInt64
  offset : UInt64
  bytes : UInt64
deriving DecidableEq, Repr

/-- The constants `kTypeId{ident}` and `kTypeHash{ident}`. -/
def typeConstant (types : List TypeConstant) (ident : Str) : Option TypeConstant :=
  types.find? (fun c => decide (c.ident = ident))

def TypeConstant.typeId (c : TypeConstant) : TypeId := UInt32.ofNat c.id

def compileType (c : TypeConstant) : TypeId × UInt64 := (c.typeId, c.hash)

def compileUse (types : List TypeConstant) (use : UseConstant) : Option (Str × AccessPolicy) := do
  guard (use.offset < 2 ^ 64 ∧ use.bytes < 2 ^ 64)
  let c ← typeConstant types use.typeIdent
  return (use.ident, ⟨c.hash, UInt64.ofNat use.offset, UInt64.ofNat use.bytes⟩)

/-- `kUse{ident}`. -/
def useConstantOf (uses : List (Str × AccessPolicy)) (ident : Str) : Option AccessPolicy :=
  (uses.find? (fun use => decide (use.1 = ident))).map Prod.snd

/-- The constants have different names. -/
def DistinctIdents (types : List TypeConstant) (uses : List UseConstant) : Prop :=
  (types.map (fun c => c.ident)).Nodup ∧ (uses.map (fun use => use.ident)).Nodup

instance decidableDistinctIdents (types : List TypeConstant) (uses : List UseConstant) :
    Decidable (DistinctIdents types uses) := inferInstanceAs (Decidable (_ ∧ _))

/-! ### Label based policies -/

structure SitePolicy where
  siteId : SiteId
  typeId : TypeId
  beginSymbol : Str
  endSymbol : Str
deriving DecidableEq, Repr

def compileSite (types : List TypeConstant) (entry : SiteEntry) : Option SitePolicy := do
  guard (entry.siteId < 2 ^ 32)
  let c ← typeConstant types entry.typeIdent
  return ⟨UInt32.ofNat entry.siteId, c.typeId, entry.beginSymbol, entry.endSymbol⟩

structure TPolicy where
  types : List (TypeId × UInt64)
  sites : List SitePolicy
  helperSites : List SitePolicy
  uses : List (Str × AccessPolicy)
deriving DecidableEq, Repr

def THeader.compile (header : THeader) : Option TPolicy := do
  guard (DistinctIdents header.types header.uses)
  let sites ← header.sites.mapM (compileSite header.types)
  let helperSites ← header.helperSites.mapM (compileSite header.types)
  let uses ← header.uses.mapM (compileUse header.types)
  return ⟨header.types.map compileType, sites, helperSites, uses⟩

namespace TPolicy

def registerTypes (p : TPolicy) (s : Runtime) : Runtime × Bool := s.registerTypes p.types

/-- A table of sites after its labels are resolved. -/
def ranges (resolve : Str → UInt64) (sites : List SitePolicy) : List SiteRange :=
  sites.map (fun site => ⟨site.siteId, resolve site.beginSymbol, resolve site.endSymbol,
    site.typeId⟩)

def registerAllocationSites (p : TPolicy) (s : Runtime) (resolve : Str → UInt64) :
    Runtime × Bool :=
  s.registerRanges (ranges resolve p.sites)

def registerHelperAllocationSites (p : TPolicy) (s : Runtime) (resolve : Str → UInt64) :
    Runtime × Bool :=
  s.registerRanges (ranges resolve p.helperSites)

def registerAllocationPolicy (p : TPolicy) (s : Runtime) (resolve : Str → UInt64) :
    Runtime × Bool :=
  if (p.registerAllocationSites s resolve).2 = false then
    ((p.registerAllocationSites s resolve).1, false)
  else p.registerHelperAllocationSites (p.registerAllocationSites s resolve).1 resolve

end TPolicy

/-! ### Import based policies -/

structure WasmSitePolicy where
  siteId : SiteId
  typeId : TypeId
  importName : Str
  helper : Bool
deriving DecidableEq, Repr

def compileWasmSite (types : List TypeConstant) (entry : WasmSiteEntry) :
    Option WasmSitePolicy := do
  guard (0 ≤ entry.siteId ∧ entry.siteId < 2 ^ 32)
  let c ← typeConstant types entry.typeIdent
  return ⟨UInt32.ofInt entry.siteId, c.typeId, entry.importName, entry.helper⟩

structure WasmTPolicy where
  types : List (TypeId × UInt64)
  sites : List WasmSitePolicy
  uses : List (Str × AccessPolicy)
deriving DecidableEq, Repr

def WasmTHeader.compile (header : WasmTHeader) : Option WasmTPolicy := do
  guard (DistinctIdents header.types header.uses)
  let sites ← header.sites.mapM (compileWasmSite header.types)
  let uses ← header.uses.mapM (compileUse header.types)
  return ⟨header.types.map compileType, sites, uses⟩

namespace WasmTPolicy

def registerTypes (p : WasmTPolicy) (s : Runtime) : Runtime × Bool := s.registerTypes p.types

def registerWasmAllocationPolicy (p : WasmTPolicy) (s : Runtime) : Runtime × Bool :=
  s.registerSiteIds (p.sites.map (fun site => (site.siteId, site.typeId)))

end WasmTPolicy

/-! ### Host imports -/

/-- A call of the module to one of the imports. -/
inductive ImportCall
  | allocate (importName : Str) (size : UInt64)
  | release (ptr : UInt64)
  | size (ptr : UInt64)
  | reallocate (ptr newSize : UInt64)
deriving DecidableEq, Repr

/-- The site id that the import passes. -/
def hostSiteId (imports : List HostImport) (name : Str) : Option SiteId :=
  (imports.find? (fun w => decide (w.importName = name))).map (fun w => UInt32.ofInt w.siteId)

/-- The call of the runtime behind a call of an import; the pointers and sizes are
any words, whatever the bridge makes of the 32-bit arguments.  A call of an import
that is not there does not link. -/
def dispatch (imports : List HostImport) : ImportCall → Option Op
  | .allocate name size => (hostSiteId imports name).map (fun id => .allocateFromSite size id)
  | .release ptr => some (.release ptr)
  | .size ptr => some (.query (.allocationSize ptr 0))
  | .reallocate ptr newSize => some (.reallocate ptr newSize)

/-! ### Checks -/

structure CheckedAccess where
  result : CheckResult
  address : UInt64
  bytes : UInt64
deriving DecidableEq, Repr

/-- `access.result`, of the value that a call returns. -/
def CheckedAccess.verdict (access : CheckedAccess) : CheckResult := access.result

@[simp] theorem CheckedAccess.verdict_mk (result : CheckResult) (address bytes : UInt64) :
    CheckedAccess.verdict ⟨result, address, bytes⟩ = result := rfl

def checkedAccess (s : Runtime) (base : UInt64) (policy : AccessPolicy) : CheckedAccess :=
  if Word.max64 - policy.bytes < policy.offset then ⟨.outOfBounds, 0, 0⟩
  else
    let extent := policy.offset + policy.bytes
    let result := s.check base extent policy.typeHash
    if result ≠ .ok then ⟨result, 0, 0⟩ else ⟨result, base + policy.offset, policy.bytes⟩

/-- `check` of the label based header. -/
def naclCheck (s : Runtime) (base : UInt64) (policy : AccessPolicy) : CheckResult :=
  (checkedAccess s base policy).verdict

def checkedDynamicAccess (s : Runtime) (base dynamicBytes : UInt64) (policy : AccessPolicy) :
    CheckedAccess :=
  if policy.bytes ≠ 0 ∨ Word.max64 - dynamicBytes < policy.offset then ⟨.outOfBounds, 0, 0⟩
  else
    let extent := policy.offset + dynamicBytes
    let result := s.check base extent policy.typeHash
    if result ≠ .ok then ⟨result, 0, 0⟩ else ⟨result, base + policy.offset, dynamicBytes⟩

def checkDynamic (s : Runtime) (base dynamicBytes : UInt64) (policy : AccessPolicy) :
    CheckResult :=
  (checkedDynamicAccess s base dynamicBytes policy).verdict

/-- `check` of the import based header. -/
def wasmCheck (s : Runtime) (base dynamicBytes : UInt64) (policy : AccessPolicy) : CheckResult :=
  let bytes := if policy.bytes ≠ 0 then policy.bytes else dynamicBytes
  if Word.max64 - bytes < policy.offset then .outOfBounds
  else s.check base (policy.offset + bytes) policy.typeHash

end InterSpec.Tools
