import InterSpec.Data.SortedMap
import InterSpec.Data.Word

/-!
# The trusted runtime

The state of `interspec::Runtime` (`include/interspec/runtime.h`) and its member
functions.  An operation takes the state before the call to the state after it
and the returned value; the mutex makes each call one such step.

`uintptr_t`, `size_t` and `uint64_t` are `UInt64`, so sums and differences wrap
as they do in the source; `TypeId` and `SiteId` are `UInt32`.  The ordered maps
and the hash maps are both `SortedMap`: the source never reads the order of a
hash map.
-/

namespace InterSpec

abbrev TypeId := UInt32
abbrev SiteId := UInt32

structure Allocation where
  base : UInt64
  size : UInt64
  typeHash : UInt64
  siteId : SiteId
deriving DecidableEq, Repr

structure AllocationSite where
  id : SiteId
  beginPc : UInt64
  endPc : UInt64
  typeId : TypeId
  typeHash : UInt64
deriving DecidableEq, Repr

inductive CheckResult
  | ok
  | untracked
  | wrongType
  | outOfBounds
deriving DecidableEq, Repr

structure Runtime where
  base : UInt64
  capacity : UInt64
  arenaValid : Bool
  used : UInt64
  types : SortedMap TypeId UInt64
  typeIds : SortedMap UInt64 TypeId
  sites : SortedMap UInt64 AllocationSite
  sitesById : SortedMap SiteId UInt64
  siteTypes : SortedMap SiteId UInt64
  allocations : SortedMap UInt64 Allocation
deriving DecidableEq

namespace Runtime

/-- The constructor. -/
def new (arenaBase arenaSize : UInt64) : Runtime where
  base := arenaBase
  capacity := arenaSize
  arenaValid := decide (arenaSize ≤ Word.max64 - arenaBase)
  used := 0
  types := .empty
  typeIds := .empty
  sites := .empty
  sitesById := .empty
  siteTypes := .empty
  allocations := .empty

/-! ### Types and sites -/

def registerType (s : Runtime) (id : TypeId) (typeHash : UInt64) : Runtime × Bool :=
  if id = 0 ∨ s.types.find id ≠ none ∨ s.typeIds.find typeHash ≠ none then (s, false)
  else
    ({ s with
        types := (s.types.emplace id typeHash).1
        typeIds := (s.typeIds.emplace typeHash id).1 }, true)

def registerAllocationSiteId (s : Runtime) (id : SiteId) (typeId : TypeId) : Runtime × Bool :=
  match s.types.find typeId with
  | none => (s, false)
  | some typeHash =>
    if id = 0 ∨ s.siteTypes.find id ≠ none then (s, false)
    else ({ s with siteTypes := (s.siteTypes.emplace id typeHash).1 }, true)

/-- A range may not reach into its successor (`end > next->second.begin`) nor
start inside its predecessor (`prev->second.end > begin`). -/
def overlapsNeighbour (s : Runtime) (beginPc endPc : UInt64) : Bool :=
  (match (s.sites.lowerBound beginPc).get with
    | some (_, next) => decide (next.beginPc < endPc)
    | none => false) ||
  (match (s.sites.lowerBound beginPc).prev with
    | some (_, prev) => decide (beginPc < prev.endPc)
    | none => false)

def registerAllocationSite (s : Runtime) (id : SiteId) (beginPc endPc : UInt64)
    (typeId : TypeId) : Runtime × Bool :=
  match s.types.find typeId with
  | none => (s, false)
  | some typeHash =>
    if id = 0 ∨ beginPc = 0 ∨ endPc ≤ beginPc ∨ s.sitesById.find id ≠ none ∨
        s.siteTypes.find id ≠ none then (s, false)
    else if s.overlapsNeighbour beginPc endPc then (s, false)
    else
      let site : AllocationSite := ⟨id, beginPc, endPc, typeId, typeHash⟩
      let inserted := s.sites.emplace beginPc site
      if inserted.2 = false then (s, false)
      else
        ({ s with
            sites := inserted.1
            sitesById := (s.sitesById.emplace id beginPc).1
            siteTypes := (s.siteTypes.emplace id typeHash).1 }, true)

/-! ### Lookups -/

def findAllocationUnlocked (s : Runtime) (ptr : UInt64) : Option Allocation :=
  if s.allocations.isEmpty then none
  else
    match (s.allocations.upperBound ptr).prev with
    | none => none
    | some (_, allocation) =>
      if ptr < allocation.base then none
      else
        let offset := ptr - allocation.base
        if offset < allocation.size then some allocation else none

def findSiteUnlocked (s : Runtime) (pc : UInt64) : Option AllocationSite :=
  if s.sites.isEmpty then none
  else
    match (s.sites.upperBound pc).prev with
    | none => none
    | some (_, site) => if site.beginPc ≤ pc ∧ pc < site.endPc then some site else none

def findSiteByIdUnlocked (s : Runtime) (id : SiteId) : Option AllocationSite :=
  match s.sitesById.find id with
  | none => none
  | some indexed => s.sites.find indexed

/-! ### Allocation -/

/-- The size rounded up to the alignment of 8, unless rounding wraps. -/
def alignedSize (size : UInt64) : Option UInt64 :=
  if Word.max64 - (8 - 1) < size then none
  else
    let aligned := (size + (8 - 1)) &&& ~~~(8 - 1)
    if size ≤ aligned then some aligned else none

def allocateWithHashUnlocked (s : Runtime) (size typeHash : UInt64) (siteId : SiteId) :
    Runtime × UInt64 :=
  if s.arenaValid = false ∨ size = 0 then (s, 0)
  else
    match alignedSize size with
    | none => (s, 0)
    | some aligned =>
      if s.capacity < s.used ∨ s.capacity - s.used < aligned then (s, 0)
      else if Word.max64 - s.base < s.used then (s, 0)
      else
        let ptr := s.base + s.used
        let inserted := s.allocations.emplace ptr ⟨ptr, size, typeHash, siteId⟩
        if inserted.2 = false then (s, 0)
        else ({ s with allocations := inserted.1, used := s.used + aligned }, ptr)

def allocate (s : Runtime) (size : UInt64) (typeId : TypeId) : Runtime × UInt64 :=
  match s.types.find typeId with
  | none => (s, 0)
  | some typeHash => if size = 0 then (s, 0) else s.allocateWithHashUnlocked size typeHash 0

def allocateFromSite (s : Runtime) (size : UInt64) (siteId : SiteId) : Runtime × UInt64 :=
  match s.siteTypes.find siteId with
  | none => (s, 0)
  | some typeHash => if size = 0 then (s, 0) else s.allocateWithHashUnlocked size typeHash siteId

def allocateFromPc (s : Runtime) (size callerPc : UInt64) : Runtime × UInt64 :=
  match s.findSiteUnlocked callerPc with
  | none => (s, 0)
  | some site =>
    if size = 0 then (s, 0) else s.allocateWithHashUnlocked size site.typeHash site.id

def release (s : Runtime) (ptr : UInt64) : Runtime × Bool :=
  match s.allocations.find ptr with
  | none => (s, false)
  | some _ => ({ s with allocations := s.allocations.erase ptr }, true)

def reallocate (s : Runtime) (ptr newSize : UInt64) : Runtime × UInt64 :=
  match s.allocations.find ptr with
  | none => (s, 0)
  | some old =>
    if newSize = 0 then ({ s with allocations := s.allocations.erase ptr }, 0)
    else
      let replacement := s.allocateWithHashUnlocked newSize old.typeHash old.siteId
      if replacement.2 = 0 then (replacement.1, 0)
      else
        ({ replacement.1 with allocations := replacement.1.allocations.erase ptr },
          replacement.2)

/-! ### Queries -/

def allocationCount (s : Runtime) : Nat := s.allocations.size

def allocationSiteCount (s : Runtime) : Nat := s.siteTypes.size

/-- The second argument and the second result are the caller's `size_t& size`. -/
def allocationSize (s : Runtime) (ptr size : UInt64) : Bool × UInt64 :=
  match s.allocations.find ptr with
  | none => (false, size)
  | some allocation => (true, allocation.size)

def allocationSite (s : Runtime) (ptr : UInt64) (siteId : SiteId) : Bool × SiteId :=
  match s.allocations.find ptr with
  | none => (false, siteId)
  | some allocation => (true, allocation.siteId)

/-- The last argument and the second result are the caller's `size_t& bytes`. -/
def remainingBytes (s : Runtime) (ptr expectedType bytes : UInt64) : CheckResult × UInt64 :=
  match s.findAllocationUnlocked ptr with
  | none => (.untracked, bytes)
  | some allocation =>
    if allocation.typeHash ≠ expectedType then (.wrongType, bytes)
    else (.ok, allocation.size - (ptr - allocation.base))

def check (s : Runtime) (ptr bytes expectedType : UInt64) : CheckResult :=
  match s.findAllocationUnlocked ptr with
  | none => .untracked
  | some allocation =>
    if allocation.typeHash ≠ expectedType then .wrongType
    else
      let offset := ptr - allocation.base
      let remaining := allocation.size - offset
      if bytes ≤ remaining then .ok else .outOfBounds

end Runtime

end InterSpec
