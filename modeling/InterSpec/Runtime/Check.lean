import InterSpec.Runtime.Step

/-!
# The pointer check against a full scan

`findAllocationUnlocked` looks at one predecessor in the map.  On a laid out
state that is enough: `findAllocationUnlocked_eq_some` says it returns exactly
the live record that covers the pointer.  `naiveCheck` is the specification, a
scan of all live records in unbounded arithmetic, and `check_eq_naiveCheck` is
the refinement; `remainingBytes` is characterised on the same footing.

The second half writes the same functions with trapping arithmetic (`…Trap`)
and shows that no trap is ever taken, so no sum wraps and no difference
underflows in any call on a reachable state (`stepTrap_eq`).
-/

namespace InterSpec

/-- `base <= ptr < base + size`, as unbounded integers. -/
def Allocation.Covers (a : Allocation) (ptr : UInt64) : Prop :=
  a.base.toNat ≤ ptr.toNat ∧ ptr.toNat < a.base.toNat + a.size.toNat

instance Allocation.decidableCovers (a : Allocation) (ptr : UInt64) : Decidable (a.Covers ptr) :=
  inferInstanceAs (Decidable (_ ∧ _))

/-- The specification: scan every live record for one that covers the pointer. -/
def naiveCheck (live : List Allocation) (ptr bytes expectedType : UInt64) : CheckResult :=
  match live.find? (fun a => decide (a.Covers ptr)) with
  | none => .untracked
  | some a =>
    if a.typeHash ≠ expectedType then .wrongType
    else if ptr.toNat + bytes.toNat ≤ a.base.toNat + a.size.toNat then .ok
    else .outOfBounds

namespace Runtime

open SortedMap (Separated Contains)

/-- The live records. -/
def live (s : Runtime) : List Allocation := s.allocations.values

theorem mem_live {s : Runtime} (h : Layout s) {a : Allocation} :
    a ∈ s.live ↔ s.allocations.find a.base = some a := by
  rw [live, SortedMap.mem_values]
  constructor
  · rintro ⟨p, hp⟩
    rw [(h.inArena p a hp).base_eq]
    exact hp
  · intro hp
    exact ⟨_, hp⟩

/-- The end of a record without its padding. -/
def byteEnd (a : Allocation) : Nat := a.base.toNat + a.size.toNat

theorem Layout.separated_bytes {s : Runtime} (h : Layout s) :
    Separated UInt64.toNat byteEnd s.allocations := by
  intro p a q b hp hq hpq
  have := h.separated p a q b hp hq hpq
  have := le_roundUp8 a.size.toNat
  unfold byteEnd
  unfold paddedEnd at *
  omega

theorem Layout.contains_iff {s : Runtime} (h : Layout s) {p ptr : UInt64} {a : Allocation}
    (hp : s.allocations.find p = some a) :
    Contains UInt64.toNat byteEnd p a ptr.toNat ↔ a.Covers ptr := by
  rw [← (h.inArena p a hp).base_eq]
  rfl

/-- **A pointer is covered by at most one live record.** -/
theorem Layout.covers_unique {s : Runtime} (h : Layout s) {ptr : UInt64} {a b : Allocation}
    (ha : a ∈ s.live) (hb : b ∈ s.live) (hac : a.Covers ptr) (hbc : b.Covers ptr) : a = b := by
  have ha' := (mem_live h).mp ha
  have hb' := (mem_live h).mp hb
  exact h.separated_bytes.value_unique ha' hb' ((h.contains_iff ha').mpr hac)
    ((h.contains_iff hb').mpr hbc)

theorem findAllocationUnlocked_eq_prev (s : Runtime) (ptr : UInt64) :
    s.findAllocationUnlocked ptr =
      match (s.allocations.upperBound ptr).prev with
      | none => none
      | some (_, a) =>
        if ptr < a.base then none else if ptr - a.base < a.size then some a else none := by
  unfold findAllocationUnlocked
  split
  · rename_i hempty
    have hnone : (s.allocations.upperBound ptr).prev = none :=
      SortedMap.upperBound_prev_eq_none.mpr
        (fun i b hi => by rw [SortedMap.isEmpty_iff.mp hempty i] at hi; cases hi)
    rw [hnone]
  · rfl

/-- **The lookup returns exactly the live record that covers the pointer.** -/
theorem findAllocationUnlocked_eq_some {s : Runtime} (h : Layout s) {ptr : UInt64}
    {a : Allocation} : s.findAllocationUnlocked ptr = some a ↔ a ∈ s.live ∧ a.Covers ptr := by
  rw [findAllocationUnlocked_eq_prev, mem_live h]
  constructor
  · intro hfind
    cases hprev : (s.allocations.upperBound ptr).prev with
    | none => rw [hprev] at hfind; cases hfind
    | some e =>
      obtain ⟨p, b⟩ := e
      obtain ⟨hp, _, _⟩ := SortedMap.upperBound_prev_eq_some.mp hprev
      rw [hprev] at hfind
      dsimp only at hfind
      split at hfind
      · cases hfind
      · rename_i hge
        split at hfind
        · rename_i hlt
          cases hfind
          have hle := UInt64.le_iff_toNat_le.mp (not_lt.mp hge)
          have hlt := Word.toNat_strictMono hlt
          rw [Word.toNat_sub_of_le hle] at hlt
          rw [(h.inArena p a hp).base_eq]
          refine ⟨hp, hle, ?_⟩
          omega
        · cases hfind
  · rintro ⟨hp, hc⟩
    have hprev := h.separated_bytes.prev_of_contains (fun _ _ hlt => Word.toNat_strictMono hlt) hp
      ((h.contains_iff hp).mpr hc)
    have hge : ¬ ptr < a.base := not_lt.mpr (UInt64.le_iff_toNat_le.mpr hc.1)
    have hlt : ptr - a.base < a.size := by
      rw [UInt64.lt_iff_toNat_lt, Word.toNat_sub_of_le hc.1]
      have := hc.1
      have := hc.2
      omega
    rw [hprev]
    simp only [if_neg hge, if_pos hlt]

theorem findAllocationUnlocked_eq_none {s : Runtime} (h : Layout s) {ptr : UInt64} :
    s.findAllocationUnlocked ptr = none ↔ ∀ a ∈ s.live, ¬ a.Covers ptr := by
  constructor
  · intro hnone a ha hc
    rw [(findAllocationUnlocked_eq_some h).mpr ⟨ha, hc⟩] at hnone
    cases hnone
  · intro hall
    cases hfind : s.findAllocationUnlocked ptr with
    | none => rfl
    | some a =>
      obtain ⟨ha, hc⟩ := (findAllocationUnlocked_eq_some h).mp hfind
      exact absurd hc (hall a ha)

theorem findAllocationUnlocked_eq_scan {s : Runtime} (h : Layout s) (ptr : UInt64) :
    s.findAllocationUnlocked ptr = s.live.find? (fun a => decide (a.Covers ptr)) := by
  cases hscan : s.live.find? (fun a => decide (a.Covers ptr)) with
  | none =>
    refine (findAllocationUnlocked_eq_none h).mpr (fun a ha hc => ?_)
    exact absurd (List.find?_eq_none.mp hscan a ha) (by simpa using hc)
  | some a =>
    exact (findAllocationUnlocked_eq_some h).mpr
      ⟨List.mem_of_find?_eq_some hscan, by simpa using List.find?_some hscan⟩

theorem Allocation.toNat_remaining {a : Allocation} {ptr : UInt64} (hc : a.Covers ptr) :
    (a.size - (ptr - a.base)).toNat = a.base.toNat + a.size.toNat - ptr.toNat := by
  have h1 := hc.1
  have h2 := hc.2
  have hoff : (ptr - a.base).toNat = ptr.toNat - a.base.toNat := Word.toNat_sub_of_le h1
  rw [Word.toNat_sub_of_le (by omega), hoff]
  omega

theorem check_of_covers {s : Runtime} (h : Layout s) {ptr : UInt64} {a : Allocation}
    (ha : a ∈ s.live) (hc : a.Covers ptr) (bytes expectedType : UInt64) :
    s.check ptr bytes expectedType =
      if a.typeHash ≠ expectedType then .wrongType
      else if ptr.toNat + bytes.toNat ≤ a.base.toNat + a.size.toNat then .ok
      else .outOfBounds := by
  have hfind := (findAllocationUnlocked_eq_some h).mpr ⟨ha, hc⟩
  have hle : bytes ≤ a.size - (ptr - a.base) ↔
      ptr.toNat + bytes.toNat ≤ a.base.toNat + a.size.toNat := by
    have := hc.2
    rw [UInt64.le_iff_toNat_le, Allocation.toNat_remaining hc]
    omega
  rw [check, hfind]
  simp only [hle]

theorem check_of_uncovered {s : Runtime} (h : Layout s) {ptr : UInt64}
    (hno : ∀ a ∈ s.live, ¬ a.Covers ptr) (bytes expectedType : UInt64) :
    s.check ptr bytes expectedType = .untracked := by
  rw [check, (findAllocationUnlocked_eq_none h).mpr hno]

theorem check_eq_untracked_iff {s : Runtime} (h : Layout s) {ptr : UInt64}
    (bytes expectedType : UInt64) : s.check ptr bytes expectedType = .untracked ↔
      ∀ a ∈ s.live, ¬ a.Covers ptr := by
  constructor
  · intro hu a ha hc
    rw [check_of_covers h ha hc] at hu
    split at hu
    · cases hu
    · split at hu <;> cases hu
  · intro hno
    exact check_of_uncovered h hno bytes expectedType

theorem check_eq_ok_iff {s : Runtime} (h : Layout s) {ptr : UInt64}
    (bytes expectedType : UInt64) : s.check ptr bytes expectedType = .ok ↔
      ∃ a ∈ s.live, a.typeHash = expectedType ∧ a.Covers ptr ∧
        ptr.toNat + bytes.toNat ≤ a.base.toNat + a.size.toNat := by
  constructor
  · intro hok
    by_cases hno : ∀ a ∈ s.live, ¬ a.Covers ptr
    · rw [check_of_uncovered h hno] at hok
      cases hok
    · simp only [not_forall, not_not] at hno
      obtain ⟨a, ha, hc⟩ := hno
      rw [check_of_covers h ha hc] at hok
      split at hok
      · cases hok
      · rename_i htype
        split at hok
        · rename_i hend
          exact ⟨a, ha, not_not.mp htype, hc, hend⟩
        · cases hok
  · rintro ⟨a, ha, rfl, hc, hend⟩
    rw [check_of_covers h ha hc, if_neg (fun hne => hne rfl), if_pos hend]

theorem Layout.end_lt {s : Runtime} (h : Layout s) {a : Allocation} (ha : a ∈ s.live) :
    a.base.toNat + a.size.toNat < 2 ^ 64 := by
  have hin := h.inArena _ a ((mem_live h).mp ha)
  have hvalid := h.valid_iff.mp hin.valid
  have hused := h.used_le
  have hend := hin.end_le
  have hpad := le_roundUp8 a.size.toNat
  unfold paddedEnd at hend
  omega

/-- **The check is the scan**, on any laid out state. -/
theorem check_eq_naiveCheck {s : Runtime} (h : Layout s) (ptr bytes expectedType : UInt64) :
    s.check ptr bytes expectedType = naiveCheck s.live ptr bytes expectedType := by
  rw [naiveCheck, ← findAllocationUnlocked_eq_scan h]
  cases hfind : s.findAllocationUnlocked ptr with
  | none => rw [check, hfind]
  | some a =>
    obtain ⟨ha, hc⟩ := (findAllocationUnlocked_eq_some h).mp hfind
    exact check_of_covers h ha hc bytes expectedType

/-! ### The same functions with trapping arithmetic -/

open Word (addTrap subTrap)

def findAllocationUnlockedTrap (s : Runtime) (ptr : UInt64) : Option (Option Allocation) :=
  if s.allocations.isEmpty then some none
  else
    match (s.allocations.upperBound ptr).prev with
    | none => some none
    | some (_, allocation) =>
      if ptr < allocation.base then some none
      else do
        let offset ← subTrap ptr allocation.base
        return if offset < allocation.size then some allocation else none

def checkTrap (s : Runtime) (ptr bytes expectedType : UInt64) : Option CheckResult := do
  match ← s.findAllocationUnlockedTrap ptr with
  | none => return .untracked
  | some allocation =>
    if allocation.typeHash ≠ expectedType then return .wrongType
    else
      let offset ← subTrap ptr allocation.base
      let remaining ← subTrap allocation.size offset
      return if bytes ≤ remaining then .ok else .outOfBounds

def remainingBytesTrap (s : Runtime) (ptr expectedType bytes : UInt64) :
    Option (CheckResult × UInt64) := do
  match ← s.findAllocationUnlockedTrap ptr with
  | none => return (.untracked, bytes)
  | some allocation =>
    if allocation.typeHash ≠ expectedType then return (.wrongType, bytes)
    else
      let offset ← subTrap ptr allocation.base
      let remaining ← subTrap allocation.size offset
      return (.ok, remaining)

def alignedSizeTrap (size : UInt64) : Option (Option UInt64) := do
  let limit ← subTrap Word.max64 (8 - 1)
  if limit < size then return none
  else
    let sum ← addTrap size (8 - 1)
    let aligned := sum &&& ~~~(8 - 1)
    return if size ≤ aligned then some aligned else none

def allocateWithHashUnlockedTrap (s : Runtime) (size typeHash : UInt64) (siteId : SiteId) :
    Option (Runtime × UInt64) := do
  if s.arenaValid = false ∨ size = 0 then return (s, 0)
  else
    match ← alignedSizeTrap size with
    | none => return (s, 0)
    | some aligned =>
      if s.capacity < s.used then return (s, 0)
      else
        let room ← subTrap s.capacity s.used
        if room < aligned then return (s, 0)
        else
          let limit ← subTrap Word.max64 s.base
          if limit < s.used then return (s, 0)
          else
            let ptr ← addTrap s.base s.used
            let inserted := s.allocations.emplace ptr ⟨ptr, size, typeHash, siteId⟩
            if inserted.2 = false then return (s, 0)
            else
              let used ← addTrap s.used aligned
              return ({ s with allocations := inserted.1, used := used }, ptr)

def allocateTrap (s : Runtime) (size : UInt64) (typeId : TypeId) : Option (Runtime × UInt64) :=
  match s.types.find typeId with
  | none => some (s, 0)
  | some typeHash =>
    if size = 0 then some (s, 0) else s.allocateWithHashUnlockedTrap size typeHash 0

def allocateFromSiteTrap (s : Runtime) (size : UInt64) (siteId : SiteId) :
    Option (Runtime × UInt64) :=
  match s.siteTypes.find siteId with
  | none => some (s, 0)
  | some typeHash =>
    if size = 0 then some (s, 0) else s.allocateWithHashUnlockedTrap size typeHash siteId

def allocateFromPcTrap (s : Runtime) (size callerPc : UInt64) : Option (Runtime × UInt64) :=
  match s.findSiteUnlocked callerPc with
  | none => some (s, 0)
  | some site =>
    if size = 0 then some (s, 0) else s.allocateWithHashUnlockedTrap size site.typeHash site.id

def reallocateTrap (s : Runtime) (ptr newSize : UInt64) : Option (Runtime × UInt64) :=
  match s.allocations.find ptr with
  | none => some (s, 0)
  | some old =>
    if newSize = 0 then some (s.remove ptr, 0)
    else do
      let replacement ← s.allocateWithHashUnlockedTrap newSize old.typeHash old.siteId
      if replacement.2 = 0 then return (replacement.1, 0)
      else return (replacement.1.remove ptr, replacement.2)

/-- One call with trapping arithmetic; the other calls do no arithmetic. -/
def stepTrap (s : Runtime) (op : Op) : Option (Runtime × Ret) :=
  match op with
  | .allocate size typeId => (s.allocateTrap size typeId).map (fun r => (r.1, .word r.2))
  | .allocateFromSite size siteId =>
    (s.allocateFromSiteTrap size siteId).map (fun r => (r.1, .word r.2))
  | .allocateFromPc size callerPc =>
    (s.allocateFromPcTrap size callerPc).map (fun r => (r.1, .word r.2))
  | .reallocate ptr newSize => (s.reallocateTrap ptr newSize).map (fun r => (r.1, .word r.2))
  | .query (.remainingBytes ptr expectedType bytes) =>
    (s.remainingBytesTrap ptr expectedType bytes).map (fun r => (s, .remaining r.1 r.2))
  | .query (.check ptr bytes expectedType) =>
    (s.checkTrap ptr bytes expectedType).map (fun r => (s, .verdict r))
  | op => some (step s op)

theorem findAllocationUnlockedTrap_eq (s : Runtime) (ptr : UInt64) :
    s.findAllocationUnlockedTrap ptr = some (s.findAllocationUnlocked ptr) := by
  unfold findAllocationUnlockedTrap findAllocationUnlocked
  by_cases hempty : s.allocations.isEmpty = true
  · rw [if_pos hempty, if_pos hempty]
  rw [if_neg hempty, if_neg hempty]
  cases (s.allocations.upperBound ptr).prev with
  | none => rfl
  | some e =>
    by_cases hlt : ptr < e.2.base
    · simp only [if_pos hlt]
    · have hsub := Word.subTrap_of_le (UInt64.le_iff_toNat_le.mp (not_lt.mp hlt))
      simp only [if_neg hlt, hsub, Option.bind_eq_bind, Option.bind_some, Option.pure_def]

/-- Both differences a query takes are between a covered pointer and its record. -/
theorem Allocation.Covers.subTrap_eq {a : Allocation} {ptr : UInt64} (hc : a.Covers ptr) :
    subTrap ptr a.base = some (ptr - a.base) ∧
      subTrap a.size (ptr - a.base) = some (a.size - (ptr - a.base)) := by
  have h1 := hc.1
  have h2 := hc.2
  refine ⟨Word.subTrap_of_le h1, Word.subTrap_of_le ?_⟩
  rw [Word.toNat_sub_of_le h1]
  omega

theorem checkTrap_eq {s : Runtime} (h : Layout s) (ptr bytes expectedType : UInt64) :
    s.checkTrap ptr bytes expectedType = some (s.check ptr bytes expectedType) := by
  rw [checkTrap, findAllocationUnlockedTrap_eq, check]
  cases hfind : s.findAllocationUnlocked ptr with
  | none => rfl
  | some a =>
    obtain ⟨h1, h2⟩ := Allocation.Covers.subTrap_eq ((findAllocationUnlocked_eq_some h).mp hfind).2
    simp only [Option.bind_eq_bind, Option.bind_some, h1, h2, Option.pure_def]
    split <;> rfl

theorem remainingBytesTrap_eq {s : Runtime} (h : Layout s) (ptr expectedType bytes : UInt64) :
    s.remainingBytesTrap ptr expectedType bytes =
      some (s.remainingBytes ptr expectedType bytes) := by
  rw [remainingBytesTrap, findAllocationUnlockedTrap_eq, remainingBytes]
  cases hfind : s.findAllocationUnlocked ptr with
  | none => rfl
  | some a =>
    obtain ⟨h1, h2⟩ := Allocation.Covers.subTrap_eq ((findAllocationUnlocked_eq_some h).mp hfind).2
    simp only [Option.bind_eq_bind, Option.bind_some, h1, h2, Option.pure_def]
    split <;> rfl

theorem alignedSizeTrap_eq (size : UInt64) : alignedSizeTrap size = some (alignedSize size) := by
  have hlimit : subTrap Word.max64 (8 - 1) = some (Word.max64 - (8 - 1)) :=
    Word.subTrap_of_le (by decide)
  rw [alignedSizeTrap, alignedSize, hlimit]
  simp only [Option.bind_eq_bind, Option.bind_some, Option.pure_def]
  split
  · rfl
  · rename_i hbig
    have h : size.toNat ≤ 2 ^ 64 - 1 - 7 := UInt64.le_iff_toNat_le.mp (not_lt.mp hbig)
    rw [Word.addTrap_of_lt (show size.toNat + 7 < 2 ^ 64 by omega)]
    rfl

/-- **No sum wraps and no difference underflows in an allocation.** -/
theorem allocateWithHashUnlockedTrap_eq {s : Runtime} (h : Layout s) (size typeHash : UInt64)
    (siteId : SiteId) : s.allocateWithHashUnlockedTrap size typeHash siteId =
      some (s.allocateWithHashUnlocked size typeHash siteId) := by
  have hused := h.used_le
  have hcap := s.capacity.toNat_lt
  unfold allocateWithHashUnlockedTrap allocateWithHashUnlocked
  by_cases hguard : s.arenaValid = false ∨ size = 0
  · rw [if_pos hguard, if_pos hguard]
    rfl
  rw [if_neg hguard, if_neg hguard, alignedSizeTrap_eq]
  have hvalid := h.valid_iff.mp (by simpa using (not_or.mp hguard).1)
  cases alignedSize size with
  | none => rfl
  | some aligned =>
    have hle : ¬ s.capacity < s.used := by rw [UInt64.lt_iff_toNat_lt]; omega
    have hroom : subTrap s.capacity s.used = some (s.capacity - s.used) :=
      Word.subTrap_of_le hused
    have hlimit : subTrap Word.max64 s.base = some (Word.max64 - s.base) :=
      Word.subTrap_of_le (by rw [Word.toNat_max64]; omega)
    have hptr : addTrap s.base s.used = some (s.base + s.used) :=
      Word.addTrap_of_lt (by omega)
    simp only [Option.bind_eq_bind, Option.bind_some, Option.pure_def]
    rw [if_neg hle, hroom, Option.bind_some]
    by_cases hlt : s.capacity - s.used < aligned
    · rw [if_pos hlt, if_pos (Or.inr hlt)]
    rw [if_neg hlt, if_neg (not_or.mpr ⟨hle, hlt⟩), hlimit, Option.bind_some]
    by_cases hdead : Word.max64 - s.base < s.used
    · rw [if_pos hdead, if_pos hdead]
    rw [if_neg hdead, if_neg hdead, hptr, Option.bind_some]
    have hfit : addTrap s.used aligned = some (s.used + aligned) := by
      rw [UInt64.lt_iff_toNat_lt, Word.toNat_sub_of_le hused] at hlt
      exact Word.addTrap_of_lt (by omega)
    rw [hfit, Option.bind_some]
    by_cases hins : (s.allocations.emplace (s.base + s.used)
        ⟨s.base + s.used, size, typeHash, siteId⟩).2 = false
    · rw [if_pos hins, if_pos hins]
    · rw [if_neg hins, if_neg hins]

theorem allocateFoundTrap_eq {s : Runtime} (h : Layout s) (size typeHash : UInt64)
    (siteId : SiteId) :
    (if size = 0 then some (s, 0) else s.allocateWithHashUnlockedTrap size typeHash siteId) =
      some (if size = 0 then (s, 0) else s.allocateWithHashUnlocked size typeHash siteId) := by
  rw [allocateWithHashUnlockedTrap_eq h, apply_ite some]

theorem reallocateTrap_eq {s : Runtime} (h : Layout s) (ptr newSize : UInt64) :
    s.reallocateTrap ptr newSize = some (s.reallocate ptr newSize) := by
  unfold reallocateTrap reallocate
  cases s.allocations.find ptr with
  | none => rfl
  | some old =>
    dsimp only
    rw [allocateWithHashUnlockedTrap_eq h]
    simp only [Option.bind_eq_bind, Option.bind_some, Option.pure_def, apply_ite some]
    rfl

/-- **No call on a laid out state traps**, and a call that does not trap does
what the wrapping call does. -/
theorem stepTrap_eq {s : Runtime} (h : Layout s) (op : Op) : s.stepTrap op = some (step s op) := by
  cases op with
  | allocate size typeId =>
    have he : s.allocateTrap size typeId = some (s.allocate size typeId) := by
      unfold allocateTrap allocate
      cases s.types.find typeId with
      | none => rfl
      | some typeHash => exact allocateFoundTrap_eq h size typeHash 0
    rw [stepTrap, he]
    rfl
  | allocateFromSite size siteId =>
    have he : s.allocateFromSiteTrap size siteId = some (s.allocateFromSite size siteId) := by
      unfold allocateFromSiteTrap allocateFromSite
      cases s.siteTypes.find siteId with
      | none => rfl
      | some typeHash => exact allocateFoundTrap_eq h size typeHash siteId
    rw [stepTrap, he]
    rfl
  | allocateFromPc size callerPc =>
    have he : s.allocateFromPcTrap size callerPc = some (s.allocateFromPc size callerPc) := by
      unfold allocateFromPcTrap allocateFromPc
      cases s.findSiteUnlocked callerPc with
      | none => rfl
      | some site => exact allocateFoundTrap_eq h size site.typeHash site.id
    rw [stepTrap, he]
    rfl
  | reallocate ptr newSize =>
    rw [stepTrap, reallocateTrap_eq h]
    rfl
  | query q =>
    cases q with
    | check ptr bytes expectedType =>
      rw [stepTrap, checkTrap_eq h]
      rfl
    | remainingBytes ptr expectedType bytes =>
      rw [stepTrap, remainingBytesTrap_eq h]
      rfl
    | _ => rfl
  | _ => rfl

/-! ### The refinement on reachable states -/

/-- **The pointer check refines the naive specification.**  In every state any
list of calls leads to, a pointer is untracked exactly when no live record
covers it; otherwise one record covers it, and the check compares its type and
then the end of the access with the end of that record as unbounded integers.
The check is the scan, and no call does arithmetic that wraps. -/
theorem check_refines_scan (arenaBase arenaSize : UInt64) (ops : List Op)
    (ptr bytes expectedType : UInt64) :
    let s := (new arenaBase arenaSize).after ops
    (s.check ptr bytes expectedType = .untracked ↔ ∀ a ∈ s.live, ¬ a.Covers ptr) ∧
    (∀ a ∈ s.live, a.Covers ptr → (∀ b ∈ s.live, b.Covers ptr → b = a) ∧
      s.check ptr bytes expectedType =
        if a.typeHash ≠ expectedType then .wrongType
        else if ptr.toNat + bytes.toNat ≤ a.base.toNat + a.size.toNat then .ok
        else .outOfBounds) ∧
    s.check ptr bytes expectedType = naiveCheck s.live ptr bytes expectedType ∧
    ∀ op, s.stepTrap op = some (step s op) := by
  intro s
  have h : Layout s := layout_reachable arenaBase arenaSize ops
  refine ⟨check_eq_untracked_iff h bytes expectedType, fun a ha hc => ⟨fun b hb hbc => ?_, ?_⟩,
    check_eq_naiveCheck h ptr bytes expectedType, stepTrap_eq h⟩
  · exact h.covers_unique hb ha hbc hc
  · exact check_of_covers h ha hc bytes expectedType

/-- One past the end of a 16 byte record lies the next record, and in the
padding of the 12 byte record before it lies nothing. -/
example :
    let s := (new 0x1000 0x40).after [.registerType 1 7, .allocate 12 1, .allocate 16 1]
    s.check 0x100b 1 7 = .ok ∧ s.check 0x100c 1 7 = .untracked ∧ s.check 0x1010 16 7 = .ok ∧
      s.check 0x1010 17 7 = .outOfBounds ∧ s.check 0x1020 0 7 = .untracked := by
  decide

end Runtime

end InterSpec
