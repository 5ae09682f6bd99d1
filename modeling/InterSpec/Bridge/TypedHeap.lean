import InterSpec.Bridge.Strings
import InterSpec.Data.Blocks

/-!
# The typed heap

The functions of `integration/rsync_popt/popt_typed_shim.c` together, as the heap of a program
that calls them in any order and reads and writes its blocks in between.  The C library of the
sandbox is a parameter, which keeps its hands off the typed arena.

* `naclTypedFree`, `wasmTypedFree`: `interspec_typed_free` of the two shims.
* `heap`: the machine of the calls.
* `heapOf`: the heap of blocks that a sandbox stands for.
* `Meets`: what a call may answer, and what it does to the heap of blocks.
* `typed_heap_refines`: every call of a run of allowed calls does so.
* `typed_string_lives`: a copied string stays until its block is changed, and a block that is
  gone is rejected for good.
-/

namespace InterSpec.Bridge

open InterSpec.Runtime

/-! ### The calls -/

/-- `free` of the C library of the sandbox. -/
abbrev LibcFree := Sandbox → UInt32 → Sandbox

/-- `interspec_typed_free` of `popt_typed_shim.c`. -/
def naclTypedFree (free : LibcFree) (cb : Lifetime) (u : Sandbox) (ptr : UInt32) : Sandbox :=
  if ptr = 0 then u
  else
    match cb.release with
    | none => free u ptr
    | some interspecRelease =>
      let released := interspecRelease u.runtime ptr
      if released.2 ≠ 0 then { u with runtime := released.1 }
      else free { u with runtime := released.1 } ptr

/-- `interspec_typed_free` of `popt_typed_shim_wasm.c`. -/
def wasmTypedFree (free : LibcFree) (env : Lifetime) (u : Sandbox) (ptr : UInt32) : Sandbox :=
  if ptr = 0 then u
  else
    let released := interspecWasmRelease env u.runtime ptr
    if released.2 ≠ 0 then { u with runtime := released.1 }
    else free { u with runtime := released.1 } ptr

/-- With the callbacks installed the two shims are the same function. -/
theorem typed_free_agree (free : LibcFree) (u : Sandbox) (ptr : UInt32) :
    naclTypedFree free .installed u ptr = wasmTypedFree free .installed u ptr := rfl

structure Libc where
  free : LibcFree
  realloc : LibcRealloc

/-- The bytes of the arena are the same. -/
def SameArena (s : Runtime) (m m' : Memory UInt8) : Prop := ∀ b, InTypedArena s b → m' b = m b

/-- For a pointer that is not into the typed arena, the C library does not touch the arena and
does not call back. -/
structure Libc.Apart (libc : Libc) : Prop where
  free : ∀ u p, ¬ InTypedArena u.runtime p.toNat → (libc.free u p).runtime = u.runtime ∧
    SameArena u.runtime u.memory (libc.free u p).memory
  realloc : ∀ u p n, ¬ InTypedArena u.runtime p.toNat →
    (libc.realloc u p n).1.runtime = u.runtime ∧
    SameArena u.runtime u.memory (libc.realloc u p n).1.memory

/-- What the program does with its heap; the program counters are those of the callback. -/
inductive HeapCall
  | strdup (src : UInt32) (pc nextPc : UInt64)
  | free (ptr : UInt32)
  | realloc (ptr size : UInt32)
  | store (address : UInt32) (bytes : List UInt8)
  | load (address : UInt32) (count : Nat)
deriving DecidableEq, Repr

inductive HeapAnswer
  | done
  | pointer (ptr : UInt32)
  | bytes (bytes : List UInt8)
deriving DecidableEq, Repr

def heap (libc : Libc) : Machine Sandbox HeapCall HeapAnswer := fun u => fun
  | .strdup src pc nextPc =>
    let result := typedStrdup u src pc nextPc
    (result.1, .pointer result.2)
  | .free ptr => (naclTypedFree libc.free .installed u ptr, .done)
  | .realloc ptr size =>
    let result := naclTypedRealloc libc.realloc .installed u ptr size
    (result.1, .pointer result.2)
  | .store address bytes =>
    ({ u with memory := Memory.storeList u.memory address.toNat bytes }, .done)
  | .load address count => (u, .bytes (Memory.load u.memory address.toNat count))

/-! ### Allowed calls -/

/-- The range lies in one block. -/
def InBlock (u : Sandbox) (p : UInt32) (lo n : Nat) : Prop :=
  ∃ a, u.runtime.allocations.find p.toUInt64 = some a ∧ p.toNat ≤ lo ∧
    lo + n ≤ p.toNat + a.size.toNat

/-- The range has no byte of the arena. -/
def Outside (u : Sandbox) (lo n : Nat) : Prop :=
  ∀ b, lo ≤ b → b < lo + n → ¬ InTypedArena u.runtime b

/-- An access stays in one block, or outside of the arena. -/
def Accessible (u : Sandbox) (lo n : Nat) : Prop := (∃ p, InBlock u p lo n) ∨ Outside u lo n

/-- A pointer that may be freed: a live block, or nothing of the arena. -/
def Freeable (u : Sandbox) (p : UInt32) : Prop :=
  u.runtime.allocations.find p.toUInt64 ≠ none ∨ ¬ InTypedArena u.runtime p.toNat

/-- What C asks of the program. -/
def HeapCall.Allowed (u : Sandbox) : HeapCall → Prop
  | .strdup src _ _ => src = 0 ∨ ∃ str, Memory.StringAt 0 u.memory src.toNat str ∧
      str.length + 1 ≤ 2 ^ 32 - 1 ∧ Accessible u src.toNat (str.length + 1)
  | .free ptr | .realloc ptr _ => Freeable u ptr
  | .store address bytes => Accessible u address.toNat bytes.length
  | .load address count => Accessible u address.toNat count

/-! ### The heap of blocks -/

/-- Blocks under their pointers, labelled with their type and their site. -/
abbrev Heap := Blocks UInt32 (UInt64 × SiteId) UInt8

/-- The live records with their bytes; everything below the cursor counts as used. -/
def heapOf (u : Sandbox) : Heap where
  live p := (u.runtime.allocations.find p.toUInt64).map fun a =>
    ((a.typeHash, a.siteId), Memory.load u.memory p.toNat a.size.toNat)
  used := { p | p.toNat < u.runtime.cursor.toNat }

/-- A call with its answer, as an act on the heap of blocks. -/
inductive Meets (u : Sandbox) : HeapCall → HeapAnswer → Blocks.Act UInt32 (UInt64 × SiteId) UInt8 →
    Prop
  | strdup {src p : UInt32} {pc nextPc : UInt64} {site : AllocationSite} {str : List UInt8}
      (nonnull : p ≠ 0) (authority : u.runtime.callbackSite pc nextPc = some site)
      (text : Memory.StringAt 0 u.memory src.toNat str) :
      Meets u (.strdup src pc nextPc) (.pointer p)
        (.give p (site.typeHash, site.id) (str ++ [0]))
  | strdupNull {src : UInt32} {pc nextPc : UInt64}
      (why : src = 0 ∨ u.runtime.callbackSite pc nextPc = none ∨ ∃ str,
        Memory.StringAt 0 u.memory src.toNat str ∧
          u.runtime.capacity.toNat - u.runtime.used.toNat < roundUp8 (str.length + 1)) :
      Meets u (.strdup src pc nextPc) (.pointer 0) .idle
  | free {p : UInt32} (live : (heapOf u).live p ≠ none) : Meets u (.free p) .done (.free p)
  | freeOther {p : UInt32} (dead : (heapOf u).live p = none) : Meets u (.free p) .done .idle
  | release {p : UInt32} (live : (heapOf u).live p ≠ none) :
      Meets u (.realloc p 0) (.pointer 0) (.free p)
  | resize {p n q : UInt32} {l : List UInt8} (nonzero : n ≠ 0) (nonnull : q ≠ 0)
      (size : l.length = n.toNat) : Meets u (.realloc p n) (.pointer q) (.move p q l)
  | resizeNull {p n : UInt32} (live : (heapOf u).live p ≠ none) (nonzero : n ≠ 0)
      (full : u.runtime.capacity.toNat - u.runtime.used.toNat < roundUp8 n.toNat) :
      Meets u (.realloc p n) (.pointer 0) .idle
  | reallocOther {p n q : UInt32} (dead : (heapOf u).live p = none) :
      Meets u (.realloc p n) (.pointer q) .idle
  | store {p address : UInt32} {i : Nat} {bytes : List UInt8}
      (place : address.toNat = p.toNat + i) :
      Meets u (.store address bytes) .done (.write p i bytes)
  | storeOutside {address : UInt32} {bytes : List UInt8}
      (outside : Outside u address.toNat bytes.length) :
      Meets u (.store address bytes) .done .idle
  | load {p address : UInt32} {i count : Nat} {bytes : List UInt8}
      (place : address.toNat = p.toNat + i) (size : bytes.length = count) :
      Meets u (.load address count) (.bytes bytes) (.read p i bytes)
  | loadOutside {address : UInt32} {count : Nat} {bytes : List UInt8}
      (outside : Outside u address.toNat count) :
      Meets u (.load address count) (.bytes bytes) .idle

/-! ### Records as blocks -/

section Blocks

variable {s : Runtime} {m m' : Memory UInt8}

theorem heapOf_live {u : Sandbox} {p : UInt32} {a : Allocation}
    (hp : u.runtime.allocations.find p.toUInt64 = some a) : (heapOf u).live p =
      some ((a.typeHash, a.siteId), Memory.load u.memory p.toNat a.size.toNat) := by
  show (u.runtime.allocations.find p.toUInt64).map _ = _
  rw [hp]
  rfl

theorem heapOf_live_eq_none {u : Sandbox} {p : UInt32} :
    (heapOf u).live p = none ↔ u.runtime.allocations.find p.toUInt64 = none :=
  Option.map_eq_none_iff

theorem heapOf_live_eq_some {u : Sandbox} {p : UInt32} {b : UInt64 × SiteId} {l : List UInt8}
    (h : (heapOf u).live p = some (b, l)) : ∃ a,
      u.runtime.allocations.find p.toUInt64 = some a ∧ b = (a.typeHash, a.siteId) ∧
        l = Memory.load u.memory p.toNat a.size.toNat := by
  obtain ⟨a, ha, heq⟩ := Option.map_eq_some_iff.mp h
  obtain ⟨rfl, rfl⟩ := Prod.mk.inj heq
  exact ⟨a, ha, rfl, rfl⟩

theorem heapOf_congr (hm : ∀ q a, s.allocations.find q = some a → ∀ b, q.toNat ≤ b →
    b < q.toNat + a.size.toNat → m' b = m b) : heapOf ⟨s, m'⟩ = heapOf ⟨s, m⟩ := by
  refine Blocks.ext (funext fun p => ?_) rfl
  cases hp : s.allocations.find p.toUInt64 with
  | none => rw [heapOf_live_eq_none.mpr hp, heapOf_live_eq_none.mpr hp]
  | some a =>
    rw [heapOf_live hp, heapOf_live hp, Memory.load_congr _ fun b hlo hhi => ?_]
    exact hm _ a hp b (by rwa [UInt32.toNat_toUInt64]) (by rwa [UInt32.toNat_toUInt64])

theorem heapOf_of_sameArena (h : InSandbox s) (hm : SameArena s m m') :
    heapOf ⟨s, m'⟩ = heapOf ⟨s, m⟩ :=
  heapOf_congr fun _ _ hq b hlo hhi => hm b (h.record_in_arena hq hlo hhi).1

theorem toUInt64_eq_iff {p q : UInt32} : p.toUInt64 = q.toUInt64 ↔ p = q := by
  constructor
  · intro h
    have hnat := congrArg UInt64.toNat h
    rw [UInt32.toNat_toUInt64, UInt32.toNat_toUInt64] at hnat
    exact UInt32.toNat_inj.mp hnat
  · exact congrArg _

theorem heapOf_remove (p : UInt32) : heapOf ⟨s.remove p.toUInt64, m⟩ =
    ⟨Function.update (heapOf ⟨s, m⟩).live p none, (heapOf ⟨s, m⟩).used⟩ := by
  refine Blocks.ext (funext fun q => ?_) rfl
  show ((s.remove p.toUInt64).allocations.find q.toUInt64).map _ =
    Function.update (heapOf ⟨s, m⟩).live p none q
  rw [find_remove]
  by_cases hq : q = p
  · rw [hq, if_pos rfl, Function.update_self]
    rfl
  · rw [if_neg (fun h => hq (toUInt64_eq_iff.mp h)), Function.update_of_ne hq]
    rfl

theorem InSandbox.toNat_cursor32 (h : InSandbox s) {size : UInt64} (hf : s.Fits size) :
    s.cursor.toUInt32.toNat = s.cursor.toNat := by
  rw [UInt64.toNat_toUInt32, Nat.mod_eq_of_lt (h.cursor_lt hf).2]

theorem heapOf_record (h : InSandbox s) {size : UInt64} (hf : s.Fits size) (typeHash : UInt64)
    (siteId : SiteId) (hm : ∀ q a, s.allocations.find q = some a → ∀ b, q.toNat ≤ b →
      b < q.toNat + a.size.toNat → m' b = m b) :
    heapOf ⟨s.record size typeHash siteId, m'⟩ =
      ⟨Function.update (heapOf ⟨s, m⟩).live s.cursor.toUInt32
        (some ((typeHash, siteId), Memory.load m' s.cursor.toNat size.toNat)),
        { p | p.toNat < (s.record size typeHash siteId).cursor.toNat }⟩ := by
  have hnat := h.toNat_cursor32 hf
  have hback : s.cursor.toUInt32.toUInt64 = s.cursor := toUInt64_toUInt32 (h.cursor_lt hf).2
  rw [← heapOf_congr hm]
  refine Blocks.ext (funext fun q => ?_) rfl
  show ((s.record size typeHash siteId).allocations.find q.toUInt64).map _ =
    Function.update (heapOf ⟨s, m'⟩).live s.cursor.toUInt32 _ q
  rw [find_record h.layout]
  by_cases hq : q = s.cursor.toUInt32
  · rw [hq, hback, if_pos rfl, Function.update_self, Option.map_some, hnat]
  · rw [if_neg (fun he => hq (toUInt64_eq_iff.mp (he.trans hback.symm))),
      Function.update_of_ne hq]
    rfl

theorem InSandbox.cursor_unused (h : InSandbox s) {size : UInt64} (hf : s.Fits size) :
    s.cursor.toUInt32 ∉ (heapOf ⟨s, m⟩).used := by
  show ¬ s.cursor.toUInt32.toNat < s.cursor.toNat
  rw [h.toNat_cursor32 hf]
  exact Nat.lt_irrefl _

theorem InSandbox.used_grows (h : InSandbox s) {size : UInt64} (hf : s.Fits size)
    (typeHash : UInt64) (siteId : SiteId) : insert s.cursor.toUInt32 (heapOf ⟨s, m⟩).used ⊆
      { p | p.toNat < (s.record size typeHash siteId).cursor.toNat } := by
  have hnext : (s.record size typeHash siteId).cursor.toNat =
      s.cursor.toNat + roundUp8 size.toNat := by
    have hcur := h.layout.toNat_cursor hf.1
    have hcur' := (h.layout.record hf typeHash siteId).toNat_cursor hf.1
    have hused : (s.record size typeHash siteId).used.toNat = _ := hf.toNat_used
    have hbase : (s.record size typeHash siteId).base = s.base := rfl
    rw [hbase] at hcur'
    omega
  have hpos := roundUp8_pos (n := size.toNat) (fun h0 => hf.2.1 (UInt64.toNat_inj.mp h0))
  intro p hp
  show p.toNat < _
  rcases Set.mem_insert_iff.mp hp with rfl | hp
  · rw [h.toNat_cursor32 hf]
    omega
  · have hlt : p.toNat < s.cursor.toNat := hp
    omega

theorem heapOf_wellFormed (h : InSandbox s) : (heapOf ⟨s, m⟩).WellFormed := by
  intro q x hq
  obtain ⟨a, ha, _⟩ := heapOf_live_eq_some hq
  have hend := end_le_cursor h.layout ha
  have hpos := (h.layout.inArena _ a ha).size_pos
  rw [UInt32.toNat_toUInt64] at hend
  show q.toNat < s.cursor.toNat
  omega

theorem InSandbox.memcpy_kept (h : InSandbox s) (src n : Nat) :
    ∀ q a, s.allocations.find q = some a → ∀ b, q.toNat ≤ b → b < q.toNat + a.size.toNat →
      Memory.memcpy m s.cursor.toNat src n b = m b := fun _ _ hq _ hlo hhi =>
  Memory.memcpy_of_out (.inl (h.record_in_arena hq hlo hhi).2)

end Blocks

/-! ### One call -/

/-- What a call of the run does. -/
structure Refined (libc : Libc) (u : Sandbox) (call : HeapCall) : Prop where
  inSandbox : InSandbox (heap libc u call).1.runtime
  grows : Grows u.runtime (heap libc u call).1.runtime
  step : ∃ act, Meets u call (heap libc u call).2 act ∧
    Blocks.Step (heapOf u) act (heapOf (heap libc u call).1)

section Step

variable {s : Runtime} {m : Memory UInt8} {libc : Libc}

theorem InSandbox.remove (h : InSandbox s) (p : UInt64) : InSandbox (s.remove p) :=
  ⟨h.layout.remove p, h.base_ne_zero, h.end_le⟩

theorem InSandbox.record (h : InSandbox s) {size : UInt64} (hf : s.Fits size)
    (typeHash : UInt64) (siteId : SiteId) : InSandbox (s.record size typeHash siteId) :=
  ⟨h.layout.record hf typeHash siteId, h.base_ne_zero, h.end_le⟩

theorem InSandbox.full (h : InSandbox s) {size : UInt64} (h0 : size ≠ 0) (hf : ¬ s.Fits size) :
    s.capacity.toNat - s.used.toNat < roundUp8 size.toNat := by
  by_contra hroom
  have hused := h.layout.used_le
  exact hf ⟨h.layout.valid_iff.mpr (by have := h.end_le; omega), h0, by omega⟩

theorem InSandbox.size_le (h : InSandbox s) {q : UInt64} {a : Allocation}
    (hq : s.allocations.find q = some a) : a.size.toNat ≤ 2 ^ 32 - 1 := by
  have hin := h.layout.inArena q a hq
  have hbase := hin.base_le
  have hpos := hin.size_pos
  have hend := end_le_cursor h.layout hq
  have hcur := h.layout.toNat_cursor hin.valid
  have hused := h.layout.used_le
  have hspace := h.end_le
  have hb : s.base.toNat ≠ 0 := fun h0 => h.base_ne_zero (UInt64.toNat_inj.mp h0)
  omega

theorem toNat_sizeOf {str : List UInt8} (h : str.length + 1 ≤ 2 ^ 32 - 1) :
    (UInt32.ofNat (str.length + 1)).toUInt64.toNat = str.length + 1 := by
  rw [UInt32.toNat_toUInt64]
  exact UInt32.toNat_ofNat_of_lt' (show _ < 2 ^ 32 by omega)

/-- What may be read lies below the cursor, or outside of the arena. -/
theorem Accessible.apart (h : InSandbox s) {lo n size : Nat} (ha : Accessible ⟨s, m⟩ lo n)
    (hin : s.cursor.toNat + size ≤ s.base.toNat + s.capacity.toNat)
    (hcur : s.base.toNat ≤ s.cursor.toNat) (hn : 0 < n) (hle : n ≤ size) :
    s.cursor.toNat + n ≤ lo ∨ lo + n ≤ s.cursor.toNat := by
  rcases ha with ⟨p, a, hp, hlo, hhi⟩ | hout
  · have hend := end_le_cursor h.layout hp
    rw [UInt32.toNat_toUInt64] at hend
    exact .inr (by omega)
  · -- a range that meets the new record has a byte of the arena
    have hbyte : ∀ b, s.base.toNat ≤ b → b < s.base.toNat + s.capacity.toNat →
        ¬ (lo ≤ b ∧ b < lo + n) := fun b hb hb' hmeet => hout b hmeet.1 hmeet.2 ⟨hb, hb'⟩
    have h1 := hbyte s.cursor.toNat hcur (by omega)
    have h2 := hbyte lo
    omega

theorem Refined.of {u u' : Sandbox} {call : HeapCall} {answer : HeapAnswer}
    {act : Blocks.Act UInt32 (UInt64 × SiteId) UInt8} (hcall : heap libc u call = (u', answer))
    (hin : InSandbox u'.runtime) (hgrows : Grows u.runtime u'.runtime)
    (hmeets : Meets u call answer act)
    (hstep : Blocks.Step (heapOf u) act (heapOf u')) : Refined libc u call := by
  refine ⟨?_, ?_, act, ?_, ?_⟩ <;> rw [hcall]
  · exact hin
  · exact hgrows
  · exact hmeets
  · exact hstep

theorem strdup_refined (h : InSandbox s) {src : UInt32} {pc nextPc : UInt64}
    (hallowed : (HeapCall.strdup src pc nextPc).Allowed ⟨s, m⟩) :
    Refined libc ⟨s, m⟩ (.strdup src pc nextPc) := by
  -- three ways to return null
  have hnull : typedStrdup ⟨s, m⟩ src pc nextPc = (⟨s, m⟩, 0) →
      Meets ⟨s, m⟩ (.strdup src pc nextPc) (.pointer 0) .idle →
      Refined libc ⟨s, m⟩ (.strdup src pc nextPc) := fun hcopy hmeets => by
    have hcall : heap libc ⟨s, m⟩ (.strdup src pc nextPc) = (⟨s, m⟩, .pointer 0) := by
      rw [heap, hcopy]
    exact .of hcall h (.refl s) hmeets .idle
  by_cases hsrc : src = 0
  · exact hnull (if_pos hsrc) (.strdupNull (.inl hsrc))
  obtain ⟨str, hstr, hlen, hacc⟩ := hallowed.resolve_left hsrc
  have hcopy := typedStrdup_of_stringAt h hsrc hstr hlen pc nextPc
  have hsize := toNat_sizeOf hlen
  have h0 : (UInt32.ofNat (str.length + 1)).toUInt64 ≠ 0 := fun h0 => by
    rw [h0] at hsize
    cases hsize
  cases hsite : s.callbackSite pc nextPc with
  | none =>
    rw [hsite] at hcopy
    exact hnull hcopy (.strdupNull (.inr (.inl hsite)))
  | some site =>
    rw [hsite] at hcopy
    dsimp only at hcopy
    by_cases hf : s.Fits (UInt32.ofNat (str.length + 1)).toUInt64
    · rw [if_pos hf] at hcopy
      have hcur := h.layout.toNat_cursor hf.1
      have hroom := hf.2.2
      rw [hsize] at hroom
      have hround := le_roundUp8 (str.length + 1)
      have hapart : s.cursor.toNat + (str.length + 1) ≤ src.toNat ∨
          src.toNat + (str.length + 1) ≤ s.cursor.toNat :=
        hacc.apart h (by omega) (by omega) (by omega) (Nat.le_refl _)
      have hload := (hstr.memcpy hapart).load
      have hmeets : Meets ⟨s, m⟩ (.strdup src pc nextPc) (.pointer s.cursor.toUInt32)
          (.give s.cursor.toUInt32 (site.typeHash, site.id) (str ++ [0])) :=
        .strdup (toUInt32_ne_zero (h.cursor_lt hf).2
          (h.layout.cursor_ne_zero_of_base h.base_ne_zero hf.1)) hsite hstr
      have hcall : heap libc ⟨s, m⟩ (.strdup src pc nextPc) =
          (⟨s.record (UInt32.ofNat (str.length + 1)).toUInt64 site.typeHash site.id,
            Memory.memcpy m s.cursor.toNat src.toNat (str.length + 1)⟩,
            .pointer s.cursor.toUInt32) := by
        rw [heap, hcopy]
      refine .of hcall (h.record hf _ _) (grows_record h.layout hf _ _) hmeets ?_
      rw [heapOf_record h hf site.typeHash site.id
        (h.memcpy_kept (m := m) src.toNat (str.length + 1)), hsize, hload]
      exact .give (h.cursor_unused hf) (h.used_grows hf _ _)
    · rw [if_neg hf] at hcopy
      have hfull := h.full h0 hf
      rw [hsize] at hfull
      exact hnull hcopy (.strdupNull (.inr (.inr ⟨str, hstr, hfull⟩)))

theorem Freeable.outside {u : Sandbox} {p : UInt32} (h : Freeable u p)
    (hp : u.runtime.allocations.find p.toUInt64 = none) : ¬ InTypedArena u.runtime p.toNat :=
  h.resolve_left (fun hne => hne hp)

theorem free_refined (h : InSandbox s) (hlibc : libc.Apart) {p : UInt32}
    (hallowed : Freeable ⟨s, m⟩ p) : Refined libc ⟨s, m⟩ (.free p) := by
  cases hp : s.allocations.find p.toUInt64 with
  | none =>
    have hdead : (heapOf ⟨s, m⟩).live p = none := heapOf_live_eq_none.mpr hp
    by_cases h0 : p = 0
    · have hcall : heap libc ⟨s, m⟩ (.free p) = (⟨s, m⟩, .done) := by
        rw [heap, naclTypedFree, if_pos h0]
      exact .of hcall h (.refl s) (.freeOther hdead) .idle
    · have hreleased : p4cRelease s p = (s, 0) := by
        rw [p4cRelease, release, hp]
        rfl
      have hcall : heap libc ⟨s, m⟩ (.free p) = (libc.free ⟨s, m⟩ p, .done) := by
        rw [heap, naclTypedFree, if_neg h0]
        dsimp only [Lifetime.installed]
        rw [hreleased, if_neg (fun hne => hne rfl)]
      obtain ⟨hruntime, hmemory⟩ := hlibc.free ⟨s, m⟩ p (hallowed.outside hp)
      have hafter : libc.free ⟨s, m⟩ p = ⟨s, (libc.free ⟨s, m⟩ p).memory⟩ :=
        congrArg (fun r => (⟨r, (libc.free ⟨s, m⟩ p).memory⟩ : Sandbox)) hruntime
      rw [hafter] at hcall
      refine .of hcall h (.refl s) (.freeOther hdead) ?_
      rw [heapOf_of_sameArena h hmemory]
      exact .idle
  | some a =>
    have hlive := heapOf_live (u := ⟨s, m⟩) hp
    have hreleased : p4cRelease s p = (s.remove p.toUInt64, 1) := by
      rw [p4cRelease, release_of_find hp]
      rfl
    have hcall : heap libc ⟨s, m⟩ (.free p) = (⟨s.remove p.toUInt64, m⟩, .done) := by
      rw [heap, naclTypedFree, if_neg (h.ptr_ne_zero hp)]
      dsimp only [Lifetime.installed]
      rw [hreleased]
      rfl
    have hsome : (heapOf ⟨s, m⟩).live p ≠ none := by
      rw [hlive]
      exact Option.some_ne_none _
    refine .of hcall (h.remove _) (grows_remove s _) (.free hsome) ?_
    rw [heapOf_remove]
    exact .free hlive

theorem realloc_refined (h : InSandbox s) (hlibc : libc.Apart) {p n : UInt32}
    (hallowed : Freeable ⟨s, m⟩ p) : Refined libc ⟨s, m⟩ (.realloc p n) := by
  cases hp : s.allocations.find p.toUInt64 with
  | none =>
    have hdead : (heapOf ⟨s, m⟩).live p = none := heapOf_live_eq_none.mpr hp
    have hsize : p4cSize s p = 0 := by
      rw [p4cSize, allocationSize, hp]
      rfl
    have hcall : heap libc ⟨s, m⟩ (.realloc p n) = ((libc.realloc ⟨s, m⟩ p n).1,
        .pointer (libc.realloc ⟨s, m⟩ p n).2) := by
      rw [heap]
      by_cases h0 : p = 0
      · rw [naclTypedRealloc, if_pos h0, h0]
      · rw [naclTypedRealloc, if_neg h0, if_neg (not_max32_lt n)]
        dsimp only [Lifetime.installed]
        rw [hsize, if_neg (fun hne => hne rfl)]
    obtain ⟨hruntime, hmemory⟩ := hlibc.realloc ⟨s, m⟩ p n (hallowed.outside hp)
    have hafter : (libc.realloc ⟨s, m⟩ p n).1 = ⟨s, (libc.realloc ⟨s, m⟩ p n).1.memory⟩ :=
      congrArg (fun r => (⟨r, (libc.realloc ⟨s, m⟩ p n).1.memory⟩ : Sandbox)) hruntime
    rw [hafter] at hcall
    refine .of hcall h (.refl s) (.reallocOther hdead) ?_
    rw [heapOf_of_sameArena h hmemory]
    exact .idle
  | some a =>
    have hlive := heapOf_live (u := ⟨s, m⟩) hp
    have hsome : (heapOf ⟨s, m⟩).live p ≠ none := by
      rw [hlive]
      exact Option.some_ne_none _
    by_cases hn : n = 0
    · subst hn
      have hcall : heap libc ⟨s, m⟩ (.realloc p 0) = (⟨s.remove p.toUInt64, m⟩, .pointer 0) := by
        rw [heap, naclTypedRealloc_zero h hp (h.size_le hp)]
      refine .of hcall (h.remove _) (grows_remove s _) (.release hsome) ?_
      rw [heapOf_remove]
      exact .free hlive
    · have hmove := @naclTypedRealloc_of_find s h m _ _ _ hp (h.size_le hp) hn libc.realloc
      have hn0 : n.toUInt64 ≠ 0 := fun h0 => hn (toUInt64_eq_iff.mp h0)
      by_cases hf : s.Fits n.toUInt64
      · rw [if_pos hf] at hmove
        have hnull : s.cursor.toUInt32 ≠ 0 :=
          toUInt32_ne_zero (h.cursor_lt hf).2 (h.layout.cursor_ne_zero hp)
        generalize hm' : Memory.memcpy m s.cursor.toNat p.toNat (min a.size.toNat n.toNat) = m'
          at hmove
        have hcall : heap libc ⟨s, m⟩ (.realloc p n) =
            (⟨(s.record n.toUInt64 a.typeHash a.siteId).remove p.toUInt64, m'⟩,
              .pointer s.cursor.toUInt32) := by
          rw [heap, hmove]
        have hrec := h.record hf a.typeHash a.siteId
        refine .of hcall (hrec.remove _)
          ((grows_record h.layout hf _ _).trans _ _ _ (grows_remove _ _))
          (.resize (l := Memory.load m' s.cursor.toNat n.toNat) hn hnull
            (Memory.length_load _ _ _)) ?_
        have hne : p ≠ s.cursor.toUInt32 := by
          rintro rfl
          rw [toUInt64_toUInt32 (h.cursor_lt hf).2] at hp
          rw [h.layout.cursor_fresh] at hp
          cases hp
        rw [heapOf_remove, heapOf_record (m := m) h hf a.typeHash a.siteId
          (hm' ▸ h.memcpy_kept p.toNat _), UInt32.toNat_toUInt64]
        have hcomm : ∀ y z, Function.update (Function.update (heapOf ⟨s, m⟩).live
            s.cursor.toUInt32 y) p z = Function.update (Function.update (heapOf ⟨s, m⟩).live p z)
              s.cursor.toUInt32 y := fun y z =>
          Function.update_comm (β := fun _ => Option _) hne.symm y z _
        dsimp only
        rw [hcomm]
        refine .move hlive (h.cursor_unused hf) (h.used_grows hf _ _) ?_
        -- the common bytes are those that were copied
        have hbelow := end_le_cursor h.layout hp
        rw [UInt32.toNat_toUInt64] at hbelow
        have hcopied : Memory.load m' s.cursor.toNat (min a.size.toNat n.toNat) =
            Memory.load m p.toNat (min a.size.toNat n.toNat) := by
          rw [← hm']
          exact Memory.load_memcpy (.inr (by omega))
        show (Memory.load m' s.cursor.toNat n.toNat).take _ = List.take _ _
        rw [Memory.length_load, Memory.length_load]
        rcases Nat.le_total a.size.toNat n.toNat with hle | hle
        · rw [Nat.min_eq_left hle] at hcopied
          rw [Memory.load_take hle, hcopied, List.take_of_length_le]
          rw [Memory.length_load]
          exact hle
        · rw [Nat.min_eq_right hle] at hcopied
          rw [Memory.load_take hle, ← hcopied, List.take_of_length_le]
          rw [Memory.length_load]
          exact hle
      · rw [if_neg hf] at hmove
        have hcall : heap libc ⟨s, m⟩ (.realloc p n) = (⟨s, m⟩, .pointer 0) := by
          rw [heap, hmove]
        have hfull := h.full hn0 hf
        rw [UInt32.toNat_toUInt64] at hfull
        exact .of hcall h (.refl s) (.resizeNull hsome hn hfull) .idle

theorem InBlock.apart (h : InSandbox s) {p : UInt32} {lo n : Nat} (hin : InBlock ⟨s, m⟩ p lo n)
    {q : UInt32} (hq : q ≠ p) {a : Allocation} (ha : s.allocations.find q.toUInt64 = some a) :
    q.toNat + a.size.toNat ≤ lo ∨ lo + n ≤ q.toNat := by
  obtain ⟨b, hb, hlo, hhi⟩ := hin
  have hne : q.toUInt64 ≠ p.toUInt64 := fun he => hq (toUInt64_eq_iff.mp he)
  have hpad : ∀ {r : UInt32} {c : Allocation}, s.allocations.find r.toUInt64 = some c →
      r.toNat + c.size.toNat ≤ paddedEnd c := fun {r c} hr => by
    have hround := le_roundUp8 c.size.toNat
    rw [paddedEnd, (h.layout.inArena _ _ hr).base_eq, UInt32.toNat_toUInt64]
    omega
  rcases lt_or_gt_of_ne hne with hlt | hgt
  · have hsep := h.layout.separated _ _ _ _ ha hb hlt
    rw [UInt32.toNat_toUInt64] at hsep
    have := hpad ha
    exact .inl (by omega)
  · have hsep := h.layout.separated _ _ _ _ hb ha hgt
    rw [UInt32.toNat_toUInt64] at hsep
    have := hpad hb
    exact .inr (by omega)

theorem store_refined (h : InSandbox s) {address : UInt32} {bytes : List UInt8}
    (hallowed : Accessible ⟨s, m⟩ address.toNat bytes.length) :
    Refined libc ⟨s, m⟩ (.store address bytes) := by
  have hcall : heap libc ⟨s, m⟩ (.store address bytes) =
    (⟨s, Memory.storeList m address.toNat bytes⟩, .done) := rfl
  rcases hallowed with ⟨p, hin⟩ | hout
  · obtain ⟨a, ha, hlo, hhi⟩ := id hin
    obtain ⟨i, hi⟩ : ∃ i, address.toNat = p.toNat + i := ⟨_, (Nat.add_sub_cancel' hlo).symm⟩
    refine .of hcall h (.refl s) (.store hi) ?_
    have hupdate : heapOf ⟨s, Memory.storeList m address.toNat bytes⟩ =
        ⟨Function.update (heapOf ⟨s, m⟩).live p (some ((a.typeHash, a.siteId),
          Blocks.overwrite (Memory.load m p.toNat a.size.toNat) i bytes)),
          (heapOf ⟨s, m⟩).used⟩ := by
      refine Blocks.ext (funext fun q => ?_) rfl
      dsimp only
      by_cases hq : q = p
      · subst hq
        rw [heapOf_live (u := ⟨s, Memory.storeList m address.toNat bytes⟩) ha,
          Function.update_self, hi, Memory.load_storeList_inside (by omega)]
        rfl
      · rw [Function.update_of_ne hq]
        cases hfind : s.allocations.find q.toUInt64 with
        | none => rw [heapOf_live_eq_none.mpr hfind, heapOf_live_eq_none.mpr hfind]
        | some c =>
          have hapart := hin.apart h hq hfind
          rw [heapOf_live hfind, heapOf_live hfind, Memory.load_congr _ fun b hlo hhi => ?_]
          exact Memory.storeList_of_out (by omega)
    rw [hupdate]
    exact .write (heapOf_live ha) (by rw [Memory.length_load]; omega)
  · refine .of hcall h (.refl s) (.storeOutside hout) ?_
    rw [heapOf_of_sameArena h (m := m) fun b hb => Memory.storeList_of_out ?_]
    · exact .idle
    · by_contra hmeet
      exact hout b (by omega) (by omega) hb

theorem load_refined (h : InSandbox s) {address : UInt32} {count : Nat}
    (hallowed : Accessible ⟨s, m⟩ address.toNat count) :
    Refined libc ⟨s, m⟩ (.load address count) := by
  have hcall : heap libc ⟨s, m⟩ (.load address count) =
    (⟨s, m⟩, .bytes (Memory.load m address.toNat count)) := rfl
  rcases hallowed with ⟨p, a, ha, hlo, hhi⟩ | hout
  · obtain ⟨i, hi⟩ : ∃ i, address.toNat = p.toNat + i := ⟨_, (Nat.add_sub_cancel' hlo).symm⟩
    have hread := Blocks.Step.read (h := heapOf ⟨s, m⟩) (n := count) (heapOf_live ha)
      (i := i) (by rw [Memory.length_load]; omega)
    rw [← Memory.load_inside (by omega), ← hi] at hread
    exact .of hcall h (.refl s) (.load hi (Memory.length_load _ _ _)) hread
  · exact .of hcall h (.refl s) (.loadOutside hout) .idle

/-- **One call does to the heap of blocks what C says.** -/
theorem heap_refined {u : Sandbox} (h : InSandbox u.runtime) (hlibc : libc.Apart)
    {call : HeapCall} (hallowed : call.Allowed u) : Refined libc u call := by
  obtain ⟨s, m⟩ := u
  cases call with
  | strdup src pc nextPc => exact strdup_refined h hallowed
  | free ptr => exact free_refined h hlibc hallowed
  | realloc ptr size => exact realloc_refined h hlibc hallowed
  | store address bytes => exact store_refined h hallowed
  | load address count => exact load_refined h hallowed

end Step

/-! ### Runs -/

section Run

variable {libc : Libc} {u : Sandbox} {calls : List HeapCall}

/-- What C asks of the program, along a run. -/
abbrev Lawful (libc : Libc) (u : Sandbox) (calls : List HeapCall) : Prop :=
  (heap libc).Along (fun u call => call.Allowed u) u calls

/-- The state before the `n`-th call. -/
abbrev heapAt (libc : Libc) (u : Sandbox) (calls : List HeapCall) (n : Nat) : Sandbox :=
  Machine.after (heap libc) u (calls.take n)

theorem heapAt_inSandbox (h : InSandbox u.runtime) (hlibc : libc.Apart)
    (hcalls : Lawful libc u calls) (n : Nat) : InSandbox (heapAt libc u calls n).runtime := by
  have hpart := hcalls.part (R := fun _ _ => True) (Nat.zero_le n) (fun _ _ _ _ _ => trivial)
  exact hpart.after (P := fun v => InSandbox v.runtime)
    (fun v call hv hallowed => (heap_refined hv hlibc hallowed.1).inSandbox) h

theorem heapAt_refined (h : InSandbox u.runtime) (hlibc : libc.Apart)
    (hcalls : Lawful libc u calls) {n : Nat} {call : HeapCall} (hcall : calls[n]? = some call) :
    Refined libc (heapAt libc u calls n) call :=
  heap_refined (heapAt_inSandbox h hlibc hcalls n) hlibc (Machine.along_iff.mp hcalls n call hcall)

theorem heapAt_succ {n : Nat} {call : HeapCall} (hcall : calls[n]? = some call) :
    heapAt libc u calls (n + 1) = (heap libc (heapAt libc u calls n) call).1 :=
  Machine.after_take_succ _ _ hcall

theorem heapAt_answer {n : Nat} {call : HeapCall} {answer : HeapAnswer}
    (hcall : calls[n]? = some call)
    (hanswer : (Machine.outputs (heap libc) u calls)[n]? = some answer) :
    (heap libc (heapAt libc u calls n) call).2 = answer := by
  rw [Machine.getElem?_outputs, hcall] at hanswer
  exact Option.some.inj hanswer

/-- The calls that may change the block under the pointer. -/
def HeapCall.Touches (u : Sandbox) (p : UInt32) : HeapCall → Prop
  | .free q | .realloc q _ => q = p
  | .store address bytes => InBlock u p address.toNat bytes.length
  | _ => False

theorem not_changes_of_meets {call : HeapCall} {answer : HeapAnswer}
    {act : Blocks.Act UInt32 (UInt64 × SiteId) UInt8} {h' : Heap} {p : UInt32}
    (hmeets : Meets u call answer act) (hstep : Blocks.Step (heapOf u) act h')
    (hno : ¬ call.Touches u p) : ¬ act.Changes p := by
  intro hact
  cases hmeets with
  | strdup => exact hact
  | strdupNull => exact hact
  | free => exact hno hact
  | freeOther => exact hact
  | release => exact hno hact
  | resize => exact hno hact
  | resizeNull => exact hact
  | reallocOther => exact hact
  | store place =>
    cases hstep with
    | write found fits =>
      obtain rfl : _ = p := hact
      obtain ⟨a, ha, _, rfl⟩ := heapOf_live_eq_some found
      rw [Memory.length_load] at fits
      exact hno ⟨a, ha, by omega, by omega⟩
  | storeOutside => exact hact
  | load => exact hact
  | loadOutside => exact hact

/-- **A block that the calls do not touch stays as it is.** -/
theorem heapAt_frame (h : InSandbox u.runtime) (hlibc : libc.Apart)
    (hcalls : Lawful libc u calls) {m n : Nat} (hmn : m ≤ n) {p : UInt32}
    (hno : ∀ k call, m ≤ k → k < n → calls[k]? = some call →
      ¬ call.Touches (heapAt libc u calls k) p) {x : (UInt64 × SiteId) × List UInt8}
    (hp : (heapOf (heapAt libc u calls m)).live p = some x) :
    (heapOf (heapAt libc u calls n)).live p = some x := by
  have hpart := hcalls.part hmn (R := fun v call => ¬ call.Touches v p) hno
  have hrun := hpart.after
    (P := fun v => InSandbox v.runtime ∧ (heapOf v).live p = some x) ?_
    ⟨heapAt_inSandbox h hlibc hcalls m, hp⟩
  · rw [← Machine.after_take_of_le _ _ _ hmn] at hrun
    exact hrun.2
  · rintro v call ⟨hv, hlive⟩ ⟨hallowed, huntouched⟩
    have href := heap_refined hv hlibc hallowed
    obtain ⟨act, hmeets, hstep⟩ := href.step
    exact ⟨href.inSandbox, hstep.frame (heapOf_wellFormed (m := v.memory) hv)
      (not_changes_of_meets hmeets hstep huntouched) hlive⟩

/-- **A block that is gone stays away.** -/
theorem heapAt_spent (h : InSandbox u.runtime) (hlibc : libc.Apart)
    (hcalls : Lawful libc u calls) {m n : Nat} (hmn : m ≤ n) :
    Grows (heapAt libc u calls m).runtime (heapAt libc u calls n).runtime ∧
    ∀ p ∈ (heapOf (heapAt libc u calls m)).used,
      (heapOf (heapAt libc u calls m)).live p = none →
        (heapOf (heapAt libc u calls n)).live p = none := by
  have hpart := hcalls.part hmn (R := fun _ _ => True) (fun _ _ _ _ _ => trivial)
  have hrun := hpart.after (P := fun v => InSandbox v.runtime ∧
    Grows (heapAt libc u calls m).runtime v.runtime ∧
      ∀ p ∈ (heapOf (heapAt libc u calls m)).used,
        (heapOf (heapAt libc u calls m)).live p = none →
          p ∈ (heapOf v).used ∧ (heapOf v).live p = none) ?_
    ⟨heapAt_inSandbox h hlibc hcalls m, .refl _, fun p hused hp => ⟨hused, hp⟩⟩
  · rw [← Machine.after_take_of_le _ _ _ hmn] at hrun
    exact ⟨hrun.2.1, fun p hused hp => (hrun.2.2 p hused hp).2⟩
  · rintro v call ⟨hv, hgrows, hdead⟩ ⟨hallowed, _⟩
    have href := heap_refined hv hlibc hallowed
    obtain ⟨act, _, hstep⟩ := href.step
    refine ⟨href.inSandbox, hgrows.trans _ _ _ href.grows, fun p hused hp => ?_⟩
    obtain ⟨hu, hl⟩ := hdead p hused hp
    exact ⟨hstep.used_subset hu, hstep.spent hu hl⟩

end Run

/-! ### Main results -/

theorem inSandbox_reachable {arenaBase arenaSize : UInt64} (hbase : arenaBase ≠ 0)
    (hspace : arenaBase.toNat + arenaSize.toNat ≤ 2 ^ 32) (ops : List Op) :
    InSandbox ((new arenaBase arenaSize).after ops) :=
  (EngineOver.reachable hbase hspace ops (fun _ => 0) []).inSandbox

/-- A C library that is never called. -/
def idleLibc : Libc := ⟨fun u _ => u, fun u _ _ => (u, 0)⟩

theorem idleLibc_apart : idleLibc.Apart :=
  ⟨fun _ _ _ => ⟨rfl, fun _ _ => rfl⟩, fun _ _ _ _ => ⟨rfl, fun _ _ => rfl⟩⟩

/-- A string of two bytes, and zeros. -/
def hiAt8192 : Memory UInt8 := fun b => if b = 8192 then 104 else if b = 8193 then 105 else 0

theorem hiAt8192_text : Memory.StringAt 0 hiAt8192 8192 [104, 105] := ⟨by decide, by decide⟩

theorem hiAt8192_allowed (s : Runtime) (hbase : s.base = 4096) (hcapacity : s.capacity = 64)
    {pc nextPc : UInt64} : (HeapCall.strdup 8192 pc nextPc).Allowed ⟨s, hiAt8192⟩ := by
  refine .inr ⟨[104, 105], hiAt8192_text, by decide, .inr fun b hlo _ hin => ?_⟩
  have hhi := hin.2
  rw [show (⟨s, hiAt8192⟩ : Sandbox).runtime = s from rfl, hbase, hcapacity] at hhi
  have hlo : 8192 ≤ b := hlo
  have hend : (4096 : UInt64).toNat + (64 : UInt64).toNat = 4160 := rfl
  omega

section Strings

variable {libc : Libc} {u : Sandbox} {calls : List HeapCall}

theorem marshalled_of_live {v : Sandbox} {p : UInt32} {siteId : SiteId} {str : List UInt8}
    (hfree : 0 ∉ str) (hp : (heapOf v).live p = some ((kTypeHashChar, siteId), str ++ [0]))
    (trusted : List (List UInt8)) : Marshalled ⟨v, trusted⟩ p str := by
  obtain ⟨a, ha, hlabel, hload⟩ := heapOf_live_eq_some hp
  have hsize : a.size.toNat = str.length + 1 := by
    have hlen := congrArg List.length hload
    rw [Memory.length_load, List.length_append, List.length_singleton] at hlen
    exact hlen.symm
  rw [hsize] at hload
  exact ⟨⟨a, ha, hsize, (Prod.mk.inj hlabel).1.symm⟩, hfree, hload.symm⟩

theorem gone_of_meets {call : HeapCall} {answer : HeapAnswer}
    {act : Blocks.Act UInt32 (UInt64 × SiteId) UInt8} {p : UInt32}
    (hmeets : Meets u call answer act) (hlive : (heapOf u).live p ≠ none)
    (hends : call = .free p ∨ ∃ n, call = .realloc p n ∧ (n = 0 ∨ answer ≠ .pointer 0)) :
    act = .free p ∨ ∃ a' l, act = .move p a' l := by
  rcases hends with rfl | ⟨n, rfl, hn⟩
  · cases hmeets with
    | free => exact .inl rfl
    | freeOther dead => exact absurd dead hlive
  · cases hmeets with
    | release => exact .inl rfl
    | resize => exact .inr ⟨_, _, rfl⟩
    | resizeNull _ nonzero =>
      rcases hn with h0 | hne
      · exact absurd h0 nonzero
      · exact absurd rfl hne
    | reallocOther dead => exact absurd dead hlive

/-- A record that was there and has ended covers nothing any more, nor does another one
cover what it did. -/
theorem uncovered_of_gone {s t : Runtime} (h : Layout s) (ht : Layout t) (hg : Grows s t)
    {p : UInt64} {a : Allocation} (hp : s.allocations.find p = some a)
    (hgone : t.allocations.find p = none) {q : UInt64} (hq : a.Covers q) :
    ∀ b, ¬ CharRecord t q b := by
  rintro b ⟨hb, hbq, _⟩
  have hin := h.inArena p a hp
  have hfind := (mem_live ht).mp hb
  rcases hg.old_or_above _ b hfind with hold | habove
  · have has : a ∈ s.live := (mem_live h).mpr (by rw [hin.base_eq]; exact hp)
    have hab := h.covers_unique has ((mem_live h).mpr hold) hq hbq
    rw [← hab, hin.base_eq, hgone] at hfind
    cases hfind
  · have hpad := le_roundUp8 a.size.toNat
    have hend := hin.end_le
    rw [paddedEnd] at hend
    have h1 := hbq.1
    have h2 := hq.2
    omega

end Strings

/-- **A copied string stays, and a freed one is rejected for good.**  In every run of lawful
calls, a `char` block that `strdup` has returned is accepted by `copy_checked` with its string
as long as no call touches the block; and once a block is freed, resized to 0 or moved, no
pointer to any of its bytes is ever accepted again. -/
theorem typed_string_lives (arenaBase arenaSize : UInt64) (hbase : arenaBase ≠ 0)
    (hspace : arenaBase.toNat + arenaSize.toNat ≤ 2 ^ 32) (ops : List Op)
    (memory : Memory UInt8) (libc : Libc) (hlibc : libc.Apart) (calls : List HeapCall)
    (hcalls : Lawful libc ⟨(new arenaBase arenaSize).after ops, memory⟩ calls)
    (i j : Nat) (hij : i < j) (p : UInt32) :
    let u : Sandbox := ⟨(new arenaBase arenaSize).after ops, memory⟩
    let state := heapAt libc u calls
    (∀ src pc nextPc str, calls[i]? = some (.strdup src pc nextPc) → p ≠ 0 →
      (Machine.outputs (heap libc) u calls)[i]? = some (.pointer p) →
      Memory.StringAt 0 (state i).memory src.toNat str →
      (∀ site, (state i).runtime.callbackSite pc nextPc = some site →
        site.typeHash = kTypeHashChar) →
      (∀ k call, i < k → k < j → calls[k]? = some call → ¬ call.Touches (state k) p) →
      ∀ trusted, (copyChecked ⟨state j, trusted⟩ (some p.toUInt64)).result =
        .ok (some (str ++ [0]))) ∧
    ∀ a call answer, (state i).runtime.allocations.find p.toUInt64 = some a →
      calls[i]? = some call → (Machine.outputs (heap libc) u calls)[i]? = some answer →
      (call = .free p ∨ ∃ n, call = .realloc p n ∧ (n = 0 ∨ answer ≠ .pointer 0)) →
      ∀ q : UInt64, a.Covers q → ∀ trusted,
        copyChecked ⟨state j, trusted⟩ (some q) =
          ⟨⟨state j, trusted⟩, [], .error .rejectedPointer⟩ := by
  intro u state
  have h : InSandbox u.runtime := inSandbox_reachable hbase hspace ops
  have hat : ∀ n, InSandbox (state n).runtime := heapAt_inSandbox h hlibc hcalls
  constructor
  · intro src pc nextPc str hcall hnull hanswer hstr hchar hno trusted
    have href := heapAt_refined h hlibc hcalls hcall
    obtain ⟨act, hmeets, hstep⟩ := href.step
    rw [heapAt_answer hcall hanswer] at hmeets
    rw [← heapAt_succ hcall] at hstep
    cases hmeets with
    | strdupNull => exact absurd rfl hnull
    | strdup nonnull authority text =>
      rename_i site str'
      obtain rfl : str' = str := text.unique hstr
      have hlive : (heapOf (state (i + 1))).live p =
          some ((site.typeHash, site.id), str' ++ [0]) := by
        revert hstep
        generalize heapOf (heapAt libc u calls (i + 1)) = next
        intro hstep
        cases hstep with
        | give fresh grows => exact Function.update_self _ _ _
      have hkept := heapAt_frame h hlibc hcalls hij (fun k call hk => hno k call hk) hlive
      rw [hchar site authority] at hkept
      exact (marshalled_of_live hstr.free hkept trusted).copyChecked (hat j).layout
  · intro a call answer hp hcall hanswer hends q hq trusted
    have href := heapAt_refined h hlibc hcalls hcall
    obtain ⟨act, hmeets, hstep⟩ := href.step
    rw [heapAt_answer hcall hanswer] at hmeets
    have hwf := heapOf_wellFormed (m := (state i).memory) (hat i)
    have hlive : (heapOf (state i)).live p ≠ none := fun hnone => by
      rw [heapOf_live_eq_none.mp hnone] at hp
      cases hp
    have hgone := hstep.gone hwf (gone_of_meets hmeets hlive hends)
    rw [← heapAt_succ hcall] at hgone
    have hnext : state (i + 1) = _ := heapAt_succ hcall
    have hused : p ∈ (heapOf (state (i + 1))).used := by
      rw [hnext]
      exact hstep.used_subset (hwf p _ (heapOf_live hp))
    obtain ⟨hgrows, hdead⟩ := heapAt_spent h hlibc hcalls (Nat.le_of_lt hij)
    obtain ⟨_, hspent⟩ := heapAt_spent h hlibc hcalls hij
    have hnone := heapOf_live_eq_none.mp (hspent p hused hgone)
    exact copyChecked_rejected (hat j).layout
      (uncovered_of_gone (hat i).layout (hat j).layout hgrows hp hnone hq)

/-- A string is copied, is there, is freed and is not there. -/
theorem typed_string_lives_short :
    let u : Sandbox := ⟨(new 4096 64).after
      [.registerType 1 kTypeHashChar, .registerAllocationSite 1 100 200 1], hiAt8192⟩
    let state := heapAt idleLibc u [.strdup 8192 150 0, .free 4096]
    (copyChecked ⟨state 1, []⟩ (some 4096)).result = .ok (some [104, 105, 0]) ∧
      (copyChecked ⟨state 2, []⟩ (some 4097)).result = .error .rejectedPointer := by
  intro u state
  have hlawful : Lawful idleLibc u [.strdup 8192 150 0, .free 4096] :=
    ⟨hiAt8192_allowed _ rfl rfl, .inl (by decide +kernel), trivial⟩
  constructor
  · refine (typed_string_lives 4096 64 (by decide) (by decide) _ hiAt8192 idleLibc
      idleLibc_apart _ hlawful 0 1 (by decide) 4096).1 8192 150 0 [104, 105] rfl (by decide)
      (by decide +kernel) hiAt8192_text (fun site hsite => ?_) (fun k _ h1 h2 => by omega) []
    obtain rfl : ⟨1, 100, 200, 1, kTypeHashChar⟩ = site := Option.some.inj hsite
    rfl
  · have hgone := (typed_string_lives 4096 64 (by decide) (by decide) _ hiAt8192 idleLibc
      idleLibc_apart _ hlawful 1 2 (by decide) 4096).2 ⟨4096, 3, kTypeHashChar, 1⟩ (.free 4096)
      .done (by decide +kernel) rfl (by decide +kernel) (.inl rfl) 4097 (by decide) []
    exact congrArg CheckedCopy.result hgone

end InterSpec.Bridge
