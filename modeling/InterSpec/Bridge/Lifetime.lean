import InterSpec.Data.Memory
import InterSpec.Runtime.PolicyRuntime

/-!
# Callbacks and the shims

The untrusted side of the popt integration asks the trusted runtime for every
change of its typed heap, and moves the bytes itself.  A pointer of the sandbox has
32 bits; the memory is indexed by sandbox address.

* `p4cAllocate` .. `p4cReallocate`: the callbacks of `integration/rsync_popt/p4c_bridge.cpp`.
* `naclTypedRealloc`, `wasmTypedRealloc`: `interspec_typed_realloc` of the two shims, with
  the C library as a parameter.
* `typed_realloc_exact`: both keep the semantics of `realloc` for a tracked pointer.
-/

namespace InterSpec.Bridge

open InterSpec.Runtime

/-- The trusted runtime and the bytes of the sandbox. -/
structure Sandbox where
  runtime : Runtime
  memory : Memory UInt8

def max32 : UInt64 := UInt64.ofNat (2 ^ 32 - 1)

@[simp] theorem toNat_max32 : max32.toNat = 2 ^ 32 - 1 := rfl

/-! ### Callbacks -/

/-- `p4c_allocate`; the program counters are those of the callback. -/
def p4cAllocate (s : Runtime) (size : UInt32) (pc nextPc : UInt64) : Runtime × UInt32 :=
  let result := s.allocateFromCallback size.toUInt64 pc nextPc
  (result.1, result.2.toUInt32)

def p4cRelease (s : Runtime) (ptr : UInt32) : Runtime × UInt32 :=
  let result := s.release ptr.toUInt64
  (result.1, if result.2 then 1 else 0)

def p4cSize (s : Runtime) (ptr : UInt32) : UInt32 :=
  let found := s.allocationSize ptr.toUInt64 0
  if found.1 = false then 0 else if max32 < found.2 then 0 else found.2.toUInt32

def p4cReallocate (s : Runtime) (ptr size : UInt32) : Runtime × UInt32 :=
  let result := s.reallocate ptr.toUInt64 size.toUInt64
  (result.1, result.2.toUInt32)

/-- The lifetime callbacks, each null until it is installed. -/
structure Lifetime where
  release : Option (Runtime → UInt32 → Runtime × UInt32)
  size : Option (Runtime → UInt32 → UInt32)
  reallocate : Option (Runtime → UInt32 → UInt32 → Runtime × UInt32)

/-- What `interspec_popt_init_lifetime`, or the wasm engine, installs. -/
def Lifetime.installed : Lifetime := ⟨some p4cRelease, some p4cSize, some p4cReallocate⟩

/-! ### `interspec_typed_realloc` -/

/-- `realloc` of the C library of the sandbox. -/
abbrev LibcRealloc := Sandbox → UInt32 → UInt32 → Sandbox × UInt32

/-- The bytes to copy. -/
def copySize (oldSize size : UInt32) : UInt32 := if oldSize < size then oldSize else size

/-- `interspec_typed_realloc` of `popt_typed_shim.c`.  A `size_t` of the sandbox has 32
bits, so the test against `UINT32_MAX` never fires. -/
def naclTypedRealloc (realloc : LibcRealloc) (cb : Lifetime) (u : Sandbox) (ptr size : UInt32) :
    Sandbox × UInt32 :=
  if ptr = 0 then realloc u 0 size
  else if max32 < size.toUInt64 then (u, 0)
  else
    match cb.size, cb.reallocate with
    | some interspecSize, some interspecRealloc =>
      let oldSize := interspecSize u.runtime ptr
      if oldSize ≠ 0 then
        if size = 0 then
          match cb.release with
          | some interspecRelease => ({ u with runtime := (interspecRelease u.runtime ptr).1 }, 0)
          | none => (u, 0)
        else
          let moved := interspecRealloc u.runtime ptr size
          if moved.2 = 0 then ({ u with runtime := moved.1 }, 0)
          else
            (⟨moved.1,
                Memory.memcpy u.memory moved.2.toNat ptr.toNat (copySize oldSize size).toNat⟩,
              moved.2)
      else realloc u ptr size
    | _, _ => realloc u ptr size

/-- `interspec_wasm_release`; an import whose callback is missing returns 0. -/
def interspecWasmRelease (env : Lifetime) (s : Runtime) (ptr : UInt32) : Runtime × UInt32 :=
  match env.release with
  | some release => release s ptr
  | none => (s, 0)

def interspecWasmSize (env : Lifetime) (s : Runtime) (ptr : UInt32) : UInt32 :=
  match env.size with
  | some size => size s ptr
  | none => 0

def interspecWasmReallocate (env : Lifetime) (s : Runtime) (ptr size : UInt32) :
    Runtime × UInt32 :=
  match env.reallocate with
  | some reallocate => reallocate s ptr size
  | none => (s, 0)

/-- `interspec_typed_realloc` of `popt_typed_shim_wasm.c`. -/
def wasmTypedRealloc (realloc : LibcRealloc) (env : Lifetime) (u : Sandbox) (ptr size : UInt32) :
    Sandbox × UInt32 :=
  if ptr = 0 then realloc u 0 size
  else if max32 < size.toUInt64 then (u, 0)
  else
    let oldSize := interspecWasmSize env u.runtime ptr
    if oldSize ≠ 0 then
      if size = 0 then ({ u with runtime := (interspecWasmRelease env u.runtime ptr).1 }, 0)
      else
        let moved := interspecWasmReallocate env u.runtime ptr size
        if moved.2 = 0 then ({ u with runtime := moved.1 }, 0)
        else
          (⟨moved.1, Memory.memcpy u.memory moved.2.toNat ptr.toNat (copySize oldSize size).toNat⟩,
            moved.2)
    else realloc u ptr size

/-! ### Words of both widths -/

theorem toUInt64_toUInt32 {x : UInt64} (h : x.toNat < 2 ^ 32) : x.toUInt32.toUInt64 = x := by
  apply UInt64.toNat_inj.mp
  rw [UInt32.toNat_toUInt64, UInt64.toNat_toUInt32, Nat.mod_eq_of_lt h]

theorem toUInt32_ne_zero {x : UInt64} (h : x.toNat < 2 ^ 32) (h0 : x ≠ 0) : x.toUInt32 ≠ 0 := by
  intro hz
  apply h0
  rw [← toUInt64_toUInt32 h, hz]
  rfl

theorem not_max32_lt (n : UInt32) : ¬ max32 < n.toUInt64 := by
  have hn := n.toNat_lt
  rw [UInt64.lt_iff_toNat_lt, UInt32.toNat_toUInt64, toNat_max32]
  omega

theorem toNat_copySize (oldSize size : UInt32) :
    (copySize oldSize size).toNat = min oldSize.toNat size.toNat := by
  unfold copySize
  by_cases h : oldSize < size
  · rw [if_pos h, Nat.min_eq_left (Nat.le_of_lt (UInt32.lt_iff_toNat_lt.mp h))]
  · rw [if_neg h, Nat.min_eq_right (UInt32.le_iff_toNat_le.mp (UInt32.not_lt.mp h))]

/-! ### Tracked pointers -/

/-- The arena lies in the 32-bit space of the sandbox, above address 0. -/
structure InSandbox (s : Runtime) : Prop where
  layout : Layout s
  base_ne_zero : s.base ≠ 0
  end_le : s.base.toNat + s.capacity.toNat ≤ 2 ^ 32

theorem InSandbox.cursor_lt {s : Runtime} (h : InSandbox s) {size : UInt64} (hf : s.Fits size) :
    s.cursor.toNat + size.toNat ≤ 2 ^ 32 ∧ s.cursor.toNat < 2 ^ 32 := by
  have hcur := h.layout.toNat_cursor hf.1
  have hfit := hf.2.2
  have hle := le_roundUp8 size.toNat
  have hpos := roundUp8_pos (n := size.toNat) (fun h0 => hf.2.1 (UInt64.toNat_inj.mp h0))
  have hend := h.end_le
  omega

theorem InSandbox.ptr_ne_zero {s : Runtime} (h : InSandbox s) {p : UInt32} {a : Allocation}
    (hp : s.allocations.find p.toUInt64 = some a) : p ≠ 0 := by
  rintro rfl
  have hle := (h.layout.inArena _ _ hp).base_le
  have hz : ((0 : UInt32).toUInt64).toNat = 0 := rfl
  have hb : s.base.toNat ≠ 0 := fun h0 => h.base_ne_zero (UInt64.toNat_inj.mp h0)
  omega

theorem p4cSize_of_find {s : Runtime} {p : UInt32} {a : Allocation}
    (hp : s.allocations.find p.toUInt64 = some a) (hsize : a.size.toNat ≤ 2 ^ 32 - 1) :
    p4cSize s p = a.size.toUInt32 := by
  have hle : ¬ max32 < a.size := by
    rw [UInt64.lt_iff_toNat_lt, toNat_max32]
    omega
  rw [p4cSize, allocationSize, hp]
  exact (if_neg Bool.true_eq_false.mp).trans (if_neg hle)

theorem shims_agree (realloc : LibcRealloc) (u : Sandbox) (ptr size : UInt32) :
    naclTypedRealloc realloc .installed u ptr size =
      wasmTypedRealloc realloc .installed u ptr size := rfl

/-- `realloc` has moved the record `a` from `p` to `dst` and copied the common bytes. -/
structure Moved (u v : Sandbox) (p dst n : UInt32) (a : Allocation) : Prop where
  nonnull : dst ≠ 0
  recorded : v.runtime.allocations.find dst.toUInt64 =
    some ⟨dst.toUInt64, n.toUInt64, a.typeHash, a.siteId⟩
  untracked : v.runtime.allocations.find p.toUInt64 = none
  others : ∀ q, q ≠ p.toUInt64 → q ≠ dst.toUInt64 →
    v.runtime.allocations.find q = u.runtime.allocations.find q
  rest : v.runtime = { u.runtime with allocations := v.runtime.allocations, used := v.runtime.used }
  memcpy : v.memory = Memory.memcpy u.memory dst.toNat p.toNat (min a.size.toNat n.toNat)
  apart : p.toNat + a.size.toNat ≤ dst.toNat
  copied : ∀ i < min a.size.toNat n.toNat, v.memory (dst.toNat + i) = u.memory (p.toNat + i)
  live : ∀ q x, u.runtime.allocations.find q = some x → ∀ i < x.size.toNat,
    v.memory (q.toNat + i) = u.memory (q.toNat + i)

theorem naclTypedRealloc_zero {s : Runtime} (h : InSandbox s) {memory : Memory UInt8} {p : UInt32}
    {a : Allocation} (hp : s.allocations.find p.toUInt64 = some a)
    (hold : a.size.toNat ≤ 2 ^ 32 - 1) (realloc : LibcRealloc) :
    naclTypedRealloc realloc .installed ⟨s, memory⟩ p 0 =
      (⟨s.remove p.toUInt64, memory⟩, 0) := by
  have hpos := (h.layout.inArena _ _ hp).size_pos
  have hsize : p4cSize s p ≠ 0 := by
    rw [p4cSize_of_find hp hold]
    exact toUInt32_ne_zero (by omega) (fun h0 => by rw [h0] at hpos; cases hpos)
  unfold naclTypedRealloc
  rw [if_neg (h.ptr_ne_zero hp), if_neg (not_max32_lt 0)]
  refine (if_pos hsize).trans ((if_pos rfl).trans ?_)
  show (({ runtime := (s.release p.toUInt64).1, memory := memory } : Sandbox), (0 : UInt32)) = _
  rw [release_of_find hp]

/-- A resize to `n > 0`, as what the trusted runtime makes of it. -/
theorem naclTypedRealloc_of_find {s : Runtime} (h : InSandbox s) {memory : Memory UInt8}
    {p n : UInt32} {a : Allocation} (hp : s.allocations.find p.toUInt64 = some a)
    (hold : a.size.toNat ≤ 2 ^ 32 - 1) (hn : n ≠ 0) (realloc : LibcRealloc) :
    naclTypedRealloc realloc .installed ⟨s, memory⟩ p n =
      if s.Fits n.toUInt64 then
        (⟨(s.record n.toUInt64 a.typeHash a.siteId).remove p.toUInt64,
          Memory.memcpy memory s.cursor.toNat p.toNat (min a.size.toNat n.toNat)⟩,
          s.cursor.toUInt32)
      else (⟨s, memory⟩, 0) := by
  have hpos := (h.layout.inArena _ _ hp).size_pos
  have hsize : p4cSize s p = a.size.toUInt32 := p4cSize_of_find hp hold
  have hne : p4cSize s p ≠ 0 := by
    rw [hsize]
    exact toUInt32_ne_zero (by omega) (fun h0 => by rw [h0] at hpos; cases hpos)
  have hnz : n.toUInt64 ≠ 0 := by
    intro h0
    have hnat := congrArg UInt64.toNat h0
    rw [UInt32.toNat_toUInt64] at hnat
    exact hn (UInt32.toNat_inj.mp hnat)
  unfold naclTypedRealloc
  rw [if_neg (h.ptr_ne_zero hp), if_neg (not_max32_lt n)]
  refine (if_pos hne).trans ((if_neg hn).trans ?_)
  dsimp only
  by_cases hf : s.Fits n.toUInt64
  · have hcursor := h.cursor_lt hf
    have hmoved : p4cReallocate s p n =
        ((s.record n.toUInt64 a.typeHash a.siteId).remove p.toUInt64, s.cursor.toUInt32) := by
      rw [p4cReallocate, reallocate_of_find h.layout hp hnz, if_pos hf]
    have hnull : s.cursor.toUInt32 ≠ 0 :=
      toUInt32_ne_zero hcursor.2 (h.layout.cursor_ne_zero hp)
    rw [if_pos hf, hmoved, if_neg hnull, hsize, toNat_copySize, UInt64.toNat_toUInt32,
      UInt64.toNat_toUInt32, Nat.mod_eq_of_lt hcursor.2, Nat.mod_eq_of_lt (by omega)]
  · have hmoved : p4cReallocate s p n = (s, 0) := by
      rw [p4cReallocate, reallocate_of_find h.layout hp hnz, if_neg hf]
      rfl
    rw [if_neg hf, hmoved, if_pos rfl]

theorem end_le_cursor {s : Runtime} (h : Layout s) {q : UInt64} {x : Allocation}
    (hq : s.allocations.find q = some x) : q.toNat + x.size.toNat ≤ s.cursor.toNat := by
  have hend := h.base_lt_cursor hq
  have hle := le_roundUp8 x.size.toNat
  omega

theorem moved_of_fits {s : Runtime} (h : InSandbox s) {memory : Memory UInt8} {p n : UInt32}
    {a : Allocation} (hp : s.allocations.find p.toUInt64 = some a) (hf : s.Fits n.toUInt64) :
    Moved ⟨s, memory⟩
      ⟨(s.record n.toUInt64 a.typeHash a.siteId).remove p.toUInt64,
        Memory.memcpy memory s.cursor.toNat p.toNat (min a.size.toNat n.toNat)⟩
      p s.cursor.toUInt32 n a := by
  have hcursor := h.cursor_lt hf
  have hdst : s.cursor.toUInt32.toUInt64 = s.cursor := toUInt64_toUInt32 hcursor.2
  have hnat : s.cursor.toUInt32.toNat = s.cursor.toNat := by
    rw [UInt64.toNat_toUInt32, Nat.mod_eq_of_lt hcursor.2]
  have hbelow := end_le_cursor h.layout hp
  rw [UInt32.toNat_toUInt64] at hbelow
  have hpos := (h.layout.inArena _ _ hp).size_pos
  have hne : s.cursor ≠ p.toUInt64 := by
    intro hc
    rw [hc, UInt32.toNat_toUInt64] at hbelow
    omega
  have hfind : ∀ q, ((s.record n.toUInt64 a.typeHash a.siteId).remove p.toUInt64).allocations.find q
      = if q = p.toUInt64 then none
        else if q = s.cursor then some ⟨s.cursor, n.toUInt64, a.typeHash, a.siteId⟩
        else s.allocations.find q := by
    intro q
    rw [find_remove, find_record h.layout]
  exact {
    nonnull := toUInt32_ne_zero hcursor.2 (h.layout.cursor_ne_zero hp)
    recorded := by rw [hdst, hfind, if_neg hne, if_pos rfl]
    untracked := by rw [hfind, if_pos rfl]
    others := fun q hqp hqd => by
      rw [hdst] at hqd
      rw [hfind, if_neg hqp, if_neg hqd]
    rest := rfl
    memcpy := by rw [hnat]
    apart := by rw [hnat]; exact hbelow
    copied := fun i hi => by
      have hload := Memory.load_memcpy (m := memory) (n := min a.size.toNat n.toNat)
        (show s.cursor.toNat + min a.size.toNat n.toNat ≤ p.toNat ∨
          p.toNat + min a.size.toNat n.toNat ≤ s.cursor.toNat by omega)
      have hget := congrArg (fun l => l[i]?) hload
      rw [Memory.getElem?_load _ _ _ _ hi, Memory.getElem?_load _ _ _ _ hi] at hget
      rw [hnat]
      exact Option.some.inj hget
    live := fun q x hq i hi => by
      have hend := end_le_cursor h.layout hq
      exact Memory.memcpy_of_out (.inl (by omega)) }

/-- **Typed `realloc` is `realloc`.**  In both shims, for a tracked base of an arena in the
sandbox: resizing to 0 untracks it and changes nothing else; resizing to `n > 0` changes
nothing and returns null, or moves the record and the common bytes to a new place. -/
theorem typed_realloc_exact (arenaBase arenaSize : UInt64) (hbase : arenaBase ≠ 0)
    (hspace : arenaBase.toNat + arenaSize.toNat ≤ 2 ^ 32) (ops : List Op)
    (memory : Memory UInt8) (realloc : LibcRealloc) (p : UInt32) (a : Allocation)
    (hp : ((new arenaBase arenaSize).after ops).allocations.find p.toUInt64 = some a)
    (hold : a.size.toNat ≤ 2 ^ 32 - 1) (n : UInt32) :
    let u : Sandbox := ⟨(new arenaBase arenaSize).after ops, memory⟩
    let r := naclTypedRealloc realloc .installed u p n
    wasmTypedRealloc realloc .installed u p n = r ∧
    (n = 0 → r = (⟨u.runtime.remove p.toUInt64, memory⟩, 0)) ∧
    (n ≠ 0 → r = (u, 0) ∨ Moved u r.1 p r.2 n a) := by
  intro u r
  have harena := arena_after (layout_new arenaBase arenaSize) ops
  have h : InSandbox u.runtime := {
    layout := layout_reachable arenaBase arenaSize ops
    base_ne_zero := by rw [harena.1]; exact hbase
    end_le := by rw [harena.1, harena.2.1]; exact hspace }
  refine ⟨(shims_agree realloc u p n).symm, fun hn => ?_, fun hn => ?_⟩
  · subst hn
    exact naclTypedRealloc_zero h hp hold realloc
  · have hr : r = _ := naclTypedRealloc_of_find h hp hold hn realloc
    by_cases hf : u.runtime.Fits n.toUInt64
    · rw [if_pos hf] at hr
      rw [hr]
      exact .inr (moved_of_fits h hp hf)
    · rw [if_neg hf] at hr
      exact .inl hr

/-- Growing a record of 8 bytes to 16. -/
theorem typed_realloc_grow :
    let u : Sandbox := ⟨(new 4096 64).after [.registerType 1 7, .allocate 8 1], UInt8.ofNat⟩
    let r := naclTypedRealloc (fun u _ _ => (u, 0)) .installed u 4096 16
    Moved u r.1 4096 r.2 16 ⟨4096, 8, 7, 0⟩ := by
  intro u r
  have hspec := typed_realloc_exact 4096 64 (by decide) (by decide)
    [.registerType 1 7, .allocate 8 1] UInt8.ofNat (fun u _ _ => (u, 0)) 4096 ⟨4096, 8, 7, 0⟩ rfl
    (by decide) 16
  rcases hspec.2.2 (by decide) with hsame | hmoved
  · have hnull : r.2 = 0 := congrArg Prod.snd hsame
    exact absurd hnull (by decide)
  · exact hmoved

end InterSpec.Bridge
