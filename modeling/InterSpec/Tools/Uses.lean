import InterSpec.Runtime.Check
import InterSpec.Tools.Tables

/-!
# The checks of the trusted uses

The import based header folds the fixed and the dynamic uses into one check,
which takes a use for dynamic when its constant has 0 bytes.  The label based
header has a check for each kind.

* `wasmCheck_dynamic`, `wasmCheck_fixed`: where the two agree.
* `wasmCheck_zero`: where they do not, in some state.
* `checks_agree_iff`: for an accepted use they agree in every state exactly when
  the use is dynamic or declares a number of bytes other than 0.
-/

namespace InterSpec.Tools

open InterSpec.Runtime

theorem checkedAccess_of_not_over {s : Runtime} {base : UInt64} {c : AccessPolicy}
    (h : ¬ Word.max64 - c.bytes < c.offset) : checkedAccess s base c =
      if s.check base (c.offset + c.bytes) c.typeHash ≠ .ok then
        ⟨s.check base (c.offset + c.bytes) c.typeHash, 0, 0⟩
      else ⟨s.check base (c.offset + c.bytes) c.typeHash, base + c.offset, c.bytes⟩ :=
  if_neg h

theorem naclCheck_eq (s : Runtime) (base : UInt64) (c : AccessPolicy) : naclCheck s base c =
    if Word.max64 - c.bytes < c.offset then .outOfBounds
    else s.check base (c.offset + c.bytes) c.typeHash := by
  by_cases hover : Word.max64 - c.bytes < c.offset
  · have hout : checkedAccess s base c = ⟨.outOfBounds, 0, 0⟩ := if_pos hover
    rw [naclCheck, hout, if_pos hover, CheckedAccess.verdict_mk]
  · rw [naclCheck, checkedAccess_of_not_over hover, if_neg hover]
    by_cases hr : s.check base (c.offset + c.bytes) c.typeHash ≠ .ok
    · rw [if_pos hr, CheckedAccess.verdict_mk]
    · rw [if_neg hr, CheckedAccess.verdict_mk]

theorem checkedDynamicAccess_of_not_over {s : Runtime} {base dynamicBytes : UInt64}
    {c : AccessPolicy} (h : ¬ (c.bytes ≠ 0 ∨ Word.max64 - dynamicBytes < c.offset)) :
    checkedDynamicAccess s base dynamicBytes c =
      if s.check base (c.offset + dynamicBytes) c.typeHash ≠ .ok then
        ⟨s.check base (c.offset + dynamicBytes) c.typeHash, 0, 0⟩
      else ⟨s.check base (c.offset + dynamicBytes) c.typeHash, base + c.offset, dynamicBytes⟩ :=
  if_neg h

theorem checkDynamic_eq (s : Runtime) (base dynamicBytes : UInt64) (c : AccessPolicy) :
    checkDynamic s base dynamicBytes c =
      if c.bytes ≠ 0 ∨ Word.max64 - dynamicBytes < c.offset then .outOfBounds
      else s.check base (c.offset + dynamicBytes) c.typeHash := by
  by_cases hover : c.bytes ≠ 0 ∨ Word.max64 - dynamicBytes < c.offset
  · have hout : checkedDynamicAccess s base dynamicBytes c = ⟨.outOfBounds, 0, 0⟩ := if_pos hover
    rw [checkDynamic, hout, if_pos hover, CheckedAccess.verdict_mk]
  · rw [checkDynamic, checkedDynamicAccess_of_not_over hover, if_neg hover]
    by_cases hr : s.check base (c.offset + dynamicBytes) c.typeHash ≠ .ok
    · rw [if_pos hr, CheckedAccess.verdict_mk]
    · rw [if_neg hr, CheckedAccess.verdict_mk]

theorem wasmCheck_dynamic (s : Runtime) (base dynamicBytes : UInt64) {c : AccessPolicy}
    (hc : c.bytes = 0) : wasmCheck s base dynamicBytes c = checkDynamic s base dynamicBytes c := by
  have hne : ¬ c.bytes ≠ 0 := not_not.mpr hc
  rw [checkDynamic_eq, wasmCheck, if_neg hne]
  by_cases hover : Word.max64 - dynamicBytes < c.offset
  · rw [if_pos hover, if_pos (.inr hover)]
  · rw [if_neg hover, if_neg (fun h => h.elim hne hover)]

theorem wasmCheck_fixed (s : Runtime) (base dynamicBytes : UInt64) {c : AccessPolicy}
    (hc : c.bytes ≠ 0) : wasmCheck s base dynamicBytes c = naclCheck s base c := by
  rw [naclCheck_eq, wasmCheck, if_pos hc]

/-- One live record of 8 bytes at `0x1000`. -/
def oneRecord (typeHash : UInt64) : Runtime :=
  (new 0x1000 0x100).after [.registerType 1 typeHash, .allocate 8 1]

theorem find_oneRecord (typeHash : UInt64) :
    (oneRecord typeHash).allocations.find 0x1000 = some ⟨0x1000, 8, typeHash, 0⟩ := by
  have hlayout := layout_reachable 0x1000 0x100 [.registerType 1 typeHash]
  have htype : ((new 0x1000 0x100).after [.registerType 1 typeHash]).types.find 1 =
      some typeHash := rfl
  have hfits : ((new 0x1000 0x100).after [.registerType 1 typeHash]).Fits 8 :=
    ⟨rfl, by decide, show 0 + roundUp8 8 ≤ 256 from by decide⟩
  show (((new 0x1000 0x100).after [.registerType 1 typeHash]).allocate 8 1).1.allocations.find
    0x1000 = _
  rw [allocate_of_find hlayout htype, if_pos hfits, find_record hlayout]
  exact if_pos rfl

theorem check_oneRecord (typeHash n : UInt64) : (oneRecord typeHash).check 0x1000 n typeHash =
    if n.toNat ≤ 8 then .ok else .outOfBounds := by
  have hlayout : Layout (oneRecord typeHash) := layout_reachable 0x1000 0x100 _
  have hlive : (⟨0x1000, 8, typeHash, 0⟩ : Allocation) ∈ (oneRecord typeHash).live :=
    (mem_live hlayout).mpr (find_oneRecord typeHash)
  have hcovers : (⟨0x1000, 8, typeHash, 0⟩ : Allocation).Covers 0x1000 :=
    ⟨le_rfl, show 0x1000 < 0x1000 + 8 from by decide⟩
  rw [check_of_covers hlayout hlive hcovers, if_neg (fun h => h rfl)]
  dsimp only
  have hsize : (0x1000 : UInt64).toNat + (8 : UInt64).toNat = 0x1000 + 8 := by decide
  have hbase : (0x1000 : UInt64).toNat = 0x1000 := by decide
  by_cases hn : n.toNat ≤ 8
  · rw [if_pos hn]
    exact if_pos (by omega)
  · rw [if_neg hn]
    exact if_neg (by omega)

/-- **A fixed use of 0 bytes is not checked as one**: some state and some dynamic
length tell the two checks apart. -/
theorem wasmCheck_zero {c : AccessPolicy} (hc : c.bytes = 0) :
    ∃ (arenaBase arenaSize : UInt64) (ops : List Op) (base dynamicBytes : UInt64),
      wasmCheck ((new arenaBase arenaSize).after ops) base dynamicBytes c ≠
        naclCheck ((new arenaBase arenaSize).after ops) base c := by
  have hne : ¬ c.bytes ≠ 0 := not_not.mpr hc
  have hnever : ¬ Word.max64 - c.bytes < c.offset := by
    rw [hc, UInt64.sub_zero, UInt64.lt_iff_toNat_lt, Word.toNat_max64]
    have := c.offset.toNat_lt
    omega
  by_cases ho : c.offset = 0
  · -- the record covers the fixed access, and not the dynamic one
    refine ⟨0x1000, 0x100, [.registerType 1 c.typeHash, .allocate 8 1], 0x1000, 9, ?_⟩
    have hsmall : ¬ Word.max64 - 9 < c.offset := by rw [ho]; decide
    rw [naclCheck_eq, if_neg hnever, wasmCheck, if_neg hne, if_neg hsmall, hc, ho]
    show (oneRecord c.typeHash).check 0x1000 9 c.typeHash ≠
      (oneRecord c.typeHash).check 0x1000 0 c.typeHash
    rw [check_oneRecord, check_oneRecord]
    decide
  · -- nothing is tracked, but the dynamic access overflows
    refine ⟨0x1000, 0x100, [], 0x1000, Word.max64, ?_⟩
    have hover : Word.max64 - Word.max64 < c.offset := by
      rw [UInt64.sub_self]
      exact UInt64.pos_iff_ne_zero.mpr ho
    rw [naclCheck_eq, if_neg hnever, wasmCheck, if_neg hne, if_pos hover]
    exact nofun

theorem accessPolicyFor_bytes {use : PolicyUse} (h : (wasmUseBytes use).toNat < 2 ^ 64) :
    (accessPolicyFor use).bytes = 0 ↔ (wasmUseBytes use).toNat = 0 := by
  show UInt64.ofNat (wasmUseBytes use).toNat = 0 ↔ _
  rw [← UInt64.toNat_inj, UInt64.toNat_ofNat', Nat.mod_eq_of_lt h]
  exact Iff.rfl

/-- **The checks of the trusted uses agree exactly for the dynamic uses and for the
fixed uses that do not declare 0 bytes.**  For a policy and a boundary that both
generators accept, a use of the policy has the same constant in both headers; and
in every reachable state, for every base pointer and every dynamic length, its
check in the import based header is the dynamic check of the label based header when the
use is dynamic and the fixed check otherwise, if and only if the use is dynamic or
its bytes are not 0. -/
theorem checks_agree_iff {isWord : Char → Bool} {policy : Policy} {boundary : Boundary}
    {source namespaceName source' namespaceName' : Str} {siteIdBase : Int}
    {nacl : Str × UHeader × THeader} {wasm : WasmOutput} {p : TPolicy} {q : WasmTPolicy}
    (hnacl : generateBoundary isWord policy source namespaceName boundary = .ok nacl)
    (hwasm : generateWasmBoundary isWord policy source' namespaceName' boundary siteIdBase =
      .ok wasm)
    (hp : nacl.2.2.compile = some p) (hq : wasm.tHeader.compile = some q)
    {use : PolicyUse} (huse : use ∈ policy.uses) :
    ∃ c d, useConstantOf p.uses (cpp use.name) = some c ∧
      useConstantOf q.uses (cpp use.name) = some d ∧
      ((∀ (arenaBase arenaSize : UInt64) (ops : List Op) (base dynamicBytes : UInt64),
          wasmCheck ((new arenaBase arenaSize).after ops) base dynamicBytes d =
            if use.dynamicBytes then
              checkDynamic ((new arenaBase arenaSize).after ops) base dynamicBytes c
            else naclCheck ((new arenaBase arenaSize).after ops) base c) ↔
        use.dynamicBytes = true ∨ use.bytes ≠ some 0) := by
  have hwacc := generateWasmBoundary_ok hwasm
  have hacc := generateBoundary_ok hnacl
  obtain ⟨hc, _, hfits⟩ := (hacc.compiled hwacc.precise hp).2.2 use huse
  obtain ⟨hd, _, _⟩ := (hwacc.compiled hq).2.2 use huse
  refine ⟨_, _, hc, hd, ?_⟩
  have hbytes := accessPolicyFor_bytes hfits
  by_cases hdyn : use.dynamicBytes = true
  · refine iff_of_true (fun arenaBase arenaSize ops base dynamicBytes => ?_) (.inl hdyn)
    rw [if_pos hdyn]
    exact wasmCheck_dynamic _ base dynamicBytes
      (hbytes.mpr (by rw [wasmUseBytes, if_pos hdyn]; rfl))
  · obtain ⟨n, hn, hsign⟩ := hacc.fixedBytes use huse (by simpa using hdyn)
    rw [wasmUseBytes, if_neg hdyn, hn] at hbytes
    by_cases hz : n = 0
    · subst hz
      refine iff_of_false (fun h => ?_) (fun h => h.elim hdyn (fun hne => hne hn))
      obtain ⟨arenaBase, arenaSize, ops, base, dynamicBytes, hne⟩ := wasmCheck_zero (hbytes.mpr rfl)
      have hsame := h arenaBase arenaSize ops base dynamicBytes
      rw [if_neg hdyn] at hsame
      exact hne hsame
    · refine iff_of_true (fun arenaBase arenaSize ops base dynamicBytes => ?_)
        (.inr (by rw [hn]; exact fun h => hz (Option.some.inj h)))
      rw [if_neg hdyn]
      refine wasmCheck_fixed _ base dynamicBytes (fun h0 => hz ?_)
      have := hbytes.mp h0
      rw [Option.getD_some] at this
      omega

/-- One type and one fixed use of it, at offset 0. -/
def oneUsePolicy (bytes : Int) : Policy :=
  ⟨["char".toList], [], [⟨"first_byte".toList, "char".toList, 0, some bytes, false⟩]⟩

/-- The checks of a use of 4 bytes, on a live record of 8 bytes. -/
theorem checks_agree_four_bytes : ∃ (nacl : Str × UHeader × THeader) (wasm : WasmOutput)
    (p : TPolicy) (q : WasmTPolicy) (c d : AccessPolicy),
    generateBoundary asciiWord (oneUsePolicy 4) [] defaultNamespace ⟨[], []⟩ = .ok nacl ∧
    generateWasmBoundary asciiWord (oneUsePolicy 4) [] defaultNamespace ⟨[], []⟩ 0 = .ok wasm ∧
    nacl.2.2.compile = some p ∧ wasm.tHeader.compile = some q ∧
    useConstantOf p.uses "FirstByte".toList = some c ∧
    useConstantOf q.uses "FirstByte".toList = some d ∧
    naclCheck (oneRecord c.typeHash) 0x1000 c = .ok ∧
    wasmCheck (oneRecord c.typeHash) 0x1000 9 d = .ok := by
  obtain ⟨nacl, hnacl, p, hp, c', hc', hgranted⟩ : ∃ nacl, generateBoundary asciiWord
      (oneUsePolicy 4) [] defaultNamespace ⟨[], []⟩ = .ok nacl ∧ ∃ p, nacl.2.2.compile = some p ∧
        ∃ c, useConstantOf p.uses "FirstByte".toList = some c ∧
          naclCheck (oneRecord c.typeHash) 0x1000 c = .ok :=
    ⟨_, rfl, _, rfl, ⟨hashType "char".toList, 0, 4⟩, rfl, by decide⟩
  obtain ⟨wasm, hwasm, q, hq⟩ : ∃ wasm, generateWasmBoundary asciiWord (oneUsePolicy 4) []
      defaultNamespace ⟨[], []⟩ 0 = .ok wasm ∧ ∃ q, wasm.tHeader.compile = some q :=
    ⟨_, rfl, _, rfl⟩
  obtain ⟨c, d, hc, hd, hiff⟩ := checks_agree_iff hnacl hwasm hp hq List.mem_cons_self
  obtain rfl : c' = c := Option.some.inj (hc'.symm.trans hc)
  have hagree := hiff.mpr (.inr (by decide)) 0x1000 0x100
    [.registerType 1 c'.typeHash, .allocate 8 1] 0x1000 9
  exact ⟨nacl, wasm, p, q, c', d, hnacl, hwasm, hp, hq, hc, hd, hgranted, hagree.trans hgranted⟩

/-- **A fixed use of 0 bytes.**  Both generators take it and both headers compile, but
on a live record of 8 bytes a dynamic length of 9 makes the import based check
refuse what the label based check grants. -/
theorem zero_byte_use_diverges : ∃ (nacl : Str × UHeader × THeader) (wasm : WasmOutput)
    (p : TPolicy) (q : WasmTPolicy) (c : AccessPolicy),
    generateBoundary asciiWord (oneUsePolicy 0) [] defaultNamespace ⟨[], []⟩ = .ok nacl ∧
    generateWasmBoundary asciiWord (oneUsePolicy 0) [] defaultNamespace ⟨[], []⟩ 0 = .ok wasm ∧
    nacl.2.2.compile = some p ∧ wasm.tHeader.compile = some q ∧
    useConstantOf p.uses "FirstByte".toList = some c ∧
    useConstantOf q.uses "FirstByte".toList = some c ∧
    naclCheck (oneRecord c.typeHash) 0x1000 c = .ok ∧
    wasmCheck (oneRecord c.typeHash) 0x1000 9 c = .outOfBounds :=
  ⟨_, _, _, _, ⟨hashType "char".toList, 0, 0⟩, rfl, rfl, rfl, rfl, rfl, rfl, by decide, by decide⟩

end InterSpec.Tools
