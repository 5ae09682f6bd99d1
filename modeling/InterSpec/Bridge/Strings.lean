import InterSpec.Bridge.Lifetime
import InterSpec.Runtime.Check
import InterSpec.Tools.Macros

/-!
# Strings across the boundary

`Engine::copy_to_u` and `Engine::copy_checked` of `integration/rsync_popt/p4c_bridge.cpp`, with
`interspec_typed_strdup` of the shim.  A string of the host is its bytes without the
terminator; a string kept by the engine has its terminator.

* `copyChecked`: what was copied, with the bytes of U that were read.
* `copy_checked_safe`: it reads only within one live `char` record.
* `Marshalled`: a pointer to a live `char` record that holds a string.
* `round_trip`: what `copyToU` has put in, `copyChecked` gets out.
-/

namespace InterSpec.Bridge

open InterSpec.Runtime

/-- The parts of `Engine` that its functions change. -/
structure Engine where
  sandbox : Sandbox
  trustedStrings : List (List UInt8)

inductive BridgeError
  | exceedsAbi
  | badAlloc
  | rejectedPointer
  | unterminated
  | invalidArgv
  | nullOptionTable
  | optionTableTooLarge
  | unsupportedType
  | incompatibleTypes
  | initializeIntSlot
  | initializeStringSlot
  | copyOption
  | copyOptionStrings
  | copyArgv
  | outOfRange
deriving DecidableEq, Repr

/-- `what()` of the exception. -/
def BridgeError.message : BridgeError → Tools.Str
  | exceedsAbi => "popt string exceeds sandbox ABI".toList
  | badAlloc => "std::bad_alloc".toList
  | rejectedPointer => "InterSpec rejected popt char pointer".toList
  | unterminated => "InterSpec rejected unterminated popt string".toList
  | invalidArgv => "invalid popt argv".toList
  | nullOptionTable => "null popt option table".toList
  | optionTableTooLarge => "popt option table too large".toList
  | unsupportedType => "unsupported rsync popt destination type".toList
  | incompatibleTypes => "popt destination reused with incompatible types".toList
  | initializeIntSlot => "failed to initialize popt int slot".toList
  | initializeStringSlot => "failed to initialize popt string slot".toList
  | copyOption => "failed to copy popt option".toList
  | copyOptionStrings => "failed to copy popt option strings".toList
  | copyArgv => "failed to copy popt argv".toList
  | outOfRange => "unordered_map::at".toList

def kTypeHashChar : UInt64 := Tools.hashType "char".toList

/-! ### `copy_checked` -/

structure CheckedCopy where
  engine : Engine
  reads : List Nat
  result : Except BridgeError (Option (List UInt8))

/-- A pointer of U is null or a sandbox address. -/
def copyChecked (e : Engine) : Option UInt64 → CheckedCopy
  | none => ⟨e, [], .ok none⟩
  | some p =>
    let found := e.sandbox.runtime.remainingBytes p kTypeHashChar 0
    if found.1 ≠ .ok ∨ found.2 = 0 then ⟨e, [], .error .rejectedPointer⟩
    else
      let search := Memory.memchr e.sandbox.memory 0 p.toNat found.2.toNat
      match search.1 with
      | none => ⟨e, search.2, .error .unterminated⟩
      | some stop =>
        let bytes := stop - p.toNat + 1
        let copy := Memory.load e.sandbox.memory p.toNat bytes
        ⟨{ e with trustedStrings := e.trustedStrings ++ [copy] },
          search.2 ++ List.range' p.toNat bytes, .ok (some copy)⟩

theorem copyChecked_sandbox (e : Engine) (source : Option UInt64) :
    (copyChecked e source).engine.sandbox = e.sandbox := by
  cases source with
  | none => rfl
  | some p =>
    unfold copyChecked
    dsimp only
    split
    · rfl
    · split <;> rfl

/-- A live record of type `char` that holds the address. -/
structure CharRecord (s : Runtime) (p : UInt64) (a : Allocation) : Prop where
  live : a ∈ s.live
  covers : a.Covers p
  char : a.typeHash = kTypeHashChar

theorem remainingBytes_of_char {s : Runtime} (h : Layout s) {p : UInt64} {a : Allocation}
    (ha : CharRecord s p a) (bytes : UInt64) : s.remainingBytes p kTypeHashChar bytes =
      (.ok, a.size - (p - a.base)) := by
  rw [remainingBytes, (findAllocationUnlocked_eq_some h).mpr ⟨ha.live, ha.covers⟩]
  exact if_neg (fun hne => hne ha.char)

theorem remainingBytes_of_no_char {s : Runtime} (h : Layout s) {p : UInt64}
    (hno : ∀ a, ¬ CharRecord s p a) (bytes : UInt64) :
    (s.remainingBytes p kTypeHashChar bytes).1 ≠ .ok := by
  rw [remainingBytes]
  cases hfind : s.findAllocationUnlocked p with
  | none =>
    show CheckResult.untracked ≠ .ok
    decide
  | some a =>
    obtain ⟨hlive, hcovers⟩ := (findAllocationUnlocked_eq_some h).mp hfind
    dsimp only
    rw [if_pos (fun hchar => hno a ⟨hlive, hcovers, hchar⟩)]
    show CheckResult.wrongType ≠ .ok
    decide

section Checked

variable {e : Engine} {p : UInt64} {a : Allocation}

theorem CharRecord.remaining (ha : CharRecord e.sandbox.runtime p a) :
    (a.size - (p - a.base)).toNat = byteEnd a - p.toNat ∧ p.toNat < byteEnd a :=
  ⟨Allocation.toNat_remaining ha.covers, ha.covers.2⟩

theorem copyChecked_of_char (h : Layout e.sandbox.runtime)
    (ha : CharRecord e.sandbox.runtime p a) : copyChecked e (some p) =
      match (Memory.memchr e.sandbox.memory 0 p.toNat (byteEnd a - p.toNat)).1 with
      | none => ⟨e, (Memory.memchr e.sandbox.memory 0 p.toNat (byteEnd a - p.toNat)).2,
          .error .unterminated⟩
      | some stop =>
        ⟨{ e with trustedStrings :=
            e.trustedStrings ++ [Memory.load e.sandbox.memory p.toNat (stop - p.toNat + 1)] },
          (Memory.memchr e.sandbox.memory 0 p.toNat (byteEnd a - p.toNat)).2 ++
            List.range' p.toNat (stop - p.toNat + 1),
          .ok (some (Memory.load e.sandbox.memory p.toNat (stop - p.toNat + 1)))⟩ := by
  obtain ⟨hnat, hlt⟩ := ha.remaining
  have hfound := remainingBytes_of_char h ha 0
  have hguard : ¬ (CheckResult.ok ≠ .ok ∨ a.size - (p - a.base) = 0) := by
    rintro (hne | h0)
    · exact hne rfl
    · rw [h0] at hnat
      have hz : (0 : UInt64).toNat = 0 := rfl
      omega
  rw [copyChecked, hfound]
  dsimp only
  rw [if_neg hguard, hnat]

/-- **A terminated string in a live `char` record is copied.** -/
theorem copyChecked_accept (h : Layout e.sandbox.runtime)
    (ha : CharRecord e.sandbox.runtime p a) {str : List UInt8}
    (hstr : Memory.StringAt 0 e.sandbox.memory p.toNat str)
    (hin : p.toNat + str.length < byteEnd a) : copyChecked e (some p) =
      ⟨{ e with trustedStrings := e.trustedStrings ++ [str ++ [0]] },
        (Memory.memchr e.sandbox.memory 0 p.toNat (byteEnd a - p.toNat)).2 ++
          List.range' p.toNat (str.length + 1),
        .ok (some (str ++ [0]))⟩ := by
  rw [copyChecked_of_char h ha, hstr.memchr (by omega)]
  dsimp only
  rw [Nat.add_sub_cancel_left, hstr.load]

/-- Without a terminator before the end of the record nothing is copied. -/
theorem copyChecked_unterminated (h : Layout e.sandbox.runtime)
    (ha : CharRecord e.sandbox.runtime p a)
    (hno : ∀ b, p.toNat ≤ b → b < byteEnd a → e.sandbox.memory b ≠ 0) : copyChecked e (some p) =
      ⟨e, (Memory.memchr e.sandbox.memory 0 p.toNat (byteEnd a - p.toNat)).2,
        .error .unterminated⟩ := by
  have hnone : (Memory.memchr e.sandbox.memory 0 p.toNat (byteEnd a - p.toNat)).1 = none :=
    Memory.memchr_eq_none.mpr fun b hb hlt => hno b hb (by omega)
  rw [copyChecked_of_char h ha, hnone]

/-- Without a live `char` record nothing is read. -/
theorem copyChecked_rejected (h : Layout e.sandbox.runtime)
    (hno : ∀ a, ¬ CharRecord e.sandbox.runtime p a) :
    copyChecked e (some p) = ⟨e, [], .error .rejectedPointer⟩ :=
  if_pos (.inl (remainingBytes_of_no_char h hno 0))

end Checked

/-- **T never consumes a string outside a live `char` record.** -/
theorem copy_checked_safe (arenaBase arenaSize : UInt64) (ops : List Op) (memory : Memory UInt8)
    (trustedStrings : List (List UInt8)) :
    let s := (new arenaBase arenaSize).after ops
    let e : Engine := ⟨⟨s, memory⟩, trustedStrings⟩
    copyChecked e none = ⟨e, [], .ok none⟩ ∧
    ∀ p : UInt64,
      ((∃ copy, (copyChecked e (some p)).result = .ok copy) ↔
        ∃ a, CharRecord s p a ∧ ∃ b, p.toNat ≤ b ∧ b < byteEnd a ∧ memory b = 0) ∧
      (∀ copy, (copyChecked e (some p)).result = .ok copy →
        ∃ a str, CharRecord s p a ∧ Memory.StringAt 0 memory p.toNat str ∧
          p.toNat + str.length < byteEnd a ∧ copy = some (str ++ [0]) ∧
          (copyChecked e (some p)).engine =
            { e with trustedStrings := trustedStrings ++ [str ++ [0]] }) ∧
      (∀ b ∈ (copyChecked e (some p)).reads, ∃ a, CharRecord s p a ∧ p.toNat ≤ b ∧
        b < byteEnd a) ∧
      ∀ err, (copyChecked e (some p)).result = .error err →
        (copyChecked e (some p)).engine = e := by
  intro s e
  have h : Layout e.sandbox.runtime := layout_reachable arenaBase arenaSize ops
  refine ⟨rfl, fun p => ?_⟩
  by_cases hrec : ∃ a, CharRecord s p a
  · obtain ⟨a, ha⟩ := hrec
    have honly : ∀ b, CharRecord s p b → b = a := fun b hb =>
      h.covers_unique hb.live ha.live hb.covers ha.covers
    have hlt := ha.covers.2
    have hend : byteEnd a = a.base.toNat + a.size.toNat := rfl
    by_cases hz : ∃ b, p.toNat ≤ b ∧ b < byteEnd a ∧ memory b = 0
    · obtain ⟨str, hstr, hlen⟩ := Memory.exists_stringAt (n := byteEnd a - p.toNat)
        (by obtain ⟨b, h1, h2, h3⟩ := hz; exact ⟨b, h1, by omega, h3⟩)
      rw [copyChecked_accept h ha hstr (by omega)]
      refine ⟨iff_of_true ⟨_, rfl⟩ ⟨a, ha, hz⟩, fun copy hcopy => ?_, fun b hb => ?_, nofun⟩
      · exact ⟨a, str, ha, hstr, by omega, (Except.ok.inj hcopy).symm, rfl⟩
      · rcases List.mem_append.mp hb with hb | hb
        · have hr := Memory.memchr_reads b hb
          exact ⟨a, ha, hr.1, by omega⟩
        · rw [List.mem_range'_1] at hb
          exact ⟨a, ha, hb.1, by omega⟩
    · have hno : ∀ b, p.toNat ≤ b → b < byteEnd a → memory b ≠ 0 :=
        fun b h1 h2 h3 => hz ⟨b, h1, h2, h3⟩
      rw [copyChecked_unterminated h ha hno]
      refine ⟨iff_of_false nofun ?_, nofun, fun b hb => ?_, fun _ _ => rfl⟩
      · rintro ⟨a', ha', hz'⟩
        rw [honly a' ha'] at hz'
        exact hz hz'
      · have hr := Memory.memchr_reads b hb
        exact ⟨a, ha, hr.1, by omega⟩
  · rw [copyChecked_rejected h (not_exists.mp hrec)]
    exact ⟨iff_of_false nofun (fun ⟨a, ha, _⟩ => hrec ⟨a, ha⟩), nofun, nofun, fun _ _ => rfl⟩

/-! ### `copy_to_u` -/

/-- One call into the sandbox: what its allocator does for the temporary, and the program
counters that the backend reports for the callback. -/
structure SandboxCall where
  /-- The answer of `malloc_in_sandbox`, 0 when the memory is exhausted. -/
  temporary : UInt32
  onMalloc : Memory UInt8 → Memory UInt8
  onFree : Memory UInt8 → Memory UInt8
  pc : UInt64
  nextPc : UInt64

/-- `interspec_typed_strdup`. -/
def typedStrdup (u : Sandbox) (src : UInt32) (pc nextPc : UInt64) : Sandbox × UInt32 :=
  if src = 0 then (u, 0)
  else
    let size := UInt32.ofNat (Memory.strlen 0 u.memory src.toNat (2 ^ 32) + 1)
    if max32 < size.toUInt64 then (u, 0)
    else
      let dst := p4cAllocate u.runtime size pc nextPc
      if dst.2 = 0 then ({ u with runtime := dst.1 }, 0)
      else (⟨dst.1, Memory.memcpy u.memory dst.2.toNat src.toNat size.toNat⟩, dst.2)

/-- `Engine::copy_to_u`; the source is null or the bytes of a string. -/
def copyToU (call : SandboxCall) (e : Engine) :
    Option (List UInt8) → Engine × Except BridgeError (Option UInt32)
  | none => (e, .ok none)
  | some src =>
    let bytes := src.length + 1
    if 2 ^ 32 - 1 < bytes then (e, .error .exceedsAbi)
    else
      let allocated := call.onMalloc e.sandbox.memory
      if call.temporary = 0 then
        ({ e with sandbox := ⟨e.sandbox.runtime, allocated⟩ }, .error .badAlloc)
      else
        let filled := Memory.storeList allocated call.temporary.toNat (src ++ [0])
        let typed := typedStrdup ⟨e.sandbox.runtime, filled⟩ call.temporary call.pc call.nextPc
        let after := { e with sandbox := ⟨typed.1.runtime, call.onFree typed.1.memory⟩ }
        if typed.2 = 0 then (after, .error .badAlloc) else (after, .ok (some typed.2))

/-- The bytes of the typed arena. -/
def InTypedArena (s : Runtime) (b : Nat) : Prop :=
  s.base.toNat ≤ b ∧ b < s.base.toNat + s.capacity.toNat

/-- The allocator of the sandbox does not touch the typed arena. -/
structure Ordinary (s : Runtime) (call : SandboxCall) (bytes : Nat) : Prop where
  apart : call.temporary ≠ 0 → bytes ≤ 2 ^ 32 - 1 → call.temporary.toNat + bytes ≤ 2 ^ 32 ∧
    (call.temporary.toNat + bytes ≤ s.base.toNat ∨
      s.base.toNat + s.capacity.toNat ≤ call.temporary.toNat)
  onMalloc : ∀ m b, InTypedArena s b → call.onMalloc m b = m b
  onFree : ∀ m b, InTypedArena s b → call.onFree m b = m b

/-- Why a copy into the sandbox can fail. -/
def Refused (s : Runtime) (call : SandboxCall) (bytes : Nat) : Prop :=
  s.callbackSite call.pc call.nextPc = none ∨ 2 ^ 32 - 1 < bytes ∨ call.temporary = 0 ∨
    s.capacity.toNat - s.used.toNat < roundUp8 bytes

/-- Every site that a callback of the call can allocate at is of type `char`. -/
def CharSite (s : Runtime) (call : SandboxCall) : Prop :=
  ∀ site, s.callbackSite call.pc call.nextPc = some site → site.typeHash = kTypeHashChar

/-- In the arena the memory is what it was, but for the bytes from `lo` to `hi`. -/
def SameBut (s : Runtime) (lo hi : Nat) (m m' : Memory UInt8) : Prop :=
  ∀ b, InTypedArena s b → b < lo ∨ hi ≤ b → m' b = m b

section CopyIn

variable {s : Runtime} {m : Memory UInt8} {call : SandboxCall} {src : List UInt8}

theorem typedStrdup_of_stringAt (h : InSandbox s) {p : UInt32} (hp : p ≠ 0)
    (hstr : Memory.StringAt 0 m p.toNat src) (hlen : src.length + 1 ≤ 2 ^ 32 - 1)
    (pc nextPc : UInt64) :
    let size := UInt32.ofNat (src.length + 1)
    typedStrdup ⟨s, m⟩ p pc nextPc =
      match s.callbackSite pc nextPc with
      | none => (⟨s, m⟩, 0)
      | some site =>
        if s.Fits size.toUInt64 then
          (⟨s.record size.toUInt64 site.typeHash site.id,
            Memory.memcpy m s.cursor.toNat p.toNat (src.length + 1)⟩, s.cursor.toUInt32)
        else (⟨s, m⟩, 0) := by
  intro size
  have hsize : size.toNat = src.length + 1 := UInt32.toNat_ofNat_of_lt' (show _ < 2 ^ 32 by omega)
  unfold typedStrdup
  rw [if_neg hp]
  dsimp only
  rw [hstr.strlen (show src.length < 2 ^ 32 by omega), if_neg (not_max32_lt size)]
  have halloc : s.allocateFromCallback size.toUInt64 pc nextPc = _ :=
    allocateFromCallback_eq h.layout h.base_ne_zero _ pc nextPc
  cases hsite : s.callbackSite pc nextPc with
  | none =>
    have hdst : p4cAllocate s size pc nextPc = (s, 0) := by
      rw [p4cAllocate, halloc, hsite]
      rfl
    rw [hdst, if_pos rfl]
  | some site =>
    dsimp only
    by_cases hf : s.Fits size.toUInt64
    · have hcursor := h.cursor_lt hf
      have hdst : p4cAllocate s size pc nextPc =
          (s.record size.toUInt64 site.typeHash site.id, s.cursor.toUInt32) := by
        rw [p4cAllocate, halloc, hsite]
        dsimp only
        rw [if_pos hf]
      have hnull : s.cursor.toUInt32 ≠ 0 :=
        toUInt32_ne_zero hcursor.2 (h.layout.cursor_ne_zero_of_base h.base_ne_zero hf.1)
      rw [hdst, if_pos hf, if_neg hnull, hsize, UInt64.toNat_toUInt32,
        Nat.mod_eq_of_lt hcursor.2]
    · have hdst : p4cAllocate s size pc nextPc = (s, 0) := by
        rw [p4cAllocate, halloc, hsite]
        dsimp only
        rw [if_neg hf]
        rfl
      rw [hdst, if_neg hf, if_pos rfl]

/-- **A copy into the sandbox fails for one of the four reasons, or makes one record with
the string in it.**  Elsewhere in the arena no byte changes. -/
theorem copyToU_cases (h : InSandbox s) (trusted : List (List UInt8)) (hfree : 0 ∉ src)
    (hord : Ordinary s call (src.length + 1)) :
    (∃ err m', copyToU call ⟨⟨s, m⟩, trusted⟩ (some src) = (⟨⟨s, m'⟩, trusted⟩, .error err) ∧
      Refused s call (src.length + 1) ∧ SameBut s 0 0 m m') ∨
    ∃ site m', copyToU call ⟨⟨s, m⟩, trusted⟩ (some src) =
        (⟨⟨s.record (UInt32.ofNat (src.length + 1)).toUInt64 site.typeHash site.id, m'⟩, trusted⟩,
          .ok (some s.cursor.toUInt32)) ∧
      s.callbackSite call.pc call.nextPc = some site ∧
      s.Fits (UInt32.ofNat (src.length + 1)).toUInt64 ∧
      ¬ Refused s call (src.length + 1) ∧
      Memory.StringAt 0 m' s.cursor.toNat src ∧
      SameBut s s.cursor.toNat (s.cursor.toNat + (src.length + 1)) m m' := by
  unfold copyToU
  dsimp only
  by_cases hbig : 2 ^ 32 - 1 < src.length + 1
  · rw [if_pos hbig]
    exact .inl ⟨_, m, rfl, .inr (.inl hbig), fun _ _ _ => rfl⟩
  rw [if_neg hbig]
  by_cases htemp : call.temporary = 0
  · rw [if_pos htemp]
    exact .inl ⟨_, _, rfl, .inr (.inr (.inl htemp)), fun b hb _ => hord.onMalloc m b hb⟩
  rw [if_neg htemp]
  obtain ⟨hspace, hapart⟩ := hord.apart htemp (by omega)
  -- the temporary copy
  generalize hfilled : Memory.storeList (call.onMalloc m) call.temporary.toNat (src ++ [0]) = filled
  have hstr : Memory.StringAt 0 filled call.temporary.toNat src :=
    hfilled ▸ Memory.stringAt_storeList hfree _ _
  have harena : ∀ b, InTypedArena s b → filled b = m b := by
    intro b hb
    obtain ⟨hlo, hhi⟩ := hb
    rw [← hfilled, Memory.storeList_of_out, hord.onMalloc m b ⟨hlo, hhi⟩]
    rw [List.length_append, List.length_singleton]
    omega
  have hsize : (UInt32.ofNat (src.length + 1)).toUInt64.toNat = src.length + 1 := by
    rw [UInt32.toNat_toUInt64]
    exact UInt32.toNat_ofNat_of_lt' (show _ < 2 ^ 32 by omega)
  have htyped := typedStrdup_of_stringAt h htemp hstr (by omega) call.pc call.nextPc
  have hkept : SameBut s 0 0 m (call.onFree filled) :=
    fun b hb _ => (hord.onFree filled b hb).trans (harena b hb)
  cases hsite : s.callbackSite call.pc call.nextPc with
  | none =>
    rw [hsite] at htyped
    rw [htyped, if_pos rfl]
    exact .inl ⟨_, _, rfl, .inl hsite, hkept⟩
  | some site =>
    rw [hsite] at htyped
    dsimp only at htyped
    by_cases hf : s.Fits (UInt32.ofNat (src.length + 1)).toUInt64
    · have hcursor := h.cursor_lt hf
      have hroom := hf.2.2
      have hcur := h.layout.toNat_cursor hf.1
      rw [hsize] at hcursor hroom
      have hround := le_roundUp8 (src.length + 1)
      have hnull : s.cursor.toUInt32 ≠ 0 :=
        toUInt32_ne_zero hcursor.2 (h.layout.cursor_ne_zero_of_base h.base_ne_zero hf.1)
      rw [if_pos hf] at htyped
      rw [htyped, if_neg hnull]
      refine .inr ⟨site, _, rfl, rfl, hf, ?_, ?_, ?_⟩
      · rintro (hnone | hlen | h0 | hfull)
        · rw [hsite] at hnone
          cases hnone
        · omega
        · exact htemp h0
        · omega
      · -- the record lies in the arena, the temporary does not
        have hcopy : Memory.StringAt 0 (Memory.memcpy filled s.cursor.toNat call.temporary.toNat
            (src.length + 1)) s.cursor.toNat src := hstr.memcpy (by omega)
        exact hcopy.congr fun b hlo hhi => hord.onFree _ b ⟨by omega, by omega⟩
      · intro b hb hout
        exact (hord.onFree _ b hb).trans ((Memory.memcpy_of_out hout).trans (harena b hb))
    · rw [if_neg hf] at htyped
      rw [htyped, if_pos rfl]
      refine .inl ⟨_, _, rfl, .inr (.inr (.inr ?_)), hkept⟩
      by_contra hroom
      refine hf ⟨?_, ?_, ?_⟩
      · exact h.layout.valid_iff.mpr (by have := h.end_le; omega)
      · intro h0
        rw [h0] at hsize
        cases hsize
      · rw [hsize]
        have := h.layout.used_le
        omega

end CopyIn

/-! ### Runs of copies -/

inductive Event
  | copyIn (call : SandboxCall) (src : Option (List UInt8))
  | copyOut (source : Option UInt32)

inductive Outcome
  | placed (result : Except BridgeError (Option UInt32))
  | checked (result : Except BridgeError (Option (List UInt8)))
deriving DecidableEq

def serve : Machine Engine Event Outcome := fun e => fun
  | .copyIn call src =>
    let result := copyToU call e src
    (result.1, .placed result.2)
  | .copyOut source =>
    let result := copyChecked e (source.map UInt32.toUInt64)
    (result.engine, .checked result.result)

/-- The strings and the allocator that a copy into the sandbox is made with. -/
def Event.Allowed (s : Runtime) : Event → Prop
  | .copyIn call (some src) => 0 ∉ src ∧ Ordinary s call (src.length + 1) ∧ CharSite s call
  | _ => True

/-- A live `char` record of the size of the string holds it. -/
structure Marshalled (e : Engine) (p : UInt32) (src : List UInt8) : Prop where
  recorded : ∃ a, e.sandbox.runtime.allocations.find p.toUInt64 = some a ∧
    a.size.toNat = src.length + 1 ∧ a.typeHash = kTypeHashChar
  text : Memory.StringAt 0 e.sandbox.memory p.toNat src

/-- The arena, the sites and everything recorded are kept, the bytes of the records too. -/
structure EngineKept (e e' : Engine) : Prop where
  base : e'.sandbox.runtime.base = e.sandbox.runtime.base
  capacity : e'.sandbox.runtime.capacity = e.sandbox.runtime.capacity
  sites : e'.sandbox.runtime.sites = e.sandbox.runtime.sites
  records : ∀ q a, e.sandbox.runtime.allocations.find q = some a →
    e'.sandbox.runtime.allocations.find q = some a
  bytes : ∀ q a, e.sandbox.runtime.allocations.find q = some a → ∀ b, q.toNat ≤ b →
    b < q.toNat + a.size.toNat → e'.sandbox.memory b = e.sandbox.memory b

theorem EngineKept.refl (e : Engine) : EngineKept e e :=
  ⟨rfl, rfl, rfl, fun _ _ h => h, fun _ _ _ _ _ _ => rfl⟩

theorem EngineKept.trans (e e' e'' : Engine) (h : EngineKept e e') (h' : EngineKept e' e'') :
    EngineKept e e'' where
  base := h'.base.trans h.base
  capacity := h'.capacity.trans h.capacity
  sites := h'.sites.trans h.sites
  records q a hq := h'.records q a (h.records q a hq)
  bytes q a hq b hlo hhi := (h'.bytes q a (h.records q a hq) b hlo hhi).trans
    (h.bytes q a hq b hlo hhi)

theorem Marshalled.kept {e e' : Engine} {p : UInt32} {src : List UInt8} (h : Marshalled e p src)
    (hk : EngineKept e e') : Marshalled e' p src := by
  obtain ⟨a, hfind, hsize, hchar⟩ := h.recorded
  refine ⟨⟨a, hk.records _ a hfind, hsize, hchar⟩, h.text.congr fun b hlo hhi => ?_⟩
  exact hk.bytes _ a hfind b (by rwa [UInt32.toNat_toUInt64]) (by
    rw [UInt32.toNat_toUInt64]
    omega)

theorem Marshalled.charRecord {e : Engine} (hl : Layout e.sandbox.runtime) {p : UInt32}
    {src : List UInt8} (h : Marshalled e p src) :
    ∃ a, CharRecord e.sandbox.runtime p.toUInt64 a ∧ byteEnd a = p.toNat + (src.length + 1) := by
  obtain ⟨a, hfind, hsize, hchar⟩ := h.recorded
  have hbase : a.base = p.toUInt64 := (hl.inArena _ a hfind).base_eq
  refine ⟨a, ⟨(mem_live hl).mpr (hbase ▸ hfind), ⟨by rw [hbase], ?_⟩, hchar⟩, ?_⟩
  · rw [hbase, hsize]
    omega
  · rw [byteEnd, hbase, hsize, UInt32.toNat_toUInt64]

/-- **What is marshalled is copied out.** -/
theorem Marshalled.copyChecked {e : Engine} (hl : Layout e.sandbox.runtime) {p : UInt32}
    {src : List UInt8} (h : Marshalled e p src) :
    (copyChecked e (some p.toUInt64)).result = .ok (some (src ++ [0])) := by
  obtain ⟨a, hrec, hend⟩ := h.charRecord hl
  have hnat : p.toUInt64.toNat = p.toNat := UInt32.toNat_toUInt64 p
  rw [copyChecked_accept hl hrec (hnat ▸ h.text) (by omega)]

theorem callbackSite_congr {s t : Runtime} (h : t.sites = s.sites) (pc nextPc : UInt64) :
    t.callbackSite pc nextPc = s.callbackSite pc nextPc := by
  have hfind : ∀ x, t.findSiteUnlocked x = s.findSiteUnlocked x := by
    intro x
    rw [findSiteUnlocked, findSiteUnlocked, h]
  rw [callbackSite, callbackSite, hfind, hfind]

/-- The runtime of the engine is in the sandbox, with the arena and the sites of `s`. -/
structure EngineOver (s : Runtime) (e : Engine) : Prop where
  inSandbox : InSandbox e.sandbox.runtime
  base : e.sandbox.runtime.base = s.base
  capacity : e.sandbox.runtime.capacity = s.capacity
  sites : e.sandbox.runtime.sites = s.sites

theorem EngineOver.reachable {arenaBase arenaSize : UInt64} (hbase : arenaBase ≠ 0)
    (hspace : arenaBase.toNat + arenaSize.toNat ≤ 2 ^ 32) (ops : List Op) (memory : Memory UInt8)
    (trustedStrings : List (List UInt8)) : EngineOver ((new arenaBase arenaSize).after ops)
      ⟨⟨(new arenaBase arenaSize).after ops, memory⟩, trustedStrings⟩ := by
  have harena := arena_after (layout_new arenaBase arenaSize) ops
  exact {
    inSandbox := {
      layout := layout_reachable arenaBase arenaSize ops
      base_ne_zero := by rw [harena.1]; exact hbase
      end_le := by rw [harena.1, harena.2.1]; exact hspace }
    base := rfl
    capacity := rfl
    sites := rfl }

theorem EngineOver.inTypedArena {s : Runtime} {e : Engine} (h : EngineOver s e) (b : Nat) :
    InTypedArena e.sandbox.runtime b ↔ InTypedArena s b := by
  rw [InTypedArena, InTypedArena, h.base, h.capacity]

theorem EngineOver.ordinary {s : Runtime} {e : Engine} (h : EngineOver s e) {call : SandboxCall}
    {bytes : Nat} (ho : Ordinary s call bytes) : Ordinary e.sandbox.runtime call bytes where
  apart := by rw [h.base, h.capacity]; exact ho.apart
  onMalloc m b hb := ho.onMalloc m b ((h.inTypedArena b).mp hb)
  onFree m b hb := ho.onFree m b ((h.inTypedArena b).mp hb)

theorem InSandbox.record_in_arena {s : Runtime} (h : InSandbox s) {q : UInt64} {a : Allocation}
    (hq : s.allocations.find q = some a) {b : Nat} (hlo : q.toNat ≤ b)
    (hhi : b < q.toNat + a.size.toNat) : InTypedArena s b ∧ b < s.cursor.toNat := by
  have hin := h.layout.inArena q a hq
  have hbase := hin.base_le
  have hend := end_le_cursor h.layout hq
  have hcur := h.layout.toNat_cursor hin.valid
  have hused := h.layout.used_le
  exact ⟨⟨by omega, by omega⟩, by omega⟩

theorem EngineKept.of_record {s : Runtime} (h : InSandbox s) {m m' : Memory UInt8}
    {trusted : List (List UInt8)} {size : UInt64} (hf : s.Fits size) (typeHash : UInt64)
    (siteId : SiteId) {hi : Nat} (hm : SameBut s s.cursor.toNat hi m m') :
    EngineKept ⟨⟨s, m⟩, trusted⟩ ⟨⟨s.record size typeHash siteId, m'⟩, trusted⟩ ∧
      InSandbox (s.record size typeHash siteId) := by
  constructor
  · refine ⟨rfl, rfl, rfl, fun q a hq => ?_, fun q a hq b hlo hhi => ?_⟩
    · have hne : q ≠ s.cursor := by
        rintro rfl
        exact nomatch h.layout.cursor_fresh.symm.trans hq
      exact (find_record h.layout size typeHash siteId q).trans ((if_neg hne).trans hq)
    · obtain ⟨hin, hlt⟩ := h.record_in_arena hq hlo hhi
      exact hm b hin (.inl hlt)
  · exact ⟨h.layout.record hf typeHash siteId, h.base_ne_zero, h.end_le⟩

theorem EngineKept.of_same {s : Runtime} (h : InSandbox s) {m m' : Memory UInt8}
    {trusted : List (List UInt8)} (hm : SameBut s 0 0 m m') :
    EngineKept ⟨⟨s, m⟩, trusted⟩ ⟨⟨s, m'⟩, trusted⟩ :=
  ⟨rfl, rfl, rfl, fun _ _ hq => hq, fun _ _ hq b hlo hhi =>
    hm b (h.record_in_arena hq hlo hhi).1 (.inr (Nat.zero_le b))⟩

/-- **One event.**  Everything recorded is kept. -/
theorem serve_kept {s : Runtime} (e : Engine) (event : Event) (h : EngineOver s e)
    (hallowed : event.Allowed s) : EngineKept e (serve e event).1 ∧
      InSandbox (serve e event).1.sandbox.runtime := by
  obtain ⟨⟨t, m⟩, trusted⟩ := e
  cases event with
  | copyOut source =>
    have hsame : (serve ⟨⟨t, m⟩, trusted⟩ (.copyOut source)).1.sandbox = ⟨t, m⟩ :=
      copyChecked_sandbox _ (source.map UInt32.toUInt64)
    refine ⟨⟨?_, ?_, ?_, ?_, ?_⟩, ?_⟩ <;> rw [hsame]
    · exact fun _ _ hq => hq
    · exact fun _ _ _ _ _ _ => rfl
    · exact h.inSandbox
  | copyIn call src =>
    cases src with
    | none => exact ⟨.refl _, h.inSandbox⟩
    | some src =>
      obtain ⟨hfree, hord, _⟩ := hallowed
      have hserve : (serve ⟨⟨t, m⟩, trusted⟩ (.copyIn call (some src))).1 =
          (copyToU call ⟨⟨t, m⟩, trusted⟩ (some src)).1 := rfl
      rw [hserve]
      rcases copyToU_cases h.inSandbox (m := m) trusted hfree (h.ordinary hord) with
        ⟨err, m', hcopy, _, hm⟩ | ⟨site, m', hcopy, _, hf, _, _, hm⟩
      · rw [hcopy]
        exact ⟨.of_same h.inSandbox hm, h.inSandbox⟩
      · rw [hcopy]
        exact EngineKept.of_record h.inSandbox hf _ _ hm

theorem EngineOver.serve {s : Runtime} (e : Engine) (event : Event) (h : EngineOver s e)
    (hallowed : event.Allowed s) : EngineOver s (serve e event).1 := by
  obtain ⟨hk, hin⟩ := serve_kept e event h hallowed
  exact ⟨hin, hk.base.trans h.base, hk.capacity.trans h.capacity, hk.sites.trans h.sites⟩

theorem serve_after {s : Runtime} (events : List Event) (e : Engine) (h : EngineOver s e)
    (hallowed : ∀ event ∈ events, event.Allowed s) :
    EngineOver s (Machine.after serve e events) ∧ EngineKept e (Machine.after serve e events) :=
  Machine.after_relation_of EngineKept.refl EngineKept.trans EngineOver.serve
    (fun e event h hallowed => (serve_kept e event h hallowed).1) events e h hallowed

theorem EngineOver.marshalled {s : Runtime} {e : Engine} (h : EngineOver s e) {call : SandboxCall}
    {src : List UInt8} {p : Option UInt32}
    (hallowed : (Event.copyIn call (some src)).Allowed s)
    (hok : (copyToU call e (some src)).2 = .ok p) :
    ∃ q, p = some q ∧ Marshalled (copyToU call e (some src)).1 q src := by
  obtain ⟨⟨t, m⟩, trusted⟩ := e
  obtain ⟨hfree, hord, hchar⟩ := hallowed
  rcases copyToU_cases h.inSandbox (m := m) trusted hfree (h.ordinary hord) with
    ⟨err, m', hcopy, _⟩ | ⟨site, m', hcopy, hsite, hf, hnot, hstr, _⟩
  · rw [hcopy] at hok
    cases hok
  · rw [hcopy] at hok ⊢
    obtain rfl := Except.ok.inj hok
    have hcursor := h.inSandbox.cursor_lt hf
    have hptr : t.cursor.toUInt32.toUInt64 = t.cursor := toUInt64_toUInt32 hcursor.2
    have hnat : t.cursor.toUInt32.toNat = t.cursor.toNat := by
      rw [UInt64.toNat_toUInt32, Nat.mod_eq_of_lt hcursor.2]
    have hlen : src.length + 1 ≤ 2 ^ 32 - 1 := by
      by_contra hbig
      exact hnot (.inr (.inl (by omega)))
    refine ⟨_, rfl, ⟨⟨t.cursor, (UInt32.ofNat (src.length + 1)).toUInt64, site.typeHash, site.id⟩,
      ?_, ?_, ?_⟩, ?_⟩
    · rw [hptr]
      exact (find_record h.inSandbox.layout _ _ _ _).trans (if_pos rfl)
    · dsimp only
      rw [UInt32.toNat_toUInt64]
      exact UInt32.toNat_ofNat_of_lt' (show _ < 2 ^ 32 by omega)
    · exact hchar site (by rw [← hsite]; exact (callbackSite_congr h.sites _ _).symm)
    · rw [hnat]
      exact hstr

theorem EngineOver.copyToU_error_iff {s : Runtime} {e : Engine} (h : EngineOver s e)
    {call : SandboxCall} {src : List UInt8} (hfree : 0 ∉ src)
    (hord : Ordinary s call (src.length + 1)) :
    (∃ err, (copyToU call e (some src)).2 = .error err) ↔
      Refused e.sandbox.runtime call (src.length + 1) := by
  obtain ⟨⟨t, m⟩, trusted⟩ := e
  rcases copyToU_cases h.inSandbox (m := m) trusted hfree (h.ordinary hord) with
    ⟨err, m', hcopy, hrefused, _⟩ | ⟨site, m', hcopy, _, _, hnot, _⟩
  · rw [hcopy]
    exact iff_of_true ⟨err, rfl⟩ hrefused
  · rw [hcopy]
    exact iff_of_false nofun hnot

/-- **The generated policy makes the sites `char`.**  The callback of the shim comes from the
range of its helper site, and the boundary declares that helper with the type `char`. -/
theorem charSite_of_helper {isWord : Char → Bool} {policy : Tools.Policy}
    {source namespaceName : Tools.Str} {boundary : Tools.Boundary}
    {out : Tools.Str × Tools.UHeader × Tools.THeader}
    (h : Tools.generateBoundary isWord policy source namespaceName boundary = .ok out)
    {p : Tools.TPolicy} (hp : out.2.2.compile = some p) {arenaBase arenaSize : UInt64}
    {resolve : Tools.Str → UInt64} (hok : (p.initialized arenaBase arenaSize resolve).2 = true)
    {i : Nat} {helper : Tools.HelperSite} (hi : boundary.helperSites[i]? = some helper)
    (hchar : helper.type = "char".toList) :
    ∃ row, out.2.2.helperSites[i]? = some row ∧ ∀ ops (call : SandboxCall),
      resolve row.beginSymbol ≤ call.pc → call.pc < resolve row.endSymbol →
        CharSite ((p.initialized arenaBase arenaSize resolve).1.after ops) call := by
  have acc := Tools.generateBoundary_ok h
  obtain ⟨row, hrow, htype⟩ := acc.helper_row hi
  refine ⟨row, hrow, fun ops call hbegin hend site hsite => ?_⟩
  have hfind := acc.helper_site hp hok hi hrow htype ops hbegin hend
  rw [callbackSite, hfind] at hsite
  obtain rfl := Option.some.inj hsite
  exact congrArg Tools.hashType hchar

/-- **What is copied in is copied out.**  In any run of copies, in and out in any order, a
pointer that a copy in has returned is copied out as the string that was copied in, and a
copy in fails exactly when its site is not authorised, its size does not fit 32 bits, its
temporary is refused, or its padded size exceeds what is left of the arena. -/
theorem round_trip (arenaBase arenaSize : UInt64) (hbase : arenaBase ≠ 0)
    (hspace : arenaBase.toNat + arenaSize.toNat ≤ 2 ^ 32) (ops : List Op)
    (memory : Memory UInt8) (trustedStrings : List (List UInt8)) (events : List Event)
    (hevents : ∀ event ∈ events, event.Allowed ((new arenaBase arenaSize).after ops)) :
    let e : Engine := ⟨⟨(new arenaBase arenaSize).after ops, memory⟩, trustedStrings⟩
    (∀ (i j : Nat) call src p, i < j → events[i]? = some (.copyIn call (some src)) →
      (Machine.outputs serve e events)[i]? = some (.placed (.ok p)) →
      events[j]? = some (.copyOut p) →
      (Machine.outputs serve e events)[j]? = some (.checked (.ok (some (src ++ [0]))))) ∧
    ∀ (i : Nat) call src, events[i]? = some (.copyIn call (some src)) →
      ((∃ err, (Machine.outputs serve e events)[i]? = some (.placed (.error err))) ↔
        Refused (Machine.after serve e (events.take i)).sandbox.runtime call
          (src.length + 1)) := by
  intro e
  have he : EngineOver ((new arenaBase arenaSize).after ops) e :=
    EngineOver.reachable hbase hspace ops memory trustedStrings
  have hat : ∀ n, EngineOver ((new arenaBase arenaSize).after ops)
      (Machine.after serve e (events.take n)) := fun n =>
    (serve_after _ e he (fun event h => hevents event (List.mem_of_mem_take h))).1
  constructor
  · intro i j call src p hij hi hout hj
    have hallowed := hevents _ (List.mem_of_getElem? hi)
    rw [Machine.getElem?_outputs, hi] at hout
    have hok : (copyToU call (Machine.after serve e (events.take i)) (some src)).2 = .ok p :=
      Outcome.placed.inj (Option.some.inj hout)
    obtain ⟨q, rfl, hm⟩ := (hat i).marshalled hallowed hok
    -- the events between the two copies
    have hplaced : Marshalled (Machine.after serve e (events.take (i + 1))) q src := by
      rw [Machine.after_take_succ serve e hi]
      exact hm
    have hkept : EngineKept (Machine.after serve e (events.take (i + 1)))
        (Machine.after serve e (events.take j)) := by
      rw [Machine.after_take_of_le serve e events hij]
      exact (serve_after _ _ (hat (i + 1)) (fun event h =>
        hevents event (List.mem_of_mem_take (List.mem_of_mem_drop h)))).2
    have hcopy := (hplaced.kept hkept).copyChecked (hat j).inSandbox.layout
    rw [Machine.getElem?_outputs, hj]
    exact congrArg (fun r => some (Outcome.checked r)) hcopy
  · intro i call src hi
    obtain ⟨hfree, hord, _⟩ := hevents _ (List.mem_of_getElem? hi)
    rw [Machine.getElem?_outputs, hi, ← (hat i).copyToU_error_iff hfree hord]
    constructor
    · rintro ⟨err, herr⟩
      exact ⟨err, Outcome.placed.inj (Option.some.inj herr)⟩
    · rintro ⟨err, herr⟩
      exact ⟨err, congrArg (fun r => some (Outcome.placed r)) herr⟩

/-- Two strings are copied in, one after the other, and the first is copied out. -/
theorem round_trip_two :
    let s := (new 4096 64).after
      [.registerType 1 kTypeHashChar, .registerAllocationSite 1 100 200 1]
    let call : SandboxCall := ⟨8192, id, id, 150, 0⟩
    let events : List Event :=
      [.copyIn call (some [104, 105]), .copyIn call (some []), .copyOut (some 4096)]
    (Machine.outputs serve ⟨⟨s, fun _ => 7⟩, []⟩ events)[2]? =
      some (.checked (.ok (some [104, 105, 0]))) := by
  intro s call events
  have hallowed : ∀ event ∈ events, event.Allowed s := by
    have hord : ∀ bytes ≤ 3, Ordinary s call bytes := fun bytes hle => {
      apart := fun _ _ => ⟨show 8192 + bytes ≤ _ by omega, .inr (by decide)⟩
      onMalloc := fun _ _ _ => rfl
      onFree := fun _ _ _ => rfl }
    have hchar : CharSite s call := by
      intro site hsite
      obtain rfl : ⟨1, 100, 200, 1, kTypeHashChar⟩ = site := Option.some.inj hsite
      rfl
    intro event hevent
    rcases List.mem_cons.mp hevent with rfl | hevent
    · exact ⟨by decide, hord _ (by decide), hchar⟩
    rcases List.mem_cons.mp hevent with rfl | hevent
    · exact ⟨by decide, hord _ (by decide), hchar⟩
    · obtain rfl := List.mem_singleton.mp hevent
      trivial
  have hspec := round_trip 4096 64 (by decide) (by decide)
    [.registerType 1 kTypeHashChar, .registerAllocationSite 1 100 200 1] (fun _ => 7) [] events
    hallowed
  exact hspec.1 0 2 call [104, 105] (some 4096) (by decide) rfl (by decide +kernel) rfl

end InterSpec.Bridge
