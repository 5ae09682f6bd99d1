import InterSpec.Bridge.Shadow
import InterSpec.Runtime.Callback

/-!
# Sessions of the option parser

The functions of `popt.h` that `integration/rsync_popt/p4c_bridge.cpp` exports, called by the
host one after the other.  Nothing is assumed about the sandbox.  Each call into it may make
any callbacks, leave any bytes in its memory and return any word, and what it does may depend
on all that it has seen.  The process is gone when `bridge_failure` aborts it, or when the host
uses a context that it does not have.

* `Untrusted`, `invoke`: the sandbox, and one call into it.
* `hostMakeContext`, `hostSyncSlots`, `hostGetArgs`: the loops of the bridge around such calls.
* `session`: the machine of the exported functions.
* `Later`: what every piece of the bridge keeps, whatever the sandbox does.
* `exported_ok`: what one call that returns has done.
* `session_safe`: every string that the host gets was found in a live `char` record.
* `session_confined`: the host's variables change only where its option tables say so.
-/

namespace InterSpec.Bridge

open InterSpec.Runtime Fallible

/-! ### The sandbox -/

/-- The functions of `p4c_bridge_untrusted.c`, the allocator of the sandbox, and
`interspec_popt_init_lifetime`. -/
inductive Entry
  | initLifetime (allocSlot release size reallocate : UInt32)
  | malloc (bytes : UInt32)
  | free (ptr : UInt32)
  | typedCopy (src : UInt32)
  | tableNew (optionCount slotCount : UInt32)
  | slotSetInt (table index : UInt32) (value : Int32)
  | slotSetString (table index value : UInt32)
  | optionSet (table index shortName argInfo slotIndex : UInt32) (value : Int32)
  | optionSetStrings (table index longName description argDescription : UInt32)
  | slotGetInt (table index : UInt32)
  | slotGetString (table index : UInt32)
  | argvNew (argc : UInt32)
  | argvSet (argv index value : UInt32)
  | contextNew (name : UInt32) (argc : Int32) (argv table flags : UInt32)
  | next (context : UInt32)
  | optArg (context : UInt32)
  | badOption (context flags : UInt32)
  | argsCount (context : UInt32)
  | argsAt (context index : UInt32)
  | contextFree (context : UInt32)
  | tableFree (table : UInt32)
  | argvFree (argv : UInt32)
deriving DecidableEq, Repr

/-- A callback into the trusted side. -/
inductive Callback
  | allocate (size : UInt32) (pc nextPc : UInt64)
  | release (ptr : UInt32)
  | size (ptr : UInt32)
  | reallocate (ptr size : UInt32)
deriving DecidableEq, Repr

def callback : Machine Runtime Callback UInt32 := fun s => fun
  | .allocate size pc nextPc => p4cAllocate s size pc nextPc
  | .release ptr => p4cRelease s ptr
  | .size ptr => (s, p4cSize s ptr)
  | .reallocate ptr size => p4cReallocate s ptr size

/-- What the sandbox does before a call into it returns. -/
structure Response (σ : Type) where
  state : σ
  callbacks : List Callback
  memory : Memory UInt8
  value : UInt32

/-- The code of the sandbox, with a state of its own. -/
abbrev Untrusted (σ : Type) := σ → Sandbox → Entry → Response σ

/-- Both sides of the boundary; `made` are the callbacks that the sandbox has made, `seen` the
sandboxes that calls have returned with. -/
structure World (σ : Type) where
  untrusted : σ
  engine : Engine
  made : List Callback
  seen : List Sandbox

section Bridge

variable {σ : Type} (U : Untrusted σ)

/-- `invoke_sandbox_function`. -/
def invoke (w : World σ) (entry : Entry) : World σ × UInt32 :=
  let response := U w.untrusted w.engine.sandbox entry
  let sandbox : Sandbox :=
    ⟨Machine.after callback w.engine.sandbox.runtime response.callbacks, response.memory⟩
  (⟨response.state, { w.engine with sandbox := sandbox }, w.made ++ response.callbacks,
    w.seen ++ [sandbox]⟩, response.value)

/-- A call that returns a `char*`, and `copy_checked` of the result. -/
def invokeChecked (w : World σ) (entry : Entry) :
    Except BridgeError (World σ × Option (List UInt8)) :=
  let called := invoke U w entry
  let copied := copyChecked called.1.engine
    (if called.2 = 0 then none else some called.2.toUInt64)
  match copied.result with
  | .error err => .error err
  | .ok copy => .ok ({ called.1 with engine := copied.engine }, copy)

/-- `std::memcpy` of the trusted side into the memory of the sandbox. -/
def World.store (w : World σ) (ptr : UInt32) (bytes : List UInt8) : World σ :=
  { w with engine := { w.engine with sandbox := { w.engine.sandbox with
      memory := Memory.storeList w.engine.sandbox.memory ptr.toNat bytes } } }

/-- `copy_to_u`. -/
def hostCopyToU (w : World σ) : Option CString → Except BridgeError (World σ × UInt32)
  | none => .ok (w, 0)
  | some src =>
    let bytes := src.val.length + 1
    if 2 ^ 32 - 1 < bytes then .error .exceedsAbi
    else
      let temporary := invoke U w (.malloc (UInt32.ofNat bytes))
      if temporary.2 = 0 then .error .badAlloc
      else
        let filled := temporary.1.store temporary.2 (src.val ++ [0])
        let typed := invoke U filled (.typedCopy temporary.2)
        let freed := invoke U typed.1 (.free temporary.2)
        if typed.2 = 0 then .error .badAlloc else .ok (freed.1, typed.2)

/-! ### `make_context` -/

/-- `struct TrustedContext`; what is in the sandbox is known by its address only. -/
structure HostContext where
  untrustedContext : UInt32
  untrustedTable : UInt32
  untrustedArgv : UInt32
  slots : List SlotBinding
  argsCache : List (Option (List UInt8))

def hostInitializeSlot (trusted : Trusted) (table : UInt32) (w : World σ)
    (binding : SlotBinding) : Except BridgeError (World σ) :=
  match binding.kind with
  | .integer => do
    let ok := invoke U w
      (.slotSetInt table binding.index (trusted.ints binding.trustedAddress))
    ensure (ok.2 ≠ 0) .initializeIntSlot
    return ok.1
  | .string => do
    let copied ← hostCopyToU U w (trusted.strings binding.trustedAddress)
    let ok := invoke U copied.1 (.slotSetString table binding.index copied.2)
    ensure (ok.2 ≠ 0) .initializeStringSlot
    return ok.1

def hostWireOption (table : UInt32) (slotByAddress : List (UInt64 × UInt32))
    (options : Nat → PoptOption) (w : World σ) (i : Nat) : Except BridgeError (World σ) := do
  let option := options i
  let slot ← slotOf slotByAddress option.arg
  let ok := invoke U w (.optionSet table (UInt32.ofNat i) option.shortName.toUInt32
    option.argInfo slot option.val)
  ensure (ok.2 ≠ 0) .copyOption
  let longName ← hostCopyToU U ok.1 option.longName
  let description ← hostCopyToU U longName.1 option.descrip
  let argDescription ← hostCopyToU U description.1 option.argDescrip
  let stringsOk := invoke U argDescription.1 (.optionSetStrings table (UInt32.ofNat i)
    longName.2 description.2 argDescription.2)
  ensure (stringsOk.2 ≠ 0) .copyOptionStrings
  return stringsOk.1

def hostCopyArgument (box : UInt32) (argv : Nat → Option CString) (w : World σ) (i : Nat) :
    Except BridgeError (World σ) := do
  let copied ← hostCopyToU U w (argv i)
  let ok := invoke U copied.1 (.argvSet box (UInt32.ofNat i) copied.2)
  ensure (ok.2 ≠ 0) .copyArgv
  return ok.1

/-- `make_context`; of the surroundings only the header and the order of the hash map are
used, what the sandbox does is `U`. -/
def hostMakeContext (env : Surroundings) (w : World σ) (trusted : Trusted)
    (name : Option CString) (argc : Int32) (argv : Option (Nat → Option CString))
    (options : Option (Nat → PoptOption)) (flags : UInt32) :
    Except BridgeError (World σ × Option HostContext) := do
  ensure (¬ (argc < 0 ∨ 0 < argc ∧ argv.isNone)) .invalidArgv
  let count ← optionCount options
  let option := options.getD (fun _ => ⟨none, 0, 0, 0, 0, none, none⟩)
  let assigned ← assignSlots env ((List.range count).map option)
  let table := invoke U w
    (.tableNew (UInt32.ofNat count) (UInt32.ofNat assigned.kinds.length))
  ensure (table.2 ≠ 0) .badAlloc
  let slots := (env.enumerate assigned.slotByAddress).map assigned.binding
  let initialized ← fold (hostInitializeSlot U trusted table.2) table.1 slots
  let wired ← fold (hostWireOption U table.2 assigned.slotByAddress option) initialized
    (List.range count)
  let box := invoke U wired (.argvNew argc.toUInt32)
  ensure (box.2 ≠ 0) .badAlloc
  let copied ← fold (hostCopyArgument U box.2 (argv.getD (fun _ => none))) box.1
    (List.range argc.toNatClampNeg)
  let copiedName ← hostCopyToU U copied name
  let context := invoke U copiedName.1 (.contextNew copiedName.2 argc box.2 table.2 flags)
  if context.2 = 0 then return (context.1, none)
  else return (context.1, some ⟨context.2, table.2, box.2, slots, []⟩)

/-! ### `sync_slots` and `poptGetArgs` -/

def hostSyncSlot (table : UInt32) (state : World σ × Trusted) (binding : SlotBinding) :
    Except BridgeError (World σ × Trusted) :=
  match binding.kind with
  | .integer =>
    let value := invoke U state.1 (.slotGetInt table binding.index)
    .ok (value.1, state.2.setInt binding.trustedAddress value.2.toInt32)
  | .string => do
    let copy ← invokeChecked U state.1 (.slotGetString table binding.index)
    return (copy.1, state.2.setString binding.trustedAddress (copy.2.map CString.ofBytes))

def hostSyncSlots (context : HostContext) (w : World σ) (trusted : Trusted) :
    Except BridgeError (World σ × Trusted) :=
  fold (hostSyncSlot U context.untrustedTable) (w, trusted) context.slots

/-- Why a call does not return: `bridge_failure`, or a context that the host does not have. -/
inductive Stop
  | aborted
  | undefined
deriving DecidableEq, Repr

/-- `catch (...) { bridge_failure(); }`. -/
def bridgeFailure {α : Type} : Except BridgeError α → Except Stop α
  | .error _ => .error .aborted
  | .ok a => .ok a

/-- The copy of one argument; a null pointer is a failure too. -/
def hostCopyArg (context : UInt32) (state : World σ × List (Option (List UInt8))) (i : Nat) :
    Except Stop (World σ × List (Option (List UInt8))) := do
  let copy ← bridgeFailure (invokeChecked U state.1 (.argsAt context (UInt32.ofNat i)))
  ensure (copy.2.isSome) .aborted
  return (copy.1, state.2 ++ [copy.2])

/-- The array of `poptGetArgs`, with its terminator. -/
def hostGetArgs (context : HostContext) (w : World σ) :
    Except Stop (World σ × Option (List (Option (List UInt8)))) := do
  let count := invoke U w (.argsCount context.untrustedContext)
  if count.2 = 0 then return (count.1, none)
  let copied ← fold (hostCopyArg U context.untrustedContext) (count.1, [])
    (List.range count.2.toNat)
  return (copied.1, some (copied.2 ++ [none]))

/-! ### The exported functions -/

/-- The state of the host; a context is freed by emptying its cell. -/
structure Process (σ : Type) where
  world : World σ
  trusted : Trusted
  contexts : List (Option HostContext)

/-- A call of the host, which knows a context by its cell or has a null pointer; or a change
that the host makes to its own variables. -/
inductive Call
  | hostWrites (trusted : Trusted)
  | poptGetContext (name : Option CString) (argc : Int32)
      (argv : Option (Nat → Option CString)) (options : Option (Nat → PoptOption))
      (flags : UInt32)
  | poptGetNextOpt (context : Option Nat)
  | poptGetOptArg (context : Option Nat)
  | poptGetArgs (context : Option Nat)
  | poptBadOption (context : Option Nat) (flags : UInt32)
  | poptFreeContext (context : Option Nat)
  | poptReadDefaultConfig (context : Option Nat) (useEnv : Int32)
  | poptAddAlias (context : Option Nat) (flags : Int32)

/-- The variables of the host after a call, but for what the sandbox writes to them. -/
def Call.ownVariables (trusted : Trusted) : Call → Trusted
  | .hostWrites written => written
  | _ => trusted

inductive Answer
  | done
  | context (context : Option Nat)
  | code (result : Int32)
  | string (text : Option (List UInt8))
  | strings (texts : Option (List (Option (List UInt8))))
deriving DecidableEq, Repr

/-- The strings that an answer points to. -/
def Answer.texts : Answer → List (List UInt8)
  | .string text => text.toList
  | .strings texts => (texts.getD []).filterMap id
  | _ => []

/-- A function of a context; `null` is what it returns for a null pointer. -/
def withContext (p : Process σ) (context : Option Nat) (null : Answer)
    (body : Nat → HostContext → Except Stop (Process σ × Answer)) :
    Except Stop (Process σ × Answer) :=
  match context with
  | none => .ok (p, null)
  | some cell =>
    match p.contexts[cell]? with
    | some (some context) => body cell context
    | _ => .error .undefined

/-- One call; `nullArg` is `POPT_ERROR_NULLARG`. -/
def exported (env : Surroundings) (nullArg : Int32) (p : Process σ) :
    Call → Except Stop (Process σ × Answer)
  | .hostWrites trusted => .ok ({ p with trusted := trusted }, .done)
  | .poptGetContext name argc argv options flags => do
    let made ← bridgeFailure
      (hostMakeContext U env p.world p.trusted name argc argv options flags)
    match made.2 with
    | none => return ({ p with world := made.1 }, .context none)
    | some context =>
      return ({ p with world := made.1, contexts := p.contexts ++ [some context] },
        .context (some p.contexts.length))
  | .poptGetNextOpt context =>
    withContext p context (.code nullArg) fun _ context => do
      let result := invoke U p.world (.next context.untrustedContext)
      let synced ← bridgeFailure (hostSyncSlots U context result.1 p.trusted)
      return ({ p with world := synced.1, trusted := synced.2 }, .code result.2.toInt32)
  | .poptGetOptArg context =>
    withContext p context (.string none) fun _ context => do
      let copy ← bridgeFailure (invokeChecked U p.world (.optArg context.untrustedContext))
      return ({ p with world := copy.1 }, .string copy.2)
  | .poptGetArgs context =>
    withContext p context (.strings none) fun cell context => do
      let args ← hostGetArgs U context p.world
      match args.2 with
      | none => return ({ p with world := args.1 }, .strings none)
      | some cache =>
        return ({ p with
          world := args.1
          contexts := p.contexts.set cell (some { context with argsCache := cache }) },
          .strings (some cache))
  | .poptBadOption context flags =>
    withContext p context (.string none) fun _ context => do
      let copy ← bridgeFailure
        (invokeChecked U p.world (.badOption context.untrustedContext flags))
      return ({ p with world := copy.1 }, .string copy.2)
  | .poptFreeContext context =>
    withContext p context (.context none) fun cell context => do
      let freed := invoke U p.world (.contextFree context.untrustedContext)
      let table := invoke U freed.1 (.tableFree context.untrustedTable)
      let argv := invoke U table.1 (.argvFree context.untrustedArgv)
      return ({ p with world := argv.1, contexts := p.contexts.set cell none }, .context none)
  | .poptReadDefaultConfig _ _ => .ok (p, .code 0)
  | .poptAddAlias _ _ => .ok (p, .code 0)

/-- The machine of the session; after a call that does not return nothing is answered. -/
def session (env : Surroundings) (nullArg : Int32) :
    Machine (Option (Process σ)) Call (Except Stop Answer) := fun p call =>
  match p with
  | none => (none, .error .aborted)
  | some p =>
    match exported U env nullArg p call with
    | .error stop => (none, .error stop)
    | .ok (p', answer) => (some p', .ok answer)

end Bridge

/-! ### What every piece of the bridge keeps -/

/-- A state that calls of the runtime lead to. -/
def Reachable (arenaBase arenaSize : UInt64) (s : Runtime) : Prop :=
  ∃ ops, s = (new arenaBase arenaSize).after ops

section Later

variable {arenaBase arenaSize : UInt64}

theorem Reachable.layout {s : Runtime} (h : Reachable arenaBase arenaSize s) : Layout s := by
  obtain ⟨ops, rfl⟩ := h
  exact layout_reachable arenaBase arenaSize ops

theorem Reachable.after {s : Runtime} (h : Reachable arenaBase arenaSize s) (ops : List Op) :
    Reachable arenaBase arenaSize (s.after ops) := by
  obtain ⟨before, rfl⟩ := h
  exact ⟨before ++ ops, (after_append _ before ops).symm⟩

theorem callback_reachable (s : Runtime) (c : Callback) :
    ∃ ops, (callback s c).1 = s.after ops := by
  cases c with
  | allocate size pc nextPc => exact allocateFromCallback_reachable s size.toUInt64 pc nextPc
  | release ptr => exact ⟨[.release ptr.toUInt64], rfl⟩
  | size ptr => exact ⟨[], rfl⟩
  | reallocate ptr size => exact ⟨[.reallocate ptr.toUInt64 size.toUInt64], rfl⟩

theorem Reachable.callbacks {s : Runtime} (h : Reachable arenaBase arenaSize s)
    (callbacks : List Callback) :
    Reachable arenaBase arenaSize (Machine.after callback s callbacks) := by
  refine Machine.after_induction (fun s c h => ?_) callbacks s h
  obtain ⟨ops, hops⟩ := callback_reachable s c
  rw [hops]
  exact h.after ops

theorem layout_callbacks {s : Runtime} (h : Layout s) (callbacks : List Callback) :
    Layout (Machine.after callback s callbacks) := by
  refine Machine.after_induction (fun s c h => ?_) callbacks s h
  obtain ⟨ops, hops⟩ := callback_reachable s c
  rw [hops]
  exact layout_after h ops

/-- The string was in a live `char` record of one of the sandboxes. -/
def Found (seen : List Sandbox) (t : List UInt8) : Prop :=
  ∃ s ∈ seen, ∃ p src, Held s p src ∧ t = src.val ++ [0]

/-- From the runtime `origin` on only the callbacks have changed it, and the strings that the
engine keeps were found in the sandbox. -/
structure Genuine (origin : Runtime) {σ : Type} (w : World σ) : Prop where
  layout : Layout origin
  runtime : w.engine.sandbox.runtime = Machine.after callback origin w.made
  seen : ∀ s ∈ w.seen, ∃ made, made <+: w.made ∧ s.runtime = Machine.after callback origin made
  strings : ∀ t ∈ w.engine.trustedStrings, Found w.seen t

/-- `w'` comes after `w`: what the engine keeps stays, and it stays genuine. -/
structure Later (origin : Runtime) {σ : Type} (w w' : World σ) : Prop where
  strings : w.engine.trustedStrings <+: w'.engine.trustedStrings
  genuine : Genuine origin w → Genuine origin w'

variable {σ : Type} {origin : Runtime}

theorem Later.refl (w : World σ) : Later origin w w :=
  ⟨List.prefix_refl _, id⟩

theorem Later.trans {w w' w'' : World σ} (h : Later origin w w')
    (h' : Later origin w' w'') : Later origin w w'' :=
  ⟨h.strings.trans h'.strings, fun hg => h'.genuine (h.genuine hg)⟩

theorem Found.mono {seen seen' : List Sandbox} {t : List UInt8} (h : Found seen t)
    (hsub : seen ⊆ seen') : Found seen' t := by
  obtain ⟨s, hs, hheld⟩ := h
  exact ⟨s, hsub hs, hheld⟩

variable {U : Untrusted σ}

theorem invoke_later (w : World σ) (entry : Entry) :
    Later origin w (invoke U w entry).1 := by
  refine ⟨List.prefix_refl _, fun h => ?_⟩
  have hruntime : (invoke U w entry).1.engine.sandbox.runtime =
      Machine.after callback origin (invoke U w entry).1.made := by
    rw [show (invoke U w entry).1.made = w.made ++ _ from rfl, Machine.after_append, ← h.runtime]
    rfl
  refine ⟨h.layout, hruntime, ?_,
    fun t ht => (h.strings t ht).mono (List.subset_append_left _ _)⟩
  rw [show (invoke U w entry).1.seen = w.seen ++ [_] from rfl, List.forall_mem_append,
    List.forall_mem_singleton]
  refine ⟨fun s hs => ?_, _, List.prefix_refl _, hruntime⟩
  obtain ⟨made, hmade, hs⟩ := h.seen s hs
  exact ⟨made, hmade.trans (List.prefix_append _ _), hs⟩

theorem Genuine.layout_runtime {w : World σ} (h : Genuine origin w) :
    Layout w.engine.sandbox.runtime := by
  rw [h.runtime]
  exact layout_callbacks h.layout w.made

theorem World.store_later (w : World σ) (ptr : UInt32) (bytes : List UInt8) :
    Later origin w (w.store ptr bytes) :=
  ⟨List.prefix_refl _, fun h => ⟨h.layout, h.runtime, h.seen, h.strings⟩⟩

/-- **What `copy_checked` accepts is held by the sandbox.** -/
theorem copyChecked_ok {e : Engine} (h : Layout e.sandbox.runtime) {p : UInt32}
    {copy : Option (List UInt8)} (hok : (copyChecked e (some p.toUInt64)).result = .ok copy) :
    ∃ src, Held e.sandbox p src ∧ copy = some (src.val ++ [0]) ∧
      (copyChecked e (some p.toUInt64)).engine =
        { e with trustedStrings := e.trustedStrings ++ [src.val ++ [0]] } := by
  have hnat : p.toUInt64.toNat = p.toNat := UInt32.toNat_toUInt64 p
  by_cases hrec : ∃ a, CharRecord e.sandbox.runtime p.toUInt64 a
  · obtain ⟨a, ha⟩ := hrec
    by_cases hz : ∃ b, p.toNat ≤ b ∧ b < byteEnd a ∧ e.sandbox.memory b = 0
    · obtain ⟨str, hstr, hlen⟩ := Memory.exists_stringAt (n := byteEnd a - p.toNat)
        (by obtain ⟨b, h1, h2, h3⟩ := hz; exact ⟨b, h1, by omega, h3⟩)
      rw [copyChecked_accept h ha (hnat ▸ hstr) (by omega)] at hok ⊢
      exact ⟨⟨str, hstr.free⟩, ⟨a, ha, hstr, show p.toNat + str.length < byteEnd a by omega⟩,
        (Except.ok.inj hok).symm, rfl⟩
    · rw [copyChecked_unterminated h ha (fun b h1 h2 h3 => hz ⟨b, by omega, h2, h3⟩)] at hok
      cases hok
  · rw [copyChecked_rejected h (not_exists.mp hrec)] at hok
    cases hok

theorem copyChecked_null (e : Engine) : copyChecked e none = ⟨e, [], .ok none⟩ := rfl

/-- **A copy out of the sandbox**: null, or a string that the sandbox held when it returned
the pointer, and that the engine keeps from now on. -/
theorem invokeChecked_later {w w' : World σ} {entry : Entry} {copy : Option (List UInt8)}
    (hg : Genuine origin w) (hok : invokeChecked U w entry = .ok (w', copy)) :
    Later origin w w' ∧ ∀ t ∈ copy, t ∈ w'.engine.trustedStrings := by
  have hcalled : Later origin w _ := invoke_later (U := U) w entry
  have hgood := hcalled.genuine hg
  unfold invokeChecked at hok
  generalize hcall : invoke U w entry = called at hok hcalled hgood
  have hseen : called.1.engine.sandbox ∈ called.1.seen := by
    rw [← hcall]
    exact List.mem_append_right _ (List.mem_singleton_self _)
  dsimp only at hok
  by_cases h0 : called.2 = 0
  · rw [if_pos h0, copyChecked_null] at hok
    cases hok
    exact ⟨⟨hcalled.strings, fun _ => hgood⟩, nofun⟩
  rw [if_neg h0] at hok
  cases hresult : (copyChecked called.1.engine (some called.2.toUInt64)).result with
  | error err =>
    rw [hresult] at hok
    cases hok
  | ok found =>
    obtain ⟨src, hheld, rfl, hengine⟩ := copyChecked_ok hgood.layout_runtime hresult
    rw [hresult, hengine] at hok
    cases hok
    refine ⟨⟨hcalled.strings.trans (List.prefix_append _ _), fun _ => ?_⟩, ?_⟩
    · refine ⟨hgood.layout, hgood.runtime, hgood.seen, ?_⟩
      rw [List.forall_mem_append, List.forall_mem_singleton]
      exact ⟨hgood.strings, called.1.engine.sandbox, hseen, called.2, src, hheld, rfl⟩
    · intro t ht
      obtain rfl := Option.some.inj ht
      exact List.mem_append_right _ (List.mem_singleton_self _)

theorem hostCopyToU_later {w w' : World σ} {src : Option CString} {p : UInt32}
    (hok : hostCopyToU U w src = .ok (w', p)) : Later origin w w' := by
  cases src with
  | none =>
    cases hok
    exact .refl w
  | some src =>
    unfold hostCopyToU at hok
    dsimp only at hok
    by_cases hbig : 2 ^ 32 - 1 < src.val.length + 1
    · rw [if_pos hbig] at hok
      cases hok
    rw [if_neg hbig] at hok
    generalize hmalloc : invoke U w (.malloc (UInt32.ofNat (src.val.length + 1))) = temporary at hok
    by_cases h0 : temporary.2 = 0
    · rw [if_pos h0] at hok
      cases hok
    rw [if_neg h0] at hok
    generalize htyped : invoke U (temporary.1.store temporary.2 (src.val ++ [0]))
      (.typedCopy temporary.2) = typed at hok
    by_cases h1 : typed.2 = 0
    · rw [if_pos h1] at hok
      cases hok
    rw [if_neg h1] at hok
    cases hok
    have h1 : Later origin w _ := invoke_later (U := U) w
      (.malloc (UInt32.ofNat (src.val.length + 1)))
    have h2 : Later origin (temporary.1.store temporary.2 (src.val ++ [0])) _ :=
      invoke_later (U := U) _ (.typedCopy temporary.2)
    rw [hmalloc] at h1
    rw [htyped] at h2
    exact ((h1.trans (temporary.1.store_later _ _)).trans h2).trans (invoke_later typed.1 _)

/-! ### The loops -/

theorem hostInitializeSlot_later {trusted : Trusted} {table : UInt32} {w w' : World σ}
    {binding : SlotBinding} (hok : hostInitializeSlot U trusted table w binding = .ok w') :
    Later origin w w' := by
  unfold hostInitializeSlot at hok
  cases hkind : binding.kind with
  | integer =>
    rw [hkind] at hok
    obtain ⟨_, _, hok⟩ := bind_eq_ok.mp hok
    cases hok
    exact invoke_later w _
  | string =>
    rw [hkind] at hok
    obtain ⟨copied, hcopied, hok⟩ := bind_eq_ok.mp hok
    obtain ⟨_, _, hok⟩ := bind_eq_ok.mp hok
    cases hok
    exact (hostCopyToU_later hcopied).trans (invoke_later copied.1 _)

theorem hostWireOption_later {table : UInt32} {slotByAddress : List (UInt64 × UInt32)}
    {options : Nat → PoptOption} {w w' : World σ} {i : Nat}
    (hok : hostWireOption U table slotByAddress options w i = .ok w') :
    Later origin w w' := by
  obtain ⟨slot, _, hok⟩ := bind_eq_ok.mp hok
  obtain ⟨_, _, hok⟩ := bind_eq_ok.mp hok
  obtain ⟨longName, hlong, hok⟩ := bind_eq_ok.mp hok
  obtain ⟨description, hdescription, hok⟩ := bind_eq_ok.mp hok
  obtain ⟨argDescription, hargDescription, hok⟩ := bind_eq_ok.mp hok
  obtain ⟨_, _, hok⟩ := bind_eq_ok.mp hok
  cases hok
  have hset : Later origin w _ := invoke_later (U := U) w
    (.optionSet table (UInt32.ofNat i) (options i).shortName.toUInt32 (options i).argInfo slot
      (options i).val)
  exact (((hset.trans (hostCopyToU_later hlong)).trans (hostCopyToU_later hdescription)).trans
    (hostCopyToU_later hargDescription)).trans (invoke_later argDescription.1 _)

theorem hostCopyArgument_later {box : UInt32} {argv : Nat → Option CString} {w w' : World σ}
    {i : Nat} (hok : hostCopyArgument U box argv w i = .ok w') :
    Later origin w w' := by
  obtain ⟨copied, hcopied, hok⟩ := bind_eq_ok.mp hok
  obtain ⟨_, _, hok⟩ := bind_eq_ok.mp hok
  cases hok
  exact (hostCopyToU_later hcopied).trans (invoke_later copied.1 _)

/-- **`make_context`.**  Its bindings are those of the first loop. -/
theorem hostMakeContext_ok {env : Surroundings} {w w' : World σ} {trusted : Trusted}
    {name : Option CString} {argc : Int32} {argv : Option (Nat → Option CString)}
    {options : Option (Nat → PoptOption)} {flags : UInt32} {made : Option HostContext}
    (hok : hostMakeContext U env w trusted name argc argv options flags = .ok (w', made)) :
    Later origin w w' ∧ ∀ context ∈ made, context.argsCache = [] ∧
      ∃ table count assigned, options = some table ∧ optionCount options = .ok count ∧
        assignSlots env ((List.range count).map table) = .ok assigned ∧
        context.slots = (env.enumerate assigned.slotByAddress).map assigned.binding := by
  obtain ⟨_, _, hok⟩ := bind_eq_ok.mp hok
  obtain ⟨count, hcount, hok⟩ := bind_eq_ok.mp hok
  cases options with
  | none => cases hcount
  | some options =>
  obtain ⟨assigned, hassigned, hok⟩ := bind_eq_ok.mp hok
  obtain ⟨_, _, hok⟩ := bind_eq_ok.mp hok
  obtain ⟨initialized, hinit, hok⟩ := bind_eq_ok.mp hok
  obtain ⟨wired, hwire, hok⟩ := bind_eq_ok.mp hok
  obtain ⟨_, _, hok⟩ := bind_eq_ok.mp hok
  obtain ⟨copied, hargv, hok⟩ := bind_eq_ok.mp hok
  obtain ⟨copiedName, hname, hok⟩ := bind_eq_ok.mp hok
  have htable : Later origin w _ := invoke_later (U := U) w
    (.tableNew (UInt32.ofNat count) (UInt32.ofNat assigned.kinds.length))
  have hslots : Later origin _ _ := fold_relation Later.refl
    (fun _ _ _ => Later.trans) (fun _ _ _ => hostInitializeSlot_later) hinit
  have hoptions : Later origin _ _ := fold_relation Later.refl
    (fun _ _ _ => Later.trans) (fun _ _ _ => hostWireOption_later) hwire
  have hbox : Later origin wired _ := invoke_later (U := U) wired
    (.argvNew argc.toUInt32)
  have harguments : Later origin _ _ := fold_relation Later.refl
    (fun _ _ _ => Later.trans) (fun _ _ _ => hostCopyArgument_later) hargv
  have hlater := ((((htable.trans hslots).trans hoptions).trans hbox).trans harguments).trans
    (hostCopyToU_later hname)
  dsimp only at hok
  split at hok
  · cases hok
    exact ⟨hlater.trans (invoke_later copiedName.1 _), nofun⟩
  · cases hok
    refine ⟨hlater.trans (invoke_later copiedName.1 _), fun context hcontext => ?_⟩
    obtain rfl := Option.some.inj hcontext
    exact ⟨rfl, options, count, assigned, rfl, hcount, hassigned, rfl⟩

theorem Later.mem {w w' : World σ} (h : Later origin w w') {t : List UInt8}
    (ht : t ∈ w.engine.trustedStrings) : t ∈ w'.engine.trustedStrings :=
  h.strings.subset ht

theorem Genuine.ofBytes {w : World σ} (h : Genuine origin w) {t : List UInt8}
    (ht : t ∈ w.engine.trustedStrings) : (CString.ofBytes t).val ++ [0] = t := by
  obtain ⟨_, _, _, src, _, rfl⟩ := h.strings t ht
  rw [CString.ofBytes_append src []]

/-- The destinations after the slots `done`: the others are untouched, and a string is one
that the engine keeps. -/
structure SyncedFrom (origin : Runtime) (w : World σ) (trusted : Trusted)
    (done : List SlotBinding) (state : World σ × Trusted) : Prop where
  later : Later origin w state.1
  ints : ∀ a, (∀ b ∈ done, b.kind = .integer → b.trustedAddress ≠ a) →
    state.2.ints a = trusted.ints a
  strings : ∀ a, (∀ b ∈ done, b.kind = .string → b.trustedAddress ≠ a) →
    state.2.strings a = trusted.strings a
  kept : ∀ b ∈ done, b.kind = .string → ∀ src ∈ state.2.strings b.trustedAddress,
    src.val ++ [0] ∈ state.1.engine.trustedStrings

theorem SyncedFrom.step {w : World σ} {trusted : Trusted} {done : List SlotBinding}
    {state state' : World σ × Trusted} {table : UInt32} {b : SlotBinding}
    (hg : Genuine origin w) (h : SyncedFrom origin w trusted done state)
    (hok : hostSyncSlot U table state b = .ok state') :
    SyncedFrom origin w trusted (done ++ [b]) state' := by
  unfold hostSyncSlot at hok
  cases hkind : b.kind with
  | integer =>
    rw [hkind] at hok
    cases hok
    have hinvoke : Later origin state.1 _ := invoke_later (U := U)
      state.1 (.slotGetInt table b.index)
    refine ⟨h.later.trans hinvoke, fun a ha => ?_, fun a ha => ?_, fun b' hb' hstr src hsrc => ?_⟩
    · rw [List.forall_mem_append, List.forall_mem_singleton] at ha
      rw [← h.ints a ha.1]
      exact if_neg (Ne.symm (ha.2 hkind))
    · rw [List.forall_mem_append] at ha
      exact h.strings a ha.1
    · rcases List.mem_append.mp hb' with hb' | hb'
      · exact hinvoke.mem (h.kept b' hb' hstr src hsrc)
      · rw [List.mem_singleton.mp hb', hkind] at hstr
        cases hstr
  | string =>
    rw [hkind] at hok
    obtain ⟨copy, hcopy, hok⟩ := bind_eq_ok.mp hok
    cases hok
    have hstate := h.later.genuine hg
    obtain ⟨hlater, hmem⟩ := invokeChecked_later hstate hcopy
    refine ⟨h.later.trans hlater, fun a ha => ?_, fun a ha => ?_, fun b' hb' hstr src hsrc => ?_⟩
    · rw [List.forall_mem_append] at ha
      exact h.ints a ha.1
    · rw [List.forall_mem_append, List.forall_mem_singleton] at ha
      rw [← h.strings a ha.1]
      exact if_neg (Ne.symm (ha.2 hkind))
    · by_cases haddress : b'.trustedAddress = b.trustedAddress
      · -- the destination of this slot, by its own binding or an earlier one
        have hset : src ∈ copy.2.map CString.ofBytes := by
          rw [← show (state.2.setString b.trustedAddress (copy.2.map CString.ofBytes)).strings
            b'.trustedAddress = copy.2.map CString.ofBytes from if_pos haddress]
          exact hsrc
        obtain ⟨t, ht, rfl⟩ := Option.map_eq_some_iff.mp hset
        rw [(hlater.genuine hstate).ofBytes (hmem t ht)]
        exact hmem t ht
      · rcases List.mem_append.mp hb' with hb' | hb'
        · refine hlater.mem (h.kept b' hb' hstr src ?_)
          rw [← show (state.2.setString b.trustedAddress (copy.2.map CString.ofBytes)).strings
            b'.trustedAddress = state.2.strings b'.trustedAddress from if_neg haddress]
          exact hsrc
        · rw [List.mem_singleton.mp hb'] at haddress
          exact absurd rfl haddress

theorem hostSyncSlots_ok {context : HostContext} {w w' : World σ} {trusted trusted' : Trusted}
    (hg : Genuine origin w)
    (hok : hostSyncSlots U context w trusted = .ok (w', trusted')) :
    SyncedFrom origin w trusted context.slots (w', trusted') := by
  refine fold_rule (P := SyncedFrom origin w trusted)
    (fun done b rest state state' _ h hstep => h.step hg hstep) (List.nil_append _).symm ?_ hok
  exact ⟨.refl w, fun _ _ => rfl, fun _ _ => rfl, nofun⟩

theorem bridgeFailure_eq_ok {α : Type} {x : Except BridgeError α} {a : α} :
    bridgeFailure x = .ok a ↔ x = .ok a := by
  cases x with
  | error err => exact iff_of_false nofun nofun
  | ok b => exact ⟨fun h => by cases h; rfl, fun h => by cases h; rfl⟩

/-- The copies of the first arguments. -/
structure CopiedArgs (origin : Runtime) (w : World σ) (done : List Nat)
    (state : World σ × List (Option (List UInt8))) : Prop where
  later : Later origin w state.1
  texts : ∃ texts : List (List UInt8), state.2 = texts.map some ∧ texts.length = done.length ∧
    ∀ t ∈ texts, t ∈ state.1.engine.trustedStrings

/-- **`poptGetArgs`**: nothing, or as many strings as were counted, and the terminator. -/
theorem hostGetArgs_ok {context : HostContext} {w w' : World σ}
    {cache : Option (List (Option (List UInt8)))} (hg : Genuine origin w)
    (hok : hostGetArgs U context w = .ok (w', cache)) :
    Later origin w w' ∧ ∀ args ∈ cache, ∃ texts : List (List UInt8), texts ≠ [] ∧
      args = texts.map some ++ [none] ∧ ∀ t ∈ texts, t ∈ w'.engine.trustedStrings := by
  have hcount : Later origin w _ := invoke_later (U := U) w
    (.argsCount context.untrustedContext)
  unfold hostGetArgs at hok
  generalize hcall : invoke U w (.argsCount context.untrustedContext) = count at hok hcount
  dsimp only at hok
  by_cases h0 : count.2 = 0
  · rw [if_pos h0] at hok
    cases hok
    exact ⟨hcount, nofun⟩
  rw [if_neg h0] at hok
  obtain ⟨copied, hfold, hok⟩ := bind_eq_ok.mp hok
  cases hok
  have hcopied : CopiedArgs origin w (List.range count.2.toNat) copied := by
    refine fold_rule (P := CopiedArgs origin w)
      (fun done i rest state state' _ h hstep => ?_) (List.nil_append _).symm
      ⟨hcount, [], rfl, rfl, nofun⟩ hfold
    obtain ⟨copy, hcopy, hstep⟩ := bind_eq_ok.mp hstep
    obtain ⟨_, hsome, hstep⟩ := bind_eq_ok.mp hstep
    cases hstep
    obtain ⟨hlater, hmem⟩ := invokeChecked_later (h.later.genuine hg)
      (bridgeFailure_eq_ok.mp hcopy)
    obtain ⟨t, ht⟩ := Option.isSome_iff_exists.mp (ensure_eq_ok.mp hsome)
    obtain ⟨texts, hstate, hlen, hall⟩ := h.texts
    refine ⟨h.later.trans hlater, texts ++ [t], ?_, by simp [hlen], ?_⟩
    · rw [hstate, ht, List.map_append]
      rfl
    · rw [List.forall_mem_append, List.forall_mem_singleton]
      exact ⟨fun t' ht' => hlater.mem (hall t' ht'), hmem t ht⟩
  obtain ⟨texts, hstate, hlen, hall⟩ := hcopied.texts
  refine ⟨hcopied.later, fun args hargs => ?_⟩
  obtain rfl := Option.some.inj hargs
  refine ⟨texts, ?_, by rw [hstate], hall⟩
  rintro rfl
  rw [List.length_nil, List.length_range] at hlen
  exact h0 (UInt32.toNat_inj.mp hlen.symm)

/-! ### One call -/

theorem withContext_eq_ok {p : Process σ} {context : Option Nat} {null : Answer}
    {body : Nat → HostContext → Except Stop (Process σ × Answer)} {r : Process σ × Answer} :
    withContext p context null body = .ok r ↔ (context = none ∧ r = (p, null)) ∨
      ∃ cell c, context = some cell ∧ p.contexts[cell]? = some (some c) ∧ body cell c = .ok r := by
  cases context with
  | none =>
    constructor
    · intro h
      cases h
      exact .inl ⟨rfl, rfl⟩
    · rintro (⟨_, rfl⟩ | ⟨cell, c, hcell, _⟩)
      · rfl
      · cases hcell
  | some cell =>
    rw [withContext]
    constructor
    · intro h
      split at h
      · exact .inr ⟨cell, _, rfl, ‹_›, h⟩
      · cases h
    · rintro (⟨hnone, _⟩ | ⟨cell', c, hcell, hget, h⟩)
      · cases hnone
      · cases hcell
        rw [hget]
        exact h

/-- An array of arguments is not empty, and only its last entry is null. -/
def Answer.Terminated : Answer → Prop
  | .strings (some args) =>
    ∃ texts : List (List UInt8), texts ≠ [] ∧ args = texts.map some ++ [none]
  | _ => True

/-- The table of the call has an option of the kind with this destination. -/
def Call.Declares (env : Surroundings) (a : UInt64) (kind : SlotKind) : Call → Prop
  | .poptGetContext _ _ _ (some options) _ => ∃ count, optionCount (some options) = .ok count ∧
      ∃ i < count, (options i).arg = a ∧ a ≠ 0 ∧ optionSlotKind env.header (options i) = .ok kind
  | _ => False

/-- The bindings of a context are declared by one of the calls. -/
def HostContext.DeclaredBy (env : Surroundings) (calls : List Call) (context : HostContext) :
    Prop :=
  ∀ b ∈ context.slots, ∃ call ∈ calls, call.Declares env b.trustedAddress b.kind

/-- **What a call that returns has done**, whatever the sandbox did: what it answers is kept by
the engine, a context that is new or changed has declared bindings, and of the host's variables
it has changed only destinations of such a context. -/
structure Returned (origin : Runtime) (env : Surroundings) (call : Call)
    (p p' : Process σ) (answer : Answer) : Prop where
  later : Later origin p.world p'.world
  texts : ∀ t ∈ answer.texts, t ∈ p'.world.engine.trustedStrings
  terminated : answer.Terminated
  contexts : ∀ c, some c ∈ p'.contexts → c.DeclaredBy env [call] ∨
    ∃ c', some c' ∈ p.contexts ∧ c'.slots = c.slots
  trusted : p'.trusted = call.ownVariables p.trusted ∨
    ∃ cell c, call = .poptGetNextOpt (some cell) ∧ some c ∈ p.contexts ∧
      SyncedFrom origin p.world p.trusted c.slots (p'.world, p'.trusted)

theorem Returned.of_same {env : Surroundings} {call : Call} {p p' : Process σ} {answer : Answer}
    (hlater : Later origin p.world p'.world)
    (htexts : ∀ t ∈ answer.texts, t ∈ p'.world.engine.trustedStrings)
    (hterminated : answer.Terminated) (hcontexts : p'.contexts = p.contexts)
    (htrusted : p'.trusted = call.ownVariables p.trusted) :
    Returned origin env call p p' answer where
  later := hlater
  texts := htexts
  terminated := hterminated
  contexts c hc := .inr ⟨c, hcontexts ▸ hc, rfl⟩
  trusted := .inl htrusted

theorem declares_of_assigned {env : Surroundings}
    (henv : ∀ entries, (env.enumerate entries).Perm entries) {name : Option CString}
    {argc : Int32} {argv : Option (Nat → Option CString)} {flags : UInt32}
    {table : Nat → PoptOption} {count : Nat} {assigned : Assigned}
    (hcount : optionCount (some table) = .ok count)
    (hassigned : assignSlots env ((List.range count).map table) = .ok assigned)
    {b : SlotBinding} (hb : b ∈ (env.enumerate assigned.slotByAddress).map assigned.binding) :
    Call.Declares env b.trustedAddress b.kind
      (.poptGetContext name argc argv (some table) flags) := by
  obtain ⟨hpos, hmax, hend⟩ := optionCountFrom_eq_ok hcount
  have hfor : AssignedFor env ((List.range count).map table) assigned :=
    assignSlots_spec (by rw [List.length_map, List.length_range]; omega) hassigned
  have hkinds := hfor.kinds_lt hpos hend
  obtain ⟨d, hd, rfl⟩ := List.mem_map.mp hb
  have hd := (henv _).mem_iff.mp hd
  obtain ⟨hne, o, ho, harg⟩ := hfor.sound d hd
  obtain ⟨i, hi, rfl⟩ := List.mem_map.mp ho
  obtain ⟨index, kind, hmem, hkind, hget⟩ := hfor.complete (table i) ho (harg ▸ hne)
  -- the address decides the index
  have hindex : index = d.2 := by
    rw [harg] at hmem
    have h1 := (Dict.lookup_eq_some hfor.nodup).mpr hmem
    have h2 := (Dict.lookup_eq_some (a := d.2) hfor.nodup).mpr hd
    exact Option.some.inj (h1.symm.trans h2)
  refine ⟨count, hcount, i, List.mem_range.mp hi, harg, hne, ?_⟩
  rw [hkind, Assigned.binding, ← hindex, List.getD_eq_getElem?_getD, hget]
  rfl

theorem exported_ok {env : Surroundings} (henv : ∀ entries, (env.enumerate entries).Perm entries)
    {nullArg : Int32} {p p' : Process σ} {call : Call} {answer : Answer}
    (hg : Genuine origin p.world)
    (hok : exported U env nullArg p call = .ok (p', answer)) :
    Returned origin env call p p' answer := by
  cases call with
  | hostWrites trusted =>
    cases hok
    exact .of_same (.refl _) nofun trivial rfl rfl
  | poptGetContext name argc argv options flags =>
    obtain ⟨⟨w, made⟩, hmade, hok⟩ := bind_eq_ok.mp hok
    obtain ⟨hlater, hcontext⟩ := @hostMakeContext_ok _ origin _ _ _ _ _ _ _ _ _ _ _
      (bridgeFailure_eq_ok.mp hmade)
    cases made with
    | none =>
      cases hok
      exact .of_same hlater nofun trivial rfl rfl
    | some context =>
      cases hok
      refine ⟨hlater, nofun, trivial, fun c hc => ?_, .inl rfl⟩
      rcases List.mem_append.mp hc with hc | hc
      · exact .inr ⟨c, hc, rfl⟩
      · obtain rfl := Option.some.inj (List.mem_singleton.mp hc)
        obtain ⟨_, table, count, assigned, rfl, hcount, hassigned, hslots⟩ := hcontext c rfl
        refine .inl fun b hb => ⟨_, List.mem_singleton_self _, ?_⟩
        rw [hslots] at hb
        exact declares_of_assigned henv hcount hassigned hb
  | poptGetNextOpt context =>
    rcases withContext_eq_ok.mp hok with ⟨rfl, hr⟩ | ⟨cell, c, rfl, hget, hok⟩
    · cases hr
      exact .of_same (.refl _) nofun trivial rfl rfl
    · obtain ⟨⟨w, trusted⟩, hsync, hok⟩ := bind_eq_ok.mp hok
      cases hok
      have hnext : Later origin p.world _ := invoke_later (U := U)
        p.world (.next c.untrustedContext)
      have hsynced := hostSyncSlots_ok (hnext.genuine hg) (bridgeFailure_eq_ok.mp hsync)
      refine ⟨hnext.trans hsynced.later, nofun, trivial, fun c hc => .inr ⟨c, hc, rfl⟩,
        .inr ⟨cell, c, rfl, List.mem_of_getElem? hget, ?_⟩⟩
      exact ⟨hnext.trans hsynced.later, hsynced.ints, hsynced.strings, hsynced.kept⟩
  | poptGetOptArg context =>
    rcases withContext_eq_ok.mp hok with ⟨rfl, hr⟩ | ⟨cell, c, rfl, _, hok⟩
    · cases hr
      exact .of_same (.refl _) nofun trivial rfl rfl
    · obtain ⟨⟨w, copy⟩, hcopy, hok⟩ := bind_eq_ok.mp hok
      cases hok
      obtain ⟨hlater, hmem⟩ := invokeChecked_later hg (bridgeFailure_eq_ok.mp hcopy)
      exact .of_same hlater (fun t ht => hmem t (Option.mem_toList.mp ht)) trivial rfl rfl
  | poptGetArgs context =>
    rcases withContext_eq_ok.mp hok with ⟨rfl, hr⟩ | ⟨cell, c, rfl, hget, hok⟩
    · cases hr
      exact .of_same (.refl _) nofun trivial rfl rfl
    · obtain ⟨⟨w, args⟩, hargs, hok⟩ := bind_eq_ok.mp hok
      obtain ⟨hlater, hcache⟩ := hostGetArgs_ok hg hargs
      cases args with
      | none =>
        cases hok
        exact .of_same hlater nofun trivial rfl rfl
      | some cache =>
        cases hok
        obtain ⟨texts, hne, rfl, hall⟩ := hcache cache rfl
        refine ⟨hlater, fun t ht => ?_, ⟨texts, hne, rfl⟩, fun c' hc' => .inr ?_, .inl rfl⟩
        · refine hall t ?_
          simpa [Answer.texts] using ht
        · rcases List.mem_or_eq_of_mem_set hc' with hold | hnew
          · exact ⟨c', hold, rfl⟩
          · obtain rfl := Option.some.inj hnew
            exact ⟨c, List.mem_of_getElem? hget, rfl⟩
  | poptBadOption context flags =>
    rcases withContext_eq_ok.mp hok with ⟨rfl, hr⟩ | ⟨cell, c, rfl, _, hok⟩
    · cases hr
      exact .of_same (.refl _) nofun trivial rfl rfl
    · obtain ⟨⟨w, copy⟩, hcopy, hok⟩ := bind_eq_ok.mp hok
      cases hok
      obtain ⟨hlater, hmem⟩ := invokeChecked_later hg (bridgeFailure_eq_ok.mp hcopy)
      exact .of_same hlater (fun t ht => hmem t (Option.mem_toList.mp ht)) trivial rfl rfl
  | poptFreeContext context =>
    rcases withContext_eq_ok.mp hok with ⟨rfl, hr⟩ | ⟨cell, c, rfl, hget, hok⟩
    · cases hr
      exact .of_same (.refl _) nofun trivial rfl rfl
    · cases hok
      refine ⟨?_, nofun, trivial, fun c' hc' => .inr ?_, .inl rfl⟩
      · exact ((invoke_later p.world _).trans (invoke_later _ _)).trans (invoke_later _ _)
      · rcases List.mem_or_eq_of_mem_set hc' with hold | hnew
        · exact ⟨c', hold, rfl⟩
        · cases hnew
  | poptReadDefaultConfig context useEnv =>
    cases hok
    exact .of_same (.refl _) nofun trivial rfl rfl
  | poptAddAlias context flags =>
    cases hok
    exact .of_same (.refl _) nofun trivial rfl rfl

/-! ### Sessions -/

/-- A host without contexts, over a runtime. -/
def Process.start (u : σ) (s : Runtime) (memory : Memory UInt8) (trusted : Trusted) :
    Process σ where
  world := ⟨u, ⟨⟨s, memory⟩, []⟩, [], []⟩
  trusted := trusted
  contexts := []

theorem genuine_start (h : Layout origin) (u : σ) (memory : Memory UInt8) (trusted : Trusted) :
    Genuine origin (Process.start u origin memory trusted).world where
  layout := h
  runtime := rfl
  seen := nofun
  strings := nofun

section Run

variable {env : Surroundings} {nullArg : Int32}

theorem session_eq_some {p p' : Process σ} {call : Call} :
    (session U env nullArg (some p) call).1 = some p' ↔
      ∃ answer, exported U env nullArg p call = .ok (p', answer) := by
  rw [session]
  cases exported U env nullArg p call with
  | error stop => exact iff_of_false nofun nofun
  | ok r =>
    constructor
    · intro h
      cases h
      exact ⟨r.2, rfl⟩
    · rintro ⟨answer, h⟩
      cases h
      rfl

/-- **A process that is still there has gone from call to call.** -/
theorem session_later (henv : ∀ entries, (env.enumerate entries).Perm entries)
    (calls : List Call) {p p' : Process σ} (hg : Genuine origin p.world)
    (hp : Machine.after (session U env nullArg) (some p) calls = some p') :
    Later origin p.world p'.world := by
  induction calls generalizing p with
  | nil =>
    cases hp
    exact .refl _
  | cons call calls ih =>
    rw [Machine.after_cons] at hp
    cases hstep : (session U env nullArg (some p) call).1 with
    | none =>
      rw [hstep] at hp
      have hgone := Machine.after_induction (M := session U env nullArg) (P := fun q => q = none)
        (fun q _ hq => by subst hq; rfl) calls none rfl
      rw [hgone] at hp
      cases hp
    | some q =>
      rw [hstep] at hp
      obtain ⟨answer, hok⟩ := session_eq_some.mp hstep
      have hlater := (exported_ok henv hg hok).later
      exact hlater.trans (ih (hlater.genuine hg) hp)

theorem session_gone (calls : List Call) :
    Machine.after (session U env nullArg) (none : Option (Process σ)) calls = none :=
  Machine.after_induction (P := fun q => q = none) (fun q _ hq => by subst hq; rfl) calls none rfl

theorem session_take {p p' : Process σ} {calls : List Call} (n : Nat)
    (hp : Machine.after (session U env nullArg) (some p) calls = some p') :
    ∃ q, Machine.after (session U env nullArg) (some p) (calls.take n) = some q ∧
      Machine.after (session U env nullArg) (some q) (calls.drop n) = some p' := by
  rw [← List.take_append_drop n calls, Machine.after_append] at hp
  cases hq : Machine.after (session U env nullArg) (some p) (calls.take n) with
  | none =>
    rw [hq, session_gone] at hp
    cases hp
  | some q =>
    rw [hq] at hp
    exact ⟨q, rfl, hp⟩

/-- **The answer to a call**, in the state that the calls before it have led to. -/
theorem session_answer (henv : ∀ entries, (env.enumerate entries).Perm entries)
    {p p' : Process σ} {calls : List Call} (hg : Genuine origin p.world)
    (hp : Machine.after (session U env nullArg) (some p) calls = some p') {n : Nat}
    {answer : Answer}
    (hanswer : (Machine.outputs (session U env nullArg) (some p) calls)[n]? = some (.ok answer)) :
    answer.Terminated ∧ ∀ t ∈ answer.texts, t ∈ p'.world.engine.trustedStrings := by
  obtain ⟨q, hq, hrest⟩ := session_take n hp
  have hgq := (session_later henv _ hg hq).genuine hg
  rw [Machine.getElem?_outputs] at hanswer
  obtain ⟨call, hcall, hout⟩ := Option.map_eq_some_iff.mp hanswer
  rw [hq, session] at hout
  rw [List.drop_eq_getElem?_toList_append, hcall] at hrest
  cases hok : exported U env nullArg q call with
  | error stop =>
    rw [hok] at hout
    cases hout
  | ok r =>
    obtain ⟨q', answer'⟩ := r
    rw [hok] at hout
    cases hout
    have hreturned := exported_ok henv hgq hok
    rw [Option.toList_some, List.singleton_append, Machine.after_cons,
      session_eq_some.mpr ⟨answer, hok⟩] at hrest
    have hlater := session_later henv _ (hreturned.later.genuine hgq) hrest
    exact ⟨hreturned.terminated, fun t ht => hlater.mem (hreturned.texts t ht)⟩

/-- The bindings of every context come from a table that the host has passed. -/
theorem session_declared (henv : ∀ entries, (env.enumerate entries).Perm entries)
    {p p' : Process σ} {calls : List Call} (hg : Genuine origin p.world)
    (hempty : p.contexts = [])
    (hp : Machine.after (session U env nullArg) (some p) calls = some p') :
    ∀ c, some c ∈ p'.contexts → c.DeclaredBy env calls := by
  have hrun := Machine.after_history (M := session U env nullArg)
    (P := fun done q => ∀ q' ∈ q, Genuine origin q'.world ∧
      ∀ c, some c ∈ q'.contexts → c.DeclaredBy env done)
    (fun done call q h q' hq' => ?_) calls [] (some p) (fun q' hq' => ?_)
  · exact (hrun p' hp).2
  · cases q with
    | none => cases hq'
    | some q =>
      obtain ⟨hgq, hdeclared⟩ := h q rfl
      obtain ⟨answer, hok⟩ := session_eq_some.mp hq'
      have hreturned := exported_ok henv hgq hok
      refine ⟨hreturned.later.genuine hgq, fun c hc b hb => ?_⟩
      rcases hreturned.contexts c hc with hnew | ⟨c', hc', hslots⟩
      · obtain ⟨made, hmade, hdecl⟩ := hnew b hb
        exact ⟨made, List.mem_append_right _ hmade, hdecl⟩
      · obtain ⟨made, hmade, hdecl⟩ := hdeclared c' hc' b (hslots ▸ hb)
        exact ⟨made, List.mem_append_left _ hmade, hdecl⟩
  · obtain rfl := Option.some.inj hq'
    exact ⟨hg, fun c hc => absurd (hempty ▸ hc) List.not_mem_nil⟩

/-- The variables as the host itself has left them. -/
def ownVariables (trusted : Trusted) (calls : List Call) : Trusted :=
  calls.foldl Call.ownVariables trusted

/-- The host has written the string variable last, or the engine keeps what it points to. -/
def VariablesKept (own : Trusted) (p : Process σ) : Prop :=
  ∀ a, p.trusted.strings a = own.strings a ∨
    ∀ src ∈ p.trusted.strings a, src.val ++ [0] ∈ p.world.engine.trustedStrings

theorem VariablesKept.step (henv : ∀ entries, (env.enumerate entries).Perm entries) {own : Trusted}
    {p p' : Process σ} {call : Call} {answer : Answer} (hg : Genuine origin p.world)
    (h : VariablesKept own p) (hok : exported U env nullArg p call = .ok (p', answer)) :
    VariablesKept (call.ownVariables own) p' := by
  intro a
  have hreturned := exported_ok henv hg hok
  have hold : ∀ {own' : Trusted}, own' = own → p'.trusted.strings a = p.trusted.strings a →
      p'.trusted.strings a = own'.strings a ∨
        ∀ src ∈ p'.trusted.strings a, src.val ++ [0] ∈ p'.world.engine.trustedStrings := by
    intro own' hown hsame
    rw [hown, hsame]
    exact (h a).imp id fun hkept src hsrc => hreturned.later.mem (hkept src hsrc)
  rcases hreturned.trusted with hsame | ⟨cell, c, rfl, _, hsync⟩
  · cases call with
    | hostWrites written =>
      rw [hsame]
      exact .inl rfl
    | _ => exact hold rfl (congrArg (Trusted.strings · a) hsame)
  · by_cases hbound : ∃ b ∈ c.slots, b.kind = .string ∧ b.trustedAddress = a
    · obtain ⟨b, hb, hkind, rfl⟩ := hbound
      exact .inr (hsync.kept b hb hkind)
    · exact hold rfl (hsync.strings a fun b hb hkind haddress =>
        hbound ⟨b, hb, hkind, haddress⟩)

/-- **The strings in the host's variables** are its own, or the engine keeps them. -/
theorem session_variables (henv : ∀ entries, (env.enumerate entries).Perm entries)
    {p p' : Process σ} {calls : List Call} (hg : Genuine origin p.world)
    (hp : Machine.after (session U env nullArg) (some p) calls = some p') :
    VariablesKept (ownVariables p.trusted calls) p' := by
  have hrun := Machine.after_history (M := session U env nullArg)
    (P := fun done q => ∀ q' ∈ q, Genuine origin q'.world ∧
      VariablesKept (ownVariables p.trusted done) q')
    (fun done call q h q' hq' => ?_) calls [] (some p) (fun q' hq' => ?_)
  · exact (hrun p' hp).2
  · cases q with
    | none => cases hq'
    | some q =>
      obtain ⟨hgq, hkept⟩ := h q rfl
      obtain ⟨answer, hok⟩ := session_eq_some.mp hq'
      refine ⟨(exported_ok henv hgq hok).later.genuine hgq, ?_⟩
      rw [ownVariables, List.foldl_concat]
      exact hkept.step henv hgq hok
  · obtain rfl := Option.some.inj hq'
    exact ⟨hg, fun a => .inl rfl⟩

end Run

end Later

/-! ### Safety -/

/-- **Whatever the sandbox does, the host gets only strings that were in a live `char` record.**
In every session that has not ended, the runtime is one that its own calls have led to, every
string that any call has returned, or that a variable of the host points to since the host has
last written to it, is still kept by the engine, each of them was found with its terminator in a
live `char` record, and an array of arguments is not empty and ends at its only null pointer. -/
theorem session_safe {σ : Type} (U : Untrusted σ) (u : σ) (env : Surroundings)
    (henv : ∀ entries, (env.enumerate entries).Perm entries) (nullArg : Int32)
    (arenaBase arenaSize : UInt64) (ops : List Op) (memory : Memory UInt8) (trusted : Trusted)
    (calls : List Call) (p : Process σ)
    (hp : Machine.after (session U env nullArg)
      (some (.start u ((new arenaBase arenaSize).after ops) memory trusted)) calls = some p) :
    Reachable arenaBase arenaSize p.world.engine.sandbox.runtime ∧
    (∀ s ∈ p.world.seen, Reachable arenaBase arenaSize s.runtime) ∧
    (∀ t ∈ p.world.engine.trustedStrings, Found p.world.seen t) ∧
    VariablesKept (ownVariables trusted calls) p ∧
    ∀ (n : Nat) (answer : Answer), (Machine.outputs (session U env nullArg)
        (some (.start u ((new arenaBase arenaSize).after ops) memory trusted)) calls)[n]? =
          some (.ok answer) →
      answer.Terminated ∧ ∀ t ∈ answer.texts, t ∈ p.world.engine.trustedStrings := by
  have horigin : Reachable arenaBase arenaSize ((new arenaBase arenaSize).after ops) := ⟨ops, rfl⟩
  have hstart := genuine_start horigin.layout u memory trusted
  have hg := (session_later henv calls hstart hp).genuine hstart
  refine ⟨?_, fun s hs => ?_, hg.strings, session_variables henv hstart hp,
    fun n answer => session_answer henv hstart hp⟩
  · rw [hg.runtime]
    exact horigin.callbacks p.world.made
  · obtain ⟨made, _, hs⟩ := hg.seen s hs
    rw [hs]
    exact horigin.callbacks made

/-- A sandbox that always points to 4096 and otherwise answers 5. -/
def pointing : Untrusted Unit := fun _ s entry =>
  match entry with
  | .optArg _ | .slotGetString _ _ => ⟨(), [], s.memory, 4096⟩
  | _ => ⟨(), [], s.memory, 5⟩

/-- A live `char` record at 4096, and a host with the variables 1 and null. -/
def pointingStart : Process Unit :=
  .start () ((new 4096 64).after [.registerType 1 kTypeHashChar, .allocate 8 1])
    (fun b => if b = 4096 then 104 else if b = 4097 then 105 else 0)
    ⟨fun _ => 1, fun _ => none⟩

def parseAliasing : List Call := [.poptGetContext none 0 none (some aliasingOptions) 0]

/-- The argument of an option is found and kept. -/
theorem session_safe_pointing : ∃ p, Machine.after (session pointing smallSurroundings (-13))
      (some pointingStart) (parseAliasing ++ [.poptGetOptArg (some 0)]) = some p ∧
    [104, 105, 0] ∈ p.world.engine.trustedStrings ∧ Found p.world.seen [104, 105, 0] := by
  cases hp : Machine.after (session pointing smallSurroundings (-13)) (some pointingStart)
      (parseAliasing ++ [.poptGetOptArg (some 0)]) with
  | none =>
    have hsome : (Machine.after (session pointing smallSurroundings (-13)) (some pointingStart)
      (parseAliasing ++ [.poptGetOptArg (some 0)])).isSome = true := by decide +kernel
    rw [hp] at hsome
    cases hsome
  | some p =>
    obtain ⟨_, _, hfound, _, hanswers⟩ := session_safe pointing () smallSurroundings
      List.reverse_perm (-13) 4096 64 [.registerType 1 kTypeHashChar, .allocate 8 1]
      (fun b => if b = 4096 then 104 else if b = 4097 then 105 else 0)
      ⟨fun _ => 1, fun _ => none⟩ (parseAliasing ++ [Call.poptGetOptArg (some 0)]) p hp
    have hkept := (hanswers 1 (.string (some [104, 105, 0])) (by decide +kernel)).2
      [104, 105, 0] (List.mem_singleton_self _)
    exact ⟨p, rfl, hkept, hfound _ hkept⟩

/-- **The sandbox reaches only the variables that the host has put into its option tables.**
After any session, a call that changes a variable of the host is `poptGetNextOpt`, the variable
is a destination of the right kind in the table of an earlier `poptGetContext`, and a string
that it then points to is one that the engine keeps. -/
theorem session_confined {σ : Type} (U : Untrusted σ) (u : σ) (env : Surroundings)
    (henv : ∀ entries, (env.enumerate entries).Perm entries) (nullArg : Int32)
    (arenaBase arenaSize : UInt64) (ops : List Op) (memory : Memory UInt8) (trusted : Trusted)
    (calls : List Call) (call : Call) (p p' : Process σ)
    (hp : Machine.after (session U env nullArg)
      (some (.start u ((new arenaBase arenaSize).after ops) memory trusted)) calls = some p)
    (hp' : (session U env nullArg (some p) call).1 = some p')
    (hcall : ∀ t, call ≠ .hostWrites t) (a : UInt64) :
    (p'.trusted.ints a ≠ p.trusted.ints a →
      (∃ cell, call = .poptGetNextOpt (some cell)) ∧
        ∃ made ∈ calls, made.Declares env a .integer) ∧
    (p'.trusted.strings a ≠ p.trusted.strings a →
      (∃ cell, call = .poptGetNextOpt (some cell)) ∧
        (∃ made ∈ calls, made.Declares env a .string) ∧
        ∀ src ∈ p'.trusted.strings a, src.val ++ [0] ∈ p'.world.engine.trustedStrings) := by
  have horigin : Reachable arenaBase arenaSize ((new arenaBase arenaSize).after ops) := ⟨ops, rfl⟩
  have hstart := genuine_start horigin.layout u memory trusted
  have hg := (session_later henv calls hstart hp).genuine hstart
  have hdeclared := session_declared henv hstart rfl hp
  obtain ⟨answer, hok⟩ := session_eq_some.mp hp'
  rcases (exported_ok henv hg hok).trusted with hsame | ⟨cell, c, rfl, hc, hsync⟩
  · have hown : call.ownVariables p.trusted = p.trusted := by
      cases call with
      | hostWrites t => exact absurd rfl (hcall t)
      | _ => rfl
    rw [hsame, hown]
    exact ⟨fun h => absurd rfl h, fun h => absurd rfl h⟩
  · constructor
    · intro hne
      -- some binding of the context has the address
      obtain ⟨b, hb, hkind, rfl⟩ : ∃ b ∈ c.slots, b.kind = .integer ∧ b.trustedAddress = a := by
        by_contra hno
        exact hne (hsync.ints a fun b hb hkind haddress => hno ⟨b, hb, hkind, haddress⟩)
      exact ⟨⟨cell, rfl⟩, hkind ▸ hdeclared c hc b hb⟩
    · intro hne
      obtain ⟨b, hb, hkind, rfl⟩ : ∃ b ∈ c.slots, b.kind = .string ∧ b.trustedAddress = a := by
        by_contra hno
        exact hne (hsync.strings a fun b hb hkind haddress => hno ⟨b, hb, hkind, haddress⟩)
      exact ⟨⟨cell, rfl⟩, hkind ▸ hdeclared c hc b hb, hsync.kept b hb hkind⟩

/-- The shared integer of two options is changed, from 1 to 5. -/
theorem session_confined_pointing : ∃ p p', Machine.after
      (session pointing smallSurroundings (-13)) (some pointingStart) parseAliasing = some p ∧
    (session pointing smallSurroundings (-13) (some p) (.poptGetNextOpt (some 0))).1 = some p' ∧
    ∃ made ∈ parseAliasing, made.Declares smallSurroundings 16 .integer := by
  have hints : (Machine.after (session pointing smallSurroundings (-13)) (some pointingStart)
      parseAliasing).map (fun p => (p.trusted.ints 16,
        (session pointing smallSurroundings (-13) (some p) (.poptGetNextOpt (some 0))).1.map
          (fun p' => p'.trusted.ints 16))) = some (1, some 5) := by decide +kernel
  obtain ⟨p, hp, hints⟩ := Option.map_eq_some_iff.mp hints
  obtain ⟨hbefore, hints⟩ := Prod.mk.inj hints
  obtain ⟨p', hp', hafter⟩ := Option.map_eq_some_iff.mp hints
  have hspec := session_confined pointing () smallSurroundings List.reverse_perm (-13) 4096 64
    [.registerType 1 kTypeHashChar, .allocate 8 1]
    (fun b => if b = 4096 then 104 else if b = 4097 then 105 else 0)
    ⟨fun _ => 1, fun _ => none⟩ parseAliasing (.poptGetNextOpt (some 0)) p p' hp hp' nofun 16
  refine ⟨p, p', hp, hp', (hspec.1 ?_).2⟩
  rw [hbefore, hafter]
  decide

end InterSpec.Bridge
