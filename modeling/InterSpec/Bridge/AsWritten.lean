import InterSpec.Bridge.Session

/-!
# The sandbox as it is written

A session holds for every sandbox.  This is the one of the repository: the C code of
`integration/rsync_popt/p4c_bridge_untrusted.c` with `interspec_typed_strdup` of the shim, over
the two libraries that it is linked with, the C library and the option parser.  What these do
is `Library`.  Tables and argument boxes are objects that their addresses lead to; bytes are
kept for the strings.

* `asWritten`: the C functions as a sandbox.
* `Library.Ordinary`: the allocator of the sandbox leaves the typed arena alone.
* `hostCopyToU_written`: a string that the host copies in arrives, or memory is short.
-/

namespace InterSpec.Bridge

open InterSpec.Runtime Fallible

/-! ### The C code -/

/-- What the C code has on its heap, with the state of the libraries. -/
structure Objects (π : Type) where
  tables : UInt32 → Option Table
  argvs : UInt32 → Option UArgv
  /-- The table that a context of the parser was made with. -/
  tableOf : UInt32 → Option UInt32
  /-- What the parser has written through the options of a table.  No function reads it. -/
  written : UInt32 → List (Nat × ArgValue)
  /-- Where a context, a table or a box was freed and there was none.  No function reads it. -/
  dangling : List UInt32
  library : π

/-- What a function of the parser does before it returns. -/
structure Answered (π α : Type) where
  library : π
  callbacks : List Callback
  memory : Memory UInt8
  value : α

/-- The functions that the C code calls.  The allocator keeps its books in the memory of the
sandbox.  The parser may call back, since its allocations are instrumented; it writes to the
destinations of its options, and its array of arguments ends at the first null pointer. -/
structure Library (π : Type) where
  malloc : Objects π → Sandbox → UInt32 → Memory UInt8 × UInt32
  free : Objects π → Sandbox → UInt32 → Memory UInt8
  /-- The three calls of `calloc` in `interspec_p4c_table_new`; 0 when one of them fails. -/
  callocTable : Objects π → Sandbox → UInt32 → UInt32 → Memory UInt8 × UInt32
  callocArgv : Objects π → Sandbox → UInt32 → Memory UInt8 × UInt32
  /-- The program counters that the backend reports for the callback of the shim. -/
  strdupPcs : Objects π → Sandbox → UInt64 × UInt64
  poptGetContext : Objects π → Sandbox → UInt32 → UArgv → Table → UInt32 → Answered π UInt32
  poptGetNextOpt : Objects π → Sandbox → UInt32 → Table →
    Answered π (Int32 × List (Nat × ArgValue))
  poptGetOptArg : Objects π → Sandbox → UInt32 → Answered π UInt32
  poptBadOption : Objects π → Sandbox → UInt32 → UInt32 → Answered π UInt32
  poptGetArgs : Objects π → Sandbox → UInt32 → List { p : UInt32 // p ≠ 0 }
  poptFreeContext : Objects π → Sandbox → UInt32 → Answered π Unit

/-- The table after writes through its options, one after the other. -/
def Table.writeAll (table : Table) (writes : List (Nat × ArgValue)) : Table :=
  writes.foldl (fun t w => t.writeArg w.1 w.2.word) table

theorem Table.writeAll_append (table : Table) (writes more : List (Nat × ArgValue)) :
    table.writeAll (writes ++ more) = (table.writeAll writes).writeAll more :=
  List.foldl_append

/-- The allocating callback of `interspec_typed_strdup`. -/
def strdupCallbacks (u : Sandbox) (src : UInt32) (pc nextPc : UInt64) : List Callback :=
  if src = 0 then []
  else [.allocate (UInt32.ofNat (Memory.strlen 0 u.memory src.toNat (2 ^ 32) + 1)) pc nextPc]

section AsWritten

variable {π : Type}

/-- A function on the table at the address; it returns 0 where it refuses, also for null. -/
def Objects.onTable (o : Objects π) (u : Sandbox) (table : UInt32) (f : Table → Option Table) :
    Response (Objects π) :=
  match (o.tables table).bind f with
  | none => ⟨o, [], u.memory, 0⟩
  | some changed =>
    ⟨{ o with tables := Function.update o.tables table (some changed) }, [], u.memory, 1⟩

/-- The table of the context, with its address. -/
def Objects.tableOfContext (o : Objects π) (context : UInt32) : Option (UInt32 × Table) :=
  (o.tableOf context).bind fun address => (o.tables address).map fun table => (address, table)

/-- `dangling` after a free of `ptr`, where `object` is.  Null may be freed. -/
def Objects.danglingAfter {α : Type} (o : Objects π) (ptr : UInt32) (object : Option α) :
    List UInt32 :=
  if ptr = 0 ∨ object.isSome then o.dangling else o.dangling ++ [ptr]

theorem Objects.danglingAfter_live {α : Type} (o : Objects π) (ptr : UInt32) {object : Option α}
    (h : object ≠ none) : o.danglingAfter ptr object = o.dangling :=
  if_pos (.inr (Option.isSome_iff_ne_none.mpr h))

/-- A call that ends in a function of the parser. -/
def Objects.answer (o : Objects π) (answered : Answered π UInt32) : Response (Objects π) :=
  ⟨{ o with library := answered.library }, answered.callbacks, answered.memory, answered.value⟩

variable (L : Library π)

/-- The functions of `p4c_bridge_untrusted.c`, and the allocator behind `malloc_in_sandbox`. -/
def asWritten : Untrusted (Objects π) := fun o u => fun
  | .initLifetime _ _ _ _ => ⟨o, [], u.memory, 0⟩
  | .malloc bytes =>
    let allocated := L.malloc o u bytes
    ⟨o, [], allocated.1, allocated.2⟩
  | .free ptr => ⟨o, [], L.free o u ptr, 0⟩
  | .typedCopy src =>
    let pcs := L.strdupPcs o u
    let copied := typedStrdup u src pcs.1 pcs.2
    ⟨o, strdupCallbacks u src pcs.1 pcs.2, copied.1.memory, copied.2⟩
  | .tableNew optionCount slotCount =>
    let allocated := L.callocTable o u optionCount slotCount
    match tableNew (allocated.2 ≠ 0) optionCount slotCount with
    | none => ⟨o, [], allocated.1, 0⟩
    | some table =>
      ⟨{ o with
          tables := Function.update o.tables allocated.2 (some table)
          written := Function.update o.written allocated.2 [] }, [], allocated.1, allocated.2⟩
  | .slotSetInt table index value => o.onTable u table (fun t => slotSetInt t index value)
  | .slotSetString table index value => o.onTable u table (fun t => slotSetString t index value)
  | .optionSet table index shortName argInfo slotIndex value =>
    o.onTable u table (fun t => optionSet t index shortName argInfo slotIndex value)
  | .optionSetStrings table index longName description argDescription =>
    o.onTable u table (fun t => optionSetStrings t index longName description argDescription)
  | .slotGetInt table index =>
    ⟨o, [], u.memory, ((o.tables table).elim 0 (fun t => slotGetInt t index)).toUInt32⟩
  | .slotGetString table index =>
    ⟨o, [], u.memory, (o.tables table).elim 0 (fun t => slotGetString t index)⟩
  | .argvNew argc =>
    let allocated := L.callocArgv o u argc
    match argvNew (allocated.2 ≠ 0) argc with
    | none => ⟨o, [], allocated.1, 0⟩
    | some box =>
      ⟨{ o with argvs := Function.update o.argvs allocated.2 (some box) }, [], allocated.1,
        allocated.2⟩
  | .argvSet argv index value =>
    match (o.argvs argv).bind (fun box => argvSet box index value) with
    | none => ⟨o, [], u.memory, 0⟩
    | some box => ⟨{ o with argvs := Function.update o.argvs argv (some box) }, [], u.memory, 1⟩
  | .contextNew name argc argv table flags =>
    match o.argvs argv, o.tables table with
    | some box, some t =>
      if argc < 0 ∨ argc.toUInt32 ≠ box.argc then ⟨o, [], u.memory, 0⟩
      else
        let made := L.poptGetContext o u name box t flags
        if made.value = 0 then o.answer made
        else { o.answer made with
          state := { o with
            tableOf := Function.update o.tableOf made.value (some table)
            library := made.library } }
    | _, _ => ⟨o, [], u.memory, 0⟩
  | .next context =>
    match o.tableOfContext context with
    | none => ⟨o, [], u.memory, 0⟩
    | some (address, table) =>
      let result := L.poptGetNextOpt o u context table
      ⟨{ o with
          tables := Function.update o.tables address (some (table.writeAll result.value.2))
          written := Function.update o.written address (o.written address ++ result.value.2)
          library := result.library },
        result.callbacks, result.memory, result.value.1.toUInt32⟩
  | .optArg context => o.answer (L.poptGetOptArg o u context)
  | .badOption context flags => o.answer (L.poptBadOption o u context flags)
  | .argsCount context =>
    ⟨o, [], u.memory, UInt32.ofNat (L.poptGetArgs o u context).length⟩
  | .argsAt context index =>
    ⟨o, [], u.memory, ((L.poptGetArgs o u context)[index.toNat]?).elim 0 Subtype.val⟩
  | .contextFree context =>
    let freed := L.poptFreeContext o u context
    ⟨{ o with
        tableOf := Function.update o.tableOf context none
        dangling := o.danglingAfter context (o.tableOf context)
        library := freed.library }, freed.callbacks, freed.memory, 0⟩
  | .tableFree table =>
    ⟨{ o with
        tables := Function.update o.tables table none
        dangling := o.danglingAfter table (o.tables table) }, [], L.free o u table, 0⟩
  | .argvFree argv =>
    ⟨{ o with
        argvs := Function.update o.argvs argv none
        dangling := o.danglingAfter argv (o.argvs argv) }, [], L.free o u argv, 0⟩

end AsWritten

/-! ### The allocator of the sandbox -/

section Ordinary

variable {π : Type}

/-- The C library gives out memory outside the typed arena and leaves the arena alone, an object
gets an address of its own, and the allocating site of the shim is of type `char`. -/
structure Library.Ordinary (L : Library π) (s : Runtime) : Prop where
  malloc_apart : ∀ o u bytes, (L.malloc o u bytes).2 ≠ 0 →
    (L.malloc o u bytes).2.toNat + bytes.toNat ≤ 2 ^ 32 ∧
      ((L.malloc o u bytes).2.toNat + bytes.toNat ≤ s.base.toNat ∨
        s.base.toNat + s.capacity.toNat ≤ (L.malloc o u bytes).2.toNat)
  malloc_arena : ∀ o u bytes b, InTypedArena s b → (L.malloc o u bytes).1 b = u.memory b
  free_arena : ∀ o u p b, InTypedArena s b → L.free o u p b = u.memory b
  table_arena : ∀ o u m n b, InTypedArena s b → (L.callocTable o u m n).1 b = u.memory b
  argv_arena : ∀ o u n b, InTypedArena s b → (L.callocArgv o u n).1 b = u.memory b
  table_fresh : ∀ o u m n, (L.callocTable o u m n).2 ≠ 0 → o.tables (L.callocTable o u m n).2 = none
  argv_fresh : ∀ o u n, (L.callocArgv o u n).2 ≠ 0 → o.argvs (L.callocArgv o u n).2 = none
  context_fresh : ∀ o u name box table flags,
    let made := (L.poptGetContext o u name box table flags).value
    made ≠ 0 → o.tableOf made = none
  char_site : ∀ o u site, s.callbackSite (L.strdupPcs o u).1 (L.strdupPcs o u).2 = some site →
    site.typeHash = kTypeHashChar

/-- In the typed arena the bytes of `m`, elsewhere those of `m'`. -/
def overlay (s : Runtime) (m' m : Memory UInt8) : Memory UInt8 := fun b =>
  if s.base.toNat ≤ b ∧ b < s.base.toNat + s.capacity.toNat then m b else m' b

theorem overlay_of_in {s : Runtime} {m' m : Memory UInt8} {b : Nat} (hb : InTypedArena s b) :
    overlay s m' m b = m b := if_pos hb

theorem overlay_eq {s : Runtime} {m' m : Memory UInt8} (h : ∀ b, InTypedArena s b → m' b = m b) :
    overlay s m' m = m' := by
  funext b
  by_cases hb : InTypedArena s b
  · rw [overlay_of_in hb, h b hb]
  · exact if_neg hb

theorem strdupCallbacks_after (u : Sandbox) (src : UInt32) (pc nextPc : UInt64) :
    Machine.after callback u.runtime (strdupCallbacks u src pc nextPc) =
      (typedStrdup u src pc nextPc).1.runtime := by
  unfold strdupCallbacks typedStrdup
  by_cases h0 : src = 0
  · rw [if_pos h0, if_pos h0]
    rfl
  · rw [if_neg h0, if_neg h0]
    dsimp only
    rw [if_neg (not_max32_lt _)]
    split <;> rfl

/-- The errors of a copy: the string is too long for the sandbox, or there is no memory. -/
def NoRoom (err : BridgeError) : Prop := err = .exceedsAbi ∨ err = .badAlloc

/-- The host has copied in: the objects of the sandbox are as they were, and so is everything
recorded. -/
structure CopiedIn (s : Runtime) (w w' : World (Objects π)) : Prop where
  objects : w'.untrusted = w.untrusted
  engine : EngineOver s w'.engine
  kept : EngineKept w.engine w'.engine

/-- A copy of the engine, by what the memory is after each of its three calls. -/
theorem copyToU_some {call : SandboxCall} {t : Runtime} {m allocated freed : Memory UInt8}
    {strings : List (List UInt8)} {src : List UInt8} (hlen : ¬ 2 ^ 32 - 1 < src.length + 1)
    (hmalloc : call.onMalloc m = allocated) {typed : Sandbox × UInt32}
    (htyped : typedStrdup ⟨t, Memory.storeList allocated call.temporary.toNat (src ++ [0])⟩
      call.temporary call.pc call.nextPc = typed) (hfree : call.onFree typed.1.memory = freed) :
    copyToU call ⟨⟨t, m⟩, strings⟩ (some src) = if call.temporary = 0 then
        (⟨⟨t, allocated⟩, strings⟩, .error .badAlloc)
      else if typed.2 = 0 then (⟨⟨typed.1.runtime, freed⟩, strings⟩, .error .badAlloc)
      else (⟨⟨typed.1.runtime, freed⟩, strings⟩, .ok (some typed.2)) := by
  subst hmalloc htyped hfree
  exact if_neg hlen

/-- **A string that the host copies in arrives.**  Otherwise it is too long, or the memory of
the sandbox is used up. -/
theorem hostCopyToU_written {L : Library π} {s : Runtime} (hL : L.Ordinary s)
    {w : World (Objects π)} (h : EngineOver s w.engine) (src : Option CString) :
    Yields NoRoom (fun r => CopiedIn s w r.1 ∧
      HoldsText (fun p src => Marshalled r.1.engine p src) r.2 src)
      (hostCopyToU (asWritten L) w src) := by
  cases src with
  | none => exact ⟨⟨rfl, h, .refl _⟩, rfl⟩
  | some src =>
    by_cases hbig : 2 ^ 32 - 1 < src.val.length + 1
    · unfold hostCopyToU
      dsimp only
      rw [if_pos hbig]
      exact .inl rfl
    obtain ⟨o, ⟨⟨t, m⟩, strings⟩, made, seen⟩ := w
    -- the call as the copies of the engine know it
    let bytes := UInt32.ofNat (src.val.length + 1)
    let allocated := L.malloc o ⟨t, m⟩ bytes
    let filled := Memory.storeList allocated.1 allocated.2.toNat (src.val ++ [0])
    let pcs := L.strdupPcs o ⟨t, filled⟩
    let typed := typedStrdup ⟨t, filled⟩ allocated.2 pcs.1 pcs.2
    let freed := L.free o typed.1 allocated.2
    let call : SandboxCall :=
      ⟨allocated.2, overlay s allocated.1, overlay s freed, pcs.1, pcs.2⟩
    have hnat : bytes.toNat = src.val.length + 1 :=
      UInt32.toNat_ofNat_of_lt' (show _ < 2 ^ 32 by omega)
    have hmalloc : overlay s allocated.1 m = allocated.1 :=
      overlay_eq (hL.malloc_arena o ⟨t, m⟩ bytes)
    have hfree : overlay s freed typed.1.memory = freed :=
      overlay_eq (hL.free_arena o typed.1 allocated.2)
    have hallowed : (Event.copyIn call (some src.val)).Allowed s := by
      refine ⟨src.property, ⟨fun hne _ => ?_, fun m' b hb => overlay_of_in hb,
        fun m' b hb => overlay_of_in hb⟩, hL.char_site o _⟩
      have happart := hL.malloc_apart o ⟨t, m⟩ bytes hne
      rwa [hnat] at happart
    have hkept := serve_kept ⟨⟨t, m⟩, strings⟩ _ h hallowed
    have hover := EngineOver.serve ⟨⟨t, m⟩, strings⟩ _ h hallowed
    have hcopy : copyToU call ⟨⟨t, m⟩, strings⟩ (some src.val) = if allocated.2 = 0 then
        (⟨⟨t, allocated.1⟩, strings⟩, .error .badAlloc)
      else if typed.2 = 0 then (⟨⟨typed.1.runtime, freed⟩, strings⟩, .error .badAlloc)
      else (⟨⟨typed.1.runtime, freed⟩, strings⟩, .ok (some typed.2)) :=
      copyToU_some hbig hmalloc rfl hfree
    have hinvoke : ∀ made' seen', invoke (asWritten L) ⟨o, ⟨⟨t, filled⟩, strings⟩, made', seen'⟩
        (.typedCopy allocated.2) = (⟨o, ⟨typed.1, strings⟩,
          made' ++ strdupCallbacks ⟨t, filled⟩ allocated.2 pcs.1 pcs.2,
          seen' ++ [typed.1]⟩, typed.2) := by
      intro made' seen'
      have hruntime := strdupCallbacks_after ⟨t, filled⟩ allocated.2 pcs.1 pcs.2
      simp only [invoke, asWritten]
      rw [hruntime]
    unfold hostCopyToU
    dsimp only
    rw [if_neg hbig, show invoke (asWritten L) ⟨o, ⟨⟨t, m⟩, strings⟩, made, seen⟩
      (.malloc bytes) = (⟨o, ⟨⟨t, allocated.1⟩, strings⟩, made ++ [],
        seen ++ [⟨t, allocated.1⟩]⟩, allocated.2) from rfl, World.store, hinvoke]
    dsimp only
    by_cases h0 : allocated.2 = 0
    · rw [if_pos h0]
      exact .inr rfl
    by_cases h1 : typed.2 = 0
    · rw [if_neg h0, if_pos h1]
      exact .inr rfl
    rw [if_neg h0, if_neg h1] at hcopy ⊢
    have hserve : (serve ⟨⟨t, m⟩, strings⟩ (.copyIn call (some src.val))).1 =
        ⟨⟨typed.1.runtime, freed⟩, strings⟩ := congrArg Prod.fst hcopy
    obtain ⟨q, hq, hm⟩ := h.marshalled hallowed (congrArg Prod.snd hcopy)
    rw [hserve] at hkept hover
    rw [hcopy, ← Option.some.inj hq] at hm
    exact ⟨⟨rfl, hover, hkept.1⟩, h1, hm⟩

end Ordinary

end InterSpec.Bridge
