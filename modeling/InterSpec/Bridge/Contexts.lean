import InterSpec.Bridge.Marshalling

/-!
# Open contexts

A session with the sandbox as it is written keeps every open context intact: its objects are
still there, no other context has them, and its table is the one that was handed over after what
the parser has written to it.

* `hostSyncSlots_written`: the loop of `sync_slots` reads the table of its context.
* `MadeBy`: which call has made a context, and of what.
* `Intact`: the invariant.
* `exported_effect`: a call reads, requests a context, goes on with one or frees one.
* `session_intact`: it holds after every session.
-/

namespace InterSpec.Bridge

open InterSpec.Runtime Fallible

variable {π : Type}

/-! ### The arena in a session -/

theorem callback_inSandbox {s : Runtime} (h : InSandbox s) (c : Callback) :
    InSandbox (callback s c).1 ∧ (callback s c).1.base = s.base ∧
      (callback s c).1.capacity = s.capacity ∧ (callback s c).1.sites = s.sites := by
  obtain ⟨ops, hops⟩ := callback_reachable s c
  have harena := arena_after h.layout ops
  rw [← hops] at harena
  refine ⟨⟨?_, ?_, ?_⟩, harena.1, harena.2.1, ?_⟩
  · rw [hops]
    exact layout_after h.layout ops
  · rw [harena.1]
    exact h.base_ne_zero
  · rw [harena.1, harena.2.1]
    exact h.end_le
  · cases c with
    | allocate size pc nextPc =>
      have halloc : (callback s (.allocate size pc nextPc)).1 =
          (s.allocateFromCallback size.toUInt64 pc nextPc).1 := rfl
      rw [halloc, allocateFromCallback_eq h.layout h.base_ne_zero]
      split
      · rfl
      · split <;> rfl
    | release ptr => exact (@sameRegistry_step s h.layout (.release ptr.toUInt64) rfl).sites
    | size ptr => rfl
    | reallocate ptr size =>
      exact (@sameRegistry_step s h.layout (.reallocate ptr.toUInt64 size.toUInt64) rfl).sites

theorem EngineOver.of_runtime {s : Runtime} {e e' : Engine} (h : EngineOver s e)
    (hr : e'.sandbox.runtime = e.sandbox.runtime) : EngineOver s e' :=
  ⟨hr ▸ h.inSandbox, hr ▸ h.base, hr ▸ h.capacity, hr ▸ h.sites⟩

/-- **A call into any sandbox** keeps the arena and the sites. -/
theorem EngineOver.invoke {σ : Type} {U : Untrusted σ} {s : Runtime} {w : World σ}
    (h : EngineOver s w.engine) (entry : Entry) : EngineOver s (invoke U w entry).1.engine := by
  have hrun : ∀ (callbacks : List Callback) (t : Runtime), InSandbox t ∧ t.base = s.base ∧
      t.capacity = s.capacity ∧ t.sites = s.sites →
      let t' := Machine.after callback t callbacks
      InSandbox t' ∧ t'.base = s.base ∧ t'.capacity = s.capacity ∧ t'.sites = s.sites := by
    intro callbacks t ht
    refine Machine.after_induction (P := fun t => InSandbox t ∧ t.base = s.base ∧
      t.capacity = s.capacity ∧ t.sites = s.sites) (fun t c ht => ?_) callbacks t ht
    obtain ⟨hin, hbase, hcapacity, hsites⟩ := ht
    obtain ⟨hin', hbase', hcapacity', hsites'⟩ := callback_inSandbox hin c
    exact ⟨hin', hbase'.trans hbase, hcapacity'.trans hcapacity, hsites'.trans hsites⟩
  obtain ⟨hin, hbase, hcapacity, hsites⟩ := hrun
    (U w.untrusted w.engine.sandbox entry).callbacks w.engine.sandbox.runtime
    ⟨h.inSandbox, h.base, h.capacity, h.sites⟩
  exact ⟨hin, hbase, hcapacity, hsites⟩

/-! ### What is read back -/

theorem invokeChecked_same {σ : Type} {U : Untrusted σ} {w w' : World σ} {entry : Entry}
    {copy : Option (List UInt8)} (hok : invokeChecked U w entry = .ok (w', copy)) :
    w'.untrusted = (invoke U w entry).1.untrusted ∧
      w'.engine.sandbox = (invoke U w entry).1.engine.sandbox := by
  unfold invokeChecked at hok
  dsimp only at hok
  split at hok
  · cases hok
  · cases hok
    exact ⟨rfl, copyChecked_sandbox _ _⟩

theorem hostSyncSlot_written {L : Library π} {state : World (Objects π) × Trusted}
    {address : UInt32} {table : Table} (ht : state.1.untrusted.tables address = some table)
    (b : SlotBinding) :
    (hostSyncSlot (asWritten L) address state b).map (fun r => (r.1.engine, r.2)) =
        syncSlot table (state.1.engine, state.2) b ∧
      ∀ r, hostSyncSlot (asWritten L) address state b = .ok r →
        r.1.untrusted = state.1.untrusted ∧ r.1.engine.sandbox = state.1.engine.sandbox := by
  unfold hostSyncSlot syncSlot
  cases b.kind with
  | integer =>
    have hanswer : asWritten L state.1.untrusted state.1.engine.sandbox
        (.slotGetInt address b.index) = ⟨state.1.untrusted, [], state.1.engine.sandbox.memory,
          (slotGetInt table b.index).toUInt32⟩ := by
      simp only [asWritten, ht, Option.elim_some]
    dsimp only
    rw [invoke_quiet hanswer]
    refine ⟨rfl, fun r hr => ?_⟩
    cases hr
    exact ⟨rfl, rfl⟩
  | string =>
    have hanswer : asWritten L state.1.untrusted state.1.engine.sandbox
        (.slotGetString address b.index) = ⟨state.1.untrusted, [], state.1.engine.sandbox.memory,
          slotGetString table b.index⟩ := by
      simp only [asWritten, ht, Option.elim_some]
    have hcall : invoke (asWritten L) state.1 (.slotGetString address b.index) =
        (⟨state.1.untrusted, state.1.engine, state.1.made,
          state.1.seen ++ [state.1.engine.sandbox]⟩, slotGetString table b.index) :=
      invoke_quiet hanswer
    refine ⟨?_, fun r hr => ?_⟩
    · dsimp only
      unfold invokeChecked
      rw [hcall]
      dsimp only
      generalize copyChecked state.1.engine _ = copied
      cases copied.result <;> rfl
    · obtain ⟨copy, hcopy, hr⟩ := bind_eq_ok.mp hr
      cases hr
      have hsame := invokeChecked_same hcopy
      rw [hcall] at hsame
      exact hsame

/-- **`sync_slots` reads the table of its context**, as `syncSlots` does. -/
theorem hostSyncSlots_written {L : Library π} {w : World (Objects π)} {context : HostContext}
    {table : Table} (ht : w.untrusted.tables context.untrustedTable = some table)
    {inner : TrustedContext} (hslots : inner.slots = context.slots)
    (htable : inner.untrustedTable = table) (trusted : Trusted) :
    (hostSyncSlots (asWritten L) context w trusted).map (fun r => (r.1.engine, r.2)) =
        syncSlots inner w.engine trusted ∧
      ∀ r, hostSyncSlots (asWritten L) context w trusted = .ok r →
        r.1.untrusted = w.untrusted ∧ r.1.engine.sandbox = w.engine.sandbox := by
  rw [syncSlots, hslots, htable, hostSyncSlots]
  refine fold_map (P := fun r : World (Objects π) × Trusted => r.1.untrusted = w.untrusted ∧
    r.1.engine.sandbox = w.engine.sandbox) (fun r b hr => ?_) ⟨rfl, rfl⟩
  obtain ⟨hmap, hsame⟩ := hostSyncSlot_written (L := L) (hr.1 ▸ ht) b
  refine ⟨hmap, fun r' hr' => ?_⟩
  obtain ⟨hobjects, hsandbox⟩ := hsame r' hr'
  exact ⟨hobjects.trans hr.1, hsandbox.trans hr.2⟩

/-! ### Open contexts -/

/-- The objects of the context are still there; only the parser has written to its table. -/
structure Objects.KeptFor (o o' : Objects π) (c : HostContext) : Prop where
  tableOf : o'.tableOf c.untrustedContext = o.tableOf c.untrustedContext
  argv : o'.argvs c.untrustedArgv = o.argvs c.untrustedArgv
  written : ∃ more, o'.written c.untrustedTable = o.written c.untrustedTable ++ more ∧
    o'.tables c.untrustedTable = (o.tables c.untrustedTable).map (·.writeAll more)

theorem Objects.KeptFor.of_same {o o' : Objects π} {c : HostContext}
    (htableOf : o'.tableOf c.untrustedContext = o.tableOf c.untrustedContext)
    (htable : o'.tables c.untrustedTable = o.tables c.untrustedTable)
    (hargv : o'.argvs c.untrustedArgv = o.argvs c.untrustedArgv)
    (hwritten : o'.written c.untrustedTable = o.written c.untrustedTable) : o.KeptFor o' c := by
  refine ⟨htableOf, hargv, [], by rw [hwritten, List.append_nil], ?_⟩
  rw [htable]
  exact Option.map_id'.symm

/-- Two contexts share no object. -/
structure HostContext.Apart (c d : HostContext) : Prop where
  context : c.untrustedContext ≠ d.untrustedContext
  table : c.untrustedTable ≠ d.untrustedTable
  argv : c.untrustedArgv ≠ d.untrustedArgv

theorem HostContext.Apart.symm {c d : HostContext} (h : c.Apart d) : d.Apart c :=
  ⟨h.context.symm, h.table.symm, h.argv.symm⟩

section Session

variable (L : Library π) (env : Surroundings) (nullArg : Int32) (start : Process (Objects π))

/-- The process after the calls, against the sandbox as it is written. -/
def sessionAfter (calls : List Call) : Option (Process (Objects π)) :=
  Machine.after (session (asWritten L) env nullArg) (some start) calls

/-- Call `n` has made the context: `q` is the process that it was called in, `inner` what it
has handed over, `e` the engine at that time.  The table of the context is the one handed over,
after what the parser has written. -/
structure MadeBy (calls : List Call) (n : Nat) (q : Process (Objects π))
    (options : Nat → PoptOption) (count : Nat) (e : Engine) (inner : TrustedContext)
    (o : Objects π) (c : HostContext) : Prop where
  request : ∃ name argc argv flags namePtr,
    calls[n]? = some (.poptGetContext name argc argv (some options) flags) ∧
      Handed env options count q.trusted name argc (argv.getD (fun _ => none)) e namePtr inner
  before : sessionAfter L env nullArg start (calls.take n) = some q
  counted : optionCount (some options) = .ok count
  slots : inner.slots = c.slots
  table : o.tables c.untrustedTable =
    some (inner.untrustedTable.writeAll (o.written c.untrustedTable))

structure Opened (calls : List Call) (o : Objects π) (c : HostContext) : Prop where
  tableOf : o.tableOf c.untrustedContext = some c.untrustedTable
  argv : o.argvs c.untrustedArgv ≠ none
  made : ∃ n q options count e inner,
    MadeBy L env nullArg start calls n q options count e inner o c

/-- **The state of a session**: every open context has its objects, and no two share one. -/
structure Intact (s : Runtime) (calls : List Call) (p : Process (Objects π)) : Prop where
  engine : EngineOver s p.world.engine
  opened : ∀ (cell : Nat) c, p.contexts[cell]? = some (some c) →
    Opened L env nullArg start calls p.world.untrusted c
  apart : ∀ (i j : Nat) c d, p.contexts[i]? = some (some c) → p.contexts[j]? = some (some d) →
    i ≠ j → c.Apart d

end Session

section Step

variable {L : Library π} {env : Surroundings} {nullArg : Int32} {start : Process (Objects π)}
  {s : Runtime} {calls : List Call} {p p' : Process (Objects π)} {call : Call}

theorem Opened.later {o o' : Objects π} {c c' : HostContext}
    (h : Opened L env nullArg start calls o c) (hkept : o.KeptFor o' c)
    (hcache : ∃ cache, c' = { c with argsCache := cache }) :
    Opened L env nullArg start (calls ++ [call]) o' c' := by
  obtain ⟨cache, rfl⟩ := hcache
  obtain ⟨n, q, options, count, e, inner, hmade⟩ := h.made
  obtain ⟨name, argc, argv, flags, namePtr, hcall, hhanded⟩ := hmade.request
  have hn : n < calls.length := (List.getElem?_eq_some_iff.mp hcall).1
  obtain ⟨more, hwritten, htable⟩ := hkept.written
  refine ⟨hkept.tableOf.trans h.tableOf, hkept.argv ▸ h.argv, n, q, options, count, e, inner, ?_⟩
  refine ⟨⟨name, argc, argv, flags, namePtr, ?_, hhanded⟩, ?_, hmade.counted, hmade.slots, ?_⟩
  · rw [List.getElem?_append_left hn]
    exact hcall
  · rw [List.take_append_of_le_length (Nat.le_of_lt hn)]
    exact hmade.before
  · rw [htable, hwritten, hmade.table, Table.writeAll_append]
    rfl

theorem Intact.later (h : Intact L env nullArg start s calls p)
    (hengine : EngineOver s p'.world.engine)
    (hold : ∀ (cell : Nat) c', p'.contexts[cell]? = some (some c') → ∃ c,
      p.contexts[cell]? = some (some c) ∧ (∃ cache, c' = { c with argsCache := cache }) ∧
        p.world.untrusted.KeptFor p'.world.untrusted c) :
    Intact L env nullArg start s (calls ++ [call]) p' := by
  refine ⟨hengine, fun cell c' hc' => ?_, fun i j c' d' hc' hd' hij => ?_⟩
  · obtain ⟨c, hc, hcache, hkept⟩ := hold cell c' hc'
    exact (h.opened cell c hc).later hkept hcache
  · obtain ⟨c, hc, ⟨cache, rfl⟩, _⟩ := hold i c' hc'
    obtain ⟨d, hd, ⟨cache', rfl⟩, _⟩ := hold j d' hd'
    have hapart := h.apart i j c d hc hd hij
    exact ⟨hapart.context, hapart.table, hapart.argv⟩

theorem contextNew_objects {L : Library π} {w : World (Objects π)} {argc : Int32}
    {argv address : UInt32} {box : UArgv} {table : Table} (hbox : w.untrusted.argvs argv = some box)
    (htable : w.untrusted.tables address = some table) (hargc : 0 ≤ argc)
    (hcount : box.argc = argc.toUInt32) (name flags : UInt32) :
    let made := L.poptGetContext w.untrusted w.engine.sandbox name box table flags
    let o := (invoke (asWritten L) w (.contextNew name argc argv address flags)).1.untrusted
    o.tables = w.untrusted.tables ∧ o.argvs = w.untrusted.argvs ∧
      o.written = w.untrusted.written ∧ o.dangling = w.untrusted.dangling ∧
      o.tableOf = if made.value = 0 then w.untrusted.tableOf
        else Function.update w.untrusted.tableOf made.value (some address) := by
  have hno : ¬ (argc < 0 ∨ argc.toUInt32 ≠ box.argc) :=
    not_or.mpr ⟨Int32.not_lt.mpr hargc, not_not.mpr hcount.symm⟩
  simp only [invoke, asWritten, hbox, htable, if_neg hno]
  split
  · exact ⟨rfl, rfl, rfl, rfl, rfl⟩
  · exact ⟨rfl, rfl, rfl, rfl, rfl⟩

/-- At most the library has another state. -/
structure Objects.Same (o o' : Objects π) : Prop where
  tableOf : o'.tableOf = o.tableOf
  tables : o'.tables = o.tables
  argvs : o'.argvs = o.argvs
  written : o'.written = o.written
  dangling : o'.dangling = o.dangling

/-- The parser has written `more` to the table of the context. -/
structure Objects.Changed (o o' : Objects π) (c : HostContext) (more : List (Nat × ArgValue)) :
    Prop where
  tableOf : o'.tableOf = o.tableOf
  argvs : o'.argvs = o.argvs
  tables : ∃ table, o.tables c.untrustedTable = some table ∧
    o'.tables = Function.update o.tables c.untrustedTable (some (table.writeAll more))
  written : o'.written =
    Function.update o.written c.untrustedTable (o.written c.untrustedTable ++ more)
  dangling : o'.dangling = o.dangling

/-- The objects of the context were there, each is freed once, and no others are gone. -/
structure Objects.Freed (o o' : Objects π) (c : HostContext) : Prop where
  context : o.tableOf c.untrustedContext = some c.untrustedTable
  table : o.tables c.untrustedTable ≠ none
  argv : o.argvs c.untrustedArgv ≠ none
  tableOf : o'.tableOf = Function.update o.tableOf c.untrustedContext none
  tables : o'.tables = Function.update o.tables c.untrustedTable none
  argvs : o'.argvs = Function.update o.argvs c.untrustedArgv none
  written : o'.written = o.written
  dangling : o'.dangling = o.dangling

/-- What a call of `poptGetContext` that returns has done: the table and the box are there, and
there is a context when the parser has made one. -/
structure Requested (s : Runtime) (p p' : Process (Objects π)) (answer : Answer)
    (w : World (Objects π)) (tableAt argvAt : UInt32) (inner : TrustedContext) : Prop where
  parser : AtParser s p.world w tableAt argvAt inner
  engine : EngineOver s p'.world.engine
  tables : p'.world.untrusted.tables = w.untrusted.tables
  argvs : p'.world.untrusted.argvs = w.untrusted.argvs
  written : p'.world.untrusted.written = w.untrusted.written
  dangling : p'.world.untrusted.dangling = w.untrusted.dangling
  made : (answer = .context none ∧ p'.contexts = p.contexts ∧
      p'.world.untrusted.tableOf = w.untrusted.tableOf) ∨
    ∃ made, w.untrusted.tableOf made = none ∧ answer = .context (some p.contexts.length) ∧
      p'.contexts = p.contexts ++ [some ⟨made, tableAt, argvAt, inner.slots, []⟩] ∧
      p'.world.untrusted.tableOf =
        Function.update w.untrusted.tableOf made (some tableAt)

/-- A call that neither makes a context, goes on with one nor frees one. -/
def Call.reads : Call → Bool
  | .poptGetContext _ _ _ _ _ | .poptGetNextOpt (some _) | .poptFreeContext (some _) => false
  | _ => true

/-- **What a call that returns can do** to the objects and to the contexts. -/
inductive Effect (env : Surroundings) (s : Runtime) (p p' : Process (Objects π)) :
    Call → Answer → Prop
  | read {call : Call} {answer : Answer}
      (hcall : call.reads = true)
      (hsame : p.world.untrusted.Same p'.world.untrusted)
      (hcontexts : p'.contexts = p.contexts ∨ ∃ cell c cache,
        p.contexts[cell]? = some (some c) ∧
          p'.contexts = p.contexts.set cell (some { c with argsCache := cache })) :
      Effect env s p p' call answer
  | request {name : Option CString} {argc : Int32} {argv : Option (Nat → Option CString)}
      {options : Nat → PoptOption} {flags : UInt32} {answer : Answer} {count : Nat}
      {w : World (Objects π)} {tableAt argvAt namePtr : UInt32} {inner : TrustedContext}
      (hcount : optionCount (some options) = .ok count)
      (hrequested : Requested s p p' answer w tableAt argvAt inner)
      (hhanded : Handed env options count p.trusted name argc (argv.getD (fun _ => none))
        w.engine namePtr inner) :
      Effect env s p p' (.poptGetContext name argc argv (some options) flags) answer
  | next {cell : Nat} {c : HostContext} {answer : Answer} {more : List (Nat × ArgValue)}
      (hget : p.contexts[cell]? = some (some c)) (hcontexts : p'.contexts = p.contexts)
      (hchanged : p.world.untrusted.Changed p'.world.untrusted c more) :
      Effect env s p p' (.poptGetNextOpt (some cell)) answer
  | free {cell : Nat} {c : HostContext} {answer : Answer}
      (hget : p.contexts[cell]? = some (some c))
      (hcontexts : p'.contexts = p.contexts.set cell none)
      (hfreed : p.world.untrusted.Freed p'.world.untrusted c) :
      Effect env s p p' (.poptFreeContext (some cell)) answer

theorem getContext_ok (hL : L.Ordinary s)
    (henv : ∀ entries, (env.enumerate entries).Perm entries) (h : EngineOver s p.world.engine)
    {name : Option CString} {argc : Int32} {argv : Option (Nat → Option CString)}
    {options : Option (Nat → PoptOption)} {flags : UInt32} {answer : Answer}
    (hok : exported (asWritten L) env nullArg p
      (.poptGetContext name argc argv options flags) = .ok (p', answer)) :
    ∃ table count w tableAt argvAt namePtr inner, options = some table ∧
      optionCount options = .ok count ∧ Requested s p p' answer w tableAt argvAt inner ∧
      Handed env table count p.trusted name argc (argv.getD (fun _ => none)) w.engine namePtr
        inner := by
  obtain ⟨⟨w', made⟩, hmade, hok⟩ := bind_eq_ok.mp hok
  obtain ⟨table, count, rfl, hcount, w, tableAt, argvAt, namePtr, inner, hat, hhanded, hr⟩ :=
    (hostMakeContext_written hL henv h p.trusted name argc argv options flags).ok
      (bridgeFailure_eq_ok.mp hmade)
  have hargc : 0 ≤ argc := by
    obtain ⟨_, hvalid, _⟩ := bind_eq_ok.mp (bridgeFailure_eq_ok.mp hmade)
    exact Int32.not_lt.mp fun hlt => ensure_eq_ok.mp hvalid (.inl hlt)
  have hboxAt : w.untrusted.argvs argvAt = some inner.untrustedArgv := by
    rw [hat.objects, Objects.setArgv_self]
  have htableAt : w.untrusted.tables tableAt = some inner.untrustedTable := by
    rw [hat.objects]
    exact Objects.setTable_self ..
  obtain ⟨htables, hargvs, hwritten, hdangling, htableOf⟩ :=
    contextNew_objects (L := L) hboxAt htableAt hargc hhanded.boxed namePtr flags
  have hfresh := hL.context_fresh w.untrusted w.engine.sandbox namePtr inner.untrustedArgv
    inner.untrustedTable flags
  refine ⟨table, count, w, tableAt, argvAt, namePtr, inner, rfl, hcount, ?_, hhanded⟩
  rw [parserAnswer] at hr
  obtain ⟨rfl, hcontext⟩ := Prod.mk.inj hr
  have hengine : EngineOver s
      (invoke (asWritten L) w (.contextNew namePtr argc argvAt tableAt flags)).1.engine :=
    hat.engine.invoke _
  dsimp only at htableOf hcontext hfresh
  generalize (L.poptGetContext w.untrusted w.engine.sandbox namePtr inner.untrustedArgv
    inner.untrustedTable flags).value = made' at htableOf hcontext hfresh
  by_cases h0 : made' = 0
  · rw [if_pos h0] at hcontext htableOf
    subst hcontext
    cases hok
    exact ⟨hat, hengine, htables, hargvs, hwritten, hdangling, .inl ⟨rfl, rfl, htableOf⟩⟩
  · rw [if_neg h0] at hcontext htableOf
    subst hcontext
    cases hok
    exact ⟨hat, hengine, htables, hargvs, hwritten, hdangling,
      .inr ⟨made', hfresh h0, rfl, rfl, htableOf⟩⟩

/-- The contexts that were open before keep their objects, and the new ones are others. -/
theorem Requested.kept {answer : Answer} {w : World (Objects π)} {tableAt argvAt : UInt32}
    {inner : TrustedContext} (h : Requested s p p' answer w tableAt argvAt inner)
    {c : HostContext} (hopen : Opened L env nullArg start calls p.world.untrusted c) :
    p.world.untrusted.KeptFor p'.world.untrusted c ∧ c.untrustedTable ≠ tableAt ∧
      c.untrustedArgv ≠ argvAt ∧
      ∀ made, w.untrusted.tableOf made = none → c.untrustedContext ≠ made := by
  obtain ⟨_, _, _, _, _, _, hmade⟩ := hopen.made
  have htable : c.untrustedTable ≠ tableAt := by
    intro he
    have hsome := hmade.table
    rw [he, h.parser.table_fresh] at hsome
    cases hsome
  have hargv : c.untrustedArgv ≠ argvAt := fun he => hopen.argv (he ▸ h.parser.argv_fresh)
  have hsame : w.untrusted.tableOf = p.world.untrusted.tableOf := by
    rw [h.parser.objects]
    rfl
  have hcontext : ∀ made, w.untrusted.tableOf made = none → c.untrustedContext ≠ made := by
    intro made hnone he
    have hsome := hopen.tableOf
    rw [← hsame, he, hnone] at hsome
    cases hsome
  refine ⟨.of_same ?_ ?_ ?_ ?_, htable, hargv, hcontext⟩
  · rcases h.made with ⟨_, _, htableOf⟩ | ⟨made, hfresh, _, _, htableOf⟩
    · rw [htableOf, hsame]
    · rw [htableOf, Function.update_of_ne (hcontext made hfresh), hsame]
  · rw [h.tables, h.parser.objects]
    exact Function.update_of_ne htable _ _
  · rw [h.argvs, h.parser.objects]
    exact Function.update_of_ne hargv _ _
  · rw [h.written, h.parser.objects]
    exact Function.update_of_ne htable _ _

theorem Intact.request (h : Intact L env nullArg start s calls p)
    (hrun : sessionAfter L env nullArg start calls = some p) {name : Option CString}
    {argc : Int32} {argv : Option (Nat → Option CString)} {options : Nat → PoptOption}
    {flags : UInt32} {answer : Answer} {count : Nat} {w : World (Objects π)}
    {tableAt argvAt namePtr : UInt32} {inner : TrustedContext}
    (hcount : optionCount (some options) = .ok count)
    (hrequested : Requested s p p' answer w tableAt argvAt inner)
    (hhanded : Handed env options count p.trusted name argc (argv.getD (fun _ => none)) w.engine
      namePtr inner) :
    Intact L env nullArg start s
      (calls ++ [.poptGetContext name argc argv (some options) flags]) p' := by
  have hold := fun (cell : Nat) c (hc : p.contexts[cell]? = some (some c)) =>
    hrequested.kept (h.opened cell c hc)
  rcases hrequested.made with ⟨_, hcontexts, _⟩ | ⟨made, hfresh, _, hcontexts, htableOf⟩
  · refine h.later hrequested.engine fun cell c hc => ?_
    rw [hcontexts] at hc
    exact ⟨c, hc, ⟨c.argsCache, rfl⟩, (hold cell c hc).1⟩
  -- the new context is the last one
  have hcell : ∀ (cell : Nat) c, p'.contexts[cell]? = some (some c) →
      p.contexts[cell]? = some (some c) ∨
        cell = p.contexts.length ∧ c = ⟨made, tableAt, argvAt, inner.slots, []⟩ := by
    intro cell c hc
    rw [hcontexts, List.getElem?_append] at hc
    split at hc
    · exact .inl hc
    · obtain ⟨hlt, hget⟩ := List.getElem?_eq_some_iff.mp hc
      rw [List.length_singleton] at hlt
      have hzero : cell - p.contexts.length = 0 := by omega
      simp only [hzero, List.getElem_cons_zero] at hget
      exact .inr ⟨by omega, (Option.some.inj hget).symm⟩
  refine ⟨hrequested.engine, fun cell c hc => ?_, fun i j c d hc hd hij => ?_⟩
  · rcases hcell cell c hc with hc | ⟨_, rfl⟩
    · exact (h.opened cell c hc).later (hold cell c hc).1 ⟨c.argsCache, rfl⟩
    · refine ⟨?_, ?_, calls.length, p, options, count, w.engine, inner, ?_⟩
      · rw [htableOf]
        exact Function.update_self ..
      · rw [hrequested.argvs, hrequested.parser.objects, Objects.setArgv_self]
        exact Option.some_ne_none _
      · refine ⟨⟨name, argc, argv, flags, namePtr, List.getElem?_concat_length, hhanded⟩, ?_,
          hcount, rfl, ?_⟩
        · rw [List.take_left]
          exact hrun
        · have hlog : p'.world.untrusted.written tableAt = [] := by
            rw [hrequested.written, hrequested.parser.objects]
            exact Function.update_self ..
          rw [hrequested.tables, hrequested.parser.objects, hlog]
          exact Objects.setTable_self ..
  · have hnew : ∀ (cell : Nat) c, p.contexts[cell]? = some (some c) →
        c.Apart ⟨made, tableAt, argvAt, inner.slots, []⟩ := by
      intro cell c hc
      obtain ⟨_, htable, hargv, hcontext⟩ := hold cell c hc
      exact ⟨hcontext made hfresh, htable, hargv⟩
    rcases hcell i c hc with hc | ⟨hi, rfl⟩ <;> rcases hcell j d hd with hd | ⟨hj, rfl⟩
    · exact h.apart i j c d hc hd hij
    · exact hnew i c hc
    · exact (hnew j d hd).symm
    · exact absurd (hi.trans hj.symm) hij

/-- The sandbox when the function of the parser returns. -/
def Answered.sandbox {α : Type} (answered : Answered π α) (u : Sandbox) : Sandbox :=
  ⟨Machine.after callback u.runtime answered.callbacks, answered.memory⟩

theorem next_written {w : World (Objects π)} {c : HostContext} {table : Table}
    (hof : w.untrusted.tableOf c.untrustedContext = some c.untrustedTable)
    (htable : w.untrusted.tables c.untrustedTable = some table) :
    let result := L.poptGetNextOpt w.untrusted w.engine.sandbox c.untrustedContext table
    let called := invoke (asWritten L) w (.next c.untrustedContext)
    let o := called.1.untrusted
    called.2 = result.value.1.toUInt32 ∧
      called.1.engine.sandbox = result.sandbox w.engine.sandbox ∧ o.tableOf = w.untrusted.tableOf ∧
      o.argvs = w.untrusted.argvs ∧ o.dangling = w.untrusted.dangling ∧
      o.tables = Function.update w.untrusted.tables c.untrustedTable
        (some (table.writeAll result.value.2)) ∧
      o.written = Function.update w.untrusted.written c.untrustedTable
        (w.untrusted.written c.untrustedTable ++ result.value.2) := by
  simp [invoke, asWritten, Objects.tableOfContext, hof, htable, Answered.sandbox]

theorem Intact.next (h : Intact L env nullArg start s calls p)
    (hengine : EngineOver s p'.world.engine) {cell : Nat} {c : HostContext}
    (hget : p.contexts[cell]? = some (some c)) (hcontexts : p'.contexts = p.contexts)
    {more : List (Nat × ArgValue)}
    (hchanged : p.world.untrusted.Changed p'.world.untrusted c more) :
    Intact L env nullArg start s (calls ++ [call]) p' := by
  refine h.later hengine fun i d hd => ?_
  rw [hcontexts] at hd
  refine ⟨d, hd, ⟨d.argsCache, rfl⟩, ?_⟩
  obtain ⟨table, hold, htables⟩ := hchanged.tables
  by_cases hi : i = cell
  · obtain rfl : d = c := Option.some.inj (Option.some.inj (hd.symm.trans (hi ▸ hget)))
    refine ⟨congrFun hchanged.tableOf _, congrFun hchanged.argvs _, more, ?_, ?_⟩
    · rw [hchanged.written, Function.update_self]
    · rw [htables, hold, Function.update_self]
      rfl
  · have hne : d.untrustedTable ≠ c.untrustedTable := (h.apart i cell d c hd hget hi).table
    refine .of_same (congrFun hchanged.tableOf _) ?_ (congrFun hchanged.argvs _) ?_
    · rw [htables, Function.update_of_ne hne]
    · rw [hchanged.written, Function.update_of_ne hne]

theorem hostGetArgs_same {L : Library π} {context : HostContext} {w w' : World (Objects π)}
    {cache : Option (List (Option (List UInt8)))}
    (hok : hostGetArgs (asWritten L) context w = .ok (w', cache)) :
    w'.untrusted = w.untrusted ∧ w'.engine.sandbox = w.engine.sandbox := by
  unfold hostGetArgs at hok
  dsimp only at hok
  by_cases h0 : (invoke (asWritten L) w (.argsCount context.untrustedContext)).2 = 0
  · rw [if_pos h0] at hok
    cases hok
    exact ⟨rfl, rfl⟩
  rw [if_neg h0] at hok
  obtain ⟨copied, hfold, hok⟩ := bind_eq_ok.mp hok
  cases hok
  refine fold_rule (P := fun _ (state : World (Objects π) × List (Option (List UInt8))) =>
    state.1.untrusted = w.untrusted ∧ state.1.engine.sandbox = w.engine.sandbox)
    (fun done i rest state state' _ h hstep => ?_) (List.nil_append _).symm ⟨rfl, rfl⟩ hfold
  obtain ⟨copy, hcopy, hstep⟩ := bind_eq_ok.mp hstep
  obtain ⟨_, _, hstep⟩ := bind_eq_ok.mp hstep
  cases hstep
  obtain ⟨hobjects, hsandbox⟩ := invokeChecked_same (bridgeFailure_eq_ok.mp hcopy)
  exact ⟨hobjects.trans h.1, hsandbox.trans h.2⟩

theorem Intact.free (h : Intact L env nullArg start s calls p)
    (hengine : EngineOver s p'.world.engine) {cell : Nat} {c : HostContext}
    (hget : p.contexts[cell]? = some (some c)) (hcontexts : p'.contexts = p.contexts.set cell none)
    (hfreed : p.world.untrusted.Freed p'.world.untrusted c) :
    Intact L env nullArg start s (calls ++ [call]) p' := by
  refine h.later hengine fun i d hd => ?_
  have hne : i ≠ cell := by
    rintro rfl
    rw [hcontexts, List.getElem?_set_self (List.getElem?_eq_some_iff.mp hget).1] at hd
    cases hd
  rw [hcontexts, List.getElem?_set_ne hne.symm] at hd
  have hapart := h.apart i cell d c hd hget hne
  refine ⟨d, hd, ⟨d.argsCache, rfl⟩, .of_same ?_ ?_ ?_ (congrFun hfreed.written _)⟩
  · rw [hfreed.tableOf, Function.update_of_ne hapart.context]
  · rw [hfreed.tables, Function.update_of_ne hapart.table]
  · rw [hfreed.argvs, Function.update_of_ne hapart.argv]

theorem Intact.read (h : Intact L env nullArg start s calls p)
    (hengine : EngineOver s p'.world.engine)
    (hsame : p.world.untrusted.Same p'.world.untrusted)
    (hcontexts : p'.contexts = p.contexts ∨ ∃ cell c cache, p.contexts[cell]? = some (some c) ∧
      p'.contexts = p.contexts.set cell (some { c with argsCache := cache })) :
    Intact L env nullArg start s (calls ++ [call]) p' := by
  refine h.later hengine fun i d' hd' => ?_
  obtain ⟨d, hd, hcache⟩ : ∃ d, p.contexts[i]? = some (some d) ∧
      ∃ cache, d' = { d with argsCache := cache } := by
    rcases hcontexts with hcontexts | ⟨cell, c, cache, hget, hcontexts⟩
    · rw [hcontexts] at hd'
      exact ⟨d', hd', _, rfl⟩
    · rw [hcontexts] at hd'
      by_cases hi : i = cell
      · subst hi
        rw [List.getElem?_set_self (List.getElem?_eq_some_iff.mp hget).1] at hd'
        exact ⟨c, hget, cache, (Option.some.inj (Option.some.inj hd')).symm⟩
      · rw [List.getElem?_set_ne (Ne.symm hi)] at hd'
        exact ⟨d', hd', _, rfl⟩
  exact ⟨d, hd, hcache, .of_same (congrFun hsame.tableOf _) (congrFun hsame.tables _)
    (congrFun hsame.argvs _) (congrFun hsame.written _)⟩

theorem answered_same {w w' : World (Objects π)} {entry : Entry} {answered : Answered π UInt32}
    (hanswer : asWritten L w.untrusted w.engine.sandbox entry = w.untrusted.answer answered)
    {copy : Option (List UInt8)} (hok : invokeChecked (asWritten L) w entry = .ok (w', copy))
    (h : EngineOver s w.engine) : EngineOver s w'.engine ∧ w.untrusted.Same w'.untrusted := by
  obtain ⟨hobjects, hsandbox⟩ := invokeChecked_same hok
  refine ⟨(h.invoke (U := asWritten L) entry).of_runtime (congrArg _ hsandbox), ?_⟩
  rw [hobjects, invoke, hanswer]
  exact ⟨rfl, rfl, rfl, rfl, rfl⟩

theorem Intact.freed (h : Intact L env nullArg start s calls p) {cell : Nat} {c : HostContext}
    (hget : p.contexts[cell]? = some (some c)) :
    let w := (invoke (asWritten L) p.world (.contextFree c.untrustedContext)).1
    let w' := (invoke (asWritten L) w (.tableFree c.untrustedTable)).1
    p.world.untrusted.Freed
      (invoke (asWritten L) w' (.argvFree c.untrustedArgv)).1.untrusted c := by
  intro w w'
  have hopen := h.opened cell c hget
  obtain ⟨_, _, _, _, _, _, hmade⟩ := hopen.made
  have hcontext : p.world.untrusted.tableOf c.untrustedContext ≠ none :=
    hopen.tableOf ▸ Option.some_ne_none _
  have htable : p.world.untrusted.tables c.untrustedTable ≠ none :=
    hmade.table ▸ Option.some_ne_none _
  refine ⟨hopen.tableOf, htable, hopen.argv, rfl, rfl, rfl, rfl, ?_⟩
  have hfirst : w.untrusted.dangling = p.world.untrusted.dangling :=
    Objects.danglingAfter_live _ _ hcontext
  have hsecond : w'.untrusted.dangling = w.untrusted.dangling :=
    Objects.danglingAfter_live _ _ htable
  exact (Objects.danglingAfter_live _ _ hopen.argv).trans (hsecond.trans hfirst)

theorem exported_effect (hL : L.Ordinary s)
    (henv : ∀ entries, (env.enumerate entries).Perm entries)
    (h : Intact L env nullArg start s calls p) {answer : Answer}
    (hok : exported (asWritten L) env nullArg p call = .ok (p', answer)) :
    EngineOver s p'.world.engine ∧ Effect env s p p' call answer := by
  cases call with
  | hostWrites trusted =>
    cases hok
    exact ⟨h.engine, .read rfl ⟨rfl, rfl, rfl, rfl, rfl⟩ (.inl rfl)⟩
  | poptGetContext name argc argv options flags =>
    obtain ⟨_, _, _, _, _, _, _, rfl, hcount, hr, hhanded⟩ := getContext_ok hL henv h.engine hok
    exact ⟨hr.engine, .request hcount hr hhanded⟩
  | poptGetNextOpt context =>
    rcases withContext_eq_ok.mp hok with ⟨rfl, hr⟩ | ⟨cell, c, rfl, hget, hok⟩
    · cases hr
      exact ⟨h.engine, .read rfl ⟨rfl, rfl, rfl, rfl, rfl⟩ (.inl rfl)⟩
    obtain ⟨⟨w, trusted⟩, hsync, hok⟩ := bind_eq_ok.mp hok
    cases hok
    have hopen := h.opened cell c hget
    obtain ⟨_, _, _, _, _, inner, hmade⟩ := hopen.made
    obtain ⟨_, _, htableOf, hargvs, hdangling, htables, hwritten⟩ :=
      next_written (L := L) hopen.tableOf hmade.table
    obtain ⟨hobjects, hsandbox⟩ := (@hostSyncSlots_written _ L _ c _
      ((congrFun htables _).trans (Function.update_self ..))
      ⟨0, _, inner.untrustedArgv, inner.slots⟩ hmade.slots rfl p.trusted).2 (w, trusted)
        (bridgeFailure_eq_ok.mp hsync)
    rw [← hobjects] at htableOf hargvs hdangling htables hwritten
    exact ⟨(h.engine.invoke (U := asWritten L) (.next c.untrustedContext)).of_runtime
      (congrArg _ hsandbox),
      .next hget rfl ⟨htableOf, hargvs, ⟨_, hmade.table, htables⟩, hwritten, hdangling⟩⟩
  | poptGetOptArg context =>
    rcases withContext_eq_ok.mp hok with ⟨rfl, hr⟩ | ⟨cell, c, rfl, hget, hok⟩
    · cases hr
      exact ⟨h.engine, .read rfl ⟨rfl, rfl, rfl, rfl, rfl⟩ (.inl rfl)⟩
    · obtain ⟨⟨w, copy⟩, hcopy, hok⟩ := bind_eq_ok.mp hok
      cases hok
      obtain ⟨hengine, hsame⟩ := answered_same rfl (bridgeFailure_eq_ok.mp hcopy) h.engine
      exact ⟨hengine, .read rfl hsame (.inl rfl)⟩
  | poptGetArgs context =>
    rcases withContext_eq_ok.mp hok with ⟨rfl, hr⟩ | ⟨cell, c, rfl, hget, hok⟩
    · cases hr
      exact ⟨h.engine, .read rfl ⟨rfl, rfl, rfl, rfl, rfl⟩ (.inl rfl)⟩
    obtain ⟨⟨w, args⟩, hargs, hok⟩ := bind_eq_ok.mp hok
    obtain ⟨hobjects, hsandbox⟩ := hostGetArgs_same hargs
    have hengine := h.engine.of_runtime (congrArg Sandbox.runtime hsandbox)
    have hsame : p.world.untrusted.Same w.untrusted := by
      rw [hobjects]
      exact ⟨rfl, rfl, rfl, rfl, rfl⟩
    cases args with
    | none =>
      cases hok
      exact ⟨hengine, .read rfl hsame (.inl rfl)⟩
    | some cache =>
      cases hok
      exact ⟨hengine, .read rfl hsame (.inr ⟨cell, c, cache, hget, rfl⟩)⟩
  | poptBadOption context flags =>
    rcases withContext_eq_ok.mp hok with ⟨rfl, hr⟩ | ⟨cell, c, rfl, hget, hok⟩
    · cases hr
      exact ⟨h.engine, .read rfl ⟨rfl, rfl, rfl, rfl, rfl⟩ (.inl rfl)⟩
    · obtain ⟨⟨w, copy⟩, hcopy, hok⟩ := bind_eq_ok.mp hok
      cases hok
      obtain ⟨hengine, hsame⟩ := answered_same rfl (bridgeFailure_eq_ok.mp hcopy) h.engine
      exact ⟨hengine, .read rfl hsame (.inl rfl)⟩
  | poptFreeContext context =>
    rcases withContext_eq_ok.mp hok with ⟨rfl, hr⟩ | ⟨cell, c, rfl, hget, hok⟩
    · cases hr
      exact ⟨h.engine, .read rfl ⟨rfl, rfl, rfl, rfl, rfl⟩ (.inl rfl)⟩
    · cases hok
      exact ⟨((h.engine.invoke _).invoke _).invoke _, .free hget rfl (h.freed hget)⟩
  | poptReadDefaultConfig context useEnv =>
    cases hok
    exact ⟨h.engine, .read rfl ⟨rfl, rfl, rfl, rfl, rfl⟩ (.inl rfl)⟩
  | poptAddAlias context flags =>
    cases hok
    exact ⟨h.engine, .read rfl ⟨rfl, rfl, rfl, rfl, rfl⟩ (.inl rfl)⟩

theorem Intact.step (hL : L.Ordinary s)
    (henv : ∀ entries, (env.enumerate entries).Perm entries)
    (h : Intact L env nullArg start s calls p)
    (hrun : sessionAfter L env nullArg start calls = some p) {answer : Answer}
    (hok : exported (asWritten L) env nullArg p call = .ok (p', answer)) :
    Intact L env nullArg start s (calls ++ [call]) p' := by
  obtain ⟨hengine, heffect⟩ := exported_effect hL henv h hok
  cases heffect with
  | read _ hsame hcontexts => exact h.read hengine hsame hcontexts
  | request hcount hr hhanded => exact h.request hrun hcount hr hhanded
  | next hget hcontexts hchanged => exact h.next hengine hget hcontexts hchanged
  | free hget hcontexts hfreed => exact h.free hengine hget hcontexts hfreed

end Step

/-! ### Runs -/

section Run

variable {L : Library π} {env : Surroundings} {nullArg : Int32} {start : Process (Objects π)}
  {s : Runtime}

/-- **Every session keeps its open contexts intact.** -/
theorem session_intact (hL : L.Ordinary s)
    (henv : ∀ entries, (env.enumerate entries).Perm entries)
    (hstart : EngineOver s start.world.engine) (hnone : start.contexts = []) (calls : List Call)
    {p : Process (Objects π)} (hp : sessionAfter L env nullArg start calls = some p) :
    Intact L env nullArg start s calls p := by
  have hall : sessionAfter L env nullArg start calls = sessionAfter L env nullArg start calls ∧
      ∀ p, sessionAfter L env nullArg start calls = some p →
        Intact L env nullArg start s calls p := by
    refine Machine.after_history (M := session (asWritten L) env nullArg)
      (P := fun done q => q = sessionAfter L env nullArg start done ∧
        ∀ p, q = some p → Intact L env nullArg start s done p)
      (fun done call q hq => ?_) calls [] (some start) ⟨rfl, fun p hp => ?_⟩
    · obtain ⟨hrun, hintact⟩ := hq
      refine ⟨?_, fun p' hp' => ?_⟩
      · rw [sessionAfter, Machine.after_concat, hrun]
        rfl
      · cases q with
        | none => cases hp'
        | some p =>
          obtain ⟨answer, hok⟩ := session_eq_some.mp hp'
          exact (hintact p rfl).step hL henv hrun.symm hok
    · obtain rfl := Option.some.inj hp
      refine ⟨hstart, fun cell c hc => ?_, fun i j c d hc => ?_⟩
      · rw [hnone] at hc
        cases hc
      · rw [hnone] at hc
        cases hc
  exact hall.2 p hp

end Run

end InterSpec.Bridge
