import InterSpec.Bridge.Contexts

/-!
# Deliveries

Sessions with the sandbox as it is written.  Here the host gets exactly what the option parser
has given out: each of its variables holds what the parser has written to it since the table
was handed over, and the strings are those that the parser points to.

* `Reads`: what the host reads at a pointer of the sandbox.
* `request_delivered`: what `poptGetContext` hands over, and why it can fail.
* `session_delivered`: after `poptGetNextOpt` the variables are as if the parser had written
  to them directly.
* `answers_delivered`: what the other functions of a context return.
-/

namespace InterSpec.Bridge

open InterSpec.Runtime Fallible

variable {π : Type}

/-! ### Strings that are read -/

/-- What the host reads at a pointer of the sandbox: null, or the string that is held there. -/
def Reads (u : Sandbox) (p : UInt32) (copy : Option (List UInt8)) : Prop :=
  ∃ text : Option CString, HoldsText (Held u) p text ∧ copy = text.map (fun t => t.val ++ [0])

/-- **A copy out is what is there**, and it fails where nothing can be read. -/
theorem invokeChecked_reads {σ : Type} {U : Untrusted σ} {w : World σ} {entry : Entry}
    (hl : Layout (invoke U w entry).1.engine.sandbox.runtime) :
    Yields (fun _ => ∀ copy, ¬ Reads (invoke U w entry).1.engine.sandbox (invoke U w entry).2 copy)
      (fun r => Reads (invoke U w entry).1.engine.sandbox (invoke U w entry).2 r.2)
      (invokeChecked U w entry) := by
  unfold invokeChecked
  generalize invoke U w entry = called at hl ⊢
  dsimp only
  by_cases h0 : called.2 = 0
  · rw [if_pos h0, copyChecked_null]
    exact ⟨none, h0, rfl⟩
  · rw [if_neg h0]
    cases hresult : (copyChecked called.1.engine (some called.2.toUInt64)).result with
    | error err =>
      rintro copy ⟨text, htext, _⟩
      cases text with
      | none => exact h0 htext
      | some src =>
        rw [htext.2.copyChecked hl] at hresult
        cases hresult
    | ok copy =>
      obtain ⟨src, hheld, hcopy, _⟩ := copyChecked_ok hl hresult
      exact ⟨some src, ⟨h0, hheld⟩, hcopy⟩

theorem bridgeFailure_yields {α : Type} {E : BridgeError → Prop} {Q : α → Prop}
    {x : Except BridgeError α} (h : Yields E Q x) :
    Yields (fun stop => stop = .aborted ∧ ∃ err, x = .error err ∧ E err) Q (bridgeFailure x) := by
  cases x with
  | error err => exact ⟨rfl, err, rfl, h⟩
  | ok a => exact h

/-- The array that `poptGetArgs` returns: null without arguments, else they and a terminator. -/
def argArray : List CString → Option (List (Option (List UInt8)))
  | [] => none
  | t :: texts => some ((t :: texts).map (fun t => some (t.val ++ [0])) ++ [none])

/-- The arguments `done` have been read. -/
structure ReadSoFar (w : World (Objects π)) (args : List { p : UInt32 // p ≠ 0 })
    (done : List Nat) (state : World (Objects π) × List (Option (List UInt8))) : Prop where
  objects : state.1.untrusted = w.untrusted
  sandbox : state.1.engine.sandbox = w.engine.sandbox
  texts : ∃ texts, List.Forall₂ (fun p t => Held w.engine.sandbox p.val t)
    (args.take done.length) texts ∧ state.2 = texts.map (fun t => some (t.val ++ [0]))

theorem ReadSoFar.step {L : Library π} {w : World (Objects π)} {context : UInt32}
    (hl : Layout w.engine.sandbox.runtime) {done : List Nat}
    {state : World (Objects π) × List (Option (List UInt8))} {p : { p : UInt32 // p ≠ 0 }}
    (h : ReadSoFar w (L.poptGetArgs w.untrusted w.engine.sandbox context) done state)
    (hlen : done.length < 2 ^ 32)
    (hp : (L.poptGetArgs w.untrusted w.engine.sandbox context)[done.length]? = some p) :
    Yields (fun stop => stop = .aborted ∧ ∀ t, ¬ Held w.engine.sandbox p.val t)
      (ReadSoFar w (L.poptGetArgs w.untrusted w.engine.sandbox context) (done ++ [done.length]))
      (hostCopyArg (asWritten L) context state done.length) := by
  have hanswer : asWritten L state.1.untrusted state.1.engine.sandbox
      (.argsAt context (UInt32.ofNat done.length)) =
        ⟨state.1.untrusted, [], state.1.engine.sandbox.memory, p.val⟩ := by
    simp only [asWritten, h.objects, h.sandbox, UInt32.toNat_ofNat_of_lt' hlen, hp,
      Option.elim_some]
  have hcall := invoke_quiet hanswer
  have hreads := @invokeChecked_reads _ (asWritten L) state.1
    (.argsAt context (UInt32.ofNat done.length)) (by rw [hcall, h.sandbox]; exact hl)
  rw [hcall] at hreads
  dsimp only at hreads
  rw [h.sandbox] at hreads
  unfold hostCopyArg
  refine (Yields.mono (fun stop hstop => ?_) (fun _ => id) (bridgeFailure_yields hreads)).bind
    fun copy hcopy hread => ?_
  · obtain ⟨hstop, err, _, hno⟩ := hstop
    exact ⟨hstop, fun t ht => hno _ ⟨some t, ⟨p.property, ht⟩, rfl⟩⟩
  · obtain ⟨text, htext, hsome⟩ := hread
    obtain ⟨hobjects, hsandbox⟩ := invokeChecked_same (bridgeFailure_eq_ok.mp hcopy)
    rw [hcall] at hobjects hsandbox
    cases text with
    | none => exact absurd htext p.property
    | some t =>
      refine (Yields.ensure (by rw [hsome]; rfl)).bind fun _ _ _ => ?_
      obtain ⟨texts, hall, hstate⟩ := h.texts
      refine ⟨hobjects.trans h.objects, hsandbox.trans h.sandbox, texts ++ [t], ?_, ?_⟩
      · rw [List.length_append, List.length_singleton, List.take_add_one, hp]
        exact List.rel_append hall (.cons htext.2 .nil)
      · rw [List.map_append, ← hstate, hsome]
        rfl

/-- **`poptGetArgs`** returns what the parser has left, or fails at a pointer without a string. -/
theorem hostGetArgs_written {L : Library π} {w : World (Objects π)} {context : HostContext}
    (hl : Layout w.engine.sandbox.runtime) {args : List { p : UInt32 // p ≠ 0 }}
    (hargs : L.poptGetArgs w.untrusted w.engine.sandbox context.untrustedContext = args)
    (hlen : args.length < 2 ^ 32) :
    Yields (fun stop => stop = .aborted ∧ ∃ p ∈ args, ∀ t, ¬ Held w.engine.sandbox p.val t)
      (fun r => ∃ texts, List.Forall₂ (fun p t => Held w.engine.sandbox p.val t) args texts ∧
        r.2 = argArray texts)
      (hostGetArgs (asWritten L) context w) := by
  subst hargs
  have hcall := @invoke_quiet _ (asWritten L) w (.argsCount context.untrustedContext) _ _ _ rfl
  have hnat := UInt32.toNat_ofNat_of_lt' hlen
  unfold hostGetArgs
  rw [hcall]
  dsimp only
  generalize hargs : L.poptGetArgs w.untrusted w.engine.sandbox context.untrustedContext = args
    at hlen hnat
  by_cases h0 : UInt32.ofNat args.length = 0
  · rw [if_pos h0]
    have hnil : args = [] := List.length_eq_zero_iff.mp (by rw [← hnat, h0]; rfl)
    exact ⟨[], hnil ▸ .nil, rfl⟩
  · rw [if_neg h0, hnat]
    refine (Yields.fold (P := ReadSoFar w args) (fun done i rest state hwhole h => ?_)
      (List.nil_append _).symm ⟨rfl, rfl, [], .nil, rfl⟩).bind fun copied _ hread => ?_
    · have hi := congrArg (fun l => l[done.length]?) hwhole
      simp only [List.getElem?_append_right (Nat.le_refl _), Nat.sub_self,
        List.getElem?_cons_zero] at hi
      obtain ⟨hlt, rfl⟩ := List.getElem?_eq_some_iff.mp hi
      rw [List.length_range] at hlt
      rw [List.getElem_range]
      obtain ⟨p, hp⟩ : ∃ p, args[done.length]? = some p := ⟨_, List.getElem?_eq_getElem hlt⟩
      rw [← hargs] at h hp ⊢
      refine (h.step hl (hlt.trans hlen) hp).mono (fun stop hstop => ?_) fun _ => id
      exact ⟨hstop.1, p, List.mem_of_getElem? hp, hstop.2⟩
    · obtain ⟨texts, hall, hcopied⟩ := hread.texts
      rw [List.length_range, List.take_length] at hall
      refine ⟨texts, hall, ?_⟩
      cases texts with
      | nil =>
        cases hall
        exact absurd rfl h0
      | cons t texts =>
        rw [hcopied]
        rfl

/-! ### Sessions with the sandbox as it is written -/

/-- The call answers with what the host reads at the pointer, and fails where it cannot. -/
def AnswersText {σ : Type} (u : Sandbox) (p : UInt32)
    (result : Except Stop (Process σ × Answer)) : Prop :=
  Yields (fun stop => stop = .aborted ∧ ∀ copy, ¬ Reads u p copy)
    (fun r => ∃ copy, Reads u p copy ∧ r.2 = .string copy) result

theorem answersText_of {L : Library π} {s : Runtime} {p : Process (Objects π)}
    (h : EngineOver s p.world.engine) {entry : Entry} {answered : Answered π UInt32}
    (hanswer : asWritten L p.world.untrusted p.world.engine.sandbox entry =
      p.world.untrusted.answer answered) :
    AnswersText (answered.sandbox p.world.engine.sandbox) answered.value (do
      let copy ← bridgeFailure (invokeChecked (asWritten L) p.world entry)
      return ({ p with world := copy.1 }, .string copy.2)) := by
  have hcalled : (invoke (asWritten L) p.world entry).1.engine.sandbox =
      answered.sandbox p.world.engine.sandbox ∧
        (invoke (asWritten L) p.world entry).2 = answered.value := by
    rw [invoke, hanswer]
    exact ⟨rfl, rfl⟩
  have hreads := @invokeChecked_reads _ (asWritten L) p.world entry
    (h.invoke entry).inSandbox.layout
  rw [hcalled.1, hcalled.2] at hreads
  refine (Yields.mono (fun stop hstop => ?_) (fun _ => id) (bridgeFailure_yields hreads)).bind
    fun copy _ hread => ⟨copy.2, hread, rfl⟩
  obtain ⟨hstop, _, _, hno⟩ := hstop
  exact ⟨hstop, hno⟩

theorem intact_of_session {L : Library π} {o : Objects π} {env : Surroundings}
    (henv : ∀ entries, (env.enumerate entries).Perm entries) {nullArg : Int32}
    {arenaBase arenaSize : UInt64} (hbase : arenaBase ≠ 0)
    (hspace : arenaBase.toNat + arenaSize.toNat ≤ 2 ^ 32) {ops : List Op}
    (hL : L.Ordinary ((new arenaBase arenaSize).after ops)) {memory : Memory UInt8}
    {trusted : Trusted} {calls : List Call} {p : Process (Objects π)}
    (hp : sessionAfter L env nullArg
      (.start o ((new arenaBase arenaSize).after ops) memory trusted) calls = some p) :
    Intact L env nullArg (.start o ((new arenaBase arenaSize).after ops) memory trusted)
      ((new arenaBase arenaSize).after ops) calls p :=
  session_intact hL henv (EngineOver.reachable hbase hspace ops memory []) rfl calls hp

/-! ### A small library -/

/-- One table, one box and one context at a time; the parser writes to its first two options,
and the arguments are those that it was made with. -/
def smallLibrary : Library Unit where
  malloc _ u bytes := (u.memory, if bytes ≤ 9 then 8192 else 0)
  free _ u _ := u.memory
  callocTable o u _ _ := (u.memory, if (o.tables 12288).isNone then 12288 else 0)
  callocArgv o u _ := (u.memory, if (o.argvs 16384).isNone then 16384 else 0)
  strdupPcs _ _ := (150, 0)
  poptGetContext o u _ _ _ _ :=
    ⟨(), [], u.memory, if (o.tableOf 20480).isNone then 20480 else 0⟩
  poptGetNextOpt _ u _ _ := ⟨(), [], u.memory, (98, [(0, .int 5), (1, .int 3)])⟩
  poptGetOptArg _ u _ := ⟨(), [], u.memory, 0⟩
  poptBadOption _ u _ _ := ⟨(), [], u.memory, 0⟩
  poptGetArgs o _ _ := ((o.argvs 16384).elim [] UArgv.argv).filterMap
    (fun p => if h : p ≠ 0 then some ⟨p, h⟩ else none)
  poptFreeContext _ u _ := ⟨(), [], u.memory, ()⟩

theorem fresh_of_isNone {α : Type} {f : UInt32 → Option α} {a p : UInt32}
    (hp : p = if (f a).isNone then a else 0) (hne : p ≠ 0) : f p = none := by
  by_cases hnone : (f a).isNone
  · rw [hp, if_pos hnone]
    exact Option.isNone_iff_eq_none.mp hnone
  · exact absurd (hp.trans (if_neg hnone)) hne

theorem ordinary_small : smallLibrary.Ordinary ((new 4096 64).after smallOps) where
  malloc_apart o u bytes hne := by
    have hle : bytes ≤ 9 := by
      by_contra hlarge
      exact hne (if_neg hlarge)
    rw [show (smallLibrary.malloc o u bytes).2 = 8192 from if_pos hle]
    have hnat : bytes.toNat ≤ 9 := hle
    exact ⟨show 8192 + bytes.toNat ≤ 2 ^ 32 by omega, .inr (by decide)⟩
  malloc_arena _ _ _ _ _ := rfl
  free_arena _ _ _ _ _ := rfl
  table_arena _ _ _ _ _ _ := rfl
  argv_arena _ _ _ _ _ := rfl
  table_fresh _ _ _ _ hne := fresh_of_isNone rfl hne
  argv_fresh _ _ _ hne := fresh_of_isNone rfl hne
  context_fresh _ _ _ _ _ _ hne := fresh_of_isNone rfl hne
  char_site _ _ site hsite := by
    obtain rfl : ⟨1, 100, 200, 1, kTypeHashChar⟩ = site := Option.some.inj hsite
    rfl

def smallObjects : Objects Unit :=
  ⟨fun _ => none, fun _ => none, fun _ => none, fun _ => [], [], ()⟩

def smallStart : Process (Objects Unit) :=
  .start smallObjects ((new 4096 64).after smallOps) (fun _ => 7) ⟨fun _ => 1, fun _ => none⟩

def textHi : CString := ⟨[104, 105], by decide⟩

/-- The argument `hi`, and the options of `aliasingOptions`. -/
def parseHi : Call := .poptGetContext none 1 (some fun _ => some textHi) (some aliasingOptions) 0

theorem exists_context {α : Type} {contexts : List (Option HostContext)} {f : HostContext → α}
    {a : α} (h : contexts.map (Option.map f) = [some a]) :
    ∃ c, contexts[0]? = some (some c) ∧ f c = a := by
  have hcell := congrArg (fun l => l[0]?) h
  rw [List.getElem?_map] at hcell
  obtain ⟨context, hget, hmap⟩ := Option.map_eq_some_iff.mp hcell
  obtain ⟨c, rfl, hc⟩ := Option.map_eq_some_iff.mp hmap
  exact ⟨c, hget, hc⟩

/-! ### What is delivered -/

/-- **What the parser writes is delivered.**  After any session, `poptGetNextOpt` answers what
the parser does, and leaves in the destinations of the context what the writes of the parser
since `poptGetContext` would have left there directly.  They start from the values of that time:
what the host itself has written to a destination since then is lost. -/
theorem session_delivered {π : Type} (L : Library π) (o : Objects π) (env : Surroundings)
    (henv : ∀ entries, (env.enumerate entries).Perm entries) (nullArg : Int32)
    (arenaBase arenaSize : UInt64) (hbase : arenaBase ≠ 0)
    (hspace : arenaBase.toNat + arenaSize.toNat ≤ 2 ^ 32) (ops : List Op)
    (hL : L.Ordinary ((new arenaBase arenaSize).after ops)) (memory : Memory UInt8)
    (trusted : Trusted) (calls : List Call) (p : Process (Objects π))
    (hp : sessionAfter L env nullArg
      (.start o ((new arenaBase arenaSize).after ops) memory trusted) calls = some p)
    (cell : Nat) (c : HostContext) (hc : p.contexts[cell]? = some (some c)) :
    ∃ n q options count e inner,
      MadeBy L env nullArg (.start o ((new arenaBase arenaSize).after ops) memory trusted) calls n
        q options count e inner p.world.untrusted c ∧
      let before := p.world.untrusted.written c.untrustedTable
      let result := L.poptGetNextOpt p.world.untrusted p.world.engine.sandbox c.untrustedContext
        (inner.untrustedTable.writeAll before)
      let u := result.sandbox p.world.engine.sandbox
      let writes := before ++ result.value.2
      (∀ b ∈ c.slots, b.kind = .string → ∀ src ∈ q.trusted.strings b.trustedAddress, ∀ ptr,
        Marshalled e ptr src → Held u ptr src) →
      (∀ write ∈ writes, Fitting env options count u write) →
      ∃ p', exported (asWritten L) env nullArg p (.poptGetNextOpt (some cell)) =
          .ok (p', .code result.value.1) ∧
        p'.world.untrusted.written c.untrustedTable = writes ∧
        ∀ i < count, ∀ kind, (options i).arg ≠ 0 →
          optionSlotKind env.header (options i) = .ok kind →
          Agrees kind (options i).arg p'.trusted (writes.foldl
            (fun t w => t.writeArg u.memory (options w.1).arg w.2) q.trusted) := by
  have hintact := intact_of_session henv hbase hspace hL hp
  have hopen := hintact.opened cell c hc
  obtain ⟨n, q, options, count, e, inner, hmade⟩ := hopen.made
  refine ⟨n, q, options, count, e, inner, hmade, ?_⟩
  intro before result u writes hstrings hfit
  obtain ⟨_, _, _, _, _, _, hhanded⟩ := hmade.request
  have hs := hhanded.shadowed
  obtain ⟨hcode, hu, _, _, _, htables, hwritten⟩ :=
    next_written (L := L) hopen.tableOf hmade.table
  change _ = u at hu
  have hl : Layout u.runtime := hu ▸ (hintact.engine.invoke _).inSandbox.layout
  generalize hcalled : invoke (asWritten L) p.world (.next c.untrustedContext) = called at *
  have htable : called.1.untrusted.tables c.untrustedTable =
      some (inner.written writes).untrustedTable := by
    rw [htables, Function.update_self]
    exact congrArg some (Table.writeAll_append ..).symm
  -- the slots mirror what direct writes make of the destinations
  have hend : Tracks u inner _ _ := Tracks.writes hs hl
    ⟨rfl, fun b hb => (hs.mirrors b hb).of_kept (hstrings b (hmade.slots ▸ hb))⟩ hfit
  have hbound : ∀ b ∈ (inner.written writes).slots,
      b.index < (inner.written writes).untrustedTable.slotCount := by
    unfold TrustedContext.written
    rw [hend.same]
    exact hs.bound
  obtain ⟨state, hsync, hsynced⟩ := @syncSlots_spec called.1.engine (hu ▸ hl) _ p.trusted
    (inner.written writes) hbound hs.addresses (hu ▸ hend.mirrors)
  obtain ⟨hmap, hsame⟩ := @hostSyncSlots_written _ L called.1 c _ htable
    (inner.written writes) hmade.slots rfl p.trusted
  cases hhost : hostSyncSlots (asWritten L) c called.1 p.trusted with
  | error err =>
    rw [hhost, hsync] at hmap
    cases hmap
  | ok r =>
    rw [hhost, hsync] at hmap
    obtain rfl := Except.ok.inj hmap
    refine ⟨{ p with world := r.1, trusted := r.2 }, ?_, ?_, fun i hi kind hne hkind => ?_⟩
    · simp only [exported, withContext, hc, hcalled, hhost, hcode]
      exact congrArg (fun code => Except.ok (_, Answer.code code)) (Int32.toInt32_toUInt32 _)
    · rw [(hsame r hhost).1, hwritten, Function.update_self]
    · obtain ⟨b, hb, haddress, hbkind, _⟩ := hs.served i hi hne
      have hagrees := hsynced.agrees b hb
      rw [haddress, Except.ok.inj (hbkind.symm.trans hkind), hu] at hagrees
      exact hagrees

/-- The last write to the shared integer arrives; what the host has written to it does not. -/
theorem session_delivered_small : ∃ p p',
    sessionAfter smallLibrary smallSurroundings (-13) smallStart
      [parseHi, .hostWrites ⟨fun _ => 9, fun _ => none⟩] = some p ∧
    exported (asWritten smallLibrary) smallSurroundings (-13) p (.poptGetNextOpt (some 0)) =
      .ok (p', .code 98) ∧ p.trusted.ints 16 = 9 ∧ p'.trusted.ints 16 = 3 := by
  have hrun : (sessionAfter smallLibrary smallSurroundings (-13) smallStart
      [parseHi, .hostWrites ⟨fun _ => 9, fun _ => none⟩]).map (fun p => (p.trusted.ints 16,
        p.contexts.map (Option.map fun c => p.world.untrusted.written c.untrustedTable))) =
      some (9, [some []]) := by decide +kernel
  obtain ⟨p, hp, hrun⟩ := Option.map_eq_some_iff.mp hrun
  obtain ⟨hints, hcontexts⟩ := Prod.mk.inj hrun
  obtain ⟨c, hc, hwritten⟩ := exists_context hcontexts
  obtain ⟨n, q, options, count, e, inner, hmade, hdelivered⟩ := session_delivered smallLibrary
    smallObjects smallSurroundings
    List.reverse_perm (-13) 4096 64 (by decide) (by decide) smallOps ordinary_small (fun _ => 7)
    ⟨fun _ => 1, fun _ => none⟩ _ p hp 0 c hc
  -- the context was made by the first call
  obtain ⟨name, argc, argv, flags, _, hcall, _⟩ := hmade.request
  obtain ⟨rfl, rfl⟩ : n = 0 ∧ options = aliasingOptions := by
    match n with
    | 0 =>
      cases hcall
      exact ⟨rfl, rfl⟩
    | 1 => cases hcall
    | n + 2 => cases hcall
  obtain rfl := Option.some.inj hmade.before
  obtain rfl : 4 = count := Except.ok.inj hmade.counted
  rw [hwritten] at hdelivered
  obtain ⟨p', hok, _, hagrees⟩ := hdelivered (fun b _ _ src hsrc => nomatch hsrc) (fun w hw => by
    rcases List.mem_cons.mp hw with rfl | hw
    · exact ⟨by decide, by decide, rfl⟩
    obtain rfl := List.mem_singleton.mp hw
    exact ⟨by decide, by decide, rfl⟩)
  exact ⟨p, p', hp, hok, hints, hagrees 0 (by decide) .integer (by decide) rfl⟩

/-- **What the parser points to is delivered.**  After any session, `poptGetOptArg` and
`poptBadOption` answer with the string that the parser points to, and `poptGetArgs` with the
strings of all its pointers and a terminator; they fail exactly where such a pointer is neither
null nor one to a terminated string in a live `char` record. -/
theorem answers_delivered {π : Type} (L : Library π) (o : Objects π) (env : Surroundings)
    (henv : ∀ entries, (env.enumerate entries).Perm entries) (nullArg : Int32)
    (arenaBase arenaSize : UInt64) (hbase : arenaBase ≠ 0)
    (hspace : arenaBase.toNat + arenaSize.toNat ≤ 2 ^ 32) (ops : List Op)
    (hL : L.Ordinary ((new arenaBase arenaSize).after ops)) (memory : Memory UInt8)
    (trusted : Trusted) (calls : List Call) (p : Process (Objects π))
    (hp : sessionAfter L env nullArg
      (.start o ((new arenaBase arenaSize).after ops) memory trusted) calls = some p)
    (cell : Nat) (c : HostContext) (hc : p.contexts[cell]? = some (some c)) :
    let u := p.world.engine.sandbox
    let o := p.world.untrusted
    let arg := L.poptGetOptArg o u c.untrustedContext
    let args := L.poptGetArgs o u c.untrustedContext
    AnswersText (arg.sandbox u) arg.value
        (exported (asWritten L) env nullArg p (.poptGetOptArg (some cell))) ∧
      (∀ flags, let bad := L.poptBadOption o u c.untrustedContext flags
        AnswersText (bad.sandbox u) bad.value
          (exported (asWritten L) env nullArg p (.poptBadOption (some cell) flags))) ∧
      (args.length < 2 ^ 32 →
        Yields (fun stop => stop = .aborted ∧ ∃ ptr ∈ args, ∀ t, ¬ Held u ptr.val t)
          (fun r => ∃ texts, List.Forall₂ (fun ptr t => Held u ptr.val t) args texts ∧
            r.2 = .strings (argArray texts))
          (exported (asWritten L) env nullArg p (.poptGetArgs (some cell)))) := by
  have hintact := intact_of_session henv hbase hspace hL hp
  intro u o arg args
  refine ⟨?_, fun flags => ?_, fun hlen => ?_⟩
  · simp only [exported, withContext, hc]
    exact answersText_of hintact.engine rfl
  · simp only [exported, withContext, hc]
    exact answersText_of hintact.engine rfl
  · simp only [exported, withContext, hc]
    refine (hostGetArgs_written hintact.engine.inSandbox.layout rfl hlen).bind
      fun read _ hread => ?_
    obtain ⟨texts, hall, hcache⟩ := hread
    cases hr : read.2 with
    | none => exact ⟨texts, hall, congrArg Answer.strings (hr.symm.trans hcache)⟩
    | some cache => exact ⟨texts, hall, congrArg Answer.strings (hr.symm.trans hcache)⟩

/-- The argument of `parseHi` is held by the sandbox, and it is what `poptGetArgs` returns. -/
theorem answers_delivered_small : ∃ p r ptr t,
    sessionAfter smallLibrary smallSurroundings (-13) smallStart [parseHi] = some p ∧
    exported (asWritten smallLibrary) smallSurroundings (-13) p (.poptGetArgs (some 0)) = .ok r ∧
    r.2 = .strings (some [some [104, 105, 0], none]) ∧ Held p.world.engine.sandbox ptr t ∧
    t.val = [104, 105] := by
  have hrun : (sessionAfter smallLibrary smallSurroundings (-13) smallStart [parseHi]).map
      (fun p => (p.contexts.map (Option.map fun c => (smallLibrary.poptGetArgs p.world.untrusted
          p.world.engine.sandbox c.untrustedContext).length),
        (exported (asWritten smallLibrary) smallSurroundings (-13) p
          (.poptGetArgs (some 0))).map Prod.snd)) =
      some ([some 1], .ok (.strings (some [some [104, 105, 0], none]))) := by decide +kernel
  obtain ⟨p, hp, hrun⟩ := Option.map_eq_some_iff.mp hrun
  obtain ⟨hcontexts, hanswer⟩ := Prod.mk.inj hrun
  obtain ⟨c, hc, hlen⟩ := exists_context hcontexts
  have hargs := (answers_delivered smallLibrary smallObjects smallSurroundings List.reverse_perm
    (-13) 4096 64 (by decide) (by decide) smallOps ordinary_small (fun _ => 7)
    ⟨fun _ => 1, fun _ => none⟩ _ p hp 0 c hc).2.2 (by rw [hlen]; decide)
  generalize hr : exported (asWritten smallLibrary) smallSurroundings (-13) p
    (.poptGetArgs (some 0)) = x at hanswer hargs
  cases x with
  | error stop => cases hanswer
  | ok r =>
    obtain ⟨texts, hall, htexts⟩ := hargs
    have hstrings := Except.ok.inj hanswer
    rw [htexts] at hstrings
    cases texts with
    | nil => cases hstrings
    | cons t texts =>
      obtain ⟨ptr, _, hheld, _, _⟩ := List.forall₂_cons_right_iff.mp hall
      refine ⟨p, r, ptr, t, hp, hr, Except.ok.inj hanswer, hheld, ?_⟩
      simp only [argArray, List.map_cons, List.cons_append, Answer.strings.injEq,
        Option.some.injEq, List.cons.injEq] at hstrings
      exact (List.append_left_inj [0]).mp hstrings.1

end InterSpec.Bridge