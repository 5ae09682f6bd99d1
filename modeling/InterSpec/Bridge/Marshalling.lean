import InterSpec.Bridge.AsWritten

/-!
# What the parser is given

`make_context` against the C code of the sandbox.  Where the three loops of the host meet the
functions of `p4c_bridge_untrusted.c`, none of these refuses, and the parser is called with the
table, the arguments and the name of the host.

* `Filled`, `Laid`, `Listed`: the invariants of the three loops.
* `Handed`: the option table of the host, in the sandbox.
* `hostMakeContext_written`: a context is made of it, or the host's own input was refused, or
  there was no room for the strings.
-/

namespace InterSpec.Bridge

open InterSpec.Runtime Fallible

variable {π : Type}

/-! ### Objects -/

def Objects.setTable (o : Objects π) (address : UInt32) (table : Table) : Objects π :=
  { o with tables := Function.update o.tables address (some table) }

def Objects.setArgv (o : Objects π) (address : UInt32) (box : UArgv) : Objects π :=
  { o with argvs := Function.update o.argvs address (some box) }

@[simp] theorem Objects.setTable_self (o : Objects π) (address : UInt32) (table : Table) :
    (o.setTable address table).tables address = some table := Function.update_self ..

@[simp] theorem Objects.setTable_setTable (o : Objects π) (address : UInt32)
    (table table' : Table) :
    (o.setTable address table).setTable address table' = o.setTable address table' := by
  simp [Objects.setTable]

@[simp] theorem Objects.setArgv_self (o : Objects π) (address : UInt32) (box : UArgv) :
    (o.setArgv address box).argvs address = some box := Function.update_self ..

@[simp] theorem Objects.setArgv_setArgv (o : Objects π) (address : UInt32) (box box' : UArgv) :
    (o.setArgv address box).setArgv address box' = o.setArgv address box' := by
  simp [Objects.setArgv]

theorem invoke_quiet {σ : Type} {U : Untrusted σ} {w : World σ} {entry : Entry} {state : σ}
    {memory : Memory UInt8} {value : UInt32}
    (h : U w.untrusted w.engine.sandbox entry = ⟨state, [], memory, value⟩) :
    invoke U w entry = (⟨state,
      { w.engine with sandbox := ⟨w.engine.sandbox.runtime, memory⟩ }, w.made,
      w.seen ++ [⟨w.engine.sandbox.runtime, memory⟩]⟩, value) := by
  rw [invoke, h]
  simp only [List.append_nil, Machine.after_nil]

/-- The sandbox has returned 1 and has changed only its objects. -/
structure Done (r : World (Objects π) × UInt32) (w : World (Objects π)) (o : Objects π) :
    Prop where
  value : r.2 = 1
  objects : r.1.untrusted = o
  engine : r.1.engine = w.engine

theorem Done.ensure {r : World (Objects π) × UInt32} {w : World (Objects π)} {o : Objects π}
    (h : Done r w o) : r.2 ≠ 0 := by
  rw [h.value]
  decide

theorem invoke_onTable {L : Library π} {w : World (Objects π)} (entry : Entry) {address : UInt32}
    {f : Table → Option Table} {o : Objects π} {table table' : Table}
    (hentry : asWritten L w.untrusted w.engine.sandbox entry =
      w.untrusted.onTable w.engine.sandbox address f)
    (ho : w.untrusted = o.setTable address table) (hf : f table = some table') :
    Done (invoke (asWritten L) w entry) w (o.setTable address table') := by
  have hanswer : asWritten L w.untrusted w.engine.sandbox entry =
      ⟨o.setTable address table', [], w.engine.sandbox.memory, 1⟩ := by
    rw [hentry, ho, Objects.onTable, Objects.setTable_self, Option.bind_some, hf]
    exact congrArg (Response.mk · [] w.engine.sandbox.memory 1)
      (Objects.setTable_setTable o address table table')
  rw [invoke_quiet hanswer]
  exact ⟨rfl, rfl, rfl⟩

/-! ### The slots -/

/-- After the slots `done` the table at the address has their values. -/
structure Filled (s : Runtime) (trusted : Trusted) (o : Objects π) (address : UInt32)
    (table : Table) (e : Engine) (done : List SlotBinding) (w : World (Objects π)) : Prop where
  engine : EngineOver s w.engine
  kept : EngineKept e w.engine
  objects : ∃ slots, w.untrusted = o.setTable address { table with slots := slots } ∧
    slots.length = table.slots.length ∧
    ∀ b ∈ done, Mirrors (fun p src => Marshalled w.engine p src) slots trusted b

theorem Filled.step {L : Library π} {s : Runtime} (hL : L.Ordinary s) {trusted : Trusted}
    {o : Objects π} {address : UInt32} {table : Table} {e : Engine} {done : List SlotBinding}
    {b : SlotBinding} {w : World (Objects π)} (h : Filled s trusted o address table e done w)
    (hnew : ∀ b' ∈ done, b'.index ≠ b.index) (hcount : b.index < table.slotCount)
    (hlt : b.index.toNat < table.slots.length) :
    Yields NoRoom (Filled s trusted o address table e (done ++ [b]))
      (hostInitializeSlot (asWritten L) trusted address w b) := by
  obtain ⟨slots, ho, hlen, hmirrors⟩ := h.objects
  -- the slot is set, in a world that has kept what the slots point to
  have hset : ∀ {w' : World (Objects π)} {r : World (Objects π) × UInt32} {slot : Slot},
      EngineKept w.engine w'.engine → EngineOver s w'.engine →
      Done r w' (o.setTable address
        { table with slots := slots.set b.index.toNat slot }) →
      Mirrors (fun p src => Marshalled w'.engine p src) (slots.set b.index.toNat slot) trusted b →
      Filled s trusted o address table e (done ++ [b]) r.1 := by
    intro w' r slot hkept hover hdone hb
    refine ⟨hdone.engine ▸ hover, hdone.engine ▸ h.kept.trans _ _ _ hkept, _, hdone.objects,
      (List.length_set).trans hlen, ?_⟩
    rw [List.forall_mem_append, List.forall_mem_singleton, hdone.engine]
    refine ⟨fun b' hb' => ?_, hb⟩
    have hne : b.index.toNat ≠ b'.index.toNat := fun he =>
      hnew b' hb' (UInt32.toNat_inj.mp he).symm
    exact ((hmirrors b' hb').mono (fun p src hm => hm.kept hkept)).congr
      (List.getElem?_set_ne hne) (fun _ => rfl) (fun _ => rfl)
  have hslot : ∀ slot, slotSet { table with slots := slots } b.index slot =
      some { table with slots := slots.set b.index.toNat slot } :=
    fun slot => if_neg (UInt32.not_le.mpr hcount)
  have hget : ∀ slot : Slot, (slots.set b.index.toNat slot)[b.index.toNat]? = some slot :=
    fun slot => List.getElem?_set_self (by rw [hlen]; exact hlt)
  unfold hostInitializeSlot
  cases hk : b.kind with
  | integer =>
    have hdone : Done _ w _ := invoke_onTable (L := L) (.slotSetInt address b.index
      (trusted.ints b.trustedAddress)) rfl ho (hslot _)
    refine (Yields.ensure hdone.ensure).bind fun _ _ _ => hset (.refl _) h.engine hdone ?_
    unfold Mirrors
    rw [hk]
    exact hget _
  | string =>
    refine (hostCopyToU_written hL h.engine _).bind fun copied _ hcopied => ?_
    obtain ⟨hin, htext⟩ := hcopied
    have hdone : Done _ copied.1 _ := invoke_onTable (L := L) (.slotSetString address
      b.index copied.2) rfl (hin.objects.trans ho) (hslot _)
    refine (Yields.ensure hdone.ensure).bind fun _ _ _ => hset hin.kept hin.engine hdone ?_
    unfold Mirrors
    rw [hk]
    exact ⟨_, hget _, htext⟩

theorem hostInitializeSlots_written {L : Library π} {s : Runtime} (hL : L.Ordinary s)
    (trusted : Trusted) {o : Objects π} {address : UInt32} {table : Table}
    {bindings : List SlotBinding} {w : World (Objects π)} (h : EngineOver s w.engine)
    (ho : w.untrusted = o.setTable address table)
    (hnodup : (bindings.map SlotBinding.index).Nodup)
    (hlt : ∀ b ∈ bindings, b.index < table.slotCount ∧ b.index.toNat < table.slots.length) :
    Yields NoRoom (Filled s trusted o address table w.engine bindings)
      (fold (hostInitializeSlot (asWritten L) trusted address) w bindings) := by
  refine Yields.fold (fun done b rest w' hwhole h => ?_) (List.nil_append bindings).symm
    ⟨h, .refl _, table.slots, ho, rfl, nofun⟩
  have hb := hlt b (by rw [hwhole]; exact List.mem_append_right _ List.mem_cons_self)
  rw [hwhole, List.map_append, List.map_cons] at hnodup
  refine h.step hL (fun b' hb' he => ?_) hb.1 hb.2
  exact List.disjoint_of_nodup_append hnodup (List.mem_map_of_mem hb') (he ▸ List.mem_cons_self)

/-! ### The options -/

theorem HoldsText.kept {e e' : Engine} (hk : EngineKept e e') {p : UInt32} {src : Option CString}
    (h : HoldsText (fun p src => Marshalled e p src) p src) :
    HoldsText (fun p src => Marshalled e' p src) p src :=
  h.mono fun _ _ hm => hm.kept hk

/-- An option of the host in the sandbox, with the pointer `arg`. -/
structure CopiedOption (e : Engine) (arg : Option UInt32) (option : PoptOption) (u : UOption) :
    Prop where
  shortName : u.shortName = option.shortName
  argInfo : u.argInfo = option.argInfo
  val : u.val = option.val
  arg : u.arg = arg
  longName : HoldsText (fun p src => Marshalled e p src) u.longName option.longName
  descrip : HoldsText (fun p src => Marshalled e p src) u.descrip option.descrip
  argDescrip : HoldsText (fun p src => Marshalled e p src) u.argDescrip option.argDescrip

theorem CopiedOption.kept {e e' : Engine} {arg : Option UInt32} {option : PoptOption}
    {u : UOption} (h : CopiedOption e arg option u) (hk : EngineKept e e') :
    CopiedOption e' arg option u where
  shortName := h.shortName
  argInfo := h.argInfo
  val := h.val
  arg := h.arg
  longName := h.longName.kept hk
  descrip := h.descrip.kept hk
  argDescrip := h.argDescrip.kept hk

/-- The slot that the pointer of an option asks for. -/
def slotFor (slotByAddress : List (UInt64 × UInt32)) (arg : UInt64) : Option UInt32 :=
  if arg = 0 then none else Dict.lookup arg slotByAddress

/-- The options `done` have been copied to the table at the address. -/
structure Laid (s : Runtime) (slotByAddress : List (UInt64 × UInt32))
    (options : Nat → PoptOption) (o : Objects π) (address : UInt32) (table : Table) (e : Engine)
    (done : List Nat) (w : World (Objects π)) : Prop where
  engine : EngineOver s w.engine
  kept : EngineKept e w.engine
  objects : ∃ copies, w.untrusted = o.setTable address { table with options := copies } ∧
    copies.length = table.options.length ∧ ∀ i ∈ done, ∃ u, copies[i]? = some u ∧
      CopiedOption w.engine (slotFor slotByAddress (options i).arg) (options i) u

/-- The pointer of the option can be wired: its slot is there and has a kind. -/
def Wirable (slotByAddress : List (UInt64 × UInt32)) (table : Table) (arg : UInt64) : Prop :=
  ∃ slot, slotOf slotByAddress arg = .ok slot ∧
    optionArg table slot = some (slotFor slotByAddress arg)

theorem Laid.step {L : Library π} {s : Runtime} (hL : L.Ordinary s)
    {slotByAddress : List (UInt64 × UInt32)} {options : Nat → PoptOption} {o : Objects π}
    {address : UInt32} {table : Table} {e : Engine} {done : List Nat} {i : Nat}
    {w : World (Objects π)} (h : Laid s slotByAddress options o address table e done w)
    (hcount : table.optionCount.toNat = table.options.length) (hi : i < table.options.length)
    (hwirable : Wirable slotByAddress table (options i).arg) :
    Yields NoRoom (Laid s slotByAddress options o address table e (done ++ [i]))
      (hostWireOption (asWritten L) address slotByAddress options w i) := by
  obtain ⟨copies, ho, hlen, hcopies⟩ := h.objects
  obtain ⟨slot, hslot, harg⟩ := hwirable
  have hbound : table.options.length < 2 ^ 32 := hcount ▸ table.optionCount.toNat_lt
  have hnat : (UInt32.ofNat i).toNat = i := UInt32.toNat_ofNat_of_lt' (hi.trans hbound)
  have hle : ¬ table.optionCount ≤ UInt32.ofNat i := by
    rw [UInt32.le_iff_toNat_le, hnat, hcount]
    exact Nat.not_le_of_lt hi
  have hset : optionSet { table with options := copies } (UInt32.ofNat i)
      (options i).shortName.toUInt32 (options i).argInfo slot (options i).val =
      some { table with options := copies.modify i (fun u =>
        { u with
          shortName := (options i).shortName
          argInfo := (options i).argInfo
          val := (options i).val
          arg := slotFor slotByAddress (options i).arg }) } := by
    unfold optionSet
    rw [if_neg hle, show optionArg { table with options := copies } slot = _ from harg, hnat,
      UInt8.toUInt8_toUInt32]
  have hstrings : ∀ (copies : List UOption) (longName descrip argDescrip : UInt32),
      optionSetStrings { table with options := copies } (UInt32.ofNat i) longName descrip
        argDescrip = some { table with options := copies.modify i (fun u =>
          { u with longName := longName, descrip := descrip, argDescrip := argDescrip }) } := by
    intro copies longName descrip argDescrip
    rw [optionSetStrings, if_neg hle, hnat]
  unfold hostWireOption
  dsimp only
  rw [hslot]
  have hdone : Done _ w _ := invoke_onTable (L := L) (.optionSet address
    (UInt32.ofNat i) (options i).shortName.toUInt32 (options i).argInfo slot (options i).val)
    rfl ho hset
  refine (Yields.ensure hdone.ensure).bind fun _ _ _ => ?_
  refine (hostCopyToU_written hL (hdone.engine ▸ h.engine) _).bind fun longName _ h₁ => ?_
  refine (hostCopyToU_written hL h₁.1.engine _).bind fun description _ h₂ => ?_
  refine (hostCopyToU_written hL h₂.1.engine _).bind fun argDescription _ h₃ => ?_
  have hlast : Done _ argDescription.1 _ := invoke_onTable (L := L)
    (.optionSetStrings address (UInt32.ofNat i) longName.2 description.2
      argDescription.2) rfl
    (h₃.1.objects.trans (h₂.1.objects.trans (h₁.1.objects.trans hdone.objects))) (hstrings ..)
  refine (Yields.ensure hlast.ensure).bind fun _ _ _ => ?_
  -- the engine has kept what it had through the three copies
  have hkept₂ := h₂.1.kept.trans _ _ _ h₃.1.kept
  have hkept : EngineKept w.engine argDescription.1.engine := by
    have hkept₁ := h₁.1.kept
    rw [hdone.engine] at hkept₁
    exact hkept₁.trans _ _ _ hkept₂
  refine ⟨hlast.engine ▸ h₃.1.engine, hlast.engine ▸ h.kept.trans _ _ _ hkept, _, hlast.objects,
    by simp only [List.length_modify, hlen], fun j hj => ?_⟩
  rw [hlast.engine]
  by_cases hij : i = j
  · subst hij
    obtain ⟨u, hu⟩ : ∃ u, copies[i]? = some u :=
      ⟨_, List.getElem?_eq_getElem (hlen.symm ▸ hi)⟩
    refine ⟨_, by rw [List.getElem?_modify_eq, List.getElem?_modify_eq, hu]; rfl, ?_⟩
    exact ⟨rfl, rfl, rfl, rfl, h₁.2.kept hkept₂, h₂.2.kept h₃.1.kept, h₃.2⟩
  · rcases List.mem_append.mp hj with hj | hj
    · obtain ⟨u, hu, hcopied⟩ := hcopies j hj
      refine ⟨u, ?_, hcopied.kept hkept⟩
      rw [List.getElem?_modify_ne _ _ hij, List.getElem?_modify_ne _ _ hij, hu]
    · exact absurd (List.mem_singleton.mp hj).symm hij

theorem hostWireOptions_written {L : Library π} {s : Runtime} (hL : L.Ordinary s)
    {slotByAddress : List (UInt64 × UInt32)} {options : Nat → PoptOption} {o : Objects π}
    {address : UInt32} {table : Table} {w : World (Objects π)} (h : EngineOver s w.engine)
    (ho : w.untrusted = o.setTable address table)
    (hcount : table.optionCount.toNat = table.options.length)
    (hwirable : ∀ i < table.options.length, Wirable slotByAddress table (options i).arg) :
    Yields NoRoom (Laid s slotByAddress options o address table w.engine
        (List.range table.options.length))
      (fold (hostWireOption (asWritten L) address slotByAddress options) w
        (List.range table.options.length)) := by
  refine Yields.fold (fun done i rest w' hwhole h => ?_) (List.nil_append _).symm
    ⟨h, .refl _, table.options, ho, rfl, nofun⟩
  have hi : i < table.options.length := by
    rw [← List.mem_range, hwhole]
    exact List.mem_append_right _ List.mem_cons_self
  exact h.step hL hcount hi (hwirable i hi)

/-! ### The arguments -/

/-- The arguments `done` have been copied to the box at the address. -/
structure Listed (s : Runtime) (argv : Nat → Option CString) (o : Objects π) (address : UInt32)
    (argc : UInt32) (e : Engine) (done : List Nat) (w : World (Objects π)) : Prop where
  engine : EngineOver s w.engine
  kept : EngineKept e w.engine
  objects : ∃ copies, w.untrusted = o.setArgv address ⟨argc, copies⟩ ∧
    copies.length = argc.toNat + 1 ∧ copies[argc.toNat]? = some 0 ∧
    ∀ i ∈ done, ∃ p, copies[i]? = some p ∧
      HoldsText (fun p src => Marshalled w.engine p src) p (argv i)

theorem Listed.step {L : Library π} {s : Runtime} (hL : L.Ordinary s)
    {argv : Nat → Option CString} {o : Objects π} {address argc : UInt32} {e : Engine}
    {done : List Nat} {i : Nat} {w : World (Objects π)}
    (h : Listed s argv o address argc e done w) (hi : i < argc.toNat) :
    Yields NoRoom (Listed s argv o address argc e (done ++ [i]))
      (hostCopyArgument (asWritten L) address argv w i) := by
  obtain ⟨copies, ho, hlen, hend, hcopies⟩ := h.objects
  have hnat : (UInt32.ofNat i).toNat = i :=
    UInt32.toNat_ofNat_of_lt' (hi.trans argc.toNat_lt)
  have hle : ¬ argc ≤ UInt32.ofNat i := by
    rw [UInt32.le_iff_toNat_le, hnat]
    exact Nat.not_le_of_lt hi
  unfold hostCopyArgument
  refine (hostCopyToU_written hL h.engine _).bind fun copied _ hcopied => ?_
  obtain ⟨hin, htext⟩ := hcopied
  have hanswer : asWritten L copied.1.untrusted copied.1.engine.sandbox
      (.argvSet address (UInt32.ofNat i) copied.2) =
        ⟨o.setArgv address ⟨argc, copies.set i copied.2⟩, [], copied.1.engine.sandbox.memory,
          1⟩ := by
    have hset : argvSet ⟨argc, copies⟩ (UInt32.ofNat i) copied.2 =
        some ⟨argc, copies.set i copied.2⟩ := by
      rw [argvSet, if_neg hle, hnat]
    rw [asWritten, hin.objects, ho, Objects.setArgv_self, Option.bind_some, hset]
    exact congrArg (Response.mk · [] copied.1.engine.sandbox.memory 1)
      (Objects.setArgv_setArgv o address ⟨argc, copies⟩ _)
  have hdone : Done (invoke (asWritten L) copied.1 (.argvSet address (UInt32.ofNat i) copied.2))
      copied.1 (o.setArgv address ⟨argc, copies.set i copied.2⟩) := by
    rw [invoke_quiet hanswer]
    exact ⟨rfl, rfl, rfl⟩
  refine (Yields.ensure hdone.ensure).bind fun _ _ _ => ?_
  refine ⟨hdone.engine ▸ hin.engine, hdone.engine ▸ h.kept.trans _ _ _ hin.kept, _,
    hdone.objects, (List.length_set).trans hlen, ?_, fun j hj => ?_⟩
  · rw [List.getElem?_set_ne (Nat.ne_of_lt hi), hend]
  · rw [hdone.engine]
    by_cases hij : i = j
    · subst hij
      exact ⟨_, List.getElem?_set_self (by omega), htext⟩
    · rcases List.mem_append.mp hj with hj | hj
      · obtain ⟨p, hp, hold⟩ := hcopies j hj
        exact ⟨p, by rw [List.getElem?_set_ne hij, hp], hold.kept hin.kept⟩
      · exact absurd (List.mem_singleton.mp hj).symm hij

theorem hostCopyArguments_written {L : Library π} {s : Runtime} (hL : L.Ordinary s)
    {argv : Nat → Option CString} {o : Objects π} {address argc : UInt32}
    {w : World (Objects π)} (h : EngineOver s w.engine)
    (ho : w.untrusted = o.setArgv address ⟨argc, List.replicate (argc.toNat + 1) 0⟩) :
    Yields NoRoom (Listed s argv o address argc w.engine (List.range argc.toNat))
      (fold (hostCopyArgument (asWritten L) address argv) w (List.range argc.toNat)) := by
  refine Yields.fold (fun done i rest w' hwhole h => ?_) (List.nil_append _).symm
    ⟨h, .refl _, _, ho, List.length_replicate, by simp, nofun⟩
  have hi : i < argc.toNat := by
    rw [← List.mem_range, hwhole]
    exact List.mem_append_right _ List.mem_cons_self
  exact h.step hL hi

/-! ### The context -/

theorem EngineOver.of_arena {s : Runtime} {e : Engine} (h : EngineOver s e) {m : Memory UInt8}
    (hm : ∀ b, InTypedArena s b → m b = e.sandbox.memory b) :
    EngineOver s { e with sandbox := ⟨e.sandbox.runtime, m⟩ } ∧
      EngineKept e { e with sandbox := ⟨e.sandbox.runtime, m⟩ } :=
  ⟨⟨h.inSandbox, h.base, h.capacity, h.sites⟩,
    .of_same h.inSandbox fun b hb _ => hm b ((h.inTypedArena b).mp hb)⟩

/-- The objects with an empty log for the table. -/
def Objects.newLog (o : Objects π) (address : UInt32) : Objects π :=
  { o with written := Function.update o.written address [] }

/-- **A new table**, unless there is no memory. -/
theorem invoke_tableNew {L : Library π} {s : Runtime} (hL : L.Ordinary s) {w : World (Objects π)}
    (h : EngineOver s w.engine) (optionCount slotCount : UInt32) :
    let r := invoke (asWritten L) w (.tableNew optionCount slotCount)
    r.2 ≠ 0 → ∃ table, r.1.untrusted = (w.untrusted.newLog r.2).setTable r.2 table ∧
      w.untrusted.tables r.2 = none ∧ EngineOver s r.1.engine ∧ EngineKept w.engine r.1.engine ∧
      table.optionCount = optionCount ∧ table.slotCount = slotCount ∧
      table.options.length = optionCount.toNat ∧ slotCount.toNat ≤ table.slots.length := by
  intro r hne
  have harena := hL.table_arena w.untrusted w.engine.sandbox optionCount slotCount
  have hfresh := hL.table_fresh w.untrusted w.engine.sandbox optionCount slotCount
  generalize hallocated : L.callocTable w.untrusted w.engine.sandbox optionCount slotCount =
    allocated at harena hfresh
  by_cases h0 : allocated.2 = 0
  · refine absurd ?_ hne
    have hanswer : asWritten L w.untrusted w.engine.sandbox (.tableNew optionCount slotCount) =
        ⟨w.untrusted, [], allocated.1, 0⟩ := by
      simp only [asWritten, hallocated, h0, tableNew, ne_eq, not_true_eq_false, decide_false,
        Bool.false_eq_true, if_false]
    exact congrArg Response.value hanswer
  · obtain ⟨table, htable⟩ : ∃ table, tableNew (allocated.2 ≠ 0) optionCount slotCount =
        some table := ⟨_, if_pos (decide_eq_true h0)⟩
    have hanswer : asWritten L w.untrusted w.engine.sandbox (.tableNew optionCount slotCount) =
        ⟨(w.untrusted.newLog allocated.2).setTable allocated.2 table, [], allocated.1,
          allocated.2⟩ := by
      simp only [asWritten, hallocated, htable]
      rfl
    rw [show r = _ from invoke_quiet hanswer]
    obtain ⟨hover, hkept⟩ := h.of_arena harena
    obtain ⟨hslots, hoptions, hroom⟩ := @tableNew_ok _ _ _ table (by
      rw [htable]
      rfl)
    refine ⟨table, rfl, hfresh h0, hover, hkept, ?_, hslots, hoptions, hroom⟩
    rw [tableNew, if_pos (decide_eq_true h0)] at htable
    exact (Option.some.inj htable) ▸ rfl

/-- **A new box for arguments**, unless there is no memory. -/
theorem invoke_argvNew {L : Library π} {s : Runtime} (hL : L.Ordinary s) {w : World (Objects π)}
    (h : EngineOver s w.engine) (argc : UInt32) :
    let r := invoke (asWritten L) w (.argvNew argc)
    r.2 ≠ 0 → r.1.untrusted = w.untrusted.setArgv r.2 ⟨argc, List.replicate (argc.toNat + 1) 0⟩ ∧
      w.untrusted.argvs r.2 = none ∧ EngineOver s r.1.engine ∧
      EngineKept w.engine r.1.engine := by
  intro r hne
  have harena := hL.argv_arena w.untrusted w.engine.sandbox argc
  have hfresh := hL.argv_fresh w.untrusted w.engine.sandbox argc
  generalize hallocated : L.callocArgv w.untrusted w.engine.sandbox argc = allocated
    at harena hfresh
  by_cases h0 : allocated.2 = 0
  · refine absurd ?_ hne
    have hanswer : asWritten L w.untrusted w.engine.sandbox (.argvNew argc) =
        ⟨w.untrusted, [], allocated.1, 0⟩ := by
      simp only [asWritten, hallocated, h0, argvNew, ne_eq, not_true_eq_false, decide_false,
        Bool.false_eq_true, if_false]
    exact congrArg Response.value hanswer
  · have hanswer : asWritten L w.untrusted w.engine.sandbox (.argvNew argc) =
        ⟨w.untrusted.setArgv allocated.2 ⟨argc, List.replicate (argc.toNat + 1) 0⟩, [],
          allocated.1, allocated.2⟩ := by
      simp only [asWritten, hallocated, argvNew, if_pos (decide_eq_true h0)]
      rfl
    rw [show r = _ from invoke_quiet hanswer]
    obtain ⟨hover, hkept⟩ := h.of_arena harena
    exact ⟨rfl, hfresh h0, hover, hkept⟩

/-- What `make_context` looks at before it calls the sandbox. -/
def checkInputs (env : Surroundings) (argc : Int32) (argv : Option (Nat → Option CString))
    (options : Option (Nat → PoptOption)) : Except BridgeError (Nat × Assigned) := do
  ensure (¬ (argc < 0 ∨ 0 < argc ∧ argv.isNone)) .invalidArgv
  let count ← optionCount options
  let assigned ← assignSlots env ((List.range count).map
    (options.getD (fun _ => ⟨none, 0, 0, 0, 0, none, none⟩)))
  return (count, assigned)

/-- **The request of the host, in the sandbox.**  Its option table is shadowed, each option is
copied with its texts, and so are the arguments, with a null pointer behind them, and the name. -/
structure Handed (env : Surroundings) (options : Nat → PoptOption) (count : Nat)
    (trusted : Trusted) (name : Option CString) (argc : Int32) (args : Nat → Option CString)
    (e : Engine) (namePtr : UInt32) (context : TrustedContext) : Prop where
  shadowed : Shadowed env options count trusted e context
  length : context.untrustedTable.options.length = count
  copied : ∀ i < count, ∃ u arg, context.untrustedTable.options[i]? = some u ∧
    CopiedOption e arg (options i) u
  boxed : context.untrustedArgv.argc = argc.toUInt32
  args : ∀ i < argc.toNatClampNeg, ∃ p, context.untrustedArgv.argv[i]? = some p ∧
    HoldsText (fun p src => Marshalled e p src) p (args i)
  terminator : context.untrustedArgv.argv[argc.toNatClampNeg]? = some 0
  name : HoldsText (fun p src => Marshalled e p src) namePtr name

/-- The sandbox before the parser is called: the table and the box are new, and everything
recorded is kept. -/
structure AtParser (s : Runtime) (w w' : World (Objects π)) (table argv : UInt32)
    (context : TrustedContext) : Prop where
  engine : EngineOver s w'.engine
  kept : EngineKept w.engine w'.engine
  table_fresh : w.untrusted.tables table = none
  argv_fresh : w.untrusted.argvs argv = none
  objects : w'.untrusted = ((w.untrusted.newLog table).setTable table
    context.untrustedTable).setArgv argv context.untrustedArgv

/-- What the host makes of the answer of the parser. -/
def parserAnswer (L : Library π) (w : World (Objects π)) (name : UInt32) (argc : Int32)
    (argv table flags : UInt32) (context : TrustedContext) :
    World (Objects π) × Option HostContext :=
  let made := L.poptGetContext w.untrusted w.engine.sandbox name context.untrustedArgv
    context.untrustedTable flags
  ((invoke (asWritten L) w (.contextNew name argc argv table flags)).1,
    if made.value = 0 then none else some ⟨made.value, table, argv, context.slots, []⟩)

theorem wirable_of_assigned {env : Surroundings} {options : List PoptOption} {assigned : Assigned}
    (h : AssignedFor env options assigned) (hsmall : assigned.kinds.length < 2 ^ 32 - 1)
    {table : Table} (hcount : table.slotCount = UInt32.ofNat assigned.kinds.length)
    (hslots : ∀ d ∈ assigned.slotByAddress, ∃ value,
      table.slots[d.2.toNat]? = some ⟨(assigned.binding d).kind.code, value⟩) {o : PoptOption}
    (ho : o ∈ options) : Wirable assigned.slotByAddress table o.arg := by
  by_cases h0 : o.arg = 0
  · refine ⟨UInt32.ofNat (2 ^ 32 - 1), if_pos h0, ?_⟩
    rw [slotFor, if_pos h0]
    exact if_pos rfl
  · obtain ⟨index, kind, hmem, _, _⟩ := h.complete o ho h0
    have hlookup := (Dict.lookup_eq_some h.nodup).mpr hmem
    have hlt := h.index_lt hmem
    dsimp only at hlt
    obtain ⟨value, hvalue⟩ := hslots _ hmem
    refine ⟨index, ?_, ?_⟩
    · rw [slotOf, if_neg h0, hlookup]
    · have hne : index ≠ UInt32.ofNat (2 ^ 32 - 1) := by
        rintro rfl
        rw [UInt32.toNat_ofNat_of_lt' (show 2 ^ 32 - 1 < 2 ^ 32 by omega)] at hlt
        omega
      have hbelow : ¬ table.slotCount ≤ index := by
        rw [hcount, UInt32.le_iff_toNat_le,
          UInt32.toNat_ofNat_of_lt' (show assigned.kinds.length < 2 ^ 32 by omega)]
        omega
      have hkind : (assigned.binding (o.arg, index)).kind.code = slotInt ∨
          (assigned.binding (o.arg, index)).kind.code = slotString := by
        cases (assigned.binding (o.arg, index)).kind
        · exact .inl rfl
        · exact .inr rfl
      rw [optionArg, if_neg hne, if_neg hbelow, hvalue, slotFor, if_neg h0, hlookup]
      exact if_pos hkind

/-- Slots that mirror the destinations, and options that point to them, shadow the table. -/
theorem AssignedFor.shadowed {env : Surroundings} {options : Nat → PoptOption} {count : Nat}
    {assigned : Assigned} (h : AssignedFor env ((List.range count).map options) assigned)
    (hsmall : assigned.kinds.length < 2 ^ 32)
    (hperm : (env.enumerate assigned.slotByAddress).Perm assigned.slotByAddress)
    {trusted : Trusted} {e : Engine} {context : TrustedContext}
    (hslots : context.slots = (env.enumerate assigned.slotByAddress).map assigned.binding)
    (hslotCount : context.untrustedTable.slotCount = UInt32.ofNat assigned.kinds.length)
    (harg : ∀ i < count, context.untrustedTable.argOf i =
      slotFor assigned.slotByAddress (options i).arg)
    (hmirrors : ∀ b ∈ context.slots,
      Mirrors (fun p src => Marshalled e p src) context.untrustedTable.slots trusted b) :
    Shadowed env options count trusted e context := by
  obtain ⟨haddresses, hindices, hentry⟩ := h.bindings (Nat.le_of_lt hsmall) hperm
  rw [← hslots] at haddresses hindices hentry
  refine ⟨haddresses, hindices, fun b hb => ?_, fun b hb => ?_, fun i hi hne => ?_,
    fun i hi h0 => (harg i hi).trans (if_pos h0), hmirrors⟩
  · obtain ⟨d, hd, rfl⟩ := hentry b hb
    rw [hslotCount, UInt32.lt_iff_toNat_lt, UInt32.toNat_ofNat_of_lt' hsmall]
    exact h.index_lt hd
  · obtain ⟨d, hd, rfl⟩ := hentry b hb
    obtain ⟨hne, o, ho, haddress⟩ := h.sound d hd
    obtain ⟨i, hi, rfl⟩ := List.mem_map.mp ho
    exact ⟨hne, i, List.mem_range.mp hi, haddress⟩
  · obtain ⟨index, kind, hmem, hkind, hget⟩ := h.complete (options i)
      (List.mem_map_of_mem (List.mem_range.mpr hi)) hne
    refine ⟨assigned.binding ((options i).arg, index), ?_, rfl, ?_, ?_⟩
    · rw [hslots]
      exact List.mem_map_of_mem (hperm.mem_iff.mpr hmem)
    · rw [hkind, Assigned.binding, List.getD_eq_getElem?_getD, hget]
      rfl
    · rw [harg i hi, slotFor, if_neg hne]
      exact (Dict.lookup_eq_some h.nodup).mpr hmem

/-- The parser is called when the box has as many arguments as the host says. -/
theorem contextNew_value {L : Library π} {w : World (Objects π)} {argc : Int32}
    {argv address : UInt32} {box : UArgv} {table : Table} (hbox : w.untrusted.argvs argv = some box)
    (htable : w.untrusted.tables address = some table) (hargc : 0 ≤ argc)
    (hcount : box.argc = argc.toUInt32) (name flags : UInt32) :
    (invoke (asWritten L) w (.contextNew name argc argv address flags)).2 =
      (L.poptGetContext w.untrusted w.engine.sandbox name box table flags).value := by
  have hno : ¬ (argc < 0 ∨ argc.toUInt32 ≠ box.argc) :=
    not_or.mpr ⟨Int32.not_lt.mpr hargc, not_not.mpr hcount.symm⟩
  simp only [invoke, asWritten, hbox, htable, if_neg hno]
  split <;> rfl

/-- **The parser is given the request of the host.**  Against the C code as it is written,
`make_context` fails only where the request itself is refused or there is no room for it, and
calls the parser with a faithful copy of it. -/
theorem hostMakeContext_written {L : Library π} {s : Runtime} (hL : L.Ordinary s)
    {env : Surroundings} (henv : ∀ entries, (env.enumerate entries).Perm entries)
    {w : World (Objects π)} (h : EngineOver s w.engine) (trusted : Trusted)
    (name : Option CString) (argc : Int32) (argv : Option (Nat → Option CString))
    (options : Option (Nat → PoptOption)) (flags : UInt32) :
    Yields (fun err => checkInputs env argc argv options = .error err ∨ NoRoom err)
      (fun r => ∃ table count, options = some table ∧ optionCount options = .ok count ∧
        ∃ w' tableAt argvAt namePtr context, AtParser s w w' tableAt argvAt context ∧
          Handed env table count trusted name argc (argv.getD (fun _ => none)) w'.engine namePtr
            context ∧
          r = parserAnswer L w' namePtr argc argvAt tableAt flags context)
      (hostMakeContext (asWritten L) env w trusted name argc argv options flags) := by
  unfold hostMakeContext
  refine Yields.bind (Yields.of_error ?_) fun _ hvalid _ => ?_
  · intro err herr
    refine .inl ?_
    rw [checkInputs, herr]
    rfl
  refine Yields.bind (Yields.of_error ?_) fun count hcount _ => ?_
  · intro err herr
    refine .inl ?_
    rw [checkInputs, hvalid, herr]
    rfl
  cases options with
  | none => cases hcount
  | some options =>
  refine Yields.bind (Yields.of_error ?_) fun assigned hassigned _ => ?_
  · intro err herr
    refine .inl ?_
    rw [checkInputs, hvalid, hcount]
    exact congrArg (· >>= fun assigned => pure (count, assigned)) herr
  refine Yields.mono (fun _ => .inr) (fun _ => id) ?_
  have hargc : 0 ≤ argc := by
    have hno := ensure_eq_ok.mp hvalid
    exact Int32.not_lt.mp fun hlt => hno (.inl hlt)
  -- the first loop
  obtain ⟨hpos, hmax, hend⟩ := optionCountFrom_eq_ok hcount
  have hfor : AssignedFor env ((List.range count).map options) assigned :=
    assignSlots_spec (by rw [List.length_map, List.length_range]; omega) hassigned
  have hkinds := hfor.kinds_lt hpos hend
  have hperm := henv assigned.slotByAddress
  obtain ⟨haddresses, hindices, hentry⟩ := hfor.bindings (by omega) hperm
  have hcountNat : (UInt32.ofNat count).toNat = count :=
    UInt32.toNat_ofNat_of_lt' (show count < 2 ^ 32 by omega)
  have hkindsNat : (UInt32.ofNat assigned.kinds.length).toNat = assigned.kinds.length :=
    UInt32.toNat_ofNat_of_lt' (show _ < 2 ^ 32 by omega)
  -- the table
  have hnew := invoke_tableNew hL h (UInt32.ofNat count) (UInt32.ofNat assigned.kinds.length)
  generalize invoke (asWritten L) w
    (.tableNew (UInt32.ofNat count) (UInt32.ofNat assigned.kinds.length)) = new at hnew ⊢
  refine (Yields.guard fun _ => .inr rfl).bind fun _ _ hne => ?_
  obtain ⟨table, ho, hfresh, hover, hkept, hoptionCount, hslotCount, hlength, hroom⟩ := hnew hne
  have hbelow : ∀ b ∈ (env.enumerate assigned.slotByAddress).map assigned.binding,
      b.index < table.slotCount ∧ b.index.toNat < table.slots.length := by
    intro b hb
    obtain ⟨d, hd, rfl⟩ := hentry b hb
    have hlt : (assigned.binding d).index.toNat < assigned.kinds.length := hfor.index_lt hd
    rw [hslotCount, UInt32.lt_iff_toNat_lt, hkindsNat]
    exact ⟨hlt, by omega⟩
  -- the values of the slots
  refine (hostInitializeSlots_written hL trusted hover ho hindices hbelow).bind
    fun initialized _ hfilled => ?_
  obtain ⟨slots, ho₁, hslots, hmirrors⟩ := hfilled.objects
  have hslot : ∀ d ∈ assigned.slotByAddress, ∃ value,
      slots[d.2.toNat]? = some ⟨(assigned.binding d).kind.code, value⟩ := fun d hd =>
    (hmirrors _ (List.mem_map_of_mem (hperm.mem_iff.mpr hd))).slot
  -- the options
  have hlen : table.options.length = count := hlength.trans hcountNat
  have hwire : Yields NoRoom (Laid s assigned.slotByAddress options (w.untrusted.newLog new.2)
        new.2 { table with slots := slots } initialized.engine (List.range count))
      (fold (hostWireOption (asWritten L) new.2 assigned.slotByAddress options) initialized
        (List.range count)) := by
    rw [← hlen]
    refine hostWireOptions_written hL hfilled.engine ho₁ (by rw [hoptionCount, hlength])
      fun i hi => ?_
    exact @wirable_of_assigned env _ assigned hfor (by omega) { table with slots := slots }
      hslotCount hslot _ (List.mem_map_of_mem (List.mem_range.mpr (hlen ▸ hi)))
  refine hwire.bind fun wired _ hlaid => ?_
  obtain ⟨copies, ho₂, hcopiesLen, hcopies⟩ := hlaid.objects
  -- the arguments
  have hbox := invoke_argvNew hL hlaid.engine argc.toUInt32
  generalize invoke (asWritten L) wired (.argvNew argc.toUInt32) = box at hbox ⊢
  refine (Yields.guard fun _ => .inr rfl).bind fun _ _ hne => ?_
  obtain ⟨ho₃, hfreshBox, hover₃, hkept₃⟩ := hbox hne
  rw [← Int32.toNat_toUInt32_of_le hargc]
  refine (hostCopyArguments_written hL hover₃ ho₃).bind fun copied _ hlisted => ?_
  obtain ⟨args, ho₄, _, hterminator, hargs⟩ := hlisted.objects
  -- the name
  refine (hostCopyToU_written hL hlisted.engine name).bind fun copiedName _ hname => ?_
  obtain ⟨hin, hnamed⟩ := hname
  have ho₅ := hin.objects.trans ho₄
  -- everything recorded before is still there
  have hkept₅ := hlisted.kept.trans _ _ _ hin.kept
  have hkept₄ := hkept₃.trans _ _ _ hkept₅
  have hkept₂ := hlaid.kept.trans _ _ _ hkept₄
  let context : TrustedContext := ⟨0, { table with slots := slots, options := copies },
    ⟨argc.toUInt32, args⟩, (env.enumerate assigned.slotByAddress).map assigned.binding⟩
  have hat : AtParser s w copiedName.1 new.2 box.2 context := by
    refine ⟨hin.engine, hkept.trans _ _ _ (hfilled.kept.trans _ _ _ hkept₂), hfresh, ?_, ?_⟩
    · rw [ho₂] at hfreshBox
      exact hfreshBox
    · rw [ho₅, ho₂]
  have hhanded : Handed env options count trusted name argc (argv.getD (fun _ => none))
      copiedName.1.engine copiedName.2 context := by
    refine ⟨?_, hcopiesLen.trans hlen, fun i hi => ?_, rfl, fun i hi => ?_, ?_, hnamed⟩
    · refine hfor.shadowed (by omega) hperm rfl hslotCount (fun i hi => ?_) fun b hb => ?_
      · obtain ⟨u, hu, hcopied⟩ := hcopies i (List.mem_range.mpr hi)
        exact (congrArg (·.bind UOption.arg) hu).trans hcopied.arg
      · exact (hmirrors b hb).mono fun p src hm => hm.kept hkept₂
    · obtain ⟨u, hu, hcopied⟩ := hcopies i (List.mem_range.mpr hi)
      exact ⟨u, _, hu, hcopied.kept hkept₄⟩
    · rw [← Int32.toNat_toUInt32_of_le hargc] at hi
      obtain ⟨p, hp, htext⟩ := hargs i (List.mem_range.mpr hi)
      exact ⟨p, hp, htext.kept hin.kept⟩
    · rw [← Int32.toNat_toUInt32_of_le hargc]
      exact hterminator
  have hvalue := contextNew_value (L := L) (show copiedName.1.untrusted.argvs box.2 =
      some context.untrustedArgv by rw [hat.objects, Objects.setArgv_self])
    (show copiedName.1.untrusted.tables new.2 = some context.untrustedTable by
      rw [hat.objects]
      exact Objects.setTable_self ..) hargc rfl copiedName.2 flags
  let call := invoke (asWritten L) copiedName.1
    (.contextNew copiedName.2 argc box.2 new.2 flags)
  let answer : Except BridgeError (World (Objects π) × Option HostContext) :=
    if call.2 = 0 then .ok (call.1, none)
    else .ok (call.1, some ⟨call.2, new.2, box.2, context.slots, []⟩)
  have hresult : answer =
      .ok (parserAnswer L copiedName.1 copiedName.2 argc box.2 new.2 flags context) := by
    rw [show answer = ite _ _ _ from rfl, show call.2 = _ from hvalue, parserAnswer]
    split <;> rfl
  change Yields NoRoom _ answer
  rw [hresult]
  exact ⟨options, count, rfl, hcount, _, _, _, _, context, hat, hhanded, rfl⟩

end InterSpec.Bridge
