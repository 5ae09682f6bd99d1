import InterSpec.Backend.Arena
import InterSpec.Bridge.Lifetime
import InterSpec.Runtime.Check

/-!
# The arena among the calls of the sandbox

The engine reserves the arena once and puts a runtime over it; the untrusted side maps, unmaps
and protects pages before and after, and the runtime serves its callbacks in between.  What the
system does with a call that the guard lets through is a parameter, which keeps to the pages of
the call.  The mapping of a byte is that of its page.

* `Kernel`, `Kernel.Lawful`: the memory management of the system.
* `process`: the machine of the application.
* `Isolated`: the arena is mapped as it was, under a runtime that lies in it.
* `arena_isolated`: this holds in every state, unless a call spans the whole address space.
-/

namespace InterSpec.Backend

open InterSpec.Runtime Pages

/-! ### The system -/

/-- The mapping of each byte, if it has one. -/
abbrev Space (μ : Type) := Nat → Option μ

/-- The range of a call that changes what is mapped; without `NACL_ABI_MAP_FIXED` the system
chooses the place. -/
def Syscall.range : Syscall → Option (UInt64 × UInt64)
  | mmap fixed start length => if fixed then some (start, length) else none
  | munmap start length => some (start.toUInt64, length.toUInt64)
  | mprotect start length => some (start.toUInt64, length)

structure Kernel (μ : Type) where
  /-- A private anonymous mapping that can be read and written. -/
  arenaMapping : μ
  /-- The address at which `NaClSysMmapIntern` maps the arena, if it does. -/
  mmapIntern : Space μ → UInt64 → Option UInt64
  /-- A call that is not refused. -/
  perform : Space μ → Syscall → Space μ

/-- **What the calls promise.**  Nothing of size 0 is mapped; a chosen place begins a page, not
the first one, in the 4 GiB of the sandbox; a call changes its own pages only, and none if it
does not begin a page or is empty; and a chosen place was free. -/
structure Kernel.Lawful {μ : Type} (k : Kernel μ) : Prop where
  mmap_empty : ∀ space, k.mmapIntern space 0 = none
  mmap_place : ∀ space size addr, k.mmapIntern space size = some addr →
    addr ≠ 0 ∧ allocPage ∣ addr.toNat ∧ addr.toNat + size.toNat ≤ 2 ^ 32
  confined : ∀ space call start length, call.range = some (start, length) → ∀ b,
    (allocPage ∣ start.toNat → length ≠ 0 → b ∉ pageBytes start length) →
      k.perform space call b = space b
  free : ∀ space call, call.range = none → ∀ b, space b ≠ none →
    k.perform space call b = space b

/-! ### The application -/

structure App (μ : Type) where
  nap : NaClApp
  space : Space μ
  runtime : Option Runtime

inductive AppEvent
  | createEngine (arenaSize : UInt32)
  | syscall (call : Syscall)
  | runtime (op : Op)

section App

variable {μ : Type} (k : Kernel μ)

/-- `reserve_typed_arena`. -/
def App.reserveTypedArena (app : App μ) (size : UInt64) : App μ × UInt64 :=
  let result := Backend.reserveTypedArena app.nap size (k.mmapIntern app.space)
  if result.2 = 0 then (app, 0)
  else
    let stop := result.1.typedArenaStart.toNat + result.1.typedArenaSize.toNat
    ({ app with
        nap := result.1
        space := fun b =>
          if result.1.typedArenaStart.toNat ≤ b ∧ b < stop then some k.arenaMapping
          else app.space b },
      result.2)

/-- `Engine::Engine`, up to the runtime; it raises when there is no arena. -/
def App.createEngine (app : App μ) (arenaSize : UInt32) : App μ :=
  let reserved := app.reserveTypedArena k arenaSize.toUInt64
  let arenaBase := reserved.2.toUInt32
  if arenaBase = 0 then reserved.1
  else { reserved.1 with runtime := some (new arenaBase.toUInt64 arenaSize.toUInt64) }

/-- A call of the untrusted side, behind the guard. -/
def App.syscall (app : App μ) (call : Syscall) : App μ :=
  if call.refused app.nap then app else { app with space := k.perform app.space call }

def process : Machine (App μ) AppEvent Unit := fun app => fun
  | .createEngine arenaSize => (app.createEngine k arenaSize, ())
  | .syscall call => (app.syscall k call, ())
  | .runtime op => ({ app with runtime := app.runtime.map (fun s => (step s op).1) }, ())

end App

/-- The operations of the runtime among the events. -/
def runtimeOps (events : List AppEvent) : List Op :=
  events.filterMap fun
    | .runtime op => some op
    | _ => none

/-- The range that the guard lets through although the arena is in it. -/
def Syscall.WholeSpace (call : Syscall) : Prop :=
  ∃ length, call.range = some (0, length) ∧ 2 ^ 64 - 2 ^ 16 < length.toNat

/-- The arena under its runtime. -/
structure Isolated {μ : Type} (k : Kernel μ) (app : App μ) (s : Runtime) : Prop where
  arena : Arena app.nap
  inSandbox : Bridge.InSandbox s
  base : s.base = app.nap.typedArenaStart
  capacity : s.capacity.toNat ≤ app.nap.typedArenaSize.toNat
  mapped : ∀ b ∈ arenaBytes app.nap, app.space b = some k.arenaMapping

/-! ### One event -/

section Step

variable {μ : Type} {k : Kernel μ} {app : App μ}

theorem not_mem_arenaBytes {nap : NaClApp} (h : Arena nap) {call : Syscall}
    {start length : UInt64} (hrange : call.range = some (start, length))
    (hrefused : call.refused nap = false) (hwhole : ¬ call.WholeSpace)
    (hstart : allocPage ∣ start.toNat) (hlength : length ≠ 0) {b : Nat}
    (hb : b ∈ arenaBytes nap) : b ∉ pageBytes start length := by
  have hguard : typedArenaOverlaps nap start length = false := by
    cases call with
    | mmap fixed s l =>
      cases fixed with
      | false => cases hrange
      | true =>
        cases hrange
        exact hrefused
    | munmap s l =>
      cases hrange
      exact hrefused
    | mprotect s l =>
      cases hrange
      exact hrefused
  have hexact := (typedArenaOverlaps_exact_iff h hstart hlength).mpr (by
    rintro ⟨rfl, hlast⟩
    exact hwhole ⟨length, hrange, hlast⟩)
  intro hpage
  exact nomatch hguard.symm.trans (hexact.of_shared ⟨b, hpage, hb⟩)

/-- **A call of the untrusted side leaves the arena as it is mapped.** -/
theorem Isolated.syscall {s : Runtime} (h : Isolated k app s) (hk : k.Lawful) {call : Syscall}
    (hwhole : ¬ call.WholeSpace) : Isolated k (app.syscall k call) s := by
  unfold App.syscall
  by_cases hrefused : call.refused app.nap = true
  · rw [if_pos hrefused]
    exact h
  · rw [if_neg hrefused]
    refine ⟨h.arena, h.inSandbox, h.base, h.capacity, fun b hb => ?_⟩
    have hmapped := h.mapped b hb
    show k.perform app.space call b = some k.arenaMapping
    cases hrange : call.range with
    | none => rw [hk.free app.space call hrange b (by rw [hmapped]; nofun), hmapped]
    | some range =>
      obtain ⟨start, length⟩ := range
      rw [hk.confined app.space call start length hrange b (fun hstart hlength =>
        not_mem_arenaBytes h.arena hrange (by simpa using hrefused) hwhole hstart hlength hb),
        hmapped]

theorem Isolated.runtime {s : Runtime} (h : Isolated k app s) (op : Op) :
    Isolated k app (step s op).1 := by
  have harena := arena_after h.inSandbox.layout [op]
  rw [after_cons, after_nil] at harena
  obtain ⟨hbase, hcapacity, _⟩ := harena
  refine ⟨h.arena, ⟨layout_step s op h.inSandbox.layout, ?_, ?_⟩, ?_, ?_, h.mapped⟩
  · rw [hbase]
    exact h.inSandbox.base_ne_zero
  · rw [hbase, hcapacity]
    exact h.inSandbox.end_le
  · rw [hbase]
    exact h.base
  · rw [hcapacity]
    exact h.capacity

theorem reserveTypedArena_cases (hk : k.Lawful) (size : UInt32) :
    app.reserveTypedArena k size.toUInt64 = (app, 0) ∨
    ∃ addr app', app.reserveTypedArena k size.toUInt64 = (app', addr) ∧
      app.nap.typedArenaSize = 0 ∧ addr ≠ 0 ∧ app'.nap.typedArenaStart = addr ∧
      Arena app'.nap ∧ size.toNat ≤ app'.nap.typedArenaSize.toNat ∧
      addr.toNat + app'.nap.typedArenaSize.toNat ≤ 2 ^ 32 ∧ app'.runtime = app.runtime ∧
      ∀ b ∈ arenaBytes app'.nap, app'.space b = some k.arenaMapping := by
  unfold App.reserveTypedArena
  dsimp only
  by_cases hfail : (reserveTypedArena app.nap size.toUInt64 (k.mmapIntern app.space)).2 = 0
  · rw [if_pos hfail]
    exact .inl rfl
  rw [if_neg hfail]
  have hguard : ¬ (size.toUInt64 = 0 ∨ app.nap.typedArenaSize ≠ 0) := fun hguard => by
    rw [reserveTypedArena, if_pos hguard] at hfail
    exact hfail rfl
  obtain ⟨hsize, hnap⟩ := not_or.mp hguard
  have hnap := not_not.mp hnap
  cases hmap : k.mmapIntern app.space (naClRoundAllocPage size.toUInt64) with
  | none =>
    rw [reserveTypedArena, if_neg hguard] at hfail
    simp only [hmap] at hfail
    exact absurd trivial hfail
  | some addr =>
    obtain ⟨hne, haligned, hspace⟩ := hk.mmap_place _ _ _ hmap
    have hnat : size.toUInt64.toNat = size.toNat := UInt32.toNat_toUInt64 size
    have hlt := size.toNat_lt
    obtain ⟨haddr, harena⟩ := arena_of_reserve hnap hsize (by rw [hnat]; omega) hmap haligned
      (by omega)
    have hrounded : size.toNat ≤ (naClRoundAllocPage size.toUInt64).toNat := by
      rw [toNat_naClRoundAllocPage, hnat, Nat.mod_eq_of_lt]
      · exact le_roundUp (by decide) _
      · have hle := roundUp_le_add allocPage size.toNat
        have hpage : allocPage = 65536 := rfl
        omega
    have hreserve : reserveTypedArena app.nap size.toUInt64 (k.mmapIntern app.space) =
        (⟨addr, naClRoundAllocPage size.toUInt64⟩, addr) := by
      rw [reserveTypedArena, if_neg hguard]
      simp only [hmap]
    rw [hreserve] at harena
    rw [hreserve]
    exact .inr ⟨addr, _, rfl, hnap, hne, rfl, harena, hrounded, hspace, rfl,
      fun b hb => if_pos hb⟩

/-- The invariant: no arena before the engine, an isolated one after. -/
structure App.Guarded (k : Kernel μ) (app : App μ) : Prop where
  before : app.runtime = none → app.nap.typedArenaSize = 0
  after : ∀ s, app.runtime = some s → Isolated k app s

/-- Once there is a runtime the arena stays where it is. -/
def App.Stays (app app' : App μ) : Prop :=
  app.runtime ≠ none → app'.nap = app.nap ∧ app'.runtime ≠ none

/-- **The engine is created once**, over an arena that its reservation has mapped. -/
theorem createEngine_guarded (hk : k.Lawful) (h : app.Guarded k) (size : UInt32) :
    (app.createEngine k size).Guarded k ∧ app.Stays (app.createEngine k size) := by
  unfold App.createEngine
  rcases @reserveTypedArena_cases _ _ app hk size with
    hfail | ⟨addr, app', hok, hnap, hne, hstart, harena, hsize, hspace, hruntime, hmapped⟩
  · rw [hfail]
    exact ⟨h, fun hsome => ⟨rfl, hsome⟩⟩
  · rw [hok]
    have hback : addr.toUInt32.toUInt64 = addr := Bridge.toUInt64_toUInt32 (by
      have hpos := pos_of_ne_zero harena.size_ne_zero
      omega)
    have hbase : addr.toUInt32 ≠ 0 := fun h0 => by
      rw [h0] at hback
      exact hne hback.symm
    -- there was no arena, so there was no runtime
    have hnone : app.runtime = none := by
      cases hs : app.runtime with
      | none => rfl
      | some s => exact absurd hnap (h.after s hs).arena.size_ne_zero
    dsimp only
    rw [if_neg hbase, hback]
    refine ⟨⟨nofun, fun s hs => ?_⟩, fun hsome => absurd hnone hsome⟩
    obtain rfl := Option.some.inj hs
    refine ⟨harena, ⟨layout_new _ _, hne, ?_⟩, hstart.symm, ?_, hmapped⟩
    · show addr.toNat + size.toUInt64.toNat ≤ 2 ^ 32
      rw [UInt32.toNat_toUInt64]
      omega
    · show size.toUInt64.toNat ≤ _
      rw [UInt32.toNat_toUInt64]
      exact hsize

/-- Over an arena that is reserved no engine is created. -/
theorem createEngine_again (h : app.Guarded k) (hsome : app.runtime ≠ none) (size : UInt32) :
    app.createEngine k size = app := by
  obtain ⟨s, hs⟩ := Option.ne_none_iff_exists'.mp hsome
  have hguard : size.toUInt64 = 0 ∨ app.nap.typedArenaSize ≠ 0 :=
    .inr (h.after s hs).arena.size_ne_zero
  have hfail : app.reserveTypedArena k size.toUInt64 = (app, 0) := by
    unfold App.reserveTypedArena reserveTypedArena
    rw [if_pos hguard]
    exact if_pos rfl
  unfold App.createEngine
  rw [hfail]
  exact if_pos rfl

theorem process_guarded (hk : k.Lawful) (h : app.Guarded k) (event : AppEvent)
    (hwhole : ∀ call, event = .syscall call → ¬ call.WholeSpace) :
    (process k app event).1.Guarded k ∧ app.Stays (process k app event).1 := by
  cases event with
  | createEngine size => exact createEngine_guarded hk h size
  | syscall call =>
    have hsame : (app.syscall k call).nap = app.nap ∧
        (app.syscall k call).runtime = app.runtime := by
      unfold App.syscall
      by_cases hrefused : call.refused app.nap = true
      · rw [if_pos hrefused]
        exact ⟨rfl, rfl⟩
      · rw [if_neg hrefused]
        exact ⟨rfl, rfl⟩
    refine ⟨⟨fun hnone => ?_, fun s hs => ?_⟩, fun hsome => ⟨hsame.1, ?_⟩⟩
    · exact (congrArg _ hsame.1).trans (h.before (hsame.2.symm.trans hnone))
    · exact (h.after s (hsame.2.symm.trans hs)).syscall hk (hwhole call rfl)
    · show (app.syscall k call).runtime ≠ none
      rw [hsame.2]
      exact hsome
  | runtime op =>
    refine ⟨⟨fun hnone => h.before (Option.map_eq_none_iff.mp hnone), fun s hs => ?_⟩,
      fun hsome => ⟨rfl, fun hnone => hsome (Option.map_eq_none_iff.mp hnone)⟩⟩
    obtain ⟨t, ht, rfl⟩ := Option.map_eq_some_iff.mp hs
    have hruntime := (h.after t ht).runtime op
    exact ⟨hruntime.arena, hruntime.inSandbox, hruntime.base, hruntime.capacity,
      hruntime.mapped⟩

end Step

/-! ### Runs -/

theorem App.Stays.trans {μ : Type} (app app' app'' : App μ) (h : app.Stays app')
    (h' : app'.Stays app'') : app.Stays app'' := fun hsome =>
  ⟨(h' (h hsome).2).1.trans (h hsome).1, (h' (h hsome).2).2⟩

/-- **A runtime is only ever advanced by its own operations.** -/
theorem runtime_after {μ : Type} {k : Kernel μ} (hk : k.Lawful) {events : List AppEvent} :
    ∀ {app : App μ} {s : Runtime}, app.Guarded k →
      (∀ i ∈ events, ∀ call, i = .syscall call → ¬ call.WholeSpace) → app.runtime = some s →
      (Machine.after (process k) app events).runtime = some (s.after (runtimeOps events)) := by
  induction events with
  | nil => intro app s _ _ hs; exact hs
  | cons event events ih =>
    intro app s h hevents hs
    have hnext := (process_guarded hk h event (hevents event List.mem_cons_self)).1
    have hrest := fun i hi => hevents i (List.mem_cons_of_mem event hi)
    rw [Machine.after_cons]
    cases event with
    | createEngine size =>
      have hsame : (process k app (.createEngine size)).1 = app :=
        createEngine_again h (by rw [hs]; exact Option.some_ne_none s) size
      rw [hsame]
      exact ih h hrest hs
    | syscall call =>
      refine ih hnext hrest (Eq.trans ?_ hs)
      show (app.syscall k call).runtime = app.runtime
      unfold App.syscall
      split <;> rfl
    | runtime op => exact ih hnext hrest (congrArg (Option.map fun s => (step s op).1) hs)

/-- **The arena stays mapped.**  In every interleaving of the creation of the engine, calls of
the untrusted side and calls of the runtime, in which no call spans the whole address space:
there is no arena without a runtime, the arena never moves once it is there, its bytes have the
mapping that they were given, no second engine takes the place of the first, the runtime lies in
the arena and in the 4 GiB of the sandbox, and so every byte of every live record is mapped as
it was. -/
theorem arena_isolated {μ : Type} (k : Kernel μ) (hk : k.Lawful) (space : Space μ)
    (events : List AppEvent)
    (hevents : ∀ call, AppEvent.syscall call ∈ events → ¬ call.WholeSpace) :
    let state := fun n => Machine.after (process k) ⟨⟨0, 0⟩, space, none⟩ (events.take n)
    (∀ n, (state n).runtime = none → (state n).nap.typedArenaSize = 0) ∧
    ∀ n s, (state n).runtime = some s →
      Arena (state n).nap ∧ Bridge.InSandbox s ∧ s.base = (state n).nap.typedArenaStart ∧
      s.capacity.toNat ≤ (state n).nap.typedArenaSize.toNat ∧
      (∀ m, n ≤ m → (state m).nap = (state n).nap ∧
        (state m).runtime = some (s.after (runtimeOps ((events.take m).drop n))) ∧
        ∀ b ∈ arenaBytes (state n).nap, (state m).space b = some k.arenaMapping) ∧
      ∀ a ∈ s.live, ∀ b, a.base.toNat ≤ b → b < byteEnd a →
        (state n).space b = some k.arenaMapping := by
  intro state
  have hstart : App.Guarded k ⟨⟨0, 0⟩, space, none⟩ := ⟨fun _ => rfl, nofun⟩
  have hrun : ∀ (is : List AppEvent) (app : App μ), app.Guarded k →
      (∀ i ∈ is, ∀ call, i = .syscall call → ¬ call.WholeSpace) →
      (Machine.after (process k) app is).Guarded k ∧
        app.Stays (Machine.after (process k) app is) :=
    Machine.after_relation_of (fun app hsome => ⟨rfl, hsome⟩) App.Stays.trans
      (fun app i h hi => (process_guarded hk h i hi).1)
      (fun app i h hi => (process_guarded hk h i hi).2)
  have hclean : ∀ {is : List AppEvent}, (∀ i ∈ is, i ∈ events) →
      ∀ i ∈ is, ∀ call, i = .syscall call → ¬ call.WholeSpace := fun hsub i hi call he =>
    hevents call (he ▸ hsub i hi)
  have hat : ∀ m, (state m).Guarded k := fun m =>
    (hrun _ _ hstart (hclean fun i hi => List.mem_of_mem_take hi)).1
  refine ⟨fun n hnone => (hat n).before hnone, fun n s hs => ?_⟩
  have hisolated := (hat n).after s hs
  refine ⟨hisolated.arena, hisolated.inSandbox, hisolated.base, hisolated.capacity,
    fun m hnm => ?_, fun a ha b hlo hhi => ?_⟩
  · have hbetween := @hclean ((events.take m).drop n) fun i hi =>
      List.mem_of_mem_take (List.mem_of_mem_drop hi)
    have hstays := (hrun _ (state n) (hat n) hbetween).2
    have hruntime := runtime_after hk (hat n) hbetween hs
    rw [← Machine.after_take_of_le _ _ _ hnm] at hstays hruntime
    obtain ⟨hnap, _⟩ := hstays (by rw [hs]; nofun)
    refine ⟨hnap, hruntime, fun b hb => ?_⟩
    exact ((hat m).after _ hruntime).mapped b (hnap.symm ▸ hb)
  · have hlayout := hisolated.inSandbox.layout
    have hfind := (mem_live hlayout).mp ha
    have hin := hlayout.inArena _ a hfind
    have hbase := hin.base_le
    have hend := Bridge.end_le_cursor hlayout hfind
    have hcur := hlayout.toNat_cursor hin.valid
    have hused := hlayout.used_le
    have hcapacity := hisolated.capacity
    have hbyte : byteEnd a = a.base.toNat + a.size.toNat := rfl
    refine hisolated.mapped b ⟨?_, ?_⟩
    · rw [← hisolated.base]
      omega
    · rw [← hisolated.base]
      omega

/-- A system that maps the arena at the second page, and unmaps what it is told. -/
def secondPageKernel : Kernel Unit where
  arenaMapping := ()
  mmapIntern _ size := if size ≠ 0 ∧ size.toNat ≤ 2 ^ 31 then some 0x10000 else none
  perform space
    | .munmap start length => fun b =>
      if allocPage ∣ start.toNat ∧ start.toNat ≤ b ∧
          b < pageEnd start.toUInt64 length.toUInt64 then none
      else space b
    | _ => space

theorem secondPageKernel_lawful : secondPageKernel.Lawful where
  mmap_empty _ := rfl
  mmap_place space size addr h := by
    by_cases hsize : size ≠ 0 ∧ size.toNat ≤ 2 ^ 31
    · obtain rfl := Option.some.inj ((if_pos hsize).symm.trans h)
      have haddr : (0x10000 : UInt64).toNat = 2 ^ 16 := rfl
      exact ⟨by decide, by decide, by omega⟩
    · exact nomatch (if_neg hsize).symm.trans h
  confined space call start length hrange b hb := by
    cases call with
    | mmap fixed s l => rfl
    | mprotect s l => rfl
    | munmap s l =>
      cases hrange
      refine if_neg fun ⟨hdvd, hlo, hhi⟩ => ?_
      have hnat : s.toUInt64.toNat = s.toNat := UInt32.toNat_toUInt64 s
      by_cases hl : l.toUInt64 = 0
      · -- an empty range that begins a page ends there
        have hend : pageEnd s.toUInt64 l.toUInt64 ≤ s.toNat := by
          rw [pageEnd, hl, hnat]
          exact (roundUp_le_iff (by decide) hdvd).mpr (Nat.le_refl _)
        omega
      · rw [← hnat] at hdvd hlo
        refine hb hdvd hl ?_
        rw [pageBytes_eq hdvd]
        exact ⟨hlo, hhi⟩
  free space call hrange b hb := by
    cases call with
    | mmap fixed s l => rfl
    | munmap s l => cases hrange
    | mprotect s l => cases hrange

/-- A record, and a call that would unmap it. -/
theorem arena_isolated_munmap :
    let events : List AppEvent := [.createEngine 65536, .runtime (.registerType 1 7),
      .runtime (.allocate 8 1), .syscall (.munmap 0x10000 0x10000)]
    let app := Machine.after (process secondPageKernel) ⟨⟨0, 0⟩, fun _ => none, none⟩ events
    app.space 0x10003 = some () := by
  intro events app
  have hspec := arena_isolated secondPageKernel secondPageKernel_lawful (fun _ => none) events
    (fun call hcall => by
      obtain rfl : call = .munmap 0x10000 0x10000 := by simpa [events] using hcall
      rintro ⟨length, hrange, -⟩
      have hstart : (0x10000 : UInt64) = 0 := congrArg Prod.fst (Option.some.inj hrange)
      exact absurd hstart (by decide))
  obtain ⟨s, hs, ha⟩ : ∃ s, app.runtime = some s ∧ (⟨0x10000, 8, 7, 0⟩ : Allocation) ∈ s.live := by
    have hlive : (app.runtime.map live).getD [] = [⟨0x10000, 8, 7, 0⟩] := by decide +kernel
    cases hs : app.runtime with
    | none =>
      rw [hs] at hlive
      cases hlive
    | some s =>
      rw [hs] at hlive
      have hlive : s.live = _ := hlive
      exact ⟨s, rfl, hlive ▸ List.mem_singleton_self _⟩
  exact (hspec.2 4 s hs).2.2.2.2.2 _ ha 0x10003 (by decide) (by decide)

end InterSpec.Backend
