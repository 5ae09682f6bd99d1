import InterSpec.Bridge.Session
import InterSpec.Tools.Backends

/-!
# The policy behind the strings

The whole way from a policy to the host: `generate_boundary_policy.py` makes the header, the
constructor of `Engine` in `integration/rsync_popt/p4c_bridge.cpp` registers it, the sandbox
allocates through the callbacks, and the exported functions copy strings out.

* `createEngine`: the constructor, with the call into the sandbox at its end.
* `Descends`: a record was made by a callback and only moved since.
* `descends`: every live record descends from an allocating callback, whose program counter is
  in the range of the site that the record is labelled with.
* `DeclaredSite`, `Labelling`: what the policy says about a program counter.
* `session_authorised`: the host's strings come from declared sites of type `char`.
-/

namespace InterSpec.Bridge

open InterSpec.Runtime InterSpec.Tools

/-! ### The constructor -/

def kArenaSize : UInt64 := 16 * 1024 * 1024

/-- The arguments of `interspec_popt_init_lifetime`. -/
structure LifetimeSlots where
  alloc : UInt32
  release : UInt32
  size : UInt32
  reallocate : UInt32

/-- `Engine::Engine`, after the sandbox is created; `none` where it raises.  The arena is what
`reserve_typed_arena` has returned. -/
def createEngine {σ : Type} (U : Untrusted σ) (u : σ) (policy : TPolicy) (resolve : Str → UInt64)
    (arenaBase : UInt32) (memory : Memory UInt8) (slots : LifetimeSlots) : Option (World σ) :=
  if arenaBase = 0 then none
  else
    let initialized := policy.initialized arenaBase.toUInt64 kArenaSize resolve
    if initialized.2 = false then none
    else if slots.alloc = UInt32.ofNat (2 ^ 32 - 1) then none
    else some (invoke U ⟨u, ⟨⟨initialized.1, memory⟩, []⟩, [], []⟩
      (.initLifetime slots.alloc slots.release slots.size slots.reallocate)).1

/-! ### One callback -/

section Callback

variable {s : Runtime}

theorem callback_sound (h : Sound s) (c : Callback) : Sound (callback s c).1 := by
  obtain ⟨ops, hops⟩ := callback_reachable s c
  rw [hops]
  exact sound_after h ops

theorem callback_base (h : Layout s) (c : Callback) : (callback s c).1.base = s.base := by
  obtain ⟨ops, hops⟩ := callback_reachable s c
  rw [hops]
  exact (arena_after h ops).1

theorem callback_sites (h : Sound s) (hbase : s.base ≠ 0) (c : Callback) :
    (callback s c).1.sites = s.sites := by
  cases c with
  | allocate size pc nextPc =>
    rcases allocateFromCallback_frame h hbase size.toUInt64 pc nextPc with
      hsame | ⟨site, _, _, hadded⟩
    · exact congrArg (fun r : Runtime × UInt64 => r.1.sites) hsame
    · exact hadded.sites.1
  | release ptr => exact (@sameRegistry_step s h.layout (.release ptr.toUInt64) rfl).sites
  | size ptr => rfl
  | reallocate ptr size =>
    exact (@sameRegistry_step s h.layout (.reallocate ptr.toUInt64 size.toUInt64) rfl).sites

/-- **A record that a callback makes**, at one of the registered sites or by moving another. -/
theorem callback_new (h : Sound s) (hbase : s.base ≠ 0) {c : Callback} {p : UInt64}
    {a : Allocation} (hfree : s.allocations.find p = none)
    (hlive : (callback s c).1.allocations.find p = some a) :
    (∃ size pc nextPc, c = .allocate size pc nextPc ∧ ∃ site ∈ s.sites.values,
      (site.Covers pc ∨ site.Covers nextPc) ∧ a.typeHash = site.typeHash) ∨
    ∃ ptr size b, c = .reallocate ptr size ∧ s.allocations.find ptr.toUInt64 = some b ∧
      a.typeHash = b.typeHash := by
  cases c with
  | allocate size pc nextPc =>
    refine .inl ⟨size, pc, nextPc, rfl, ?_⟩
    rcases allocateFromCallback_frame h hbase size.toUInt64 pc nextPc with
      hsame | ⟨site, hmem, hcovers, hadded⟩
    · have hstate := congrArg (fun r : Runtime × UInt64 => r.1.allocations.find p) hsame
      exact nomatch (hlive.symm.trans hstate).trans hfree
    · refine ⟨site, hmem, hcovers.imp_right And.right, ?_⟩
      have hfind := (hadded.find p).symm.trans hlive
      by_cases hp : p = (s.allocateFromCallback size.toUInt64 pc nextPc).2
      · rw [if_pos hp] at hfind
        rw [← Option.some.inj hfind]
      · rw [if_neg hp, hfree] at hfind
        cases hfind
  | release ptr =>
    rcases @find_step_new s h (.release ptr.toUInt64) p a hfree hlive with
      hfix | ⟨_, _, _, hop, _⟩
    · cases hfix
    · cases hop
  | size ptr => exact nomatch hlive.symm.trans hfree
  | reallocate ptr size =>
    rcases @find_step_new s h (.reallocate ptr.toUInt64 size.toUInt64) p a hfree hlive with
      hfix | ⟨q, n, b, hop, hq, hhash, _⟩
    · cases hfix
    · cases hop
      exact .inr ⟨ptr, size, b, rfl, hq, hhash⟩

theorem callback_old (h : Layout s) {c : Callback} {p : UInt64} {a b : Allocation}
    (hb : s.allocations.find p = some b) (ha : (callback s c).1.allocations.find p = some a) :
    a = b := by
  obtain ⟨ops, hops⟩ := callback_reachable s c
  rw [hops] at ha
  exact find_after_old h ops hb ha

end Callback

/-! ### Where a record comes from -/

/-- The runtime after the first `n` callbacks. -/
def afterCallbacks (origin : Runtime) (made : List Callback) (n : Nat) : Runtime :=
  Machine.after callback origin (made.take n)

/-- After `n` callbacks the record at the address is the one that callback `k` made, and that
reallocating callbacks have moved since. -/
inductive Descends (origin : Runtime) (made : List Callback) (k : Nat) : Nat → UInt64 → Prop
  | allocated {size : UInt32} {pc nextPc base : UInt64}
      (hk : made[k]? = some (.allocate size pc nextPc))
      (hfree : (afterCallbacks origin made k).allocations.find base = none)
      (hlive : (afterCallbacks origin made (k + 1)).allocations.find base ≠ none) :
      Descends origin made k (k + 1) base
  | kept {n : Nat} {base : UInt64} (h : Descends origin made k n base)
      (hsame : (afterCallbacks origin made (n + 1)).allocations.find base =
        (afterCallbacks origin made n).allocations.find base) :
      Descends origin made k (n + 1) base
  | moved {n : Nat} {ptr size : UInt32} {base : UInt64}
      (h : Descends origin made k n ptr.toUInt64)
      (hn : made[n]? = some (.reallocate ptr size))
      (hfree : (afterCallbacks origin made n).allocations.find base = none)
      (hlive : (afterCallbacks origin made (n + 1)).allocations.find base ≠ none) :
      Descends origin made k (n + 1) base

section Descends

variable {origin : Runtime} {made : List Callback}

theorem afterCallbacks_succ {n : Nat} {c : Callback} (hc : made[n]? = some c) :
    afterCallbacks origin made (n + 1) = (callback (afterCallbacks origin made n) c).1 := by
  rw [afterCallbacks, List.take_add_one, hc, Machine.after_append]
  rfl

theorem afterCallbacks_kept (h : Sound origin) (hbase : origin.base ≠ 0) (made : List Callback)
    (n : Nat) : Sound (afterCallbacks origin made n) ∧
      (afterCallbacks origin made n).base = origin.base ∧
      (afterCallbacks origin made n).sites = origin.sites := by
  refine Machine.after_induction (P := fun s => Sound s ∧ s.base = origin.base ∧
    s.sites = origin.sites) (fun s c hs => ?_) (made.take n) origin ⟨h, rfl, rfl⟩
  obtain ⟨hsound, hsame, hsites⟩ := hs
  exact ⟨callback_sound hsound c, (callback_base hsound.layout c).trans hsame,
    (callback_sites hsound (hsame ▸ hbase) c).trans hsites⟩

/-- **Every live record descends from a callback that allocated at a registered site.** -/
theorem descends (h : Sound origin) (hbase : origin.base ≠ 0)
    (hempty : ∀ p, origin.allocations.find p = none) (made : List Callback) :
    ∀ n ≤ made.length, ∀ p a, (afterCallbacks origin made n).allocations.find p = some a →
      ∃ k size pc nextPc, Descends origin made k n p ∧
        made[k]? = some (.allocate size pc nextPc) ∧ ∃ site ∈ origin.sites.values,
          (site.Covers pc ∨ site.Covers nextPc) ∧ a.typeHash = site.typeHash := by
  intro n
  induction n with
  | zero => exact fun _ p a hp => nomatch (hempty p).symm.trans hp
  | succ n ih =>
    intro hn p a hp
    obtain ⟨hsound, hsame, hsites⟩ := afterCallbacks_kept h hbase made n
    obtain ⟨c, hc⟩ : ∃ c, made[n]? = some c := ⟨_, List.getElem?_eq_getElem hn⟩
    have hstep : afterCallbacks origin made (n + 1) = _ := afterCallbacks_succ hc
    rw [hstep] at hp
    cases hold : (afterCallbacks origin made n).allocations.find p with
    | some b =>
      -- the record was there before
      obtain rfl := callback_old hsound.layout hold hp
      obtain ⟨k, size, pc, nextPc, hfrom, hrest⟩ := ih (Nat.le_of_succ_le hn) p a hold
      refine ⟨k, size, pc, nextPc, hfrom.kept ?_, hrest⟩
      rw [hstep, hp, hold]
    | none =>
      have hlive : (afterCallbacks origin made (n + 1)).allocations.find p ≠ none := by
        rw [hstep, hp]
        exact nofun
      rcases callback_new hsound (hsame ▸ hbase) hold hp with
        ⟨size, pc, nextPc, rfl, site, hsite, hcovers, hhash⟩ | ⟨ptr, size, b, rfl, hptr, hhash⟩
      · refine ⟨n, size, pc, nextPc, .allocated hc hold hlive, hc, site, ?_, hcovers, hhash⟩
        rwa [← hsites]
      · obtain ⟨k, size, pc, nextPc, hfrom, hk, hrest⟩ := ih (Nat.le_of_succ_le hn) _ b hptr
        rw [← hhash] at hrest
        exact ⟨k, size, pc, nextPc, hfrom.moved hc hold hlive, hk, hrest⟩

end Descends

/-! ### What the policy declares -/

/-- The sites of the policy and the helper sites of the boundary, with their types and the
rows of the tables that are generated for them. -/
inductive DeclaredSite (policy : Policy) (boundary : Boundary) (namespaceName : Str) :
    Str → SiteEntry → Prop
  | precise {site : PreciseSite} (h : site ∈ preciseSites 1 policy.allocations) :
      DeclaredSite policy boundary namespaceName site.allocation.type
        (siteEntry site.siteId site.allocation)
  | helper {i : Nat} {helper : HelperSite} (h : boundary.helperSites[i]? = some helper) :
      DeclaredSite policy boundary namespaceName helper.type
        (helperEntry namespaceName
          ((policy.allocations.filter (fun a => a.site.isSome)).length + 1 + i) helper)

/-- The program counter is between the two labels of the row. -/
def Between (resolve : Str → UInt64) (entry : SiteEntry) (pc : UInt64) : Prop :=
  resolve entry.beginSymbol ≤ pc ∧ pc < resolve entry.endSymbol

theorem registerRange_refused {s : Runtime} {e : SiteRange} (h : ¬ (registerRange s e).2 = true) :
    (registerRange s e).1 = s := by
  unfold registerRange at h ⊢
  by_cases h0 : e.beginPc = 0 ∨ e.endPc = 0
  · rw [if_pos h0]
  · rw [if_neg h0] at h ⊢
    rcases s.registerAllocationSite_eq e.id e.beginPc e.endPc e.typeId with
      he | ⟨_, _, _, he⟩
    · rw [he]
    · rw [he] at h
      exact absurd rfl h

theorem mem_sites_registerRanges {s : Runtime} {entries : List SiteRange} {b : UInt64}
    {site : AllocationSite} (h : (s.registerRanges entries).1.sites.find b = some site) :
    s.sites.find b = some site ∨ ∃ e ∈ entries, ∃ typeHash,
      s.types.find e.typeId = some typeHash ∧ site = e.site typeHash := by
  refine (@registerAll_induction _ registerRange
    (fun t => t.types = s.types ∧ ∀ b site, t.sites.find b = some site →
      s.sites.find b = some site ∨ ∃ e ∈ entries, ∃ typeHash,
        s.types.find e.typeId = some typeHash ∧ site = e.site typeHash) entries
    (fun t e he ht => ?_) s ⟨rfl, fun b site h => .inl h⟩).2 b site h
  by_cases hok : (registerRange t e).2 = true
  · obtain ⟨typeHash, htype, hbase, heq⟩ := registerRange_eq_true hok
    rw [heq]
    refine ⟨ht.1, fun b site hb => ?_⟩
    rw [find_sites_bindRange hbase] at hb
    by_cases hbegin : b = (e.site typeHash).beginPc
    · rw [if_pos hbegin] at hb
      exact .inr ⟨e, he, typeHash, ht.1 ▸ htype, (Option.some.inj hb).symm⟩
    · rw [if_neg hbegin] at hb
      exact ht.2 b site hb
  · rw [registerRange_refused hok]
    exact ht

section Declared

variable {policy : Policy} {boundary : Boundary} {namespaceName : Str} {header : THeader}
  {p : TPolicy}

theorem mem_allocations_of_preciseSites {l : List PolicyAllocation} {site : PreciseSite} :
    ∀ {k : Nat}, site ∈ preciseSites k l → site.allocation ∈ l := by
  induction l with
  | nil => exact fun h => absurd h List.not_mem_nil
  | cons a l ih =>
    intro k h
    rw [preciseSites] at h
    cases ha : a.site with
    | none =>
      rw [ha] at h
      exact List.mem_cons_of_mem a (ih h)
    | some span =>
      rw [ha] at h
      rcases List.mem_cons.mp h with rfl | h
      · exact List.mem_cons_self
      · exact List.mem_cons_of_mem a (ih h)

theorem DeclaredSite.mem {type : Str} {entry : SiteEntry}
    (acc : BoundaryAccepted policy namespaceName boundary header)
    (h : DeclaredSite policy boundary namespaceName type entry) :
    type ∈ allTypes policy boundary ∧ entry.typeIdent = cpp type := by
  cases h with
  | precise h =>
    exact ⟨acc.known _ (List.mem_append_left _
      (List.mem_map_of_mem (mem_allocations_of_preciseSites h))), rfl⟩
  | helper h =>
    exact ⟨acc.known _ (List.mem_append_right _
      (List.mem_map_of_mem (List.mem_of_getElem? h))), rfl⟩

theorem declaredSite_of_mem (acc : BoundaryAccepted policy namespaceName boundary header)
    {entry : SiteEntry} (h : entry ∈ header.sites ++ header.helperSites) :
    ∃ type, DeclaredSite policy boundary namespaceName type entry := by
  rw [acc.sites, acc.helperSites] at h
  rcases List.mem_append.mp h with h | h
  · obtain ⟨site, hsite, rfl⟩ := List.mem_map.mp h
    exact ⟨_, .precise hsite⟩
  · obtain ⟨i, hi, rfl⟩ := List.mem_mapIdx.mp h
    exact ⟨_, .helper (List.getElem?_eq_getElem hi)⟩

/-- **The compiled header**: its types are those of the policy, and its rows are those of
declared sites with the numbers of their types. -/
theorem compiled_declared (acc : BoundaryAccepted policy namespaceName boundary header)
    (hc : header.compile = some p) : p.types = typePairs (allTypes policy boundary) ∧
      ∀ row ∈ p.sites ++ p.helperSites, ∃ type entry,
        DeclaredSite policy boundary namespaceName type entry ∧
        row.typeId = typeNumber (allTypes policy boundary) type ∧
        row.beginSymbol = entry.beginSymbol ∧ row.endSymbol = entry.endSymbol := by
  obtain ⟨_, hdistinct, hc⟩ := Option.bind_eq_some_iff.mp hc
  obtain ⟨sites, hsites, hc⟩ := Option.bind_eq_some_iff.mp hc
  obtain ⟨helperSites, hhelpers, hc⟩ := Option.bind_eq_some_iff.mp hc
  obtain ⟨uses, _, hc⟩ := Option.bind_eq_some_iff.mp hc
  cases hc
  have hdistinct := ((Option.guard_eq_some' _).mp hdistinct).1
  rw [acc.types] at hdistinct
  refine ⟨by rw [acc.types, map_compileType], fun row hrow => ?_⟩
  have hrows : sites ++ helperSites =
      (header.sites ++ header.helperSites).map (compiledRow header.types) := by
    rw [Fallible.mapM_eq_some hsites (fun _ _ _ => compileSite_eq_some),
      Fallible.mapM_eq_some hhelpers (fun _ _ _ => compileSite_eq_some), List.map_append]
  obtain ⟨entry, hentry, rfl⟩ := List.mem_map.mp (hrows ▸ hrow)
  obtain ⟨type, hdeclared⟩ := declaredSite_of_mem acc hentry
  obtain ⟨htype, hident⟩ := hdeclared.mem acc
  obtain ⟨c, hfound, hnumber, _⟩ := typeConstant_of_mem hdistinct htype
  refine ⟨type, entry, hdeclared, ?_, rfl, rfl⟩
  rw [compiledRow, acc.types, hident, hfound, ← hnumber]
  rfl

/-- **Every registered site is a declared one**, with its type, between its labels. -/
theorem declaredSite_of_registered (acc : BoundaryAccepted policy namespaceName boundary header)
    (hc : header.compile = some p) {arenaBase arenaSize : UInt64} {resolve : Str → UInt64}
    (hinit : (p.initialized arenaBase arenaSize resolve).2 = true) {site : AllocationSite}
    (hsite : site ∈ (p.initialized arenaBase arenaSize resolve).1.sites.values) :
    ∃ type entry, DeclaredSite policy boundary namespaceName type entry ∧
      site.typeHash = hashType type ∧ ∀ pc, site.Covers pc → Between resolve entry pc := by
  obtain ⟨htypes, hrows⟩ := compiled_declared acc hc
  have hok : (p.registerTypes (new arenaBase arenaSize)).2 = true := by
    by_contra hno
    rw [TPolicy.initialized, initializePolicy, if_pos (Bool.eq_false_of_not_eq_true hno)] at hinit
    cases hinit
  rw [TPolicy.initialized, initializePolicy, if_neg (by rw [hok]; decide),
    p.registerAllocationPolicy_eq] at hsite
  obtain ⟨b, hb⟩ := SortedMap.mem_values.mp hsite
  obtain ⟨types, typeIds, hframe⟩ := registerTypes_frame p.types true (new arenaBase arenaSize)
  have hnone : (p.registerTypes (new arenaBase arenaSize)).1.sites.find b = none := by
    rw [show (p.registerTypes (new arenaBase arenaSize)).1 = _ from hframe]
    rfl
  rcases mem_sites_registerRanges hb with hold | ⟨e, he, typeHash, hhash, rfl⟩
  · rw [hnone] at hold
    cases hold
  obtain ⟨row, hrow, rfl⟩ := List.mem_map.mp he
  obtain ⟨type, entry, hdeclared, hnumber, hbegin, hend⟩ := hrows row hrow
  refine ⟨type, entry, hdeclared, ?_, fun pc hcovers => ?_⟩
  · rw [TPolicy.registerTypes, htypes] at hok hhash
    have hfind := find_typeNumber hok (hdeclared.mem acc).1
    rw [← hnumber, hhash] at hfind
    exact Option.some.inj hfind
  · rw [Between, ← hbegin, ← hend]
    exact hcovers

theorem initialized_start (p : TPolicy) (arenaBase arenaSize : UInt64) (resolve : Str → UInt64) :
    Sound (p.initialized arenaBase arenaSize resolve).1 ∧
      (p.initialized arenaBase arenaSize resolve).1.base = arenaBase ∧
      ∀ q, (p.initialized arenaBase arenaSize resolve).1.allocations.find q = none := by
  have hsound : Sound (p.registerTypes (new arenaBase arenaSize)).1 :=
    sound_registerTypes _ (sound_new arenaBase arenaSize)
  obtain ⟨types, typeIds, hframe⟩ := registerTypes_frame p.types true (new arenaBase arenaSize)
  have hframe : (p.registerTypes (new arenaBase arenaSize)).1 = _ := hframe
  rw [TPolicy.initialized, initializePolicy]
  by_cases hok : (p.registerTypes (new arenaBase arenaSize)).2 = false
  · rw [if_pos hok]
    refine ⟨hsound, ?_⟩
    rw [hframe]
    exact ⟨rfl, fun _ => rfl⟩
  · rw [if_neg hok, p.registerAllocationPolicy_eq]
    refine ⟨sound_registerRanges _ hsound, ?_⟩
    obtain ⟨_, _, _, hranges⟩ := registerRanges_frame
      (TPolicy.ranges resolve (p.sites ++ p.helperSites))
      (p.registerTypes (new arenaBase arenaSize)).1
    rw [hranges, hframe]
    exact ⟨rfl, fun _ => rfl⟩

end Declared

/-! ### From the policy to the host -/

/-- The string was in a sandbox that a call has returned with, in a live `char` record that
descends from a callback, and one of the two program counters of that callback was between the
labels of a declared site of type `char`. -/
def Authorised (policy : Policy) (boundary : Boundary) (namespaceName : Str)
    (resolve : Str → UInt64) (origin : Runtime) {σ : Type} (w : World σ) (t : List UInt8) : Prop :=
  ∃ s ∈ w.seen, ∃ n ≤ w.made.length, s.runtime = afterCallbacks origin w.made n ∧
    ∃ (ptr : UInt32) (src : CString) (a : Allocation), t = src.val ++ [0] ∧
      CharRecord s.runtime ptr.toUInt64 a ∧ Memory.StringAt 0 s.memory ptr.toNat src.val ∧
      ptr.toNat + src.val.length < byteEnd a ∧
    ∃ k size pc nextPc, Descends origin w.made k n a.base ∧
      w.made[k]? = some (.allocate size pc nextPc) ∧
    ∃ entry, DeclaredSite policy boundary namespaceName "char".toList entry ∧
      (Between resolve entry pc ∨ Between resolve entry nextPc)

/-- Only the name `char` has its hash among the types of an accepted policy. -/
theorem eq_char_of_hash {policy : Policy} {boundary : Boundary} {namespaceName : Str}
    {header : THeader} (acc : BoundaryAccepted policy namespaceName boundary header)
    (hchar : "char".toList ∈ allTypes policy boundary) {type : Str}
    (htype : type ∈ allTypes policy boundary) (hhash : hashType type = kTypeHashChar) :
    type = "char".toList :=
  List.inj_on_of_nodup_map acc.hashes (mem_typeIds_keys.mpr htype) (mem_typeIds_keys.mpr hchar)
    hhash

theorem createEngine_eq_some {σ : Type} {U : Untrusted σ} {u : σ} {p : TPolicy}
    {resolve : Str → UInt64} {arenaBase : UInt32} {memory : Memory UInt8} {slots : LifetimeSlots}
    {w : World σ} (h : createEngine U u p resolve arenaBase memory slots = some w) :
    arenaBase ≠ 0 ∧ (p.initialized arenaBase.toUInt64 kArenaSize resolve).2 = true ∧
      Genuine (p.initialized arenaBase.toUInt64 kArenaSize resolve).1 w := by
  unfold createEngine at h
  by_cases hbase : arenaBase = 0
  · rw [if_pos hbase] at h
    cases h
  rw [if_neg hbase] at h
  dsimp only at h
  by_cases hinit : (p.initialized arenaBase.toUInt64 kArenaSize resolve).2 = false
  · rw [if_pos hinit] at h
    cases h
  rw [if_neg hinit] at h
  by_cases hslot : slots.alloc = UInt32.ofNat (2 ^ 32 - 1)
  · rw [if_pos hslot] at h
    cases h
  rw [if_neg hslot] at h
  refine ⟨hbase, Bool.eq_true_of_not_eq_false hinit, ?_⟩
  rw [← Option.some.inj h]
  refine (invoke_later _ _).genuine ⟨?_, rfl, nofun, nofun⟩
  exact (initialized_start p arenaBase.toUInt64 kArenaSize resolve).1.layout

/-- **The host gets only strings that the policy lets through.**  Whatever the sandbox does from
the constructor on, every string that the engine of an accepted policy has copied out was in a
record of type `char`, and the allocation of that record was made at a program counter between
the labels of a site that the policy declares with type `char`.  Every string that a call has
returned or written to a variable of the host is one of these. -/
theorem session_authorised {isWord : Char → Bool} {policy : Policy} {boundary : Boundary}
    {source namespaceName : Str} {out : Str × UHeader × THeader} {p : TPolicy}
    (hgenerate : generateBoundary isWord policy source namespaceName boundary = .ok out)
    (hcompile : out.2.2.compile = some p) (hchar : "char".toList ∈ allTypes policy boundary)
    {σ : Type} (U : Untrusted σ) (u : σ) (resolve : Str → UInt64) (arenaBase : UInt32)
    (memory : Memory UInt8) (slots : LifetimeSlots) (w : World σ)
    (hcreate : createEngine U u p resolve arenaBase memory slots = some w) (env : Surroundings)
    (henv : ∀ entries, (env.enumerate entries).Perm entries) (nullArg : Int32)
    (trusted : Trusted) (calls : List Call) (q : Process σ)
    (hq : Machine.after (session U env nullArg) (some ⟨w, trusted, []⟩) calls = some q) :
    (∀ t ∈ q.world.engine.trustedStrings, Authorised policy boundary namespaceName resolve
      (p.initialized arenaBase.toUInt64 kArenaSize resolve).1 q.world t) ∧
    VariablesKept (ownVariables trusted calls) q ∧
    ∀ (n : Nat) (answer : Answer),
      (Machine.outputs (session U env nullArg) (some ⟨w, trusted, []⟩) calls)[n]? =
        some (.ok answer) → ∀ t ∈ answer.texts, t ∈ q.world.engine.trustedStrings := by
  have acc := generateBoundary_ok hgenerate
  obtain ⟨hbase, hinit, hw⟩ := createEngine_eq_some hcreate
  obtain ⟨hsound, hsame, hempty⟩ := initialized_start p arenaBase.toUInt64 kArenaSize resolve
  have hne : (p.initialized arenaBase.toUInt64 kArenaSize resolve).1.base ≠ 0 := by
    rw [hsame]
    exact fun h => hbase (UInt32.toUInt64_inj.mp h)
  have hg := Later.genuine (session_later (p := ⟨w, trusted, []⟩) henv calls hw hq) hw
  refine ⟨fun t ht => ?_, session_variables (p := ⟨w, trusted, []⟩) henv hw hq,
    fun n answer hanswer => (session_answer (p := ⟨w, trusted, []⟩) henv hw hq hanswer).2⟩
  obtain ⟨s, hs, ptr, src, ⟨a, ha, hstring, hlt⟩, rfl⟩ := hg.strings t ht
  obtain ⟨made, hprefix, hruntime⟩ := hg.seen s hs
  have htake : s.runtime = afterCallbacks (p.initialized arenaBase.toUInt64 kArenaSize resolve).1
      q.world.made made.length := by
    rw [hruntime, afterCallbacks, ← List.prefix_iff_eq_take.mp hprefix]
  have hlive : s.runtime.allocations.find a.base = some a := by
    refine (mem_live ?_).mp ha.live
    rw [hruntime]
    exact layout_callbacks hsound.layout made
  rw [htake] at hlive
  obtain ⟨k, size, pc, nextPc, hfrom, hk, site, hsite, hcovers, hhash⟩ :=
    descends hsound hne hempty q.world.made made.length hprefix.length_le a.base a hlive
  obtain ⟨type, entry, hdeclared, htype, hbetween⟩ :=
    declaredSite_of_registered acc hcompile hinit hsite
  obtain rfl := eq_char_of_hash acc hchar (hdeclared.mem acc).1
    (htype.symm.trans (hhash.symm.trans ha.char))
  exact ⟨s, hs, made.length, hprefix.length_le, htake, ptr, src, a, rfl, ha, hstring, hlt, k,
    size, pc, nextPc, hfrom, hk, entry, hdeclared, hcovers.imp (hbetween pc) (hbetween nextPc)⟩

/-- A policy with the type `char` and no allocations. -/
def charPolicy : Policy := ⟨["char".toList], [], []⟩

def grabBoundary : Boundary := ⟨[], [⟨"grab".toList, "char".toList⟩]⟩

/-- The labels begin at 100, and end at 200. -/
def grabResolve (symbol : Str) : UInt64 := if "_begin".toList <:+ symbol then 100 else 200

/-- A sandbox that allocates at 150 and writes a string there, when it is asked for the argument
of an option. -/
def grabbing : Untrusted Unit := fun _ s entry =>
  match entry with
  | .optArg _ => ⟨(), [.allocate 8 150 0], Memory.storeList s.memory 4096 [104, 105, 0], 4096⟩
  | .slotGetString _ _ => ⟨(), [], s.memory, 0⟩
  | _ => ⟨(), [], s.memory, 5⟩

def grabPolicy : TPolicy :=
  ((generateBoundary asciiWord charPolicy [] "interspec::node".toList grabBoundary).toOption.bind
    (fun out => out.2.2.compile)).getD ⟨[], [], [], []⟩

/-- The engine of the policy, and a session with one argument. -/
def grabSession : Option (Process Unit) :=
  (createEngine grabbing () grabPolicy grabResolve 4096 (fun _ => 0) ⟨5, 6, 7, 8⟩).bind fun w =>
    Machine.after (session grabbing smallSurroundings (-13))
      (some ⟨w, ⟨fun _ => 1, fun _ => none⟩, []⟩)
      (parseAliasing ++ [.poptGetOptArg (some 0)])

/-- The string is allocated at the helper site of the policy. -/
theorem session_authorised_grab : ∃ q, grabSession = some q ∧
    [104, 105, 0] ∈ q.world.engine.trustedStrings ∧
    Authorised charPolicy grabBoundary "interspec::node".toList grabResolve
      (grabPolicy.initialized 4096 kArenaSize grabResolve).1 q.world [104, 105, 0] := by
  obtain ⟨out, hgenerate, hcompile⟩ : ∃ out, generateBoundary asciiWord charPolicy []
      "interspec::node".toList grabBoundary = .ok out ∧ out.2.2.compile = some grabPolicy :=
    ⟨_, rfl, rfl⟩
  have hkept : grabSession.map (fun q => decide ([104, 105, 0] ∈ q.world.engine.trustedStrings)) =
      some true := by decide +kernel
  obtain ⟨q, hq, hmem⟩ := Option.map_eq_some_iff.mp hkept
  have hmem := of_decide_eq_true hmem
  obtain ⟨w, hw, hrun⟩ := Option.bind_eq_some_iff.mp hq
  have hall := session_authorised hgenerate hcompile (by decide) grabbing () grabResolve 4096
    (fun _ => 0) ⟨5, 6, 7, 8⟩ w hw smallSurroundings List.reverse_perm (-13) _ _ q hrun
  exact ⟨q, hq, hmem, hall.1 _ hmem⟩

end InterSpec.Bridge
