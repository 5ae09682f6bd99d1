import InterSpec.Runtime.Heap
import InterSpec.Runtime.Registry
import Mathlib.Data.List.Induction

/-!
# Provenance

Where a record comes from.  A record is made by one of the three allocating
calls, and a reallocation moves it to a new address; `chainStart` follows those
moves and names the call, by its position in the run, that started the chain of
the record at `p`.

* `FixedBy s op h i`: a record made by `op` in state `s` carries the hash `h` and
  the site id `i`.
* `chainStart_spec`: every live record carries what the start of its chain fixed.
* `Keeps`: no call rebinds a type, a site or a range.
* `Labelled`: a record with a site id carries the hash that site is bound to.
-/

namespace InterSpec.Runtime

/-- The type hash and the site id that an allocating call fixes. -/
inductive FixedBy (s : Runtime) : Op → UInt64 → SiteId → Prop
  | allocate {size : UInt64} {t : TypeId} {typeHash : UInt64}
      (ht : s.types.find t = some typeHash) : FixedBy s (.allocate size t) typeHash 0
  | allocateFromSite {size : UInt64} {i : SiteId} {typeHash : UInt64}
      (hi : s.siteTypes.find i = some typeHash) : FixedBy s (.allocateFromSite size i) typeHash i
  | allocateFromPc {size pc : UInt64} {site : AllocationSite} (hs : site ∈ s.sites.values)
      (hc : site.Covers pc) (honly : ∀ other ∈ s.sites.values, other.Covers pc → other = site) :
      FixedBy s (.allocateFromPc size pc) site.typeHash site.id

theorem FixedBy.site_zero {s : Runtime} (h : Registry s) {op : Op} {typeHash : UInt64}
    {siteId : SiteId} (hf : FixedBy s op typeHash siteId) (hz : siteId = 0) :
    ∃ size t, op = .allocate size t := by
  cases hf with
  | @allocate size t => exact ⟨size, t, rfl⟩
  | allocateFromSite hi =>
    rw [hz, h.siteTypes_zero] at hi
    cases hi
  | allocateFromPc hs =>
    exact absurd hz (h.inRegistry _ _ (h.mem_sites.mp hs)).id_ne_zero

theorem FixedBy.reallocate_false {s : Runtime} {q n typeHash : UInt64} {siteId : SiteId}
    (hf : FixedBy s (.reallocate q n) typeHash siteId) : False := nomatch hf

/-! ### Where a new record comes from -/

theorem find_request_new {s : Runtime} (h : Layout s) {p size typeHash : UInt64} {siteId : SiteId}
    {a : Allocation} (hnone : s.allocations.find p = none)
    (hp : (if s.Fits size then (s.record size typeHash siteId, s.cursor)
      else (s, (0 : UInt64))).1.allocations.find p = some a) :
    a.typeHash = typeHash ∧ a.siteId = siteId := by
  split at hp
  · rw [find_record h] at hp
    split at hp
    · cases hp
      exact ⟨rfl, rfl⟩
    · rw [hnone] at hp
      cases hp
  · rw [hnone] at hp
    cases hp

/-- **A record that a call makes is fixed by that call, or moved by it.** -/
theorem find_step_new {s : Runtime} (h : Sound s) {op : Op} {p : UInt64} {a : Allocation}
    (hnone : s.allocations.find p = none) (hp : (step s op).1.allocations.find p = some a) :
    FixedBy s op a.typeHash a.siteId ∨ ∃ q n b, op = .reallocate q n ∧
      s.allocations.find q = some b ∧ a.typeHash = b.typeHash ∧ a.siteId = b.siteId := by
  have hl := h.layout
  have hno : s.allocations.find p ≠ some a := by rw [hnone]; exact nofun
  cases op with
  | registerType id typeHash =>
    change (s.registerType id typeHash).1.allocations.find p = some a at hp
    rcases s.registerType_eq id typeHash with he | ⟨_, he⟩ <;> rw [he] at hp <;>
      exact absurd hp hno
  | registerAllocationSiteId id typeId =>
    change (s.registerAllocationSiteId id typeId).1.allocations.find p = some a at hp
    rcases s.registerAllocationSiteId_eq id typeId with he | ⟨_, _, _, he⟩ <;> rw [he] at hp <;>
      exact absurd hp hno
  | registerAllocationSite id beginPc endPc typeId =>
    change (s.registerAllocationSite id beginPc endPc typeId).1.allocations.find p = some a at hp
    rcases s.registerAllocationSite_eq id beginPc endPc typeId with he | ⟨_, _, _, he⟩ <;>
      rw [he] at hp <;> exact absurd hp hno
  | allocate size typeId =>
    change (s.allocate size typeId).1.allocations.find p = some a at hp
    cases ht : s.types.find typeId with
    | none => rw [allocate_of_none ht] at hp; exact absurd hp hno
    | some typeHash =>
      rw [allocate_of_find hl ht] at hp
      obtain ⟨h1, h2⟩ := find_request_new hl hnone hp
      rw [h1, h2]
      exact .inl (.allocate ht)
  | allocateFromSite size siteId =>
    change (s.allocateFromSite size siteId).1.allocations.find p = some a at hp
    cases hi : s.siteTypes.find siteId with
    | none => rw [allocateFromSite_of_none hi] at hp; exact absurd hp hno
    | some typeHash =>
      rw [allocateFromSite_of_find hl hi] at hp
      obtain ⟨h1, h2⟩ := find_request_new hl hnone hp
      rw [h1, h2]
      exact .inl (.allocateFromSite hi)
  | allocateFromPc size callerPc =>
    change (s.allocateFromPc size callerPc).1.allocations.find p = some a at hp
    cases hs : s.findSiteUnlocked callerPc with
    | none => rw [allocateFromPc_of_none hs] at hp; exact absurd hp hno
    | some site =>
      rw [allocateFromPc_of_find hl hs] at hp
      obtain ⟨h1, h2⟩ := find_request_new hl hnone hp
      obtain ⟨hmem, hcov⟩ := (findSiteUnlocked_eq_some h.registry).mp hs
      rw [h1, h2]
      exact .inl (.allocateFromPc hmem hcov
        (fun other ho hoc => h.registry.covers_unique ho hmem hoc hcov))
  | release q =>
    change (s.release q).1.allocations.find p = some a at hp
    cases hq : s.allocations.find q with
    | none => rw [release_of_none hq] at hp; exact absurd hp hno
    | some b =>
      rw [release_of_find hq, find_remove] at hp
      split at hp
      · cases hp
      · exact absurd hp hno
  | reallocate q n =>
    change (s.reallocate q n).1.allocations.find p = some a at hp
    cases hq : s.allocations.find q with
    | none => rw [reallocate_of_none hq] at hp; exact absurd hp hno
    | some b =>
      by_cases hz : n = 0
      · subst hz
        rw [reallocate_zero hq, find_remove] at hp
        split at hp
        · cases hp
        · exact absurd hp hno
      · rw [reallocate_of_find hl hq hz] at hp
        by_cases hf : s.Fits n
        · rw [if_pos hf, find_remove] at hp
          split at hp
          · cases hp
          · have hnew : (if s.Fits n then (s.record n b.typeHash b.siteId, s.cursor)
                else (s, (0 : UInt64))).1.allocations.find p = some a := by
              rw [if_pos hf]
              exact hp
            obtain ⟨h1, h2⟩ := find_request_new hl hnone hnew
            exact .inr ⟨q, n, b, rfl, hq, h1, h2⟩
        · rw [if_neg hf] at hp
          exact absurd hp hno
  | query q => exact absurd hp hno

/-- A record live before and after a call is the same record. -/
theorem find_step_old {s : Runtime} (h : Layout s) {op : Op} {p : UInt64} {a b : Allocation}
    (hp : s.allocations.find p = some a) (hp' : (step s op).1.allocations.find p = some b) :
    b = a := by
  have hne : ¬ Ends s p op := fun he => by
    rw [find_step_of_ends h hp he] at hp'
    cases hp'
  rw [find_step_of_not_ends h hp hne] at hp'
  exact (Option.some.inj hp').symm

/-! ### Reallocation chains -/

/-- A run with the number of calls made so far and, for each address, the number
of the call that started the chain of the record there. -/
structure Traced where
  now : Runtime
  clock : Nat
  chain : UInt64 → Option Nat

def Traced.step (t : Traced) (op : Op) : Traced where
  now := (Runtime.step t.now op).1
  clock := t.clock + 1
  chain p :=
    if t.now.allocations.find p = none ∧ (Runtime.step t.now op).1.allocations.find p ≠ none then
      match op with
      | .reallocate q _ => t.chain q
      | _ => some t.clock
    else t.chain p

/-- The run of a list of calls, traced. -/
def traced (s : Runtime) (ops : List Op) : Traced :=
  ops.foldl Traced.step ⟨s, 0, fun _ => none⟩

/-- The position of the call that started the chain of the record at `p`. -/
def chainStart (s : Runtime) (ops : List Op) (p : UInt64) : Option Nat := (traced s ops).chain p

theorem traced_concat (s : Runtime) (ops : List Op) (op : Op) :
    traced s (ops ++ [op]) = (traced s ops).step op := by
  rw [traced, List.foldl_append]
  rfl

theorem traced_now (s : Runtime) (ops : List Op) : (traced s ops).now = s.after ops := by
  induction ops using List.reverseRecOn with
  | nil => rfl
  | append_singleton ops op ih =>
    rw [traced_concat, after_concat, ← ih]
    rfl

theorem traced_clock (s : Runtime) (ops : List Op) : (traced s ops).clock = ops.length := by
  induction ops using List.reverseRecOn with
  | nil => rfl
  | append_singleton ops op ih =>
    rw [traced_concat, List.length_append, ← ih]
    rfl

theorem chainStart_concat (s : Runtime) (ops : List Op) (op : Op) (p : UInt64) :
    chainStart s (ops ++ [op]) p =
      if (s.after ops).allocations.find p = none ∧
          (step (s.after ops) op).1.allocations.find p ≠ none then
        match op with
        | .reallocate q _ => chainStart s ops q
        | _ => some ops.length
      else chainStart s ops p := by
  have hnow := traced_now s ops
  have hclock := traced_clock s ops
  rw [chainStart, traced_concat, ← hnow, ← hclock]
  rfl

/-- What the start of a chain says of the record at its end. -/
def StartedBy (s : Runtime) (ops : List Op) (k : Nat) (a : Allocation) : Prop :=
  ∃ op, ops[k]? = some op ∧ FixedBy (s.after (ops.take k)) op a.typeHash a.siteId

theorem StartedBy.concat {s : Runtime} {ops : List Op} {k : Nat} {a : Allocation}
    (h : StartedBy s ops k a) (op : Op) : StartedBy s (ops ++ [op]) k a := by
  obtain ⟨start, hk, hf⟩ := h
  have hlt : k < ops.length := (List.getElem?_eq_some_iff.mp hk).1
  refine ⟨start, ?_, ?_⟩
  · rw [List.getElem?_append_left hlt, hk]
  · rwa [List.take_append_of_le_length hlt.le]

theorem StartedBy.last {s : Runtime} {ops : List Op} {op : Op} {a : Allocation}
    (hf : FixedBy (s.after ops) op a.typeHash a.siteId) :
    StartedBy s (ops ++ [op]) ops.length a := by
  refine ⟨op, List.getElem?_concat_length, ?_⟩
  rwa [List.take_append_of_le_length le_rfl, List.take_length]

/-- **Every live record carries what the start of its chain fixed.** -/
theorem chainStart_spec {s : Runtime} (hs : Sound s)
    (hempty : ∀ p, s.allocations.find p = none) (ops : List Op) :
    ∀ p a, (s.after ops).allocations.find p = some a →
      ∃ k, chainStart s ops p = some k ∧ StartedBy s ops k a := by
  induction ops using List.reverseRecOn with
  | nil =>
    intro p a hp
    rw [after_nil, hempty p] at hp
    cases hp
  | append_singleton ops op ih =>
    intro p a hp
    have h : Sound (s.after ops) := sound_after hs ops
    rw [after_concat] at hp
    rw [chainStart_concat]
    cases hold : (s.after ops).allocations.find p with
    | some b =>
      -- the record was there before
      obtain rfl := find_step_old h.layout hold hp
      obtain ⟨k, hk, hstart⟩ := ih p a hold
      exact ⟨k, by rw [if_neg (fun hc => nomatch hc.1), hk], hstart.concat op⟩
    | none =>
      rw [if_pos ⟨rfl, by rw [hp]; exact nofun⟩]
      rcases find_step_new h hold hp with hf | ⟨q, n, b, rfl, hq, hhash, hsite⟩
      · refine ⟨ops.length, ?_, StartedBy.last hf⟩
        cases op with
        | reallocate q n => exact hf.reallocate_false.elim
        | _ => rfl
      · -- the record was moved here from `q`
        obtain ⟨k, hk, start, hget, hfix⟩ := ih q b hq
        rw [← hhash, ← hsite] at hfix
        exact ⟨k, hk, StartedBy.concat ⟨start, hget, hfix⟩ _⟩

/-! ### Bindings are permanent -/

/-- Everything bound in `s` is bound the same in `t`. -/
structure Keeps (s t : Runtime) : Prop where
  types : ∀ id k, s.types.find id = some k → t.types.find id = some k
  typeIds : ∀ k id, s.typeIds.find k = some id → t.typeIds.find k = some id
  sites : ∀ b site, s.sites.find b = some site → t.sites.find b = some site
  sitesById : ∀ id b, s.sitesById.find id = some b → t.sitesById.find id = some b
  siteTypes : ∀ id k, s.siteTypes.find id = some k → t.siteTypes.find id = some k

theorem Keeps.refl (s : Runtime) : Keeps s s :=
  ⟨fun _ _ h => h, fun _ _ h => h, fun _ _ h => h, fun _ _ h => h, fun _ _ h => h⟩

theorem Keeps.trans (s t r : Runtime) (h1 : Keeps s t) (h2 : Keeps t r) : Keeps s r :=
  ⟨fun _ _ h => h2.types _ _ (h1.types _ _ h), fun _ _ h => h2.typeIds _ _ (h1.typeIds _ _ h),
    fun _ _ h => h2.sites _ _ (h1.sites _ _ h),
    fun _ _ h => h2.sitesById _ _ (h1.sitesById _ _ h),
    fun _ _ h => h2.siteTypes _ _ (h1.siteTypes _ _ h)⟩

theorem Change.keeps {s t : Runtime} (hc : Change s t) : Keeps s t := by
  cases hc with
  | bindType _ hnew hhash =>
    exact { Keeps.refl s with
      types := fun _ _ h => find_of_fresh (find_types_bindType hnew _) hnew h
      typeIds := fun _ _ h => find_of_fresh (find_typeIds_bindType hhash _) hhash h }
  | bindSite _ _ hnew =>
    exact { Keeps.refl s with
      siteTypes := fun _ _ h => find_of_fresh (find_siteTypes_bindSite hnew _) hnew h }
  | bindRange _ _ _ _ hnew hsite _ hbase =>
    exact { Keeps.refl s with
      sites := fun _ _ h => find_of_fresh (find_sites_bindRange hbase) hbase h
      sitesById := fun _ _ h => find_of_fresh (find_sitesById_bindRange hnew) hnew h
      siteTypes := fun _ _ h => find_of_fresh (find_siteTypes_bindRange hsite) hsite h }
  | _ => exact { Keeps.refl s with }

theorem keeps_after {s : Runtime} (h : Layout s) (ops : List Op) : Keeps s (s.after ops) :=
  Machine.after_relation Keeps.refl Keeps.trans layout_step
    (fun _ op hs => (step_change hs op).keeps) ops s h

/-! ### Records agree with their sites -/

/-- A record with a site id carries the hash that site is bound to. -/
def Labelled (s : Runtime) : Prop :=
  ∀ p a, s.allocations.find p = some a → a.siteId ≠ 0 →
    s.siteTypes.find a.siteId = some a.typeHash

theorem Authority.label {s : Runtime} (h : Registry s) {typeHash : UInt64} {siteId : SiteId}
    (ha : Authority s typeHash siteId) (hne : siteId ≠ 0) :
    s.siteTypes.find siteId = some typeHash := by
  cases ha with
  | type => exact absurd rfl hne
  | site hi => exact hi
  | range hs =>
    have hmem := (findSiteUnlocked_eq_some h).mp hs
    exact (h.inRegistry _ _ (h.mem_sites.mp hmem.1)).siteType

theorem labelled_record {s : Runtime} (h : Layout s) (hlab : Labelled s) {typeHash : UInt64}
    {siteId : SiteId} (hnew : siteId ≠ 0 → s.siteTypes.find siteId = some typeHash)
    (size : UInt64) : Labelled (s.record size typeHash siteId) := by
  intro p a hp hne
  rw [find_record h] at hp
  split at hp
  · cases hp
    exact hnew hne
  · exact hlab p a hp hne

theorem labelled_remove {s : Runtime} (hlab : Labelled s) (q : UInt64) : Labelled (s.remove q) := by
  intro p a hp hne
  rw [find_remove] at hp
  split at hp
  · cases hp
  · exact hlab p a hp hne

theorem Change.labelled {s t : Runtime} (hc : Change s t) (h : Sound s) (hlab : Labelled s) :
    Labelled t := by
  have hkeep := hc.keeps
  cases hc with
  | same => exact hlab
  | bindType => exact hlab
  | bindSite => exact fun p a hp hne => hkeep.siteTypes _ _ (hlab p a hp hne)
  | bindRange => exact fun p a hp hne => hkeep.siteTypes _ _ (hlab p a hp hne)
  | record ha => exact labelled_record h.layout hlab (fun hne => ha.label h.registry hne) _
  | remove => exact labelled_remove hlab _
  | move hlive =>
    exact labelled_remove
      (labelled_record h.layout hlab (fun hne => hlab _ _ hlive hne) _) _

theorem labelled_reachable (arenaBase arenaSize : UInt64) (ops : List Op) :
    Labelled ((new arenaBase arenaSize).after ops) :=
  (Machine.after_induction (P := fun s => Sound s ∧ Labelled s)
    (fun s op h => ⟨sound_step s op h.1, (step_change h.1.layout op).labelled h.1 h.2⟩) ops _
    ⟨sound_new arenaBase arenaSize, nofun⟩).2

theorem find_after_old {s : Runtime} (h : Layout s) (later : List Op) {p : UInt64}
    {a b : Allocation} (hp : s.allocations.find p = some a)
    (hp' : (s.after later).allocations.find p = some b) : b = a := by
  rcases (grows_after h later).old_or_above p b hp' with hold | habove
  · rw [hp] at hold
    exact (Option.some.inj hold).symm
  · have hlt := h.base_lt_cursor hp
    have hin := h.inArena p a hp
    have hpos := roundUp8_pos (Nat.ne_of_gt hin.size_pos)
    rw [h.toNat_cursor hin.valid] at hlt
    omega

/-- **Provenance and type authority.**  Every live record carries the type hash
and the site id fixed by the call that started its chain: the hash registered
for the type and site 0, the hash bound to the site, or the hash and the id of
the one range that contains the pc.  No later calls change the hash or the site
of a live record, or rebind a type or a site; a record with a site id carries
the hash of the site's binding; and without a call of `allocate` no record has
site 0. -/
theorem provenance (arenaBase arenaSize : UInt64) (ops : List Op) :
    let s := (new arenaBase arenaSize).after ops
    (∀ p a, s.allocations.find p = some a → ∃ k op,
      chainStart (new arenaBase arenaSize) ops p = some k ∧ ops[k]? = some op ∧
      FixedBy ((new arenaBase arenaSize).after (ops.take k)) op a.typeHash a.siteId) ∧
    (∀ later p a b, s.allocations.find p = some a →
      (s.after later).allocations.find p = some b →
      b.typeHash = a.typeHash ∧ b.siteId = a.siteId) ∧
    (∀ later t k, s.types.find t = some k → (s.after later).types.find t = some k) ∧
    (∀ later i k, s.siteTypes.find i = some k → (s.after later).siteTypes.find i = some k) ∧
    (∀ p a, s.allocations.find p = some a → a.siteId ≠ 0 →
      s.siteTypes.find a.siteId = some a.typeHash) ∧
    ((∀ size t, Op.allocate size t ∉ ops) →
      ∀ p a, s.allocations.find p = some a → a.siteId ≠ 0) := by
  intro s
  have h0 := sound_new arenaBase arenaSize
  have h : Sound s := sound_after h0 ops
  have hchain := chainStart_spec h0 (fun _ => rfl) ops
  refine ⟨fun p a hp => ?_, fun later p a b hp hp' => ?_,
    fun later => (keeps_after h.layout later).types,
    fun later => (keeps_after h.layout later).siteTypes, labelled_reachable arenaBase arenaSize ops,
    fun hnever p a hp hzero => ?_⟩
  · obtain ⟨k, hk, op, hget, hfix⟩ := hchain p a hp
    exact ⟨k, op, hk, hget, hfix⟩
  · rw [find_after_old h.layout later hp hp']
    exact ⟨rfl, rfl⟩
  · obtain ⟨k, _, op, hget, hfix⟩ := hchain p a hp
    have hreg := (sound_after h0 (ops.take k)).registry
    obtain ⟨size, t, rfl⟩ := hfix.site_zero hreg hzero
    exact hnever size t (List.mem_of_getElem? hget)

end InterSpec.Runtime
