import Mathlib.Order.Interval.Set.Disjoint
import InterSpec.Runtime.Registration

/-!
# A batch of registrations

Sites are registered one by one, with a range (`register_allocation_site`) or without one
(`register_allocation_site_id`), and a new range is compared with its two neighbours at
that moment.  That is as good as a comparison of all pairs, in any order.

* `Accepts s r`: the call `r` would be accepted by `s`.
* `accepts_register`: a call that is accepted leaves acceptable just the calls it is
  `Compatible` with.
* `registerEach_eq_true`: a batch is accepted when each call is, and each pair of them is
  compatible.
* `HoldsBatch`: what an accepted batch leaves, which says nothing about its order.
* `batch_exact`: the two together, from a state without sites.
-/

namespace InterSpec

namespace Runtime

/-- A call that registers a site. -/
inductive Registration
  | byId (id : SiteId) (typeId : TypeId)
  | range (id : SiteId) (beginPc endPc : UInt64) (typeId : TypeId)
deriving DecidableEq, Repr

namespace Registration

def id : Registration → SiteId
  | .byId id _ => id
  | .range id _ _ _ => id

def typeId : Registration → TypeId
  | .byId _ typeId => typeId
  | .range _ _ _ typeId => typeId

/-- The program counters of the range, from `begin` up to `end`. -/
def pcs : Registration → Set UInt64
  | .byId _ _ => ∅
  | .range _ beginPc endPc _ => Set.Ico beginPc endPc

/-- A range has `0 < begin < end`. -/
def Proper : Registration → Prop
  | .byId _ _ => True
  | .range _ beginPc endPc _ => 0 < beginPc ∧ beginPc < endPc

instance decidableProper (r : Registration) : Decidable r.Proper :=
  match r with
  | .byId _ _ => inferInstanceAs (Decidable True)
  | .range _ _ _ _ => inferInstanceAs (Decidable (_ ∧ _))

/-- The range as it is stored. -/
def site? (typeHash : UInt64) : Registration → Option AllocationSite
  | .byId _ _ => none
  | .range id beginPc endPc typeId => some ⟨id, beginPc, endPc, typeId, typeHash⟩

end Registration

def register : Machine Runtime Registration Bool := fun s r =>
  match r with
  | .byId id typeId => s.registerAllocationSiteId id typeId
  | .range id beginPc endPc typeId => s.registerAllocationSite id beginPc endPc typeId

/-! ### One call -/

/-- The call would be accepted. -/
structure Accepts (s : Runtime) (r : Registration) : Prop where
  id_ne_zero : r.id ≠ 0
  known : ∃ typeHash, s.types.find r.typeId = some typeHash
  proper : r.Proper
  id_new : s.siteTypes.find r.id = none
  free : ∀ b site, s.sites.find b = some site → Disjoint r.pcs (Set.Ico site.beginPc site.endPc)

/-- The state after the call has been accepted. -/
def bind (s : Runtime) (r : Registration) (typeHash : UInt64) : Runtime :=
  match r with
  | .byId id _ => s.bindSite id typeHash
  | .range id beginPc endPc typeId => s.bindRange ⟨id, beginPc, endPc, typeId, typeHash⟩

theorem disjoint_Ico_iff {a b c d : UInt64} (hab : a < b) (hcd : c < d) :
    Disjoint (Set.Ico a b) (Set.Ico c d) ↔ b ≤ c ∨ d ≤ a := by
  rw [Set.Ico_disjoint_Ico, min_le_iff, le_max_iff, le_max_iff]
  constructor
  · rintro ((h | h) | (h | h))
    · exact absurd hab (not_lt.mpr h)
    · exact .inl h
    · exact .inr h
    · exact absurd hcd (not_lt.mpr h)
  · rintro (h | h)
    · exact .inl (.inr h)
    · exact .inr (.inl h)

theorem register_of_accepts {s : Runtime} (h : Registry s) {r : Registration} (hr : Accepts s r)
    {typeHash : UInt64} (ht : s.types.find r.typeId = some typeHash) :
    register s r = (s.bind r typeHash, true) ∧ Change s (s.bind r typeHash) := by
  cases r with
  | byId id typeId =>
    exact ⟨registerAllocationSiteId_of_ready (e := (id, typeId)) hr.id_ne_zero hr.id_new ht,
      .bindSite hr.id_ne_zero ht hr.id_new⟩
  | range id beginPc endPc typeId =>
    obtain ⟨hpos, hlt⟩ := hr.proper
    obtain ⟨heq, hbyId, hfind, hover⟩ := registerAllocationSite_of_free h hr.id_ne_zero hpos hlt ht
      hr.id_new (fun b site hb =>
        (disjoint_Ico_iff hlt (h.inRegistry b site hb).nonempty).mp (hr.free b site hb))
    exact ⟨heq, .bindRange hr.id_ne_zero hpos.ne' hlt ht hbyId hr.id_new hover hfind⟩

theorem Registry.disjoint {s : Runtime} (h : Registry s) {b c : UInt64} {x y : AllocationSite}
    (hb : s.sites.find b = some x) (hc : s.sites.find c = some y) (hne : b ≠ c) :
    Disjoint (Set.Ico x.beginPc x.endPc) (Set.Ico y.beginPc y.endPc) := by
  refine Set.disjoint_left.mpr (fun pc hx hy => hne ?_)
  exact h.separated.key_unique hb hc ((h.contains_iff hb).mpr hx) ((h.contains_iff hc).mpr hy)

/-- **A call that is accepted has a range that is clear of all the others**, although only
two of them were looked at. -/
theorem accepts_of_register {s : Runtime} (h : Registry s) {r : Registration}
    (hr : (register s r).2 = true) : Accepts s r := by
  cases r with
  | byId id typeId =>
    rcases s.registerAllocationSiteId_eq id typeId with he | ⟨typeHash, ht, ⟨hid, hnew⟩, _⟩
    · rw [show register s (.byId id typeId) = (s, false) from he] at hr
      cases hr
    · exact ⟨hid, ⟨typeHash, ht⟩, trivial, hnew, fun _ _ _ => Set.empty_disjoint _⟩
  | range id beginPc endPc typeId =>
    rcases s.registerAllocationSite_eq id beginPc endPc typeId with
      he | ⟨typeHash, ht, ⟨hid, hpos, hlt, hbyId, hnew, hover, hbase⟩, _⟩
    · rw [show register s (.range id beginPc endPc typeId) = (s, false) from he] at hr
      cases hr
    · refine ⟨hid, ⟨typeHash, ht⟩, ⟨UInt64.pos_iff_ne_zero.mpr hpos, hlt⟩, hnew,
        fun b site hb => ?_⟩
      -- in the state with the new range both ranges are registered
      have hbound : Registry (s.bindRange ⟨id, beginPc, endPc, typeId, typeHash⟩) :=
        h.bindRange hid hpos hlt ht hbyId hnew hover hbase
      have hfind := @find_sites_bindRange s ⟨id, beginPc, endPc, typeId, typeHash⟩ hbase
      have hne : beginPc ≠ b := by
        rintro rfl
        rw [hbase] at hb
        cases hb
      exact hbound.disjoint ((hfind beginPc).trans (if_pos rfl)) (find_of_fresh hfind hbase hb) hne

theorem register_eq_true {s : Runtime} (h : Registry s) {r : Registration} :
    (register s r).2 = true ↔ Accepts s r := by
  refine ⟨accepts_of_register h, fun hr => ?_⟩
  obtain ⟨typeHash, ht⟩ := hr.known
  rw [(register_of_accepts h hr ht).1]

/-! ### What an accepted call leaves -/

theorem bind_types (s : Runtime) (r : Registration) (typeHash : UInt64) :
    (s.bind r typeHash).types = s.types := by
  cases r <;> rfl

theorem find_siteTypes_bind {s : Runtime} {r : Registration} (hr : Accepts s r)
    (typeHash : UInt64) (i : SiteId) : (s.bind r typeHash).siteTypes.find i =
      if i = r.id then some typeHash else s.siteTypes.find i := by
  cases r with
  | byId id typeId => exact find_siteTypes_bindSite hr.id_new typeHash i
  | range id beginPc endPc typeId =>
    exact @find_siteTypes_bindRange s ⟨id, beginPc, endPc, typeId, typeHash⟩ hr.id_new i

theorem find_siteTypes_bind_eq_some {s : Runtime} {r : Registration} (hr : Accepts s r)
    {typeHash k : UInt64} {i : SiteId} : (s.bind r typeHash).siteTypes.find i = some k ↔
      s.siteTypes.find i = some k ∨ r.id = i ∧ typeHash = k := by
  rw [find_siteTypes_bind hr]
  by_cases hi : i = r.id
  · subst hi
    simp [hr.id_new]
  · simp [hi, Ne.symm hi]

theorem sites_find_of_accepts {s : Runtime} (h : Registry s) {id : SiteId}
    {beginPc endPc : UInt64} {typeId : TypeId} (hr : Accepts s (.range id beginPc endPc typeId)) :
    s.sites.find beginPc = none :=
  sites_find_of_free h hr.proper.2 (fun b site hb =>
    (disjoint_Ico_iff hr.proper.2 (h.inRegistry b site hb).nonempty).mp (hr.free b site hb))

theorem find_sites_bind {s : Runtime} (h : Registry s) {r : Registration} (hr : Accepts s r)
    {typeHash b : UInt64} {site : AllocationSite} :
    (s.bind r typeHash).sites.find b = some site ↔
      s.sites.find b = some site ∨ r.site? typeHash = some site ∧ site.beginPc = b := by
  cases r with
  | byId id typeId => exact ⟨.inl, fun hs => hs.resolve_right (fun hc => nomatch hc.1)⟩
  | range id beginPc endPc typeId =>
    refine (SortedMap.find_emplace_eq_some (sites_find_of_accepts h hr)).trans
      (or_congr_right ⟨?_, ?_⟩)
    · rintro ⟨rfl, rfl⟩
      exact ⟨rfl, rfl⟩
    · rintro ⟨hs, rfl⟩
      cases hs
      exact ⟨rfl, rfl⟩

theorem find_sitesById_bind {s : Runtime} (h : Registry s) {r : Registration} (hr : Accepts s r)
    {typeHash b : UInt64} {i : SiteId} :
    (s.bind r typeHash).sitesById.find i = some b ↔ s.sitesById.find i = some b ∨
      ∃ site, r.site? typeHash = some site ∧ site.id = i ∧ site.beginPc = b := by
  cases r with
  | byId id typeId => exact ⟨.inl, fun hs => hs.resolve_right (fun ⟨_, hc, _⟩ => nomatch hc)⟩
  | range id beginPc endPc typeId =>
    refine (SortedMap.find_emplace_eq_some (sitesById_find_of_new h hr.id_new)).trans
      (or_congr_right ⟨?_, ?_⟩)
    · rintro ⟨rfl, rfl⟩
      exact ⟨_, rfl, rfl, rfl⟩
    · rintro ⟨site, hs, rfl, rfl⟩
      cases hs
      exact ⟨rfl, rfl⟩

/-- Two calls of one batch do not stand in each other's way. -/
def Compatible (r q : Registration) : Prop := r.id ≠ q.id ∧ Disjoint r.pcs q.pcs

theorem Compatible.symm {r q : Registration} (h : Compatible r q) : Compatible q r :=
  ⟨h.1.symm, h.2.symm⟩

/-- **An accepted call leaves acceptable just the calls it is compatible with.** -/
theorem accepts_bind {s : Runtime} (h : Registry s) {r : Registration} (hr : Accepts s r)
    {typeHash : UInt64} (q : Registration) :
    Accepts (s.bind r typeHash) q ↔ Accepts s q ∧ Compatible r q := by
  constructor
  · intro hq
    have hnew := hq.id_new
    rw [find_siteTypes_bind hr] at hnew
    have hne : q.id ≠ r.id := fun hc => by
      rw [if_pos hc] at hnew
      cases hnew
    rw [if_neg hne] at hnew
    refine ⟨⟨hq.id_ne_zero, bind_types s r typeHash ▸ hq.known, hq.proper, hnew, fun b site hb =>
      hq.free b site ((find_sites_bind h hr).mpr (.inl hb))⟩, hne.symm, ?_⟩
    cases r with
    | byId id typeId => exact Set.empty_disjoint _
    | range id beginPc endPc typeId =>
      exact (hq.free beginPc _ ((find_sites_bind h hr).mpr (.inr ⟨rfl, rfl⟩))).symm
  · rintro ⟨hq, hne, hapart⟩
    refine ⟨hq.id_ne_zero, (bind_types s r typeHash).symm ▸ hq.known, hq.proper, ?_,
      fun b site hb => ?_⟩
    · rw [find_siteTypes_bind hr, if_neg hne.symm]
      exact hq.id_new
    · rcases (find_sites_bind h hr).mp hb with hb | ⟨hs, _⟩
      · exact hq.free b site hb
      · cases r with
        | byId id typeId => cases hs
        | range id beginPc endPc typeId =>
          cases hs
          exact hapart.symm

/-! ### A batch -/

/-- **A batch is accepted exactly when each of its calls would be, and no two of them stand
in each other's way.** -/
theorem registerEach_eq_true {batch : List Registration} : ∀ {s : Runtime}, Registry s →
    ((∀ ok ∈ Machine.outputs register s batch, ok = true) ↔
      (∀ r ∈ batch, Accepts s r) ∧ batch.Pairwise Compatible) := by
  induction batch with
  | nil => intro s _; exact iff_of_true nofun ⟨nofun, .nil⟩
  | cons r batch ih =>
    intro s h
    rw [Machine.outputs_cons, List.forall_mem_cons, List.forall_mem_cons, List.pairwise_cons,
      register_eq_true h, and_assoc]
    refine and_congr_right (fun hr => ?_)
    obtain ⟨typeHash, ht⟩ := hr.known
    obtain ⟨heq, hchange⟩ := register_of_accepts h hr ht
    rw [heq, ih (hchange.registry h)]
    simp only [accepts_bind h hr, forall_and, and_assoc]

/-- The state `t` is `s` with the sites of a batch.  Nothing here depends on the order of
the batch. -/
structure HoldsBatch (s : Runtime) (batch : List Registration) (t : Runtime) : Prop where
  frame : ∃ sites sitesById siteTypes,
    t = { s with sites := sites, sitesById := sitesById, siteTypes := siteTypes }
  siteTypes : ∀ i typeHash, t.siteTypes.find i = some typeHash ↔
    s.siteTypes.find i = some typeHash ∨
      ∃ r ∈ batch, r.id = i ∧ s.types.find r.typeId = some typeHash
  sites : ∀ b site, t.sites.find b = some site ↔ s.sites.find b = some site ∨
    ∃ r ∈ batch, ∃ typeHash, s.types.find r.typeId = some typeHash ∧
      r.site? typeHash = some site ∧ site.beginPc = b
  sitesById : ∀ i b, t.sitesById.find i = some b ↔ s.sitesById.find i = some b ∨
    ∃ r ∈ batch, ∃ typeHash, s.types.find r.typeId = some typeHash ∧
      ∃ site, r.site? typeHash = some site ∧ site.id = i ∧ site.beginPc = b

theorem holdsBatch_nil (s : Runtime) : HoldsBatch s [] s where
  frame := ⟨s.sites, s.sitesById, s.siteTypes, rfl⟩
  siteTypes i typeHash := by simp
  sites b site := by simp
  sitesById i b := by simp

theorem HoldsBatch.cons {s t : Runtime} (h : Registry s) {r : Registration}
    {batch : List Registration} (hr : Accepts s r) {typeHash : UInt64}
    (ht : s.types.find r.typeId = some typeHash) (hh : HoldsBatch (s.bind r typeHash) batch t) :
    HoldsBatch s (r :: batch) t where
  frame := by
    obtain ⟨sites, sitesById, siteTypes, hframe⟩ := hh.frame
    refine ⟨sites, sitesById, siteTypes, ?_⟩
    rw [hframe]
    cases r <;> rfl
  siteTypes i k := by
    rw [hh.siteTypes, bind_types, find_siteTypes_bind_eq_some hr]
    simp only [List.mem_cons, exists_eq_or_imp, ht, Option.some.injEq, or_assoc]
  sites b site := by
    rw [hh.sites, bind_types, find_sites_bind h hr]
    simp only [List.mem_cons, exists_eq_or_imp, ht, Option.some.injEq, exists_eq_left', or_assoc]
  sitesById i b := by
    rw [hh.sitesById, bind_types, find_sitesById_bind h hr]
    simp only [List.mem_cons, exists_eq_or_imp, ht, Option.some.injEq, exists_eq_left', or_assoc]

/-- **What an accepted batch leaves.** -/
theorem holdsBatch_of_accepted {batch : List Registration} : ∀ {s : Runtime}, Registry s →
    (∀ ok ∈ Machine.outputs register s batch, ok = true) →
    HoldsBatch s batch (Machine.after register s batch) := by
  induction batch with
  | nil => intro s _ _; exact holdsBatch_nil s
  | cons r batch ih =>
    intro s h hok
    rw [Machine.outputs_cons, List.forall_mem_cons] at hok
    have hr := (register_eq_true h).mp hok.1
    obtain ⟨typeHash, ht⟩ := hr.known
    obtain ⟨heq, hchange⟩ := register_of_accepts h hr ht
    rw [heq] at hok
    rw [Machine.after_cons, heq]
    exact (ih (hchange.registry h) hok.2).cons h hr ht

theorem HoldsBatch.perm {s t : Runtime} {batch other : List Registration}
    (h : HoldsBatch s batch t) (hperm : batch.Perm other) : HoldsBatch s other t where
  frame := h.frame
  siteTypes i k := by simp only [h.siteTypes, hperm.mem_iff]
  sites b site := by simp only [h.sites, hperm.mem_iff]
  sitesById i b := by simp only [h.sitesById, hperm.mem_iff]

/-- The batch decides the state. -/
theorem HoldsBatch.unique {s t t' : Runtime} {batch : List Registration}
    (h : HoldsBatch s batch t) (h' : HoldsBatch s batch t') : t = t' := by
  have hsites : t.sites = t'.sites := SortedMap.ext_find (fun b => Option.ext (fun site =>
    (h.sites b site).trans (h'.sites b site).symm))
  have hbyId : t.sitesById = t'.sitesById := SortedMap.ext_find (fun i => Option.ext (fun b =>
    (h.sitesById i b).trans (h'.sitesById i b).symm))
  have htypes : t.siteTypes = t'.siteTypes := SortedMap.ext_find (fun i => Option.ext (fun k =>
    (h.siteTypes i k).trans (h'.siteTypes i k).symm))
  obtain ⟨sites, sitesById, siteTypes, rfl⟩ := h.frame
  obtain ⟨sites', sitesById', siteTypes', rfl⟩ := h'.frame
  cases hsites
  cases hbyId
  cases htypes
  rfl

/-- **The state after an accepted batch does not depend on its order.** -/
theorem after_perm {s : Runtime} (h : Registry s) {batch other : List Registration}
    (hperm : batch.Perm other) (hok : ∀ ok ∈ Machine.outputs register s batch, ok = true) :
    (∀ ok ∈ Machine.outputs register s other, ok = true) ∧
      Machine.after register s other = Machine.after register s batch := by
  have hother : ∀ ok ∈ Machine.outputs register s other, ok = true := by
    obtain ⟨hall, hpair⟩ := (registerEach_eq_true h).mp hok
    exact (registerEach_eq_true h).mpr ⟨fun r hr => hall r (hperm.mem_iff.mpr hr),
      hperm.pairwise hpair Compatible.symm⟩
  exact ⟨hother, (holdsBatch_of_accepted h hother).unique
    ((holdsBatch_of_accepted h hok).perm hperm)⟩

/-- What a batch must be like when no site is registered yet. -/
structure ValidBatch (s : Runtime) (batch : List Registration) : Prop where
  id_ne_zero : ∀ r ∈ batch, r.id ≠ 0
  nodup : (batch.map Registration.id).Nodup
  known : ∀ r ∈ batch, ∃ typeHash, s.types.find r.typeId = some typeHash
  proper : ∀ r ∈ batch, r.Proper
  disjoint : batch.Pairwise (fun r q => Disjoint r.pcs q.pcs)

theorem accepts_iff_valid {s : Runtime} (h : Registry s) (hsites : s.allocationSiteCount = 0)
    {batch : List Registration} :
    (∀ r ∈ batch, Accepts s r) ∧ batch.Pairwise Compatible ↔ ValidBatch s batch := by
  have hempty : ∀ i, s.siteTypes.find i = none := SortedMap.find_of_size_zero hsites
  have hnosite : ∀ b, s.sites.find b = none := fun b => by
    cases hb : s.sites.find b with
    | none => rfl
    | some site =>
      have htype := (h.inRegistry b site hb).siteType
      rw [hempty] at htype
      cases htype
  have hcompatible : batch.Pairwise Compatible ↔ (batch.map Registration.id).Nodup ∧
      batch.Pairwise (fun r q => Disjoint r.pcs q.pcs) := by
    rw [List.Nodup, List.pairwise_map, ← List.pairwise_and_iff]
    rfl
  rw [hcompatible]
  constructor
  · rintro ⟨hall, hnodup, hdisjoint⟩
    exact ⟨fun r hr => (hall r hr).id_ne_zero, hnodup, fun r hr => (hall r hr).known,
      fun r hr => (hall r hr).proper, hdisjoint⟩
  · intro hv
    refine ⟨fun r hr => ⟨hv.id_ne_zero r hr, hv.known r hr, hv.proper r hr, hempty r.id,
      fun b site hb => ?_⟩, hv.nodup, hv.disjoint⟩
    rw [hnosite] at hb
    cases hb

/-- **Batch registration is exact and order independent.**  In a reachable state without
sites a list of registrations is accepted, call by call, exactly when its ids are not 0 and
pairwise different, its types are registered, its ranges have `0 < begin < end` and are
pairwise disjoint.  Every permutation of the list is then accepted too, and leads to the
same lookups by program counter and by id. -/
theorem batch_exact (arenaBase arenaSize : UInt64) (ops : List Op)
    (hsites : ((new arenaBase arenaSize).after ops).allocationSiteCount = 0)
    (batch : List Registration) :
    let s := (new arenaBase arenaSize).after ops
    ((∀ ok ∈ Machine.outputs register s batch, ok = true) ↔ ValidBatch s batch) ∧
    ((∀ ok ∈ Machine.outputs register s batch, ok = true) →
      ∀ other, batch.Perm other →
        (∀ ok ∈ Machine.outputs register s other, ok = true) ∧
        (∀ pc, (Machine.after register s other).findSiteUnlocked pc =
          (Machine.after register s batch).findSiteUnlocked pc) ∧
        (∀ id, (Machine.after register s other).findSiteByIdUnlocked id =
          (Machine.after register s batch).findSiteByIdUnlocked id) ∧
        (∀ id, (Machine.after register s other).siteTypes.find id =
          (Machine.after register s batch).siteTypes.find id)) := by
  intro s
  have h : Registry s := (sound_reachable arenaBase arenaSize ops).registry
  refine ⟨?_, fun hok other hperm => ?_⟩
  · rw [registerEach_eq_true h]
    exact accepts_iff_valid h hsites
  · obtain ⟨hother, heq⟩ := after_perm h hperm hok
    rw [heq]
    exact ⟨hother, fun _ => rfl, fun _ => rfl, fun _ => rfl⟩

/-- Two ranges that touch and a site without a range, from the last to the first. -/
theorem batch_exact_touching :
    let s := (new 16 64).after [.registerType 1 7]
    ∀ ok ∈ Machine.outputs register s [.range 3 104 108 1, .byId 2 1, .range 1 100 104 1],
      ok = true := by
  have h := batch_exact 16 64 [.registerType 1 7] (by decide)
    [.range 1 100 104 1, .byId 2 1, .range 3 104 108 1]
  exact (h.2 (by decide) _ (List.reverse_perm _).symm).1

end Runtime

end InterSpec
