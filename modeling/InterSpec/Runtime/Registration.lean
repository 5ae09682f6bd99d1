import InterSpec.Runtime.Registry

/-!
# Registering tables

A generated policy registers its types and its sites in loops over constant
tables.  Each loop is exact about when it succeeds, and a loop that succeeds
leaves just the entries of its table.

* `registerTypes`: the loop over the types goes on after a refusal and reports
  it at the end (`registerTypes_eq_true`, `registerTypes_find`).
* `registerAll`: the loop over the sites stops at the first refusal.
* `registerSiteIds_spec`, `registerRanges_spec`: its two instances.
-/

namespace InterSpec

namespace Runtime

/-! ### Types -/

/-- `ok = runtime.register_type(id, hash) && ok;` for each entry. -/
def registerTypesFrom (ok : Bool) (s : Runtime) : List (TypeId × UInt64) → Runtime × Bool
  | [] => (s, ok)
  | e :: rest =>
    registerTypesFrom ((s.registerType e.1 e.2).2 && ok) (s.registerType e.1 e.2).1 rest

def registerTypes (s : Runtime) (entries : List (TypeId × UInt64)) : Runtime × Bool :=
  registerTypesFrom true s entries

/-- The entry would be accepted alone. -/
def FreshType (s : Runtime) (e : TypeId × UInt64) : Prop :=
  e.1 ≠ 0 ∧ s.types.find e.1 = none ∧ s.typeIds.find e.2 = none

theorem registerType_of_fresh {s : Runtime} {e : TypeId × UInt64} (h : FreshType s e) :
    s.registerType e.1 e.2 = (s.bindType e.1 e.2, true) := by
  refine if_neg ?_
  rintro (h0 | h1 | h2)
  · exact h.1 h0
  · exact h1 h.2.1
  · exact h2 h.2.2

theorem registerType_of_not_fresh {s : Runtime} {e : TypeId × UInt64} (h : ¬ FreshType s e) :
    s.registerType e.1 e.2 = (s, false) := by
  refine if_pos ?_
  by_cases h0 : e.1 = 0
  · exact .inl h0
  · by_cases h1 : s.types.find e.1 = none
    · exact .inr (.inr (fun h2 => h ⟨h0, h1, h2⟩))
    · exact .inr (.inl h1)

theorem freshType_bindType {s : Runtime} {e f : TypeId × UInt64} (h : FreshType s e) :
    FreshType (s.bindType e.1 e.2) f ↔ FreshType s f ∧ f.1 ≠ e.1 ∧ f.2 ≠ e.2 := by
  unfold FreshType
  rw [find_types_bindType h.2.1, find_typeIds_bindType h.2.2]
  by_cases h1 : f.1 = e.1
  · rw [if_pos h1]
    exact iff_of_false (fun hc => nomatch hc.2.1) (fun hc => hc.2.1 h1)
  · rw [if_neg h1]
    by_cases h2 : f.2 = e.2
    · rw [if_pos h2]
      exact iff_of_false (fun hc => nomatch hc.2.2) (fun hc => hc.2.2 h2)
    · rw [if_neg h2]
      exact ⟨fun hc => ⟨hc, h1, h2⟩, fun hc => hc.1⟩

theorem registerTypesFrom_false (entries : List (TypeId × UInt64)) : ∀ s : Runtime,
    (registerTypesFrom false s entries).2 = false := by
  induction entries with
  | nil => intro s; rfl
  | cons e entries ih =>
    intro s
    rw [registerTypesFrom, Bool.and_false]
    exact ih _

/-- **The types are registered exactly when every entry is fresh and no two of
them share an id or a hash.** -/
theorem registerTypes_eq_true {entries : List (TypeId × UInt64)} : ∀ {s : Runtime},
    (s.registerTypes entries).2 = true ↔ (∀ e ∈ entries, FreshType s e) ∧
      (entries.map Prod.fst).Nodup ∧ (entries.map Prod.snd).Nodup := by
  unfold registerTypes
  induction entries with
  | nil => intro s; exact iff_of_true rfl ⟨nofun, List.nodup_nil, List.nodup_nil⟩
  | cons e entries ih =>
    intro s
    rw [registerTypesFrom, Bool.and_true, List.forall_mem_cons, List.map_cons, List.map_cons,
      List.nodup_cons, List.nodup_cons]
    by_cases he : FreshType s e
    · rw [registerType_of_fresh he, ih]
      constructor
      · rintro ⟨hall, hfst, hsnd⟩
        refine ⟨⟨he, fun f hf => ((freshType_bindType he).mp (hall f hf)).1⟩,
          ⟨fun hmem => ?_, hfst⟩, ⟨fun hmem => ?_, hsnd⟩⟩
        · obtain ⟨f, hf, hfe⟩ := List.mem_map.mp hmem
          exact ((freshType_bindType he).mp (hall f hf)).2.1 hfe
        · obtain ⟨f, hf, hfe⟩ := List.mem_map.mp hmem
          exact ((freshType_bindType he).mp (hall f hf)).2.2 hfe
      · rintro ⟨⟨_, hall⟩, ⟨hfst, hfst'⟩, ⟨hsnd, hsnd'⟩⟩
        exact ⟨fun f hf => (freshType_bindType he).mpr ⟨hall f hf,
          fun hfe => hfst (List.mem_map.mpr ⟨f, hf, hfe⟩),
          fun hfe => hsnd (List.mem_map.mpr ⟨f, hf, hfe⟩)⟩, hfst', hsnd'⟩
    · rw [registerType_of_not_fresh he]
      exact iff_of_false (by rw [registerTypesFrom_false]; exact nofun) (fun hc => he hc.1.1)

theorem registerTypes_frame (entries : List (TypeId × UInt64)) : ∀ (ok : Bool) (s : Runtime),
    ∃ types typeIds, (registerTypesFrom ok s entries).1 =
      { s with types := types, typeIds := typeIds } := by
  induction entries with
  | nil => intro ok s; exact ⟨s.types, s.typeIds, rfl⟩
  | cons e entries ih =>
    intro ok s
    obtain ⟨types, typeIds, h⟩ := ih ((s.registerType e.1 e.2).2 && ok) (s.registerType e.1 e.2).1
    refine ⟨types, typeIds, ?_⟩
    rw [registerTypesFrom, h]
    by_cases he : FreshType s e
    · rw [registerType_of_fresh he]
      rfl
    · rw [registerType_of_not_fresh he]

/-- **After all the entries are registered the type map holds them and what it
held before.** -/
theorem registerTypes_find {entries : List (TypeId × UInt64)} : ∀ {s : Runtime},
    (s.registerTypes entries).2 = true → ∀ id typeHash,
      ((s.registerTypes entries).1.types.find id = some typeHash ↔
        s.types.find id = some typeHash ∨ (id, typeHash) ∈ entries) := by
  unfold registerTypes
  induction entries with
  | nil =>
    intro s _ id typeHash
    exact ⟨.inl, fun h => h.elim (fun hs => hs) (fun hm => nomatch hm)⟩
  | cons e entries ih =>
    intro s h id typeHash
    rw [registerTypesFrom, Bool.and_true] at h ⊢
    by_cases he : FreshType s e
    · rw [registerType_of_fresh he] at h ⊢
      rw [ih h, find_types_bindType he.2.1, List.mem_cons]
      by_cases hid : id = e.1
      · rw [if_pos hid, hid, he.2.1]
        constructor
        · rintro (hs | hm)
          · exact .inr (.inl (by rw [← Option.some.inj hs]))
          · exact .inr (.inr hm)
        · rintro (hs | hm | hm)
          · cases hs
          · exact .inl (by rw [← hm])
          · exact .inr hm
      · rw [if_neg hid]
        exact or_congr_right ⟨.inr, fun hm => hm.resolve_left (fun hc => hid (by rw [← hc]))⟩
    · rw [registerType_of_not_fresh he, registerTypesFrom_false] at h
      cases h

theorem registerTypes_reachable (entries : List (TypeId × UInt64)) : ∀ s : Runtime,
    ∃ ops, (s.registerTypes entries).1 = s.after ops := by
  unfold registerTypes
  generalize true = ok
  induction entries generalizing ok with
  | nil => intro s; exact ⟨[], rfl⟩
  | cons e entries ih =>
    intro s
    obtain ⟨ops, hops⟩ := ih ((s.registerType e.1 e.2).2 && ok) (s.registerType e.1 e.2).1
    exact ⟨.registerType e.1 e.2 :: ops, hops⟩

theorem sound_registerTypes (entries : List (TypeId × UInt64)) {s : Runtime} (h : Sound s) :
    Sound (s.registerTypes entries).1 := by
  obtain ⟨ops, hops⟩ := registerTypes_reachable entries s
  rw [hops]
  exact sound_after h ops

/-! ### Loops that stop at the first refusal -/

/-- `if (!register(entry)) return false;` for each entry, then `return true;`. -/
def registerAll {α : Type} (register : Runtime → α → Runtime × Bool) (s : Runtime) :
    List α → Runtime × Bool
  | [] => (s, true)
  | e :: rest =>
    if (register s e).2 then registerAll register (register s e).1 rest
    else ((register s e).1, false)

theorem registerAll_append {α : Type} (register : Runtime → α → Runtime × Bool) (l m : List α) :
    ∀ s, registerAll register s (l ++ m) =
      if (registerAll register s l).2 = false then ((registerAll register s l).1, false)
      else registerAll register (registerAll register s l).1 m := by
  induction l with
  | nil => intro s; rfl
  | cons e l ih =>
    intro s
    rw [List.cons_append, registerAll, registerAll]
    by_cases hok : (register s e).2 = true
    · rw [if_pos hok, if_pos hok, ih]
    · rw [if_neg hok, if_neg hok, if_pos rfl]

/-- **What each registration keeps, the loop keeps**, also when it gives up. -/
theorem registerAll_induction {α : Type} {register : Runtime → α → Runtime × Bool}
    {P : Runtime → Prop} {l : List α}
    (hstep : ∀ s, ∀ e ∈ l, P s → P (register s e).1) :
    ∀ s, P s → P (registerAll register s l).1 := by
  induction l with
  | nil => intro s h; exact h
  | cons e l ih =>
    intro s h
    have he := hstep s e List.mem_cons_self h
    rw [registerAll]
    by_cases hok : (register s e).2 = true
    · rw [if_pos hok]
      exact ih (fun s f hf => hstep s f (List.mem_cons_of_mem _ hf)) _ he
    · rw [if_neg hok]
      exact he

/-- **The rule for a loop that succeeds.**  `Ready s l` says that the entries of
`l` can be registered from `s`, and `Holds s l t` what registering them makes of
`s`. -/
theorem registerAll_spec {α : Type} {register : Runtime → α → Runtime × Bool}
    {Ready : Runtime → List α → Prop} {Holds : Runtime → List α → Runtime → Prop}
    (hnil : ∀ s, Ready s [] → Holds s [] s)
    (hcons : ∀ s e l, Ready s (e :: l) → (register s e).2 = true ∧ Ready (register s e).1 l ∧
      ∀ t, Holds (register s e).1 l t → Holds s (e :: l) t) :
    ∀ (l : List α) (s : Runtime), Ready s l →
      (registerAll register s l).2 = true ∧ Holds s l (registerAll register s l).1 := by
  intro l
  induction l with
  | nil => intro s h; exact ⟨rfl, hnil s h⟩
  | cons e l ih =>
    intro s h
    obtain ⟨hok, hready, hholds⟩ := hcons s e l h
    obtain ⟨htrue, hend⟩ := ih _ hready
    rw [registerAll, if_pos hok]
    exact ⟨htrue, hholds _ hend⟩

/-! ### Sites by id -/

def registerSiteIds (s : Runtime) (entries : List (SiteId × TypeId)) : Runtime × Bool :=
  registerAll (fun s e => s.registerAllocationSiteId e.1 e.2) s entries

/-- The entries have known types and ids that are new and pairwise different. -/
structure ReadySites (s : Runtime) (entries : List (SiteId × TypeId)) : Prop where
  id_ne_zero : ∀ e ∈ entries, e.1 ≠ 0
  id_new : ∀ e ∈ entries, s.siteTypes.find e.1 = none
  known : ∀ e ∈ entries, ∃ typeHash, s.types.find e.2 = some typeHash
  nodup : (entries.map Prod.fst).Nodup

/-- The sites of `t` are those of `s` and the entries, bound to the hashes of
their types. -/
structure HoldsSites (s : Runtime) (entries : List (SiteId × TypeId)) (t : Runtime) : Prop where
  types : t.types = s.types
  siteTypes : ∀ i k, t.siteTypes.find i = some k ↔
    s.siteTypes.find i = some k ∨ ∃ typeId, (i, typeId) ∈ entries ∧ s.types.find typeId = some k
  size : t.siteTypes.size = s.siteTypes.size + entries.length

theorem holdsSites_nil (s : Runtime) : HoldsSites s [] s where
  types := rfl
  siteTypes _ _ := ⟨.inl, fun h => h.elim id (fun ⟨_, hm, _⟩ => nomatch hm)⟩
  size := rfl

theorem HoldsSites.cons {s s' t : Runtime} {e : SiteId × TypeId} {l : List (SiteId × TypeId)}
    {typeHash : UInt64} (he : s.types.find e.2 = some typeHash) (htypes : s'.types = s.types)
    (hfind : ∀ i, s'.siteTypes.find i = if i = e.1 then some typeHash else s.siteTypes.find i)
    (hnew : s.siteTypes.find e.1 = none) (hsize : s'.siteTypes.size = s.siteTypes.size + 1)
    (h : HoldsSites s' l t) : HoldsSites s (e :: l) t where
  types := h.types.trans htypes
  siteTypes i k := by
    rw [h.siteTypes, hfind, htypes]
    by_cases hi : i = e.1
    · rw [if_pos hi, hi, hnew]
      constructor
      · rintro (hk | ⟨typeId, hm, hk⟩)
        · exact .inr ⟨e.2, List.mem_cons_self, by rw [he, hk]⟩
        · exact .inr ⟨typeId, List.mem_cons_of_mem _ hm, hk⟩
      · rintro (hk | ⟨typeId, hm, hk⟩)
        · cases hk
        · rcases List.mem_cons.mp hm with heq | hm
          · rw [← heq, hk] at he
            exact .inl he.symm
          · exact .inr ⟨typeId, hm, hk⟩
    · rw [if_neg hi]
      refine or_congr_right (exists_congr (fun typeId => and_congr_left (fun _ => ?_)))
      rw [List.mem_cons]
      exact ⟨.inr, fun hm => hm.resolve_left (fun hc => hi (by rw [← hc]))⟩
  size := by
    rw [h.size, hsize, List.length_cons]
    omega

theorem ReadySites.tail {s s' : Runtime} {e : SiteId × TypeId} {l : List (SiteId × TypeId)}
    {typeHash : UInt64} (h : ReadySites s (e :: l)) (htypes : s'.types = s.types)
    (hfind : ∀ i, s'.siteTypes.find i = if i = e.1 then some typeHash else s.siteTypes.find i) :
    ReadySites s' l where
  id_ne_zero f hf := h.id_ne_zero f (List.mem_cons_of_mem _ hf)
  id_new f hf := by
    have hne : f.1 ≠ e.1 := fun he =>
      (List.nodup_cons.mp h.nodup).1 (List.mem_map.mpr ⟨f, hf, he⟩)
    rw [hfind, if_neg hne]
    exact h.id_new f (List.mem_cons_of_mem _ hf)
  known f hf := by
    rw [htypes]
    exact h.known f (List.mem_cons_of_mem _ hf)
  nodup := (List.nodup_cons.mp h.nodup).2

theorem registerAllocationSiteId_of_ready {s : Runtime} {e : SiteId × TypeId} {typeHash : UInt64}
    (hid : e.1 ≠ 0) (hnew : s.siteTypes.find e.1 = none)
    (ht : s.types.find e.2 = some typeHash) :
    s.registerAllocationSiteId e.1 e.2 = (s.bindSite e.1 typeHash, true) := by
  rw [registerAllocationSiteId, ht]
  exact if_neg (fun h => h.elim hid (fun hn => hn hnew))

/-- **A ready table of sites is registered.** -/
theorem registerSiteIds_spec (entries : List (SiteId × TypeId)) (s : Runtime)
    (h : ReadySites s entries) : (s.registerSiteIds entries).2 = true ∧
      HoldsSites s entries (s.registerSiteIds entries).1 := by
  refine registerAll_spec (fun s _ => holdsSites_nil s) (fun s e l hr => ?_) entries s h
  obtain ⟨typeHash, ht⟩ := hr.known e List.mem_cons_self
  have hnew := hr.id_new e List.mem_cons_self
  rw [registerAllocationSiteId_of_ready (hr.id_ne_zero e List.mem_cons_self) hnew ht]
  have hfind := find_siteTypes_bindSite hnew typeHash
  have htypes : (s.bindSite e.1 typeHash).types = s.types := rfl
  exact ⟨rfl, hr.tail htypes hfind, fun t hh =>
    hh.cons ht htypes hfind hnew (SortedMap.size_emplace hnew typeHash)⟩

theorem sound_registerSiteIds (entries : List (SiteId × TypeId)) {s : Runtime} (h : Sound s) :
    Sound (s.registerSiteIds entries).1 :=
  registerAll_induction (fun s e _ hs => sound_step s (.registerAllocationSiteId e.1 e.2) hs) s h

theorem registerSiteIds_frame (entries : List (SiteId × TypeId)) (s : Runtime) :
    ∃ siteTypes, (s.registerSiteIds entries).1 = { s with siteTypes := siteTypes } := by
  refine registerAll_induction (P := fun t => ∃ siteTypes, t = { s with siteTypes := siteTypes })
    (fun t e _ ht => ?_) s ⟨s.siteTypes, rfl⟩
  obtain ⟨siteTypes, rfl⟩ := ht
  rcases Runtime.registerAllocationSiteId_eq { s with siteTypes := siteTypes } e.1 e.2 with
    he | ⟨_, _, _, he⟩ <;> rw [he]
  · exact ⟨siteTypes, rfl⟩
  · exact ⟨_, rfl⟩

theorem registerSiteIds_other {entries : List (SiteId × TypeId)} {id : SiteId}
    (hid : id ∉ entries.map Prod.fst) (s : Runtime) :
    (s.registerSiteIds entries).1.siteTypes.find id = s.siteTypes.find id := by
  refine registerAll_induction (P := fun t => t.siteTypes.find id = s.siteTypes.find id)
    (fun t e he ht => ?_) s rfl
  rcases t.registerAllocationSiteId_eq e.1 e.2 with heq | ⟨typeHash, _, ⟨_, hnew⟩, heq⟩ <;> rw [heq]
  · exact ht
  · have hne : id ≠ e.1 := fun h => hid (List.mem_map.mpr ⟨e, he, h.symm⟩)
    rw [find_siteTypes_bindSite hnew, if_neg hne, ht]

/-! ### Sites by range -/

/-- A row of a table of sites whose labels are resolved. -/
structure SiteRange where
  id : SiteId
  beginPc : UInt64
  endPc : UInt64
  typeId : TypeId
deriving DecidableEq, Repr

/-- `begin <= pc < end`. -/
def SiteRange.Covers (e : SiteRange) (pc : UInt64) : Prop := e.beginPc ≤ pc ∧ pc < e.endPc

def SiteRange.Apart (e f : SiteRange) : Prop := e.endPc ≤ f.beginPc ∨ f.endPc ≤ e.beginPc

/-- The site as it is stored. -/
def SiteRange.site (e : SiteRange) (typeHash : UInt64) : AllocationSite :=
  ⟨e.id, e.beginPc, e.endPc, e.typeId, typeHash⟩

def SiteRange.entry (e : SiteRange) : SiteId × TypeId := (e.id, e.typeId)

def registerRange (s : Runtime) (e : SiteRange) : Runtime × Bool :=
  if e.beginPc = 0 ∨ e.endPc = 0 then (s, false)
  else s.registerAllocationSite e.id e.beginPc e.endPc e.typeId

def registerRanges (s : Runtime) (entries : List SiteRange) : Runtime × Bool :=
  registerAll registerRange s entries

structure ReadyRanges (s : Runtime) (entries : List SiteRange) : Prop where
  registry : Registry s
  sites : ReadySites s (entries.map SiteRange.entry)
  begin_pos : ∀ e ∈ entries, 0 < e.beginPc
  nonempty : ∀ e ∈ entries, e.beginPc < e.endPc
  free : ∀ e ∈ entries, ∀ b site, s.sites.find b = some site →
    e.endPc ≤ site.beginPc ∨ site.endPc ≤ e.beginPc
  apart : entries.Pairwise SiteRange.Apart

structure HoldsRanges (s : Runtime) (entries : List SiteRange) (t : Runtime) : Prop where
  registry : Registry t
  sites : HoldsSites s (entries.map SiteRange.entry) t
  kept : ∀ b site, s.sites.find b = some site → t.sites.find b = some site
  found : ∀ e ∈ entries, ∀ typeHash, s.types.find e.typeId = some typeHash →
    t.sites.find e.beginPc = some (e.site typeHash)

theorem overlapsNeighbour_of_free {s : Runtime} (h : Registry s) {beginPc endPc : UInt64}
    (hne : beginPc < endPc) (hfree : ∀ b site, s.sites.find b = some site →
      endPc ≤ site.beginPc ∨ site.endPc ≤ beginPc) :
    s.overlapsNeighbour beginPc endPc = false := by
  rw [overlapsNeighbour, Bool.or_eq_false_iff]
  constructor
  · cases hget : (s.sites.lowerBound beginPc).get with
    | none => rfl
    | some e =>
      obtain ⟨b, site⟩ := e
      obtain ⟨hb, hle, _⟩ := SortedMap.lowerBound_get_eq_some.mp hget
      have hr := h.inRegistry b site hb
      refine decide_eq_false (not_lt.mpr ?_)
      refine (hfree b site hb).resolve_right (fun hc => ?_)
      rw [← hr.begin_eq] at hle
      exact absurd (lt_of_lt_of_le hr.nonempty hc) (not_lt.mpr hle)
  · cases hprev : (s.sites.lowerBound beginPc).prev with
    | none => rfl
    | some e =>
      obtain ⟨b, site⟩ := e
      obtain ⟨hb, hlt, _⟩ := SortedMap.lowerBound_prev_eq_some.mp hprev
      have hr := h.inRegistry b site hb
      refine decide_eq_false (not_lt.mpr ?_)
      refine (hfree b site hb).resolve_left (fun hc => ?_)
      rw [← hr.begin_eq] at hlt
      exact absurd (lt_trans hne (lt_of_le_of_lt hc hlt)) (lt_irrefl _)

theorem sites_find_of_free {s : Runtime} (h : Registry s) {beginPc endPc : UInt64}
    (hne : beginPc < endPc) (hfree : ∀ b site, s.sites.find b = some site →
      endPc ≤ site.beginPc ∨ site.endPc ≤ beginPc) : s.sites.find beginPc = none := by
  cases hb : s.sites.find beginPc with
  | none => rfl
  | some site =>
    have hr := h.inRegistry beginPc site hb
    have hsite := hr.nonempty
    rcases hfree beginPc site hb with hc | hc
    · rw [hr.begin_eq] at hc
      exact absurd hne (not_lt.mpr hc)
    · rw [hr.begin_eq] at hsite
      exact absurd hsite (not_lt.mpr hc)

theorem sitesById_find_of_new {s : Runtime} (h : Registry s) {id : SiteId}
    (hnew : s.siteTypes.find id = none) : s.sitesById.find id = none := by
  cases hb : s.sitesById.find id with
  | none => rfl
  | some b =>
    obtain ⟨site, hsite, rfl⟩ := h.byId_site id b hb
    rw [(h.inRegistry b site hsite).siteType] at hnew
    cases hnew

/-- A call for a new id and a range that is clear is accepted. -/
theorem registerAllocationSite_of_free {s : Runtime} (h : Registry s) {id : SiteId}
    {beginPc endPc : UInt64} {typeId : TypeId} {typeHash : UInt64} (hid : id ≠ 0)
    (hpos : 0 < beginPc) (hlt : beginPc < endPc) (ht : s.types.find typeId = some typeHash)
    (hnew : s.siteTypes.find id = none) (hfree : ∀ b site, s.sites.find b = some site →
      endPc ≤ site.beginPc ∨ site.endPc ≤ beginPc) :
    s.registerAllocationSite id beginPc endPc typeId =
        (s.bindRange ⟨id, beginPc, endPc, typeId, typeHash⟩, true) ∧
      s.sitesById.find id = none ∧ s.sites.find beginPc = none ∧
      s.overlapsNeighbour beginPc endPc = false := by
  have hbyId := sitesById_find_of_new h hnew
  have hfind := sites_find_of_free h hlt hfree
  have hover := overlapsNeighbour_of_free h hlt hfree
  refine ⟨?_, hbyId, hfind, hover⟩
  have hguard : ¬ (id = 0 ∨ beginPc = 0 ∨ endPc ≤ beginPc ∨
      s.sitesById.find id ≠ none ∨ s.siteTypes.find id ≠ none) := by
    rintro (hc | hc | hc | hc | hc)
    · exact hid hc
    · exact hpos.ne' hc
    · exact absurd hlt (not_lt.mpr hc)
    · exact hc hbyId
    · exact hc hnew
  rw [registerAllocationSite, ht]
  dsimp only
  rw [if_neg hguard, hover, if_neg Bool.false_ne_true,
    if_neg (by rw [(SortedMap.emplace_inserted _).mpr hfind]; exact nofun)]
  rfl

theorem registerRange_of_ready {s : Runtime} {e : SiteRange} {l : List SiteRange}
    (h : ReadyRanges s (e :: l)) {typeHash : UInt64} (ht : s.types.find e.typeId = some typeHash) :
    registerRange s e = (s.bindRange (e.site typeHash), true) ∧
      s.sitesById.find e.id = none ∧ s.sites.find e.beginPc = none ∧
      s.overlapsNeighbour e.beginPc e.endPc = false := by
  have hmem : e ∈ e :: l := List.mem_cons_self
  have hb := h.begin_pos e hmem
  have hne := h.nonempty e hmem
  have hid := h.sites.id_ne_zero e.entry List.mem_cons_self
  have hnew := h.sites.id_new e.entry List.mem_cons_self
  have hb0 : e.beginPc ≠ 0 := hb.ne'
  have he0 : e.endPc ≠ 0 := (lt_trans hb hne).ne'
  rw [registerRange, if_neg (fun hc => hc.elim hb0 he0)]
  exact registerAllocationSite_of_free h.registry hid hb hne ht hnew (h.free e hmem)

/-- **A ready table of ranges is registered.** -/
theorem registerRanges_spec (entries : List SiteRange) (s : Runtime) (h : ReadyRanges s entries) :
    (s.registerRanges entries).2 = true ∧ HoldsRanges s entries (s.registerRanges entries).1 := by
  refine registerAll_spec (fun s hr => ⟨hr.registry, holdsSites_nil s, fun _ _ hb => hb, nofun⟩)
    (fun s e l hr => ?_) entries s h
  obtain ⟨typeHash, ht⟩ := hr.sites.known e.entry List.mem_cons_self
  obtain ⟨heq, hbyId, hfind, hover⟩ := registerRange_of_ready hr ht
  have hnew := hr.sites.id_new e.entry List.mem_cons_self
  have hmem : e ∈ e :: l := List.mem_cons_self
  have hb0 : e.beginPc ≠ 0 := (hr.begin_pos e hmem).ne'
  have htypes : (s.bindRange (e.site typeHash)).types = s.types := rfl
  have hsites : ∀ b, (s.bindRange (e.site typeHash)).sites.find b =
      if b = e.beginPc then some (e.site typeHash) else s.sites.find b :=
    find_sites_bindRange hfind
  have hsiteTypes : ∀ i, (s.bindRange (e.site typeHash)).siteTypes.find i =
      if i = e.id then some typeHash else s.siteTypes.find i := find_siteTypes_bindRange hnew
  have hpair := List.pairwise_cons.mp hr.apart
  rw [heq]
  refine ⟨rfl, ?_, fun t hh => ?_⟩
  · exact {
      registry := hr.registry.bindRange (hr.sites.id_ne_zero e.entry List.mem_cons_self) hb0
        (hr.nonempty e hmem) ht hbyId hnew hover hfind
      sites := hr.sites.tail htypes hsiteTypes
      begin_pos := fun f hf => hr.begin_pos f (List.mem_cons_of_mem _ hf)
      nonempty := fun f hf => hr.nonempty f (List.mem_cons_of_mem _ hf)
      free := fun f hf b site hb => by
        rw [hsites] at hb
        split at hb
        · cases hb
          exact (hpair.1 f hf).symm
        · exact hr.free f (List.mem_cons_of_mem _ hf) b site hb
      apart := hpair.2 }
  · exact {
      registry := hh.registry
      sites := hh.sites.cons ht htypes hsiteTypes hnew (SortedMap.size_emplace hnew typeHash)
      kept := fun b site hb => hh.kept b site (find_of_fresh hsites hfind hb)
      found := fun f hf k hk => by
        rcases List.mem_cons.mp hf with rfl | hf
        · obtain rfl := Option.some.inj (hk.symm.trans ht)
          refine hh.kept _ _ ?_
          rw [hsites, if_pos rfl]
        · exact hh.found f hf k (by rw [htypes]; exact hk) }

/-- A range that is registered gets the hash of its type, at a new place. -/
theorem registerRange_eq_true {s : Runtime} {e : SiteRange} (h : (registerRange s e).2 = true) :
    ∃ typeHash, s.types.find e.typeId = some typeHash ∧ s.sites.find e.beginPc = none ∧
      registerRange s e = (s.bindRange (e.site typeHash), true) := by
  unfold registerRange at h ⊢
  by_cases h0 : e.beginPc = 0 ∨ e.endPc = 0
  · rw [if_pos h0] at h
    cases h
  · rw [if_neg h0] at h ⊢
    rcases s.registerAllocationSite_eq e.id e.beginPc e.endPc e.typeId with
      he | ⟨typeHash, ht, ⟨_, _, _, _, _, _, hbase⟩, he⟩
    · rw [he] at h
      cases h
    · exact ⟨typeHash, ht, hbase, he⟩

theorem registerRanges_kept (entries : List SiteRange) {s : Runtime} {b : UInt64}
    {site : AllocationSite} (h : s.sites.find b = some site) :
    (s.registerRanges entries).1.sites.find b = some site := by
  refine registerAll_induction (P := fun t => t.sites.find b = some site) (fun t e _ ht => ?_) s h
  by_cases hok : (registerRange t e).2 = true
  · obtain ⟨typeHash, _, hbase, he⟩ := registerRange_eq_true hok
    rw [he]
    have hfind : ∀ c, (t.bindRange (e.site typeHash)).sites.find c =
        if c = e.beginPc then some (e.site typeHash) else t.sites.find c :=
      find_sites_bindRange hbase
    exact find_of_fresh hfind hbase ht
  · unfold registerRange at hok ⊢
    by_cases h0 : e.beginPc = 0 ∨ e.endPc = 0
    · rw [if_pos h0]
      exact ht
    · rw [if_neg h0] at hok ⊢
      rcases t.registerAllocationSite_eq e.id e.beginPc e.endPc e.typeId with
        he | ⟨_, _, _, he⟩ <;> rw [he] at hok ⊢
      · exact ht
      · exact absurd rfl hok

/-- **A table that is registered is there, each range with the hash of its type.** -/
theorem registerRanges_found (entries : List SiteRange) : ∀ s : Runtime,
    (s.registerRanges entries).2 = true → ∀ e ∈ entries, ∃ typeHash,
      s.types.find e.typeId = some typeHash ∧
      (s.registerRanges entries).1.sites.find e.beginPc = some (e.site typeHash) := by
  induction entries with
  | nil => intro s _ e he; cases he
  | cons f entries ih =>
    intro s h e he
    rw [registerRanges, registerAll] at h ⊢
    by_cases hok : (registerRange s f).2 = true
    · rw [if_pos hok] at h ⊢
      obtain ⟨typeHash, ht, hbase, hf⟩ := registerRange_eq_true hok
      rw [hf] at h ⊢
      rcases List.mem_cons.mp he with rfl | he
      · refine ⟨typeHash, ht, registerRanges_kept entries ?_⟩
        have hfind : (s.bindRange (e.site typeHash)).sites.find e.beginPc =
            if e.beginPc = e.beginPc then some (e.site typeHash) else s.sites.find e.beginPc :=
          find_sites_bindRange hbase _
        exact hfind.trans (if_pos rfl)
      · exact ih _ h e he
    · rw [if_neg hok] at h
      cases h

theorem registerRanges_reachable (entries : List SiteRange) (s : Runtime) :
    ∃ ops, (s.registerRanges entries).1 = s.after ops := by
  refine registerAll_induction (P := fun t => ∃ ops, t = s.after ops) (fun t e _ ht => ?_) s
    ⟨[], rfl⟩
  obtain ⟨ops, rfl⟩ := ht
  rw [registerRange]
  by_cases h0 : e.beginPc = 0 ∨ e.endPc = 0
  · rw [if_pos h0]
    exact ⟨ops, rfl⟩
  · rw [if_neg h0]
    refine ⟨ops ++ [.registerAllocationSite e.id e.beginPc e.endPc e.typeId], ?_⟩
    rw [after_concat]
    rfl

theorem sound_registerRanges (entries : List SiteRange) {s : Runtime} (h : Sound s) :
    Sound (s.registerRanges entries).1 := by
  obtain ⟨ops, hops⟩ := registerRanges_reachable entries s
  rw [hops]
  exact sound_after h ops

theorem registerRanges_frame (entries : List SiteRange) (s : Runtime) :
    ∃ sites sitesById siteTypes, (s.registerRanges entries).1 =
      { s with sites := sites, sitesById := sitesById, siteTypes := siteTypes } := by
  refine registerAll_induction
    (P := fun t => ∃ sites sitesById siteTypes,
      t = { s with sites := sites, sitesById := sitesById, siteTypes := siteTypes })
    (fun t e _ ht => ?_) s ⟨s.sites, s.sitesById, s.siteTypes, rfl⟩
  obtain ⟨sites, sitesById, siteTypes, rfl⟩ := ht
  rw [registerRange]
  by_cases h0 : e.beginPc = 0 ∨ e.endPc = 0
  · rw [if_pos h0]
    exact ⟨_, _, _, rfl⟩
  · rw [if_neg h0]
    rcases Runtime.registerAllocationSite_eq
      { s with sites := sites, sitesById := sitesById, siteTypes := siteTypes } e.id e.beginPc
      e.endPc e.typeId with he | ⟨_, _, _, he⟩ <;> rw [he]
    · exact ⟨_, _, _, rfl⟩
    · exact ⟨_, _, _, rfl⟩

/-! ### Calls that register nothing -/

def Op.registers : Op → Bool
  | .registerType _ _ => true
  | .registerAllocationSiteId _ _ => true
  | .registerAllocationSite _ _ _ _ => true
  | _ => false

/-- The five maps of the registry are the same. -/
structure SameRegistry (s t : Runtime) : Prop where
  types : t.types = s.types
  typeIds : t.typeIds = s.typeIds
  sites : t.sites = s.sites
  sitesById : t.sitesById = s.sitesById
  siteTypes : t.siteTypes = s.siteTypes

theorem SameRegistry.refl (s : Runtime) : SameRegistry s s := ⟨rfl, rfl, rfl, rfl, rfl⟩

theorem SameRegistry.trans {s t r : Runtime} (h1 : SameRegistry s t) (h2 : SameRegistry t r) :
    SameRegistry s r :=
  ⟨h2.types.trans h1.types, h2.typeIds.trans h1.typeIds, h2.sites.trans h1.sites,
    h2.sitesById.trans h1.sitesById, h2.siteTypes.trans h1.siteTypes⟩

theorem sameRegistry_ite (s : Runtime) (size typeHash : UInt64) (siteId : SiteId) :
    SameRegistry s (if s.Fits size then (s.record size typeHash siteId, s.cursor)
      else (s, (0 : UInt64))).1 := by
  by_cases hf : s.Fits size
  · rw [if_pos hf]
    exact ⟨rfl, rfl, rfl, rfl, rfl⟩
  · rw [if_neg hf]
    exact .refl s

theorem sameRegistry_step {s : Runtime} (h : Layout s) {op : Op} (hop : op.registers = false) :
    SameRegistry s (step s op).1 := by
  cases op with
  | registerType => cases hop
  | registerAllocationSiteId => cases hop
  | registerAllocationSite => cases hop
  | allocate size typeId =>
    show SameRegistry s (s.allocate size typeId).1
    cases ht : s.types.find typeId with
    | none => rw [allocate_of_none ht]; exact .refl s
    | some typeHash => rw [allocate_of_find h ht]; exact sameRegistry_ite s _ _ _
  | allocateFromSite size siteId =>
    show SameRegistry s (s.allocateFromSite size siteId).1
    cases hi : s.siteTypes.find siteId with
    | none => rw [allocateFromSite_of_none hi]; exact .refl s
    | some typeHash => rw [allocateFromSite_of_find h hi]; exact sameRegistry_ite s _ _ _
  | allocateFromPc size callerPc =>
    show SameRegistry s (s.allocateFromPc size callerPc).1
    cases hs : s.findSiteUnlocked callerPc with
    | none => rw [allocateFromPc_of_none hs]; exact .refl s
    | some site => rw [allocateFromPc_of_find h hs]; exact sameRegistry_ite s _ _ _
  | release ptr =>
    show SameRegistry s (s.release ptr).1
    cases hp : s.allocations.find ptr with
    | none => rw [release_of_none hp]; exact .refl s
    | some a => rw [release_of_find hp]; exact ⟨rfl, rfl, rfl, rfl, rfl⟩
  | reallocate ptr newSize =>
    show SameRegistry s (s.reallocate ptr newSize).1
    cases hp : s.allocations.find ptr with
    | none => rw [reallocate_of_none hp]; exact .refl s
    | some a =>
      by_cases hz : newSize = 0
      · subst hz
        rw [reallocate_zero hp]
        exact ⟨rfl, rfl, rfl, rfl, rfl⟩
      · rw [reallocate_of_find h hp hz]
        by_cases hf : s.Fits newSize
        · rw [if_pos hf]
          exact ⟨rfl, rfl, rfl, rfl, rfl⟩
        · rw [if_neg hf]
          exact .refl s
  | query q => exact .refl s

theorem sameRegistry_after {ops : List Op} : ∀ {s : Runtime}, Layout s →
    (∀ op ∈ ops, op.registers = false) → SameRegistry s (s.after ops) := by
  induction ops with
  | nil => intro s _ _; exact .refl s
  | cons op ops ih =>
    intro s h hops
    rw [List.forall_mem_cons] at hops
    exact (sameRegistry_step h hops.1).trans (ih (layout_step s op h) hops.2)

end Runtime

end InterSpec
