import InterSpec.Runtime.Step

/-!
# The registry of types, sites and ranges

Three calls write five maps, and each of them checks only some of the others.
`Registry s` is the invariant that ties the maps together, `Change.registry`
its step, and `findSiteUnlocked_eq_some` what it is for: one predecessor lookup
finds exactly the registered range that contains a program counter.

A range is compared with its two neighbours only (`overlapsNeighbour`); that
this keeps all the ranges apart is `SortedMap.Separated.emplace`.
-/

namespace InterSpec

/-- `begin <= pc < end`. -/
def AllocationSite.Covers (site : AllocationSite) (pc : UInt64) : Prop :=
  site.beginPc ≤ pc ∧ pc < site.endPc

instance AllocationSite.decidableCovers (site : AllocationSite) (pc : UInt64) :
    Decidable (site.Covers pc) :=
  inferInstanceAs (Decidable (_ ∧ _))

namespace Runtime

open SortedMap (Separated Contains)

/-- What holds of a range stored under `b`. -/
structure InRegistry (s : Runtime) (b : UInt64) (site : AllocationSite) : Prop where
  begin_eq : site.beginPc = b
  begin_pos : 0 < site.beginPc
  nonempty : site.beginPc < site.endPc
  id_ne_zero : site.id ≠ 0
  byId : s.sitesById.find site.id = some site.beginPc
  siteType : s.siteTypes.find site.id = some site.typeHash
  type : s.types.find site.typeId = some site.typeHash

structure Registry (s : Runtime) : Prop where
  types_inverse : ∀ id typeHash, s.types.find id = some typeHash ↔
    s.typeIds.find typeHash = some id
  types_zero : s.types.find 0 = none
  inRegistry : ∀ b site, s.sites.find b = some site → InRegistry s b site
  separated : Separated UInt64.toNat (fun site => site.endPc.toNat) s.sites
  byId_site : ∀ id b, s.sitesById.find id = some b →
    ∃ site, s.sites.find b = some site ∧ site.id = id
  siteTypes_zero : s.siteTypes.find 0 = none
  siteTypes_registered : ∀ id typeHash, s.siteTypes.find id = some typeHash →
    ∃ t, s.types.find t = some typeHash

theorem registry_new (arenaBase arenaSize : UInt64) : Registry (new arenaBase arenaSize) where
  types_inverse _ _ := ⟨fun h => (nomatch h), fun h => (nomatch h)⟩
  types_zero := rfl
  inRegistry _ _ h := nomatch h
  separated := SortedMap.separated_empty
  byId_site _ _ h := nomatch h
  siteTypes_zero := rfl
  siteTypes_registered _ _ h := nomatch h

theorem Registry.congr {s t : Runtime} (h : Registry s) (h1 : t.types = s.types)
    (h2 : t.typeIds = s.typeIds) (h3 : t.sites = s.sites) (h4 : t.sitesById = s.sitesById)
    (h5 : t.siteTypes = s.siteTypes) : Registry t where
  types_inverse := by rw [h1, h2]; exact h.types_inverse
  types_zero := by rw [h1]; exact h.types_zero
  inRegistry b site hb := by
    have hr := h.inRegistry b site (h3 ▸ hb)
    exact ⟨hr.begin_eq, hr.begin_pos, hr.nonempty, hr.id_ne_zero, h4 ▸ hr.byId, h5 ▸ hr.siteType,
      h1 ▸ hr.type⟩
  separated := by rw [h3]; exact h.separated
  byId_site := by rw [h3, h4]; exact h.byId_site
  siteTypes_zero := by rw [h5]; exact h.siteTypes_zero
  siteTypes_registered := by rw [h1, h5]; exact h.siteTypes_registered

/-! ### One registration -/

section Find

variable {s : Runtime}

theorem find_types_bindType {id : TypeId} (hnew : s.types.find id = none) (typeHash : UInt64)
    (j : TypeId) : (s.bindType id typeHash).types.find j =
      if j = id then some typeHash else s.types.find j :=
  SortedMap.find_emplace hnew typeHash j

theorem find_typeIds_bindType {typeHash : UInt64} (hhash : s.typeIds.find typeHash = none)
    (id : TypeId) (j : UInt64) : (s.bindType id typeHash).typeIds.find j =
      if j = typeHash then some id else s.typeIds.find j :=
  SortedMap.find_emplace hhash id j

theorem find_siteTypes_bindSite {id : SiteId} (hnew : s.siteTypes.find id = none)
    (typeHash : UInt64) (j : SiteId) : (s.bindSite id typeHash).siteTypes.find j =
      if j = id then some typeHash else s.siteTypes.find j :=
  SortedMap.find_emplace hnew typeHash j

theorem find_sites_bindRange {site : AllocationSite} (hb : s.sites.find site.beginPc = none)
    (b : UInt64) : (s.bindRange site).sites.find b =
      if b = site.beginPc then some site else s.sites.find b :=
  SortedMap.find_emplace hb site b

theorem find_sitesById_bindRange {site : AllocationSite} (hnew : s.sitesById.find site.id = none)
    (j : SiteId) : (s.bindRange site).sitesById.find j =
      if j = site.id then some site.beginPc else s.sitesById.find j :=
  SortedMap.find_emplace hnew site.beginPc j

theorem find_siteTypes_bindRange {site : AllocationSite}
    (hnew : s.siteTypes.find site.id = none) (j : SiteId) :
    (s.bindRange site).siteTypes.find j =
      if j = site.id then some site.typeHash else s.siteTypes.find j :=
  SortedMap.find_emplace hnew site.typeHash j

end Find

theorem find_of_fresh {κ α : Type} [LinearOrder κ] {m m' : SortedMap κ α} {k j : κ} {a b : α}
    (hfind : ∀ j, m'.find j = if j = k then some a else m.find j) (hk : m.find k = none)
    (hj : m.find j = some b) : m'.find j = some b := by
  have hne : j ≠ k := fun he => by
    rw [he, hk] at hj
    cases hj
  rw [hfind, if_neg hne, hj]

/-- A range clear of both neighbours ends before the next one begins and begins
after the previous one ends. -/
theorem overlapsNeighbour_eq_false {s : Runtime} {beginPc endPc : UInt64}
    (h : s.overlapsNeighbour beginPc endPc = false) :
    (∀ b site, (s.sites.lowerBound beginPc).get = some (b, site) → endPc ≤ site.beginPc) ∧
    (∀ b site, (s.sites.lowerBound beginPc).prev = some (b, site) → site.endPc ≤ beginPc) := by
  obtain ⟨hnext, hprev⟩ := Bool.or_eq_false_iff.mp h
  refine ⟨fun b site hg => ?_, fun b site hp => ?_⟩
  · rw [hg] at hnext
    simpa using hnext
  · rw [hp] at hprev
    simpa using hprev

theorem Registry.bindType {s : Runtime} (h : Registry s) {id : TypeId} {typeHash : UInt64}
    (hid : id ≠ 0) (hnew : s.types.find id = none) (hhash : s.typeIds.find typeHash = none) :
    Registry (s.bindType id typeHash) where
  types_inverse j k := by
    rw [find_types_bindType hnew, find_typeIds_bindType hhash]
    by_cases hj : j = id
    · subst hj
      by_cases hk : k = typeHash
      · subst hk
        rw [if_pos rfl, if_pos rfl]
        exact ⟨fun _ => rfl, fun _ => rfl⟩
      · rw [if_pos rfl, if_neg hk, ← h.types_inverse, hnew]
        exact ⟨fun he => absurd (Option.some.inj he).symm hk, fun he => (nomatch he)⟩
    · rw [if_neg hj]
      by_cases hk : k = typeHash
      · subst hk
        rw [if_pos rfl, h.types_inverse, hhash]
        exact ⟨fun he => (nomatch he), fun he => absurd (Option.some.inj he).symm hj⟩
      · rw [if_neg hk]
        exact h.types_inverse j k
  types_zero := by
    rw [find_types_bindType hnew, if_neg (Ne.symm hid)]
    exact h.types_zero
  inRegistry b site hb := by
    have hr := h.inRegistry b site hb
    exact ⟨hr.begin_eq, hr.begin_pos, hr.nonempty, hr.id_ne_zero, hr.byId, hr.siteType,
      find_of_fresh (find_types_bindType hnew typeHash) hnew hr.type⟩
  separated := h.separated
  byId_site := h.byId_site
  siteTypes_zero := h.siteTypes_zero
  siteTypes_registered i k hi := by
    obtain ⟨t, ht⟩ := h.siteTypes_registered i k hi
    exact ⟨t, find_of_fresh (find_types_bindType hnew typeHash) hnew ht⟩

theorem Registry.bindSite {s : Runtime} (h : Registry s) {id : SiteId} {t : TypeId}
    {typeHash : UInt64} (hid : id ≠ 0) (ht : s.types.find t = some typeHash)
    (hnew : s.siteTypes.find id = none) : Registry (s.bindSite id typeHash) where
  types_inverse := h.types_inverse
  types_zero := h.types_zero
  inRegistry b site hb := by
    have hr := h.inRegistry b site hb
    exact ⟨hr.begin_eq, hr.begin_pos, hr.nonempty, hr.id_ne_zero, hr.byId,
      find_of_fresh (find_siteTypes_bindSite hnew typeHash) hnew hr.siteType, hr.type⟩
  separated := h.separated
  byId_site := h.byId_site
  siteTypes_zero := by
    rw [find_siteTypes_bindSite hnew, if_neg (Ne.symm hid)]
    exact h.siteTypes_zero
  siteTypes_registered i k hi := by
    rw [find_siteTypes_bindSite hnew] at hi
    split at hi
    · cases hi
      exact ⟨t, ht⟩
    · exact h.siteTypes_registered i k hi

theorem Registry.bindRange {s : Runtime} (h : Registry s) {site : AllocationSite}
    (hid : site.id ≠ 0) (hbegin : site.beginPc ≠ 0) (hend : site.beginPc < site.endPc)
    (ht : s.types.find site.typeId = some site.typeHash)
    (hnew : s.sitesById.find site.id = none) (hsite : s.siteTypes.find site.id = none)
    (hfree : s.overlapsNeighbour site.beginPc site.endPc = false)
    (hbase : s.sites.find site.beginPc = none) : Registry (s.bindRange site) where
  types_inverse := h.types_inverse
  types_zero := h.types_zero
  inRegistry b other hb := by
    rw [find_sites_bindRange hbase] at hb
    split at hb
    · rename_i he
      cases hb
      refine ⟨he.symm, ?_, hend, hid, ?_, ?_, ht⟩
      · exact UInt64.pos_iff_ne_zero.mpr hbegin
      · rw [find_sitesById_bindRange hnew, if_pos rfl]
      · rw [find_siteTypes_bindRange hsite, if_pos rfl]
    · have hr := h.inRegistry b other hb
      exact ⟨hr.begin_eq, hr.begin_pos, hr.nonempty, hr.id_ne_zero,
        find_of_fresh (find_sitesById_bindRange hnew) hnew hr.byId,
        find_of_fresh (find_siteTypes_bindRange hsite) hsite hr.siteType, hr.type⟩
  separated := by
    obtain ⟨hnext, hprev⟩ := overlapsNeighbour_eq_false hfree
    refine h.separated.emplace (fun _ _ hlt => Word.toNat_strictMono hlt) hbase ?_ ?_
    · intro b other hg
      have hb := (h.inRegistry b other (SortedMap.lowerBound_get_eq_some.mp hg).1).begin_eq
      rw [← hb]
      exact UInt64.le_iff_toNat_le.mp (hnext b other hg)
    · intro b other hp
      exact UInt64.le_iff_toNat_le.mp (hprev b other hp)
  byId_site id b hb := by
    rw [find_sitesById_bindRange hnew] at hb
    split at hb
    · rename_i he
      cases hb
      exact ⟨site, by rw [find_sites_bindRange hbase, if_pos rfl], he.symm⟩
    · obtain ⟨other, ho, hoid⟩ := h.byId_site id b hb
      exact ⟨other, find_of_fresh (find_sites_bindRange hbase) hbase ho, hoid⟩
  siteTypes_zero := by
    rw [find_siteTypes_bindRange hsite, if_neg (Ne.symm hid)]
    exact h.siteTypes_zero
  siteTypes_registered i k hi := by
    rw [find_siteTypes_bindRange hsite] at hi
    split at hi
    · cases hi
      exact ⟨site.typeId, ht⟩
    · exact h.siteTypes_registered i k hi

/-! ### The registry along runs -/

theorem Change.registry {s t : Runtime} (hc : Change s t) (h : Registry s) : Registry t := by
  cases hc with
  | same => exact h
  | bindType hid hnew hhash => exact h.bindType hid hnew hhash
  | bindSite hid ht hnew => exact h.bindSite hid ht hnew
  | bindRange hid hbegin hend ht hnew hsite hfree hbase =>
    exact h.bindRange hid hbegin hend ht hnew hsite hfree hbase
  | record => exact h.congr rfl rfl rfl rfl rfl
  | remove => exact h.congr rfl rfl rfl rfl rfl
  | move => exact h.congr rfl rfl rfl rfl rfl

/-- The two invariants together, as each step keeps them. -/
structure Sound (s : Runtime) : Prop where
  layout : Layout s
  registry : Registry s

theorem sound_new (arenaBase arenaSize : UInt64) : Sound (new arenaBase arenaSize) :=
  ⟨layout_new arenaBase arenaSize, registry_new arenaBase arenaSize⟩

theorem sound_step (s : Runtime) (op : Op) (h : Sound s) : Sound (step s op).1 :=
  ⟨layout_step s op h.layout, (step_change h.layout op).registry h.registry⟩

theorem sound_after {s : Runtime} (h : Sound s) (ops : List Op) : Sound (s.after ops) :=
  Machine.after_induction sound_step ops s h

theorem sound_reachable (arenaBase arenaSize : UInt64) (ops : List Op) :
    Sound ((new arenaBase arenaSize).after ops) :=
  sound_after (sound_new arenaBase arenaSize) ops

/-! ### Exact lookup -/

theorem Registry.contains_iff {s : Runtime} (h : Registry s) {b pc : UInt64}
    {site : AllocationSite} (hb : s.sites.find b = some site) :
    Contains UInt64.toNat (fun site : AllocationSite => site.endPc.toNat) b site pc.toNat ↔
      site.Covers pc := by
  rw [← (h.inRegistry b site hb).begin_eq]
  exact and_congr UInt64.le_iff_toNat_le.symm UInt64.lt_iff_toNat_lt.symm

theorem Registry.mem_sites {s : Runtime} (h : Registry s) {site : AllocationSite} :
    site ∈ s.sites.values ↔ s.sites.find site.beginPc = some site := by
  rw [SortedMap.mem_values]
  constructor
  · rintro ⟨b, hb⟩
    rw [(h.inRegistry b site hb).begin_eq]
    exact hb
  · intro hb
    exact ⟨_, hb⟩

theorem Registry.covers_unique {s : Runtime} (h : Registry s) {pc : UInt64}
    {x y : AllocationSite} (hx : x ∈ s.sites.values) (hy : y ∈ s.sites.values)
    (hxc : x.Covers pc) (hyc : y.Covers pc) : x = y := by
  have hx' := h.mem_sites.mp hx
  have hy' := h.mem_sites.mp hy
  exact h.separated.value_unique hx' hy' ((h.contains_iff hx').mpr hxc)
    ((h.contains_iff hy').mpr hyc)

theorem findSiteUnlocked_eq_prev (s : Runtime) (pc : UInt64) : s.findSiteUnlocked pc =
    match (s.sites.upperBound pc).prev with
    | none => none
    | some (_, site) => if site.Covers pc then some site else none := by
  unfold findSiteUnlocked
  by_cases hempty : s.sites.isEmpty = true
  · have hnone : (s.sites.upperBound pc).prev = none :=
      SortedMap.upperBound_prev_eq_none.mpr
        (fun i b hi => by rw [SortedMap.isEmpty_iff.mp hempty i] at hi; cases hi)
    rw [if_pos hempty, hnone]
  · rw [if_neg hempty]
    rfl

/-- **The lookup returns exactly the registered range that contains the pc.** -/
theorem findSiteUnlocked_eq_some {s : Runtime} (h : Registry s) {pc : UInt64}
    {site : AllocationSite} : s.findSiteUnlocked pc = some site ↔
      site ∈ s.sites.values ∧ site.Covers pc := by
  rw [findSiteUnlocked_eq_prev, h.mem_sites]
  constructor
  · intro hfind
    cases hprev : (s.sites.upperBound pc).prev with
    | none => rw [hprev] at hfind; cases hfind
    | some e =>
      obtain ⟨b, other⟩ := e
      obtain ⟨hb, _, _⟩ := SortedMap.upperBound_prev_eq_some.mp hprev
      rw [hprev] at hfind
      dsimp only at hfind
      split at hfind
      · rename_i hc
        cases hfind
        rw [(h.inRegistry b site hb).begin_eq]
        exact ⟨hb, hc⟩
      · cases hfind
  · rintro ⟨hb, hc⟩
    have hprev := h.separated.prev_of_contains (fun _ _ hlt => Word.toNat_strictMono hlt) hb
      ((h.contains_iff hb).mpr hc)
    rw [hprev]
    exact if_pos hc

theorem findSiteUnlocked_eq_none {s : Runtime} (h : Registry s) {pc : UInt64} :
    s.findSiteUnlocked pc = none ↔ ∀ site ∈ s.sites.values, ¬ site.Covers pc := by
  constructor
  · intro hnone site hs hc
    rw [(findSiteUnlocked_eq_some h).mpr ⟨hs, hc⟩] at hnone
    cases hnone
  · intro hall
    cases hfind : s.findSiteUnlocked pc with
    | none => rfl
    | some site =>
      obtain ⟨hs, hc⟩ := (findSiteUnlocked_eq_some h).mp hfind
      exact absurd hc (hall site hs)

/-- **The registry invariant, and exact lookup.**  In every reachable state the
two type maps are inverse to each other and hold no id 0; the ranges are not
empty, start above 0, are stored under their begin and do not overlap; the
index by id and the ranges are in bijection; every range has the type hash its
id is bound to, which is the hash of its type; and a lookup by pc finds a range
exactly when some registered range contains the pc, which is then the only one. -/
theorem registry_exact (arenaBase arenaSize : UInt64) (ops : List Op) :
    let s := (new arenaBase arenaSize).after ops
    (∀ id typeHash, s.types.find id = some typeHash ↔ s.typeIds.find typeHash = some id) ∧
    s.types.find 0 = none ∧ (∀ typeHash, s.typeIds.find typeHash ≠ some 0) ∧
    (∀ b site, s.sites.find b = some site →
      site.beginPc = b ∧ 0 < site.beginPc ∧ site.beginPc < site.endPc) ∧
    (∀ b site c other, s.sites.find b = some site → s.sites.find c = some other → b ≠ c →
      Disjoint (Set.Ico site.beginPc.toNat site.endPc.toNat)
        (Set.Ico other.beginPc.toNat other.endPc.toNat)) ∧
    (∀ b site, s.sites.find b = some site → s.sitesById.find site.id = some b) ∧
    (∀ id b, s.sitesById.find id = some b → ∃ site, s.sites.find b = some site ∧ site.id = id) ∧
    (∀ b site, s.sites.find b = some site → s.siteTypes.find site.id = some site.typeHash ∧
      s.types.find site.typeId = some site.typeHash) ∧
    s.siteTypes.find 0 = none ∧ s.sitesById.find 0 = none ∧
    (∀ b site, s.sites.find b = some site → site.id ≠ 0) ∧
    (∀ id typeHash, s.siteTypes.find id = some typeHash → ∃ t, s.types.find t = some typeHash) ∧
    (∀ pc site, s.findSiteUnlocked pc = some site ↔ site ∈ s.sites.values ∧ site.Covers pc) ∧
    (∀ pc, (s.findSiteUnlocked pc).isSome = true ↔ ∃ site ∈ s.sites.values, site.Covers pc) ∧
    (∀ pc, ∀ x ∈ s.sites.values, ∀ y ∈ s.sites.values, x.Covers pc → y.Covers pc → x = y) := by
  intro s
  have h : Registry s := (sound_reachable arenaBase arenaSize ops).registry
  refine ⟨h.types_inverse, h.types_zero, fun k hk => ?_, fun b site hb => ?_,
    fun b x c y hb hc hne => ?_, fun b site hb => ?_, h.byId_site, fun b site hb => ?_,
    h.siteTypes_zero, ?_, fun b site hb => (h.inRegistry b site hb).id_ne_zero,
    h.siteTypes_registered, fun pc site => findSiteUnlocked_eq_some h, fun pc => ?_,
    fun pc x hx y hy => h.covers_unique hx hy⟩
  · have h0 := h.types_zero
    rw [(h.types_inverse 0 k).mpr hk] at h0
    cases h0
  · have hr := h.inRegistry b site hb
    exact ⟨hr.begin_eq, hr.begin_pos, hr.nonempty⟩
  · rw [(h.inRegistry b x hb).begin_eq, (h.inRegistry c y hc).begin_eq]
    exact h.separated.disjoint hb hc hne
  · have hr := h.inRegistry b site hb
    rw [hr.byId, hr.begin_eq]
  · have hr := h.inRegistry b site hb
    exact ⟨hr.siteType, hr.type⟩
  · cases hz : s.sitesById.find 0 with
    | none => rfl
    | some b =>
      obtain ⟨site, hb, hid⟩ := h.byId_site 0 b hz
      exact absurd hid (h.inRegistry b site hb).id_ne_zero
  · rw [Option.isSome_iff_exists]
    exact exists_congr (fun site => findSiteUnlocked_eq_some h)

end Runtime

end InterSpec
