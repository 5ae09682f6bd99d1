import InterSpec.Tools.Tables

/-!
# Registering an accepted policy

The type ids and the site ids that a generator emits, put into a fresh runtime.

* `TypeNumbersFit`: the numbers of the types are different from 0 and from each
  other after they are cut to 32 bits.
* `registerTypes_typePairs`: the types are registered exactly then.
* `readySites_siteTable`, `find_of_holdsSites`: the sites are registered, and each
  is bound to the hash of its declared type.
-/

namespace InterSpec.Tools

open InterSpec.Runtime

/-! ### Type numbers -/

/-- The number of every type, cut to 32 bits, is not 0 and is that of no other type. -/
def TypeNumbersFit (types : List Str) : Prop :=
  ∀ i name, LastAt types i name → (i + 1) % 2 ^ 32 ≠ 0 ∧
    ∀ j other, LastAt types j other → (i + 1) % 2 ^ 32 = (j + 1) % 2 ^ 32 → i = j

theorem toNat_typeNumber {types : List Str} {i : Nat} {name : Str} (h : LastAt types i name) :
    (typeNumber types name).toNat = (i + 1) % 2 ^ 32 := by
  have hget : (typeIds types).get? name = some (i + 1) := typeIds_get?.mpr ⟨i, rfl, h⟩
  rw [typeNumber, hget, Option.getD_some, UInt32.toNat_ofNat']

theorem exists_lastAt {types : List Str} {name : Str} (h : name ∈ types) :
    ∃ i, LastAt types i name := by
  obtain ⟨k, hk⟩ := get?_of_mem h
  obtain ⟨i, _, hi⟩ := typeIds_get?.mp hk
  exact ⟨i, hi⟩

theorem LastAt.mem {types : List Str} {i : Nat} {name : Str} (h : LastAt types i name) :
    name ∈ types := List.mem_of_getElem? h.1

theorem LastAt.name_eq {types : List Str} {i : Nat} {x y : Str} (hx : LastAt types i x)
    (hy : LastAt types i y) : x = y := Option.some.inj (hx.1.symm.trans hy.1)

theorem LastAt.index_eq {types : List Str} {i j : Nat} {name : Str} (hi : LastAt types i name)
    (hj : LastAt types j name) : i = j := by
  rcases lt_trichotomy i j with h | h | h
  · exact absurd hj.1 (hi.2 j h)
  · exact h
  · exact absurd hi.1 (hj.2 i h)

/-- **The numbers fit when the ids of the type table are good keys.** -/
theorem typeNumbersFit_iff {types : List Str} : TypeNumbersFit types ↔
    (∀ e ∈ typePairs types, e.1 ≠ 0) ∧ ((typePairs types).map Prod.fst).Nodup := by
  have hfst : (typePairs types).map Prod.fst = (typeIds types).keys.map (typeNumber types) := by
    rw [typePairs, List.map_map]
    rfl
  have hkeys : (typeIds types).keys.Nodup := (typeIds types).nodup
  rw [hfst, List.nodup_map_iff_inj_on hkeys]
  constructor
  · intro h
    refine ⟨fun e he hz => ?_, fun x hx y hy hxy => ?_⟩
    · obtain ⟨name, hname, rfl⟩ := List.mem_map.mp he
      obtain ⟨i, hi⟩ := exists_lastAt (mem_typeIds_keys.mp hname)
      apply (h i name hi).1
      rw [← toNat_typeNumber hi, show typeNumber types name = 0 from hz]
      rfl
    · obtain ⟨i, hi⟩ := exists_lastAt (mem_typeIds_keys.mp hx)
      obtain ⟨j, hj⟩ := exists_lastAt (mem_typeIds_keys.mp hy)
      have hij : i = j := (h i x hi).2 j y hj (by
        rw [← toNat_typeNumber hi, ← toNat_typeNumber hj, hxy])
      exact hi.name_eq (hij ▸ hj)
  · rintro ⟨hzero, hinj⟩ i name hi
    have hname : name ∈ (typeIds types).keys := mem_typeIds_keys.mpr hi.mem
    refine ⟨fun hz => ?_, fun j other hj hmod => ?_⟩
    · refine hzero _ (List.mem_map.mpr ⟨name, hname, rfl⟩) (UInt32.toNat_inj.mp ?_)
      rw [toNat_typeNumber hi, hz]
      rfl
    · rw [← toNat_typeNumber hi, ← toNat_typeNumber hj] at hmod
      have heq : name = other :=
        hinj name hname other (mem_typeIds_keys.mpr hj.mem) (UInt32.toNat_inj.mp hmod)
      exact hi.index_eq (heq ▸ hj)

theorem typeNumbersFit_of_lt {types : List Str} (h : types.length < 2 ^ 32) :
    TypeNumbersFit types := by
  have hlt : ∀ i name, LastAt types i name → i + 1 < 2 ^ 32 := by
    intro i name hi
    have := (List.getElem?_eq_some_iff.mp hi.1).1
    omega
  intro i name hi
  have hi' := hlt i name hi
  refine ⟨?_, fun j other hj hmod => ?_⟩
  · rw [Nat.mod_eq_of_lt hi']
    omega
  · rw [Nat.mod_eq_of_lt hi', Nat.mod_eq_of_lt (hlt j other hj)] at hmod
    omega

theorem typeNumbersFit_iff_lt {types : List Str} (h : types.Nodup) :
    TypeNumbersFit types ↔ types.length < 2 ^ 32 := by
  refine ⟨fun hfit => ?_, typeNumbersFit_of_lt⟩
  by_contra hlen
  have hlt : 2 ^ 32 - 1 < types.length := by omega
  have hlast : LastAt types (2 ^ 32 - 1) types[2 ^ 32 - 1] := by
    refine ⟨List.getElem?_eq_getElem hlt, fun j hj hget => ?_⟩
    obtain ⟨hj', hval⟩ := List.getElem?_eq_some_iff.mp hget
    have := (List.Nodup.getElem_inj_iff h).mp hval
    omega
  exact (hfit _ _ hlast).1 (by omega)

/-! ### The types -/

/-- **The types of a table are registered exactly when their numbers fit.** -/
theorem registerTypes_typePairs {types : List Str}
    (hhashes : ((typeIds types).keys.map hashType).Nodup) (arenaBase arenaSize : UInt64) :
    ((new arenaBase arenaSize).registerTypes (typePairs types)).2 = true ↔
      TypeNumbersFit types := by
  have hsnd : (typePairs types).map Prod.snd = (typeIds types).keys.map hashType := by
    rw [typePairs, List.map_map]
    rfl
  rw [registerTypes_eq_true, hsnd, typeNumbersFit_iff]
  constructor
  · rintro ⟨hfresh, hfst, _⟩
    exact ⟨fun e he => (hfresh e he).1, hfst⟩
  · rintro ⟨hzero, hfst⟩
    exact ⟨fun e he => ⟨hzero e he, rfl, rfl⟩, hfst, hhashes⟩

theorem find_typeNumber {types : List Str} {arenaBase arenaSize : UInt64}
    (h : ((new arenaBase arenaSize).registerTypes (typePairs types)).2 = true) {name : Str}
    (hname : name ∈ types) :
    ((new arenaBase arenaSize).registerTypes (typePairs types)).1.types.find
      (typeNumber types name) = some (hashType name) := by
  refine (registerTypes_find h _ _).mpr (.inr ?_)
  exact List.mem_map.mpr ⟨name, mem_typeIds_keys.mpr hname, rfl⟩

/-! ### The sites -/

/-- The id of the site at position `i`. -/
def siteNumber (siteIdBase : Int) (i : Nat) : SiteId := UInt32.ofInt (siteIdBase + (i + 1 : Nat))

/-- All the site ids are positive and fit 32 bits. -/
def SiteNumbersFit (siteIdBase : Int) (n : Nat) : Prop :=
  ∀ i < n, 0 < siteIdBase + (i + 1 : Nat) ∧ siteIdBase + (i + 1 : Nat) < 2 ^ 32

theorem toNat_siteNumber {n i : Nat} (h : SiteNumbersFit 0 n) (hi : i < n) :
    (siteNumber 0 i).toNat = i + 1 := by
  have hfit := h i hi
  have hnat : ((siteNumber 0 i).toNat : Int) = 0 + (i + 1 : Nat) :=
    Word.toNat_ofInt hfit.1.le hfit.2
  omega

theorem SiteNumbersFit.lt {n : Nat} (h : SiteNumbersFit 0 n) : n < 2 ^ 32 := by
  cases n with
  | zero => decide
  | succ n =>
    have := h n (Nat.lt_succ_self n)
    omega

theorem siteNumber_injective {siteIdBase : Int} {n i j : Nat} (h : SiteNumbersFit siteIdBase n)
    (hi : i < n) (hj : j < n) (heq : siteNumber siteIdBase i = siteNumber siteIdBase j) :
    i = j := by
  have hi := h i hi
  have hj := h j hj
  have := Word.ofInt_injective ⟨hi.1.le, hi.2⟩ ⟨hj.1.le, hj.2⟩ heq
  omega

theorem mem_siteTable {types declared : List Str} {siteIdBase : Int} {e : SiteId × TypeId} :
    e ∈ siteTable types declared siteIdBase ↔ ∃ i name, declared[i]? = some name ∧
      e = (siteNumber siteIdBase i, typeNumber types name) := by
  rw [siteTable, List.mem_mapIdx]
  constructor
  · rintro ⟨i, hi, rfl⟩
    exact ⟨i, declared[i], List.getElem?_eq_getElem hi, rfl⟩
  · rintro ⟨i, name, hget, rfl⟩
    obtain ⟨hi, rfl⟩ := List.getElem?_eq_some_iff.mp hget
    exact ⟨i, hi, rfl⟩

theorem length_siteTable (types declared : List Str) (siteIdBase : Int) :
    (siteTable types declared siteIdBase).length = declared.length := by
  rw [siteTable, List.length_mapIdx]

theorem nodup_siteTable {types declared : List Str} {siteIdBase : Int}
    (h : SiteNumbersFit siteIdBase declared.length) :
    ((siteTable types declared siteIdBase).map Prod.fst).Nodup := by
  rw [List.nodup_iff_getElem?_ne_getElem?]
  intro i j hij hj hget
  rw [List.length_map, length_siteTable] at hj
  have hsite : ∀ k, k < declared.length →
      ((siteTable types declared siteIdBase).map Prod.fst)[k]? =
        some (siteNumber siteIdBase k) := by
    intro k hk
    rw [siteTable, List.getElem?_map, List.getElem?_mapIdx, List.getElem?_eq_getElem hk]
    rfl
  rw [hsite i (by omega), hsite j hj] at hget
  have := siteNumber_injective h (by omega) hj (Option.some.inj hget)
  omega

section Sites

variable {types declared : List Str} {siteIdBase : Int} {s t : Runtime}

/-- **The sites of a policy can be registered once its types are.** -/
theorem readySites_siteTable (hknown : ∀ name ∈ declared, name ∈ types)
    (hfit : SiteNumbersFit siteIdBase declared.length)
    (htypes : ∀ name ∈ types, s.types.find (typeNumber types name) = some (hashType name))
    (hnone : ∀ id, s.siteTypes.find id = none) :
    ReadySites s (siteTable types declared siteIdBase) where
  id_ne_zero e he := by
    obtain ⟨i, name, hget, rfl⟩ := mem_siteTable.mp he
    have hi := hfit i (List.getElem?_eq_some_iff.mp hget).1
    exact Word.ofInt_ne_zero hi.1 hi.2
  id_new e _ := hnone e.1
  known e he := by
    obtain ⟨i, name, hget, rfl⟩ := mem_siteTable.mp he
    exact ⟨hashType name, htypes name (hknown name (List.mem_of_getElem? hget))⟩
  nodup := nodup_siteTable hfit

/-- **Then each site is bound to the hash of its declared type**, and nothing else
is. -/
theorem find_of_holdsSites (h : HoldsSites s (siteTable types declared siteIdBase) t)
    (hknown : ∀ name ∈ declared, name ∈ types)
    (htypes : ∀ name ∈ types, s.types.find (typeNumber types name) = some (hashType name))
    (hnone : ∀ id, s.siteTypes.find id = none) {id : SiteId} {k : UInt64} :
    t.siteTypes.find id = some k ↔ ∃ i name, declared[i]? = some name ∧
      id = siteNumber siteIdBase i ∧ k = hashType name := by
  rw [h.siteTypes, hnone id]
  constructor
  · rintro (hc | ⟨typeId, hmem, hk⟩)
    · cases hc
    · obtain ⟨i, name, hget, he⟩ := mem_siteTable.mp hmem
      cases he
      rw [htypes name (hknown name (List.mem_of_getElem? hget))] at hk
      exact ⟨i, name, hget, rfl, (Option.some.inj hk).symm⟩
  · rintro ⟨i, name, hget, rfl, rfl⟩
    exact .inr ⟨typeNumber types name, mem_siteTable.mpr ⟨i, name, hget, rfl⟩,
      htypes name (hknown name (List.mem_of_getElem? hget))⟩

end Sites

end InterSpec.Tools
