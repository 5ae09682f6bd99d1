import InterSpec.Data.Dict
import InterSpec.Data.Fallible
import InterSpec.Tools.Policy

/-!
# Type numbers and type hashes

What the two generators do with the names of the types before they emit
anything: the types of the boundary are added to those of the policy, every name
gets its last position, from one, as its number, and two names with one hash are
refused.

* `composeTypes_eq_ok`: the composed list, `composedTypes`.
* `typeIds_get?`: the number of a name.
* `checkHashes_eq_ok`: the names that are accepted have different hashes.
-/

namespace InterSpec.Tools

open Fallible

/-! ### Composition -/

/-- The loop of `prepare_policy` over the types of the boundary. -/
def composeTypes : List Str → List Str → Except PolicyError (List Str)
  | composed, [] => .ok composed
  | composed, typeName :: rest => do
    ensure (typeName ≠ []) .emptyBoundaryType
    composeTypes (if typeName ∈ composed then composed else composed ++ [typeName]) rest

/-- The types, followed by the new ones of `extra`. -/
def composedTypes (types extra : List Str) : List Str :=
  extra.foldl (fun composed typeName =>
    if typeName ∈ composed then composed else composed ++ [typeName]) types

theorem composeTypes_eq_ok {extra : List Str} : ∀ {types composed : List Str},
    composeTypes types extra = .ok composed → composed = composedTypes types extra := by
  induction extra with
  | nil =>
    intro types composed h
    cases h
    rfl
  | cons t extra ih =>
    intro types composed h
    obtain ⟨_, _, h⟩ := bind_eq_ok.mp h
    exact ih h

/-! ### Numbers -/

/-- `{name: index + 1 for index, name in enumerate(types)}`. -/
def typeIds (types : List Str) : Dict Str Nat :=
  types.zipIdx.foldl (fun ids entry => ids.set entry.1 (entry.2 + 1)) .empty

theorem typeIds_concat (types : List Str) (name : Str) :
    typeIds (types ++ [name]) = (typeIds types).set name (types.length + 1) := by
  rw [typeIds, List.zipIdx_append, List.foldl_append]
  show ((types.zipIdx.foldl _ Dict.empty).set name (0 + types.length + 1)) = _
  rw [Nat.zero_add]
  rfl

/-- `i` is the last position of `name`. -/
def LastAt (types : List Str) (i : Nat) (name : Str) : Prop :=
  types[i]? = some name ∧ ∀ j, i < j → types[j]? ≠ some name

/-- **The number of a name is its last position, counted from one.** -/
theorem typeIds_get? {types : List Str} {name : Str} {k : Nat} :
    (typeIds types).get? name = some k ↔ ∃ i, k = i + 1 ∧ LastAt types i name := by
  induction types using List.reverseRecOn generalizing k with
  | nil =>
    constructor
    · exact fun h => (nomatch h)
    · rintro ⟨i, _, hi, _⟩
      exact nomatch hi
  | append_singleton types x ih =>
    rw [typeIds_concat, Dict.get?_set]
    by_cases hx : name = x
    · subst hx
      rw [if_pos rfl]
      constructor
      · intro h
        refine ⟨types.length, (Option.some.inj h).symm, List.getElem?_concat_length, ?_⟩
        intro j hj
        rw [List.getElem?_eq_none (by rw [List.length_append, List.length_singleton]; omega)]
        exact nofun
      · rintro ⟨i, rfl, hi, hlast⟩
        have hlt := (List.getElem?_eq_some_iff.mp hi).1
        rw [List.length_append, List.length_singleton] at hlt
        by_cases hlen : i < types.length
        · exact absurd List.getElem?_concat_length (hlast types.length hlen)
        · rw [show i = types.length from by omega]
    · rw [if_neg hx, ih]
      refine exists_congr (fun i => and_congr_right (fun _ => ?_))
      have hget : ∀ j : Nat, (types ++ [x])[j]? = some name ↔ types[j]? = some name := by
        intro j
        by_cases hj : j < types.length
        · rw [List.getElem?_append_left hj]
        · rw [List.getElem?_append_right (by omega), List.getElem?_eq_none (l := types) (by omega)]
          refine iff_of_false (fun h => ?_) nofun
          obtain ⟨_, hval⟩ := List.getElem?_eq_some_iff.mp h
          exact hx (by simpa using hval.symm)
      exact and_congr (hget i).symm
        (forall_congr' (fun j => imp_congr_right (fun _ => not_congr (hget j).symm)))

theorem mem_typeIds_keys {types : List Str} {name : Str} :
    name ∈ (typeIds types).keys ↔ name ∈ types := by
  induction types using List.reverseRecOn with
  | nil => exact Iff.rfl
  | append_singleton types x ih =>
    rw [typeIds_concat, Dict.mem_keys_set, ih, List.mem_append, List.mem_singleton]

theorem length_typeIds_le (types : List Str) : (typeIds types).keys.length ≤ types.length := by
  induction types using List.reverseRecOn with
  | nil => exact le_rfl
  | append_singleton types x ih =>
    rw [typeIds_concat, Dict.keys_set, List.length_append, List.length_singleton]
    by_cases hx : x ∈ (typeIds types).keys
    · rw [if_pos hx]
      omega
    · rw [if_neg hx, List.length_append, List.length_singleton]
      omega

theorem nodup_of_length_typeIds {types : List Str}
    (h : (typeIds types).keys.length = types.length) : types.Nodup := by
  induction types using List.reverseRecOn with
  | nil => exact List.nodup_nil
  | append_singleton types x ih =>
    have hle := length_typeIds_le types
    rw [typeIds_concat, Dict.keys_set, List.length_append, List.length_singleton] at h
    by_cases hx : x ∈ (typeIds types).keys
    · rw [if_pos hx] at h
      omega
    · rw [if_neg hx, List.length_append, List.length_singleton] at h
      rw [List.nodup_append]
      refine ⟨ih (by omega), List.nodup_singleton x, fun a ha b hb hab => ?_⟩
      rw [mem_typeIds_keys] at hx
      rw [List.mem_singleton.mp hb] at hab
      exact hx (hab ▸ ha)

/-! ### Hashes -/

/-- The loop that looks for two names with one hash. -/
def checkHashes : Dict UInt64 Str → List Str → Except PolicyError Unit
  | _, [] => .ok ()
  | hashes, name :: rest =>
    match hashes.get? (hashType name) with
    | some first => .error (.hashCollision first name)
    | none => checkHashes (hashes.set (hashType name) name) rest

theorem checkHashes_eq_ok {names : List Str} : ∀ {hashes : Dict UInt64 Str} {u : Unit},
    checkHashes hashes names = .ok u ↔
      (names.map hashType).Nodup ∧ ∀ name ∈ names, hashes.get? (hashType name) = none := by
  induction names with
  | nil => intro hashes u; exact iff_of_true rfl ⟨List.nodup_nil, nofun⟩
  | cons x names ih =>
    intro hashes u
    rw [checkHashes, List.map_cons, List.nodup_cons, List.forall_mem_cons]
    cases hx : hashes.get? (hashType x) with
    | some first => exact iff_of_false nofun (fun h => nomatch h.2.1)
    | none =>
      dsimp only
      rw [ih]
      constructor
      · rintro ⟨hnodup, hnone⟩
        refine ⟨⟨fun hmem => ?_, hnodup⟩, rfl, fun name hname => ?_⟩
        · obtain ⟨name, hname, hhash⟩ := List.mem_map.mp hmem
          have := hnone name hname
          rw [Dict.get?_set, if_pos hhash] at this
          cases this
        · have := hnone name hname
          rw [Dict.get?_set] at this
          split at this
          · cases this
          · exact this
      · rintro ⟨⟨hmem, hnodup⟩, _, hnone⟩
        refine ⟨hnodup, fun name hname => ?_⟩
        rw [Dict.get?_set, if_neg (fun hhash => hmem (List.mem_map.mpr ⟨name, hname, hhash⟩))]
        exact hnone name hname

end InterSpec.Tools
