import InterSpec.Tools.Backends

/-!
# Labels of a boundary

The labels of the sites are global symbols of the linked module.  A label is a
stem, the number of the site and a suffix; the stem of a helper has the namespace of
its boundary in it, the stem of a source allocation has only its function.

* `siteStems`: the stems in the order of the site numbers.
* `BoundaryAccepted.nodup_labels`: within one boundary the number alone tells the labels apart.
* `labels_apart_iff`: two boundaries share no label exactly when no number has the same stem
  in both.
-/

namespace InterSpec.Tools

open Fallible

/-- The labels that the T tables of a boundary list. -/
def THeader.labels (header : THeader) : List Str :=
  (header.sites ++ header.helperSites).flatMap (fun row => [row.beginSymbol, row.endSymbol])

/-- What the labels of a site say besides its number, precise sites first. -/
def siteStems (policy : Policy) (namespaceName : Str) (boundary : Boundary) : List Str :=
  (policy.allocations.filter (fun a => a.site.isSome)).map (fun a => symbol a.function) ++
    boundary.helperSites.map (fun helper =>
      symbol namespaceName ++ "_".toList ++ symbol helper.name)

/-- A label of site number `k` with that stem. -/
def siteLabel (stem : Str) (k : Nat) (suffix : Str) : Str :=
  label ("interspec_alloc_site_".toList ++ stem) k suffix

theorem siteLabel_injective {x y suffix : Str} {j k : Nat}
    (h : siteLabel x j suffix = siteLabel y k suffix) : j = k ∧ x = y := by
  have hnum : j = k := label_siteId h
  subst hnum
  have h : "interspec_alloc_site_".toList ++ x ++ "_".toList ++ digits j ++ suffix =
      "interspec_alloc_site_".toList ++ y ++ "_".toList ++ digits j ++ suffix := h
  have hcut := List.append_cancel_right (List.append_cancel_right (List.append_cancel_right h))
  exact ⟨rfl, List.append_cancel_left hcut⟩

/-- The two labels of site number `k`. -/
def labelPair (k : Nat) (stem : Str) : List Str :=
  [siteLabel stem k "_begin".toList, siteLabel stem k "_end".toList]

theorem mem_labelPair {x y m : Str} {j k : Nat} (hx : m ∈ labelPair j x) (hy : m ∈ labelPair k y) :
    j = k ∧ x = y := by
  rcases List.mem_pair.mp hx with rfl | rfl <;> rcases List.mem_pair.mp hy with h | h
  · exact siteLabel_injective h
  · exact absurd h (label_begin_ne_end _ _ _ _)
  · exact absurd h.symm (label_begin_ne_end _ _ _ _)
  · exact siteLabel_injective h

section Accepted

variable {policy policyB : Policy} {namespaceName namespaceNameB : Str}
  {boundary boundaryB : Boundary} {header headerB : THeader}

/-- **The labels are the pairs of the numbered stems.** -/
theorem BoundaryAccepted.labels (acc : BoundaryAccepted policy namespaceName boundary header) :
    header.labels = ((siteStems policy namespaceName boundary).mapIdx
      (fun i stem => labelPair (i + 1) stem)).flatten := by
  have hhelper : ∀ (k : Nat) (helper : HelperSite),
      [(helperEntry namespaceName k helper).beginSymbol,
        (helperEntry namespaceName k helper).endSymbol] =
      labelPair k (symbol namespaceName ++ "_".toList ++ symbol helper.name) := by
    intro k helper
    rw [labelPair, siteLabel, siteLabel, label, label, ← List.append_assoc, ← List.append_assoc]
    rfl
  rw [THeader.labels, acc.sites, acc.helperSites, preciseSites_filter, List.flatMap_def,
    List.map_append, map_mapIdx, map_mapIdx, siteStems, List.mapIdx_append, mapIdx_map, mapIdx_map,
    List.length_map]
  congr 2
  · apply List.ext_getElem?
    intro i
    rw [List.getElem?_mapIdx, List.getElem?_mapIdx, Nat.add_comm 1 i]
    rfl
  · apply List.ext_getElem?
    intro i
    rw [List.getElem?_mapIdx, List.getElem?_mapIdx]
    refine congrArg (fun f => Option.map f boundary.helperSites[i]?) (funext fun helper => ?_)
    rw [hhelper]
    congr 1
    omega

theorem BoundaryAccepted.mem_labels
    (acc : BoundaryAccepted policy namespaceName boundary header) {m : Str} :
    m ∈ header.labels ↔ ∃ i stem, (siteStems policy namespaceName boundary)[i]? = some stem ∧
      m ∈ labelPair (i + 1) stem := by
  rw [acc.labels, List.mem_flatten]
  constructor
  · rintro ⟨pair, hpair, hm⟩
    obtain ⟨i, hi, rfl⟩ := List.mem_mapIdx.mp hpair
    exact ⟨i, _, List.getElem?_eq_getElem hi, hm⟩
  · rintro ⟨i, stem, hi, hm⟩
    obtain ⟨hlt, rfl⟩ := List.getElem?_eq_some_iff.mp hi
    exact ⟨_, List.mem_mapIdx.mpr ⟨i, hlt, rfl⟩, hm⟩

/-- **Within one boundary no label is there twice.** -/
theorem BoundaryAccepted.nodup_labels
    (acc : BoundaryAccepted policy namespaceName boundary header) : header.labels.Nodup := by
  rw [acc.labels, List.nodup_flatten]
  constructor
  · intro pair hpair
    obtain ⟨i, hi, rfl⟩ := List.mem_mapIdx.mp hpair
    rw [labelPair, List.nodup_cons, List.mem_singleton]
    exact ⟨label_begin_ne_end _ _ _ _, List.nodup_singleton _⟩
  · rw [List.pairwise_iff_getElem]
    intro i j hi hj hij m hmi hmj
    rw [List.getElem_mapIdx] at hmi hmj
    have heq := (mem_labelPair hmi hmj).1
    omega

/-- **Two boundaries share a label exactly when some number has one stem in both.** -/
theorem labels_apart_iff (accA : BoundaryAccepted policy namespaceName boundary header)
    (accB : BoundaryAccepted policyB namespaceNameB boundaryB headerB) :
    (∀ m ∈ header.labels, m ∉ headerB.labels) ↔
      ∀ (i : Nat) stem, (siteStems policy namespaceName boundary)[i]? = some stem →
        (siteStems policyB namespaceNameB boundaryB)[i]? ≠ some stem := by
  constructor
  · intro hapart i stem hA hB
    have hm : siteLabel stem (i + 1) "_begin".toList ∈ labelPair (i + 1) stem :=
      List.mem_cons_self
    exact hapart _ (accA.mem_labels.mpr ⟨i, stem, hA, hm⟩) (accB.mem_labels.mpr ⟨i, stem, hB, hm⟩)
  · intro hstems m hA hB
    obtain ⟨i, x, hx, hmx⟩ := accA.mem_labels.mp hA
    obtain ⟨j, y, hy, hmy⟩ := accB.mem_labels.mp hB
    obtain ⟨hij, rfl⟩ := mem_labelPair hmx hmy
    obtain rfl : i = j := Nat.succ.inj hij
    exact hstems i x hx hy

end Accepted

end InterSpec.Tools
