import InterSpec.Tools.Intervals
import InterSpec.Tools.Macros

/-!
# Labels of linked boundaries

The labels of two boundaries that are linked into one module: those that the tables list, and
those that the instrumented sources and the macros of the helpers define.

* `LeavesLabels`: a source and a policy of which the generator defines the labels.
* `definedLabels_perm`: then what is defined is what the tables list.
* `labels_unique_iff`: the labels are unique exactly when no number has the same stem in both.
-/

namespace InterSpec.Tools

open Fallible

/-! ### Defined labels -/

/-- The labels that the instrumented source defines, and those of the macros of the helpers. -/
def definedLabels (out : Str × UHeader × THeader) : List Str :=
  siteLabels out.1 ++ out.2.1.asmMacros.flatMap (fun m => siteLabels m.2)

/-- Every allocation has a site, the names of the functions are plain, and the source has no
label of a site. -/
structure LeavesLabels (policy : Policy) (source : Str) : Prop where
  sites : ∀ a ∈ policy.allocations, a.site.isSome = true
  names : ∀ a ∈ policy.allocations, PlainName a.function
  unlabelled : siteLabels source = []

section Defined

variable {isWord : Char → Bool} {policy : Policy} {source namespaceName : Str}
  {boundary : Boundary} {out : Str × UHeader × THeader}

theorem isName_of_mem_siteStems {stem : Str}
    (h : stem ∈ siteStems policy namespaceName boundary) : IsName stem := by
  have hsymbol : ∀ name, IsName (symbol name) := fun _ _ => isIdentChar_of_mem_symbol
  have hlit : IsName "_".toList := List.all_eq_true.mp (by decide)
  rcases List.mem_append.mp h with h | h
  · obtain ⟨a, _, rfl⟩ := List.mem_map.mp h
    exact hsymbol _
  · obtain ⟨helper, _, rfl⟩ := List.mem_map.mp h
    simp only [IsName, List.forall_mem_append]
    exact ⟨⟨hsymbol _, hlit⟩, hsymbol _⟩

theorem BoundaryAccepted.siteLabels_asm {header : THeader}
    (acc : BoundaryAccepted policy namespaceName boundary header) {m : Str}
    (hm : m ∈ header.labels) : siteLabels (exportedLabelAsm m) = [m] := by
  obtain ⟨i, stem, hstem, hpair⟩ := acc.mem_labels.mp hm
  have hname := isName_of_mem_siteStems (List.mem_of_getElem? hstem)
  have hlabel : IsName m ∧ labelPrefix.isPrefixOf m = true := by
    rcases List.mem_pair.mp hpair with rfl | rfl
    · exact ⟨isName_label hname _ (by decide), label_start _ _ _⟩
    · exact ⟨isName_label hname _ (by decide), label_start _ _ _⟩
  have hassoc : ∀ a b c d : Str,
      a ++ m ++ b ++ m ++ c ++ m ++ d = a ++ (m ++ (b ++ (m ++ (c ++ (m ++ d))))) := by
    intro a b c d
    simp only [List.append_assoc]
  exact (congrArg siteLabels (hassoc _ _ _ _)).trans
    (labelsFrom_label hlabel.1 hlabel.2 false [] [])

theorem siteLabels_asmMacros
    (h : generateBoundary isWord policy source namespaceName boundary = .ok out) :
    out.2.1.asmMacros.flatMap (fun m => siteLabels m.2) =
      out.2.2.helperSites.flatMap (fun row => [row.beginSymbol, row.endSymbol]) := by
  have acc := generateBoundary_ok h
  obtain ⟨_, hheader⟩ := generateBoundary_uHeader h
  have hlen : out.2.2.helperSites.length ≤ boundary.helperSites.length := by
    rw [acc.helperSites, List.length_mapIdx]
  have hrow : ∀ row ∈ out.2.2.helperSites,
      siteLabels (exportedLabelAsm row.beginSymbol) ++
        siteLabels (exportedLabelAsm row.endSymbol) = [row.beginSymbol, row.endSymbol] := by
    intro row hrow
    have hlisted : ∀ m ∈ [row.beginSymbol, row.endSymbol], m ∈ out.2.2.labels :=
      fun m hm => List.mem_flatMap.mpr ⟨row, List.mem_append_right _ hrow, hm⟩
    rw [acc.siteLabels_asm (hlisted _ List.mem_cons_self),
      acc.siteLabels_asm (hlisted _ (List.mem_cons_of_mem _ List.mem_cons_self))]
    rfl
  rw [hheader, List.flatMap_assoc]
  calc (boundary.helperSites.zip out.2.2.helperSites).flatMap
        (fun e => (helperAsmMacros e.1 e.2).flatMap (fun m => siteLabels m.2))
      = ((boundary.helperSites.zip out.2.2.helperSites).map Prod.snd).flatMap (fun row =>
          siteLabels (exportedLabelAsm row.beginSymbol) ++
            siteLabels (exportedLabelAsm row.endSymbol)) := by
        rw [List.flatMap_map]
        simp [helperAsmMacros]
    _ = _ := by
        rw [List.map_snd_zip hlen]
        exact List.flatMap_congr hrow

theorem siteLabels_source
    (h : generateBoundary isWord policy source namespaceName boundary = .ok out)
    (hleaves : LeavesLabels policy source) : (siteLabels out.1).Perm
      (out.2.2.sites.flatMap (fun row => [row.beginSymbol, row.endSymbol])) := by
  obtain ⟨generated, entries, dynamicUses, gen, _, rfl⟩ := generateBoundary_parts h
  obtain ⟨htable, ⟨T, htext, hskeleton, hmarks⟩, _⟩ :=
    generate_pieces gen hleaves.sites hleaves.names hleaves.unlabelled
  have hlabels : siteLabels generated.1 = (marks T).flatMap PreciseSite.labels := by
    rw [htext]
    exact labelsFrom_render hskeleton
  dsimp only
  rw [hlabels, htable, List.flatMap_map]
  exact hmarks.flatMap_right _

/-- **What is defined is what the tables list.** -/
theorem definedLabels_perm
    (h : generateBoundary isWord policy source namespaceName boundary = .ok out)
    (hleaves : LeavesLabels policy source) : (definedLabels out).Perm out.2.2.labels := by
  rw [definedLabels, siteLabels_asmMacros h, THeader.labels, List.flatMap_append]
  exact (siteLabels_source h hleaves).append_right _

end Defined

/-! ### Two boundaries -/

/-- The labels of two boundaries, in one module. -/
structure LabelsUnique (labelsA labelsB : List Str) : Prop where
  first : labelsA.Nodup
  second : labelsB.Nodup
  apart : ∀ m ∈ labelsA, m ∉ labelsB

theorem LabelsUnique.perm {labelsA labelsB labelsA' labelsB' : List Str}
    (h : LabelsUnique labelsA labelsB) (hA : labelsA.Perm labelsA') (hB : labelsB.Perm labelsB') :
    LabelsUnique labelsA' labelsB' :=
  ⟨hA.nodup_iff.mp h.first, hB.nodup_iff.mp h.second,
    fun m hmA hmB => h.apart m (hA.mem_iff.mpr hmA) (hB.mem_iff.mpr hmB)⟩

/-- **The labels of two boundaries are unique exactly when no site number has the same
stem in both**: those that the tables list, and those that the sources and the macros
define. -/
theorem labels_unique_iff {isWord : Char → Bool} {policyA policyB : Policy}
    {sourceA namespaceA sourceB namespaceB : Str} {boundaryA boundaryB : Boundary}
    {outA outB : Str × UHeader × THeader}
    (hA : generateBoundary isWord policyA sourceA namespaceA boundaryA = .ok outA)
    (hB : generateBoundary isWord policyB sourceB namespaceB boundaryB = .ok outB) :
    (LabelsUnique outA.2.2.labels outB.2.2.labels ↔
      ∀ (i : Nat) stem, (siteStems policyA namespaceA boundaryA)[i]? = some stem →
        (siteStems policyB namespaceB boundaryB)[i]? ≠ some stem) ∧
    (LeavesLabels policyA sourceA → LeavesLabels policyB sourceB →
      (LabelsUnique (definedLabels outA) (definedLabels outB) ↔
        LabelsUnique outA.2.2.labels outB.2.2.labels)) := by
  have accA := generateBoundary_ok hA
  have accB := generateBoundary_ok hB
  refine ⟨?_, fun hleavesA hleavesB => ?_⟩
  · rw [← labels_apart_iff accA accB]
    exact ⟨fun h => h.apart, fun h => ⟨accA.nodup_labels, accB.nodup_labels, h⟩⟩
  · have hpermA := definedLabels_perm hA hleavesA
    have hpermB := definedLabels_perm hB hleavesB
    exact ⟨fun h => h.perm hpermA hpermB, fun h => h.perm hpermA.symm hpermB.symm⟩

/-- One type, and a helper of it. -/
def grabNode : Policy × Boundary :=
  (⟨["node".toList], [], []⟩, ⟨[], [⟨"grab".toList, "node".toList⟩]⟩)

/-- One helper in each of two namespaces. -/
theorem labels_unique_helpers : ∃ outA outB : Str × UHeader × THeader,
    generateBoundary asciiWord grabNode.1 [] "interspec::node".toList grabNode.2 = .ok outA ∧
    generateBoundary asciiWord grabNode.1 [] "interspec::other".toList grabNode.2 = .ok outB ∧
    LabelsUnique outA.2.2.labels outB.2.2.labels ∧
    LabelsUnique (definedLabels outA) (definedLabels outB) := by
  obtain ⟨outA, hA⟩ : ∃ out, generateBoundary asciiWord grabNode.1 [] "interspec::node".toList
      grabNode.2 = .ok out := ⟨_, rfl⟩
  obtain ⟨outB, hB⟩ : ∃ out, generateBoundary asciiWord grabNode.1 [] "interspec::other".toList
      grabNode.2 = .ok out := ⟨_, rfl⟩
  have hleaves : LeavesLabels grabNode.1 [] := ⟨nofun, nofun, rfl⟩
  obtain ⟨hiff, hdefined⟩ := labels_unique_iff hA hB
  have hlisted := hiff.mpr (fun i stem h h' => by
    have hlt : i < 1 := (List.getElem?_eq_some_iff.mp h).1
    obtain rfl : i = 0 := by omega
    exact absurd (h.trans h'.symm) (by decide))
  exact ⟨outA, outB, hA, hB, hlisted, (hdefined hleaves hleaves).mpr hlisted⟩

/-- **Two namespaces, one label.**  The first source allocation of both boundaries is in
a function of the same name. -/
theorem precise_labels_collide : ∃ outA outB : Str × UHeader × THeader,
    generateBoundary asciiWord nodePolicy nodeSource "interspec::node".toList bufferBoundary =
      .ok outA ∧
    generateBoundary asciiWord nodePolicy nodeSource "interspec::other".toList bufferBoundary =
      .ok outB ∧
    "interspec_alloc_site_make_1_begin".toList ∈ outA.2.2.labels ∧
    "interspec_alloc_site_make_1_begin".toList ∈ outB.2.2.labels ∧
    ¬ LabelsUnique outA.2.2.labels outB.2.2.labels := by
  obtain ⟨outA, hA⟩ : ∃ out, generateBoundary asciiWord nodePolicy nodeSource
      "interspec::node".toList bufferBoundary = .ok out := ⟨_, rfl⟩
  obtain ⟨outB, hB⟩ : ∃ out, generateBoundary asciiWord nodePolicy nodeSource
      "interspec::other".toList bufferBoundary = .ok out := ⟨_, rfl⟩
  have hmem : "interspec_alloc_site_make_1_begin".toList ∈ labelPair 1 "make".toList :=
    List.mem_cons_self
  have hmA := (generateBoundary_ok hA).mem_labels.mpr ⟨0, "make".toList, rfl, hmem⟩
  have hmB := (generateBoundary_ok hB).mem_labels.mpr ⟨0, "make".toList, rfl, hmem⟩
  exact ⟨outA, outB, hA, hB, hmA, hmB, fun h => h.apart _ hmA hmB⟩

end InterSpec.Tools
