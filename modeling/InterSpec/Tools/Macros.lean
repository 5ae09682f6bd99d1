import InterSpec.Runtime.Accounting
import InterSpec.Tools.Authority
import InterSpec.Tools.Backends
import Mathlib.Data.List.Forall2

/-!
# The macros of the U headers

The untrusted code names its sites and types by macros, and in the preprocessor a
later definition replaces an earlier one of the same name.  The macro of a name
keeps only its letters and digits, in upper case, and the generators compare the
names themselves.

* `Alike`: two names get the same macro (`macroName_eq_iff`).
* `MacrosReach`, `WasmMacrosReach`: the macro of every helper reaches the labels,
  or the import, of its own site, and types have macros of their own.
* `macros_reach_iff`: this holds exactly where no two different helper names and no
  two different types are alike.
-/

namespace InterSpec.Tools

open Fallible InterSpec.Runtime

/-! ### Names that look alike -/

/-- Two characters that `macro` does not tell apart: letters up to case, equal
digits, and any two of the other characters. -/
def AlikeChar (c d : Char) : Prop :=
  c.isAlphanum = d.isAlphanum ∧ (c.isAlphanum = true → c.toUpper = d.toUpper)

/-- Position by position the same, up to case and punctuation. -/
def Alike (x y : Str) : Prop := List.Forall₂ AlikeChar x y

/-- No two different names are alike. -/
def NoneAlike (names : List Str) : Prop := ∀ x ∈ names, ∀ y ∈ names, Alike x y → x = y

def macroChar (c : Char) : Char := (if c.isAlphanum then c else '_').toUpper

theorem toUpper_ne_underscore {c : Char} (hc : c.isAlphanum = true) : c.toUpper ≠ '_' := by
  have hascii : ∀ n < 128, (Char.ofNat n).isAlphanum = true → (Char.ofNat n).toUpper ≠ '_' := by
    decide
  have hself := hascii c.toNat (toNat_lt_of_isAlphanum hc)
  rw [Char.ofNat_toNat] at hself
  exact hself hc

theorem macroChar_eq_iff {c d : Char} : macroChar c = macroChar d ↔ AlikeChar c d := by
  unfold macroChar AlikeChar
  by_cases hc : c.isAlphanum = true
  · by_cases hd : d.isAlphanum = true
    · rw [if_pos hc, if_pos hd, hc, hd]
      exact ⟨fun h => ⟨rfl, fun _ => h⟩, fun h => h.2 rfl⟩
    · rw [if_pos hc, if_neg hd]
      exact iff_of_false (toUpper_ne_underscore hc) (fun h => hd (h.1.symm.trans hc))
  · by_cases hd : d.isAlphanum = true
    · rw [if_neg hc, if_pos hd]
      exact iff_of_false (fun h => toUpper_ne_underscore hd h.symm) (fun h => hc (h.1.trans hd))
    · rw [if_neg hc, if_neg hd, Bool.eq_false_iff.mpr hc, Bool.eq_false_iff.mpr hd]
      exact iff_of_true rfl ⟨rfl, nofun⟩

/-- **Two names have the same macro exactly when they are alike.** -/
theorem macroName_eq_iff {x y : Str} : macroName x = macroName y ↔ Alike x y := by
  have hmap : ∀ z, macroName z = z.map macroChar := fun z => by
    rw [macroName, List.map_map]
    rfl
  rw [hmap, hmap, ← List.forall₂_eq_eq_eq, List.forall₂_map_left_iff, List.forall₂_map_right_iff]
  unfold Alike
  simp only [macroChar_eq_iff]

/-! ### Definitions -/

/-- What the name of a macro stands for. -/
inductive Expansion
  | typeId (id : Nat)
  | importCall (cName : Str)
  | label (asm : Str)
deriving DecidableEq, Repr

def typeMacro (name : Str) : Str := "INTERSPEC_TYPE_ID_".toList ++ macroName name

def typeDefines (typeMacros : List (Str × Nat)) : List (Str × Expansion) :=
  typeMacros.map (fun m => (m.1, .typeId m.2))

/-- The definitions of the import based header, in their order. -/
def WasmUHeader.defines (header : WasmUHeader) : List (Str × Expansion) :=
  typeDefines header.typeMacros ++
    header.imports.filterMap (fun d => d.helperMacro.map (fun m => (m, .importCall d.cName)))

/-- The definitions of the label based header, in their order. -/
def UHeader.defines (header : UHeader) : List (Str × Expansion) :=
  typeDefines header.typeMacros ++ header.asmMacros.map (fun m => (m.1, .label m.2))

/-- What the preprocessor makes of a name. -/
def expand (name : Str) (defines : List (Str × Expansion)) : Option Expansion :=
  Dict.lastBinding name defines

/-- Every type has a macro of its own, which stands for its number. -/
structure TypeMacrosReach (types : List Str) (defines : List (Str × Expansion)) : Prop where
  distinct : ∀ t ∈ types, ∀ u ∈ types, typeMacro t = typeMacro u → t = u
  expands : ∀ t k, (typeIds types).get? t = some k →
    expand (typeMacro t) defines = some (.typeId k)

theorem typeMacro_ne {t x : Str} : typeMacro t ≠ "INTERSPEC_SITE_".toList ++ x := by
  intro h
  have hat : ("INTERSPEC_TYPE_ID_".toList ++ macroName t)[10]? =
      ("INTERSPEC_SITE_".toList ++ x)[10]? := congrArg (fun s => s[10]?) h
  rw [List.getElem?_append_left (by decide), List.getElem?_append_left (by decide)] at hat
  exact absurd hat (by decide)

theorem nodup_typeDefines {types : List Str} (h : NoneAlike types) :
    ((typeDefines (typeMacros (typeIds types))).map Prod.fst).Nodup := by
  rw [typeDefines, typeMacros, List.map_map, List.map_map]
  have hkeys : ((typeIds types).keys.map typeMacro).Nodup := by
    refine List.Nodup.map_on (fun t ht u hu htu => ?_) (typeIds types).nodup
    exact h t (mem_typeIds_keys.mp ht) u (mem_typeIds_keys.mp hu)
      (macroName_eq_iff.mp (List.append_cancel_left htu))
  rw [Dict.keys, List.map_map] at hkeys
  exact hkeys

theorem nodup_defines {types : List Str} (h : NoneAlike types) {rest : List (Str × Expansion)}
    (hrest : (rest.map Prod.fst).Nodup)
    (hsite : ∀ m ∈ rest, ∃ x, m.1 = "INTERSPEC_SITE_".toList ++ x) :
    ((typeDefines (typeMacros (typeIds types)) ++ rest).map Prod.fst).Nodup := by
  rw [List.map_append, List.nodup_append]
  refine ⟨nodup_typeDefines h, hrest, fun m hm m' hm' hmm' => ?_⟩
  rw [typeDefines, typeMacros, List.map_map, List.map_map] at hm
  obtain ⟨⟨t, k⟩, _, rfl⟩ := List.mem_map.mp hm
  obtain ⟨f, hf, rfl⟩ := List.mem_map.mp hm'
  obtain ⟨x, hx⟩ := hsite f hf
  rw [hx] at hmm'
  exact typeMacro_ne (t := t) hmm'

theorem typeMacrosReach_of_noneAlike {types : List Str} (h : NoneAlike types)
    {rest : List (Str × Expansion)}
    (hnodup : ((typeDefines (typeMacros (typeIds types)) ++ rest).map Prod.fst).Nodup) :
    TypeMacrosReach types (typeDefines (typeMacros (typeIds types)) ++ rest) where
  distinct t ht u hu htu := h t ht u hu (macroName_eq_iff.mp (List.append_cancel_left htu))
  expands t k hk := by
    refine (Dict.lastBinding_eq_some hnodup).mpr (List.mem_append_left _ ?_)
    exact List.mem_map.mpr ⟨(typeMacro t, k),
      List.mem_map.mpr ⟨(t, k), Dict.mem_entries.mpr hk, rfl⟩, rfl⟩

theorem TypeMacrosReach.noneAlike {types : List Str} {defines : List (Str × Expansion)}
    (h : TypeMacrosReach types defines) : NoneAlike types := by
  intro t ht u hu htu
  exact h.distinct t ht u hu
    (congrArg ("INTERSPEC_TYPE_ID_".toList ++ ·) (macroName_eq_iff.mpr htu))

theorem nodup_map_of_noneAlike {names : List Str} (hnodup : names.Nodup) (h : NoneAlike names)
    {f : Str → Str} (hf : ∀ x y, f x = f y → macroName x = macroName y) : (names.map f).Nodup :=
  List.Nodup.map_on (fun x hx y hy hxy => h x hx y hy (macroName_eq_iff.mp (hf x y hxy))) hnodup

theorem noneAlike_of_nodup_map {names : List Str} {f : Str → Str}
    (h : (names.map f).Nodup) (hf : ∀ x y, macroName x = macroName y → f x = f y) :
    NoneAlike names := fun _ hx _ hy hxy =>
  List.inj_on_of_nodup_map h hx hy (hf _ _ (macroName_eq_iff.mpr hxy))

def helperNames (boundary : Boundary) : List Str := boundary.helperSites.map (fun h => h.name)

/-! ### The import based header -/

/-- The macro of the helper calls the import `d` of the helper's own site record, and
what that import allocates has the type declared for the helper. -/
structure WasmHelperReached (policy : Policy) (siteIdBase : Int) (out : WasmOutput) (i : Nat)
    (helper : HelperSite) (d : ImportDeclaration) : Prop where
  declared : out.uHeader.imports[policy.allocations.length + i]? = some d
  expands : expand (allocMacro helper.name) out.uHeader.defines = some (.importCall d.cName)
  alone : ∀ j other, out.uHeader.imports[j]? = some other → other.cName = d.cName →
    j = policy.allocations.length + i
  row : ∃ row, out.tHeader.sites[policy.allocations.length + i]? = some row ∧
    row.importName = d.importName ∧ row.typeIdent = cpp helper.type
  yields : ∀ q arenaBase arenaSize, out.tHeader.compile = some q →
    (q.registerTypes (new arenaBase arenaSize)).2 = true → ∀ (calls : List ImportCall) ops,
      calls.mapM (dispatch out.hostImports) = some ops → ∀ size, ∃ op,
        dispatch out.hostImports (.allocate d.importName size) = some op ∧
        ∀ a, newRecord ((q.install arenaBase arenaSize).after ops) op = some a →
          a.typeHash = hashType helper.type ∧
            a.siteId = siteNumber siteIdBase (policy.allocations.length + i)

structure WasmMacrosReach (policy : Policy) (boundary : Boundary) (siteIdBase : Int)
    (out : WasmOutput) : Prop where
  distinct : ((helperNames boundary).map allocMacro).Nodup
  reached : ∀ i helper, boundary.helperSites[i]? = some helper →
    ∃ d, WasmHelperReached policy siteIdBase out i helper d
  types : TypeMacrosReach (allTypes policy boundary) out.uHeader.defines

theorem macroName_of_allocMacro {x y : Str} (h : allocMacro x = allocMacro y) :
    macroName x = macroName y := by
  have h : "INTERSPEC_SITE_".toList ++ macroName x ++ "_ALLOC".toList =
      "INTERSPEC_SITE_".toList ++ macroName y ++ "_ALLOC".toList := h
  have hleft := List.append_cancel_right h
  exact List.append_cancel_left hleft

theorem allocMacro_of_macroName {x y : Str} (h : macroName x = macroName y) :
    allocMacro x = allocMacro y :=
  congrArg (fun m => "INTERSPEC_SITE_".toList ++ m ++ "_ALLOC".toList) h

theorem importName_injective {stem : Str} {j k : Nat} (h : importName stem j = importName stem k) :
    j = k :=
  digits_injective (List.append_cancel_left h)

theorem siteCName_injective {namespaceName : Str} {j k : Nat}
    (h : siteCName namespaceName j = siteCName namespaceName k) : j = k :=
  digits_injective (List.append_cancel_left h)

theorem generateWasmBoundary_nodup {isWord : Char → Bool} {policy : Policy}
    {source namespaceName : Str} {boundary : Boundary} {siteIdBase : Int} {out : WasmOutput}
    (h : generateWasmBoundary isWord policy source namespaceName boundary siteIdBase = .ok out) :
    (helperNames boundary).Nodup := by
  obtain ⟨_, _, h⟩ := bind_eq_ok.mp h
  obtain ⟨_, _, h⟩ := bind_eq_ok.mp h
  obtain ⟨_, _, h⟩ := bind_eq_ok.mp h
  obtain ⟨_, hrecords, _⟩ := bind_eq_ok.mp h
  obtain ⟨_, _, hrecords⟩ := bind_eq_ok.mp hrecords
  obtain ⟨_, hhelpers, _⟩ := bind_eq_ok.mp hrecords
  exact (numberedFresh_eq_ok hhelpers).2.1

theorem newRecord_allocateFromSite {s : Runtime} (h : Layout s) {size typeHash : UInt64}
    {siteId : SiteId} (hs : s.siteTypes.find siteId = some typeHash) {a : Allocation}
    (ha : newRecord s (.allocateFromSite size siteId) = some a) :
    a.typeHash = typeHash ∧ a.siteId = siteId := by
  unfold newRecord at ha
  dsimp only [step] at ha
  split at ha
  · rename_i hnone
    rw [allocateFromSite_of_find h hs] at ha hnone
    exact find_request_new h hnone ha
  · cases ha

theorem newRecord_allocateFromPc {s : Runtime} (h : Layout s) {size pc : UInt64}
    {site : AllocationSite} (hs : s.findSiteUnlocked pc = some site) {a : Allocation}
    (ha : newRecord s (.allocateFromPc size pc) = some a) :
    a.typeHash = site.typeHash ∧ a.siteId = site.id := by
  unfold newRecord at ha
  dsimp only [step] at ha
  split at ha
  · rename_i hnone
    rw [allocateFromPc_of_find h hs] at ha hnone
    exact find_request_new h hnone ha
  · cases ha

section Wasm

variable {isWord : Char → Bool} {policy : Policy} {source namespaceName : Str}
  {boundary : Boundary} {siteIdBase : Int} {out : WasmOutput}

theorem declaredSites_helper {i : Nat} {helper : HelperSite}
    (h : boundary.helperSites[i]? = some helper) :
    (declaredSites policy boundary)[policy.allocations.length + i]? =
      some (helper.type, some helper.name) := by
  rw [declaredSites, List.getElem?_append_right (by rw [List.length_map]; omega),
    List.length_map, Nat.add_sub_cancel_left, List.getElem?_map, h]
  rfl

/-- The definitions of the header: one for each type, then one for each helper. -/
theorem WasmAccepted.defines
    (acc : WasmAccepted isWord policy source namespaceName boundary siteIdBase out) :
    out.uHeader.defines = typeDefines (typeMacros (typeIds (allTypes policy boundary))) ++
      boundary.helperSites.mapIdx (fun i helper => (allocMacro helper.name,
        .importCall (siteCName namespaceName (i + policy.allocations.length + 1)))) := by
  rw [WasmUHeader.defines, acc.uHeader, generateWasmUHeader]
  congr 1
  rw [recordsFor, declaredSites, List.mapIdx_append, List.map_append, List.filterMap_append,
    map_mapIdx, map_mapIdx, mapIdx_map, mapIdx_map, List.length_map]
  have hprecise : ∀ l : List PolicyAllocation, ∀ f : Nat → PolicyAllocation → ImportDeclaration,
      (∀ i a, (f i a).helperMacro = none) →
      (l.mapIdx f).filterMap (fun d => d.helperMacro.map (fun m =>
        ((m, .importCall d.cName) : Str × Expansion))) = [] := by
    intro l f hf
    rw [List.filterMap_eq_nil_iff]
    intro d hd
    obtain ⟨i, _, rfl⟩ := List.mem_mapIdx.mp hd
    rw [hf]
    rfl
  rw [hprecise _ _ (fun _ _ => rfl), List.nil_append]
  exact filterMap_mapIdx
    (g := fun d : ImportDeclaration => d.helperMacro.map (fun m =>
      ((m, .importCall d.cName) : Str × Expansion))) (fun _ _ => rfl) _

theorem WasmAccepted.nodup_defines
    (acc : WasmAccepted isWord policy source namespaceName boundary siteIdBase out)
    (hnames : (helperNames boundary).Nodup) (hhelpers : NoneAlike (helperNames boundary))
    (htypes : NoneAlike (allTypes policy boundary)) :
    (out.uHeader.defines.map Prod.fst).Nodup := by
  rw [acc.defines]
  refine InterSpec.Tools.nodup_defines htypes ?_ (fun m hm => ?_)
  · have hmap := nodup_map_of_noneAlike hnames hhelpers (f := allocMacro)
      (fun x y => macroName_of_allocMacro)
    rw [helperNames, List.map_map] at hmap
    rw [map_mapIdx, mapIdx_eq_map]
    exact hmap
  · obtain ⟨i, _, rfl⟩ := List.mem_mapIdx.mp hm
    exact ⟨_, List.append_assoc _ _ _⟩

theorem WasmAccepted.hostSiteId_importName
    (acc : WasmAccepted isWord policy source namespaceName boundary siteIdBase out) {k : Nat}
    {type : Str} {helper : Option Str}
    (h : (declaredSites policy boundary)[k]? = some (type, helper)) :
    hostSiteId out.hostImports (importName (cpp namespaceName) (k + 1)) =
      some (siteNumber siteIdBase k) := by
  obtain ⟨_, himport⟩ := acc.import_eq h
  cases hid : hostSiteId out.hostImports (importName (cpp namespaceName) (k + 1)) with
  | none =>
    have hno := Option.map_eq_none_iff.mp hid
    rw [List.find?_eq_none] at hno
    exact absurd (decide_eq_true rfl) (hno _ (List.mem_of_getElem? himport))
  | some id =>
    obtain ⟨j, _, _, hname, rfl⟩ := acc.hostSiteId_eq_some hid
    have hjk := importName_injective hname
    rw [show k = j by omega]

theorem WasmAccepted.imports_getElem?
    (acc : WasmAccepted isWord policy source namespaceName boundary siteIdBase out) {j : Nat}
    {d : ImportDeclaration} (h : out.uHeader.imports[j]? = some d) :
    d.cName = siteCName namespaceName (j + 1) := by
  rw [acc.uHeader, generateWasmUHeader, recordsFor, List.getElem?_map, List.getElem?_mapIdx] at h
  obtain ⟨r, hr, rfl⟩ := Option.map_eq_some_iff.mp h
  obtain ⟨site, _, rfl⟩ := Option.map_eq_some_iff.mp hr
  rfl

theorem WasmAccepted.helperReached
    (acc : WasmAccepted isWord policy source namespaceName boundary siteIdBase out)
    (hnodup : (out.uHeader.defines.map Prod.fst).Nodup) {i : Nat} {helper : HelperSite}
    (h : boundary.helperSites[i]? = some helper) :
    ∃ d, WasmHelperReached policy siteIdBase out i helper d := by
  have hsite : (declaredSites policy boundary)[policy.allocations.length + i]? =
      some (helper.type, some helper.name) := declaredSites_helper h
  obtain ⟨himport, _⟩ := acc.import_eq hsite
  refine ⟨_, himport, ?_, fun j other hj hname => ?_, ?_, ?_⟩
  · refine (Dict.lastBinding_eq_some hnodup).mpr ?_
    rw [acc.defines]
    refine List.mem_append_right _ (List.mem_of_getElem? (i := i) ?_)
    rw [List.getElem?_mapIdx, h, Nat.add_comm i]
    rfl
  · rw [acc.imports_getElem? hj] at hname
    exact Nat.succ.inj (siteCName_injective hname)
  · refine ⟨⟨siteIdBase + (policy.allocations.length + i + 1 : Nat), cpp helper.type,
      importName (cpp namespaceName) (policy.allocations.length + i + 1), true⟩, ?_, rfl, rfl⟩
    rw [acc.tHeader, wasmTHeaderFor, recordsFor, List.getElem?_map, List.getElem?_mapIdx, hsite]
    rfl
  · intro q arenaBase arenaSize hq ht calls ops hops size
    have hid := acc.hostSiteId_importName hsite
    refine ⟨.allocateFromSite size (siteNumber siteIdBase (policy.allocations.length + i)),
      by rw [dispatch, hid]; rfl, fun a ha => ?_⟩
    have hsound := sound_after (q.sound_install arenaBase arenaSize) ops
    refine newRecord_allocateFromSite hsound.layout ?_ ha
    rw [siteTypes_after (q.sound_install arenaBase arenaSize) hops]
    exact ((acc.installed hq ht).2.2 _ _).mpr
      ⟨_, helper.type, declaredTypes_getElem? hsite, rfl, rfl⟩

theorem wasmMacrosReach_iff
    (h : generateWasmBoundary isWord policy source namespaceName boundary siteIdBase = .ok out) :
    WasmMacrosReach policy boundary siteIdBase out ↔
      NoneAlike (helperNames boundary) ∧ NoneAlike (allTypes policy boundary) := by
  have acc := generateWasmBoundary_ok h
  constructor
  · intro hreach
    exact ⟨noneAlike_of_nodup_map hreach.distinct (fun _ _ => allocMacro_of_macroName),
      hreach.types.noneAlike⟩
  · rintro ⟨hhelpers, htypes⟩
    have hnames := generateWasmBoundary_nodup h
    have hnodup := acc.nodup_defines hnames hhelpers htypes
    refine ⟨nodup_map_of_noneAlike hnames hhelpers (fun _ _ => macroName_of_allocMacro),
      fun i helper hi => acc.helperReached hnodup hi, ?_⟩
    rw [acc.defines] at hnodup ⊢
    exact typeMacrosReach_of_noneAlike htypes hnodup

end Wasm

/-! ### The label based header -/

/-- The two macros of a helper. -/
def labelMacros (name : Str) : List Str :=
  [labelMacro name "BEGIN".toList, labelMacro name "END".toList]

/-- The macros of the helper emit the labels of the helper's own row, and what is
allocated between them has the type declared for the helper. -/
structure HelperReached (out : Str × UHeader × THeader) (i : Nat) (helper : HelperSite)
    (row : SiteEntry) : Prop where
  declared : out.2.2.helperSites[i]? = some row
  type : row.typeIdent = cpp helper.type
  expandsBegin : expand (labelMacro helper.name "BEGIN".toList) out.2.1.defines =
    some (.label (exportedLabelAsm row.beginSymbol))
  expandsEnd : expand (labelMacro helper.name "END".toList) out.2.1.defines =
    some (.label (exportedLabelAsm row.endSymbol))
  yields : ∀ p arenaBase arenaSize resolve, out.2.2.compile = some p →
    (p.initialized arenaBase arenaSize resolve).2 = true → ∀ ops size pc a,
      resolve row.beginSymbol ≤ pc → pc < resolve row.endSymbol →
      newRecord ((p.initialized arenaBase arenaSize resolve).1.after ops)
        (.allocateFromPc size pc) = some a →
      a.typeHash = hashType helper.type ∧ a.siteId = UInt32.ofNat row.siteId

structure MacrosReach (policy : Policy) (boundary : Boundary) (out : Str × UHeader × THeader) :
    Prop where
  distinct : ((helperNames boundary).flatMap labelMacros).Nodup
  reached : ∀ i helper, boundary.helperSites[i]? = some helper →
    ∃ row, HelperReached out i helper row
  types : TypeMacrosReach (allTypes policy boundary) out.2.1.defines

theorem macroName_of_labelMacro {x y suffix : Str} (h : labelMacro x suffix = labelMacro y suffix) :
    macroName x = macroName y := by
  have h : "INTERSPEC_SITE_".toList ++ macroName x ++ "_".toList ++ suffix =
      "INTERSPEC_SITE_".toList ++ macroName y ++ "_".toList ++ suffix := h
  have hcut := List.append_cancel_right (List.append_cancel_right h)
  exact List.append_cancel_left hcut

theorem labelMacro_of_macroName {x y suffix : Str} (h : macroName x = macroName y) :
    labelMacro x suffix = labelMacro y suffix :=
  congrArg (fun m => "INTERSPEC_SITE_".toList ++ m ++ "_".toList ++ suffix) h

theorem getLast?_labelMacro {name suffix : Str} {c : Char} (h : suffix.getLast? = some c) :
    (labelMacro name suffix).getLast? = some c := by
  unfold labelMacro
  rw [List.getLast?_append, h]
  rfl

theorem labelMacro_begin_ne_end (x y : Str) :
    labelMacro x "BEGIN".toList ≠ labelMacro y "END".toList := by
  intro h
  have hbegin : (labelMacro x "BEGIN".toList).getLast? = some 'N' := getLast?_labelMacro (by decide)
  rw [h, getLast?_labelMacro (show "END".toList.getLast? = some 'D' by decide)] at hbegin
  exact absurd hbegin (by decide)

theorem nodup_labelMacros {names : List Str} (hnodup : names.Nodup) (h : NoneAlike names) :
    (names.flatMap labelMacros).Nodup := by
  rw [List.nodup_flatMap]
  refine ⟨fun x _ => ?_, ?_⟩
  · rw [labelMacros, List.nodup_cons, List.mem_singleton]
    exact ⟨labelMacro_begin_ne_end x x, List.nodup_singleton _⟩
  · refine hnodup.imp_of_mem (fun {x y} hx hy hne => ?_)
    have hmacro : macroName x ≠ macroName y :=
      fun hxy => hne (h x hx y hy (macroName_eq_iff.mp hxy))
    intro m hmx hmy
    rcases List.mem_pair.mp hmx with rfl | rfl
    · rcases List.mem_pair.mp hmy with hm | hm
      · exact hmacro (macroName_of_labelMacro hm)
      · exact labelMacro_begin_ne_end x y hm
    · rcases List.mem_pair.mp hmy with hm | hm
      · exact labelMacro_begin_ne_end y x hm.symm
      · exact hmacro (macroName_of_labelMacro hm)

section Nacl

variable {isWord : Char → Bool} {policy : Policy} {source namespaceName : Str}
  {boundary : Boundary} {out : Str × UHeader × THeader}

theorem generateBoundary_uHeader
    (h : generateBoundary isWord policy source namespaceName boundary = .ok out) :
    (helperNames boundary).Nodup ∧ out.2.1 = ⟨typeMacros (typeIds (allTypes policy boundary)),
      (boundary.helperSites.zip out.2.2.helperSites).flatMap
        (fun e => helperAsmMacros e.1 e.2)⟩ := by
  obtain ⟨generated, entries, dynamicUses, gen, hentries, rfl⟩ := generateBoundary_parts h
  exact ⟨(numberedFresh_eq_ok hentries).2.1, by rw [gen.uHeader]⟩

theorem asmMacros_names {helpers : List HelperSite} {entries : List SiteEntry}
    (h : helpers.length = entries.length) :
    ((helpers.zip entries).flatMap (fun e => helperAsmMacros e.1 e.2)).map Prod.fst =
      (helpers.map (fun helper => helper.name)).flatMap labelMacros := by
  rw [List.map_flatMap, List.flatMap_map]
  calc (helpers.zip entries).flatMap (fun e => (helperAsmMacros e.1 e.2).map Prod.fst)
      = ((helpers.zip entries).map Prod.fst).flatMap (fun helper => labelMacros helper.name) := by
        rw [List.flatMap_map]
        rfl
    _ = helpers.flatMap (fun helper => labelMacros helper.name) := by
        rw [List.map_fst_zip h.le]

theorem nodup_uHeader_defines
    (h : generateBoundary isWord policy source namespaceName boundary = .ok out)
    (hhelpers : NoneAlike (helperNames boundary)) (htypes : NoneAlike (allTypes policy boundary)) :
    (out.2.1.defines.map Prod.fst).Nodup := by
  obtain ⟨hnames, hheader⟩ := generateBoundary_uHeader h
  have acc := generateBoundary_ok h
  have hlen : boundary.helperSites.length = out.2.2.helperSites.length := by
    rw [acc.helperSites, List.length_mapIdx]
  rw [UHeader.defines, hheader]
  refine nodup_defines htypes ?_ (fun m hm => ?_)
  · rw [List.map_map]
    show (List.map Prod.fst _).Nodup
    rw [asmMacros_names hlen]
    exact nodup_labelMacros hnames hhelpers
  · obtain ⟨n, hn, rfl⟩ := List.mem_map.mp hm
    have hname :
        n.1 ∈ (boundary.helperSites.map (fun helper => helper.name)).flatMap labelMacros := by
      rw [← asmMacros_names hlen]
      exact List.mem_map_of_mem hn
    obtain ⟨x, _, hx⟩ := List.mem_flatMap.mp hname
    rcases List.mem_pair.mp hx with hx | hx
    · exact ⟨macroName x ++ "_".toList ++ "BEGIN".toList, by
        rw [show n.1 = labelMacro x "BEGIN".toList from hx]
        unfold labelMacro
        rw [List.append_assoc, List.append_assoc, List.append_assoc]⟩
    · exact ⟨macroName x ++ "_".toList ++ "END".toList, by
        rw [show n.1 = labelMacro x "END".toList from hx]
        unfold labelMacro
        rw [List.append_assoc, List.append_assoc, List.append_assoc]⟩

theorem TPolicy.initialized_reachable (p : TPolicy) (arenaBase arenaSize : UInt64)
    (resolve : Str → UInt64) :
    ∃ ops, (p.initialized arenaBase arenaSize resolve).1 = (new arenaBase arenaSize).after ops := by
  obtain ⟨ops, hops⟩ := registerTypes_reachable p.types (new arenaBase arenaSize)
  unfold TPolicy.initialized initializePolicy
  by_cases ht : (p.registerTypes (new arenaBase arenaSize)).2 = false
  · rw [if_pos ht]
    exact ⟨ops, hops⟩
  · rw [if_neg ht, p.registerAllocationPolicy_eq]
    obtain ⟨later, hlater⟩ := registerRanges_reachable
      (TPolicy.ranges resolve (p.sites ++ p.helperSites))
      (p.registerTypes (new arenaBase arenaSize)).1
    exact ⟨ops ++ later, by rw [hlater, after_append, ← hops]; rfl⟩

theorem TPolicy.sound_initialized (p : TPolicy) (arenaBase arenaSize : UInt64)
    (resolve : Str → UInt64) : Sound (p.initialized arenaBase arenaSize resolve).1 := by
  obtain ⟨ops, hops⟩ := p.initialized_reachable arenaBase arenaSize resolve
  rw [hops]
  exact sound_reachable arenaBase arenaSize ops

/-- The range of a helper's row is registered with the hash of the helper's type. -/
theorem BoundaryAccepted.helper_found
    (acc : BoundaryAccepted policy namespaceName boundary out.2.2) {p : TPolicy}
    (hp : out.2.2.compile = some p) {arenaBase arenaSize : UInt64} {resolve : Str → UInt64}
    (hok : (p.initialized arenaBase arenaSize resolve).2 = true) {i : Nat} {helper : HelperSite}
    (h : boundary.helperSites[i]? = some helper) {row : SiteEntry}
    (hrow : out.2.2.helperSites[i]? = some row) (htype : row.typeIdent = cpp helper.type) :
    (p.initialized arenaBase arenaSize resolve).1.sites.find (resolve row.beginSymbol) =
      some ⟨UInt32.ofNat row.siteId, resolve row.beginSymbol, resolve row.endSymbol,
        typeNumber (allTypes policy boundary) helper.type, hashType helper.type⟩ := by
  obtain ⟨_, hdistinct, hp⟩ := Option.bind_eq_some_iff.mp hp
  obtain ⟨sites, _, hp⟩ := Option.bind_eq_some_iff.mp hp
  obtain ⟨helperSites, hsites, hp⟩ := Option.bind_eq_some_iff.mp hp
  obtain ⟨uses, _, hp⟩ := Option.bind_eq_some_iff.mp hp
  cases hp
  have hdistinct := ((Option.guard_eq_some' _).mp hdistinct).1
  have hsites := Fallible.mapM_eq_some hsites (fun _ _ _ => compileSite_eq_some)
  have htypes : out.2.2.types.map compileType = typePairs (allTypes policy boundary) := by
    rw [acc.types, map_compileType]
  rw [acc.types] at hdistinct hsites
  have hmem : helper.type ∈ allTypes policy boundary :=
    acc.known _ (List.mem_append_right _ (List.mem_map_of_mem (List.mem_of_getElem? h)))
  -- the compiled row
  obtain ⟨c, hc, hnum, _⟩ := typeConstant_of_mem hdistinct hmem
  have hsite : compiledRow (typeConstants (typeIds (allTypes policy boundary))) row =
      ⟨UInt32.ofNat row.siteId, typeNumber (allTypes policy boundary) helper.type,
        row.beginSymbol, row.endSymbol⟩ := by
    rw [compiledRow, htype, hc, ← hnum]
    rfl
  -- the two registrations
  unfold TPolicy.initialized initializePolicy at hok ⊢
  unfold TPolicy.registerTypes at hok ⊢
  rw [htypes] at hok ⊢
  by_cases ht : ((new arenaBase arenaSize).registerTypes
      (typePairs (allTypes policy boundary))).2 = false
  · rw [if_pos ht] at hok
    cases hok
  · rw [if_neg ht] at hok ⊢
    have ht : ((new arenaBase arenaSize).registerTypes
        (typePairs (allTypes policy boundary))).2 = true := by simpa using ht
    rw [TPolicy.registerAllocationPolicy_eq] at hok ⊢
    have hentry : (⟨UInt32.ofNat row.siteId, resolve row.beginSymbol, resolve row.endSymbol,
        typeNumber (allTypes policy boundary) helper.type⟩ : SiteRange) ∈
        TPolicy.ranges resolve (sites ++ helperSites) := by
      have hcompiled : compiledRow (typeConstants (typeIds (allTypes policy boundary))) row ∈
          sites ++ helperSites := by
        rw [hsites]
        exact List.mem_append_right _ (List.mem_map_of_mem (List.mem_of_getElem? hrow))
      rw [hsite] at hcompiled
      exact List.mem_map.mpr ⟨_, hcompiled, rfl⟩
    obtain ⟨typeHash, hhash, hfound⟩ := registerRanges_found _ _ hok _ hentry
    have hhash : _ = some typeHash := hhash
    rw [find_typeNumber ht hmem] at hhash
    obtain rfl := Option.some.inj hhash
    exact hfound

theorem BoundaryAccepted.helper_row
    (acc : BoundaryAccepted policy namespaceName boundary out.2.2) {i : Nat} {helper : HelperSite}
    (hi : boundary.helperSites[i]? = some helper) :
    ∃ row, out.2.2.helperSites[i]? = some row ∧ row.typeIdent = cpp helper.type := by
  refine ⟨helperEntry namespaceName
    ((policy.allocations.filter (fun a => a.site.isSome)).length + 1 + i) helper, ?_, rfl⟩
  rw [acc.helperSites, List.getElem?_mapIdx, hi]
  rfl

/-- **A callback from the range of a helper is at a site of the helper's type**, whatever
has happened since the policy was installed. -/
theorem BoundaryAccepted.helper_site
    (acc : BoundaryAccepted policy namespaceName boundary out.2.2) {p : TPolicy}
    (hp : out.2.2.compile = some p) {arenaBase arenaSize : UInt64} {resolve : Str → UInt64}
    (hok : (p.initialized arenaBase arenaSize resolve).2 = true) {i : Nat} {helper : HelperSite}
    (h : boundary.helperSites[i]? = some helper) {row : SiteEntry}
    (hrow : out.2.2.helperSites[i]? = some row) (htype : row.typeIdent = cpp helper.type)
    (ops : List Op) {pc : UInt64} (hbegin : resolve row.beginSymbol ≤ pc)
    (hend : pc < resolve row.endSymbol) :
    ((p.initialized arenaBase arenaSize resolve).1.after ops).findSiteUnlocked pc =
      some ⟨UInt32.ofNat row.siteId, resolve row.beginSymbol, resolve row.endSymbol,
        typeNumber (allTypes policy boundary) helper.type, hashType helper.type⟩ := by
  have hsound : Sound (p.initialized arenaBase arenaSize resolve).1 :=
    p.sound_initialized arenaBase arenaSize resolve
  have hfound := acc.helper_found hp hok h hrow htype
  have hkept := (keeps_after hsound.layout ops).sites _ _ hfound
  have hafter := sound_after hsound ops
  exact (findSiteUnlocked_eq_some hafter.registry).mpr
    ⟨hafter.registry.mem_sites.mpr hkept, hbegin, hend⟩

theorem BoundaryAccepted.helperReached
    (h : generateBoundary isWord policy source namespaceName boundary = .ok out)
    (hnodup : (out.2.1.defines.map Prod.fst).Nodup) {i : Nat} {helper : HelperSite}
    (hi : boundary.helperSites[i]? = some helper) : ∃ row, HelperReached out i helper row := by
  have acc := generateBoundary_ok h
  obtain ⟨_, hheader⟩ := generateBoundary_uHeader h
  obtain ⟨row, hrow, htype⟩ := acc.helper_row hi
  have hmacros : ∀ m ∈ helperAsmMacros helper row, (m.1, .label m.2) ∈ out.2.1.defines := by
    intro m hm
    rw [UHeader.defines, hheader]
    refine List.mem_append_right _ (List.mem_map.mpr ⟨m, ?_, rfl⟩)
    refine List.mem_flatMap.mpr ⟨(helper, row), ?_, hm⟩
    exact List.mem_of_getElem? (List.getElem?_zip_eq_some.mpr ⟨hi, hrow⟩)
  refine ⟨row, hrow, htype, ?_, ?_, ?_⟩
  · exact (Dict.lastBinding_eq_some hnodup).mpr (hmacros _ List.mem_cons_self)
  · exact (Dict.lastBinding_eq_some hnodup).mpr
      (hmacros _ (List.mem_cons_of_mem _ List.mem_cons_self))
  · intro p arenaBase arenaSize resolve hp hok ops size pc a hbegin hend ha
    have hafter := sound_after (p.sound_initialized arenaBase arenaSize resolve) ops
    have hsite := acc.helper_site hp hok hi hrow htype ops hbegin hend
    exact newRecord_allocateFromPc hafter.layout hsite ha

theorem macrosReach_iff
    (h : generateBoundary isWord policy source namespaceName boundary = .ok out) :
    MacrosReach policy boundary out ↔
      NoneAlike (helperNames boundary) ∧ NoneAlike (allTypes policy boundary) := by
  obtain ⟨hnames, hheader⟩ := generateBoundary_uHeader h
  constructor
  · intro hreach
    obtain ⟨_, hpair⟩ := List.nodup_flatMap.mp hreach.distinct
    have hnodup : ((helperNames boundary).map (fun x => labelMacro x "BEGIN".toList)).Nodup := by
      refine List.pairwise_map.mpr (hpair.imp (fun hdisjoint heq => ?_))
      exact hdisjoint List.mem_cons_self (heq ▸ List.mem_cons_self)
    exact ⟨noneAlike_of_nodup_map hnodup (fun _ _ => labelMacro_of_macroName),
      hreach.types.noneAlike⟩
  · rintro ⟨hhelpers, htypes⟩
    have hnodup := nodup_uHeader_defines h hhelpers htypes
    refine ⟨nodup_labelMacros hnames hhelpers,
      fun i helper hi => BoundaryAccepted.helperReached h hnodup hi, ?_⟩
    rw [UHeader.defines, hheader] at hnodup ⊢
    exact typeMacrosReach_of_noneAlike htypes hnodup

end Nacl

/-- **The macros reach their own sites and types exactly where no two different helper
names and no two different types are alike**, in both backends. -/
theorem macros_reach_iff (isWord : Char → Bool) (policy : Policy) (source namespaceName : Str)
    (boundary : Boundary) :
    (∀ siteIdBase out,
      generateWasmBoundary isWord policy source namespaceName boundary siteIdBase = .ok out →
        (WasmMacrosReach policy boundary siteIdBase out ↔
          NoneAlike (helperNames boundary) ∧ NoneAlike (allTypes policy boundary))) ∧
    ∀ out, generateBoundary isWord policy source namespaceName boundary = .ok out →
      (MacrosReach policy boundary out ↔
        NoneAlike (helperNames boundary) ∧ NoneAlike (allTypes policy boundary)) :=
  ⟨fun _ _ h => wasmMacrosReach_iff h, fun _ h => macrosReach_iff h⟩

/-- One helper and two types that are not alike. -/
theorem macros_reach_node : ∃ (wasm : WasmOutput) (nacl : Str × UHeader × THeader),
    generateWasmBoundary asciiWord nodePolicy nodeSource "interspec::node".toList bufferBoundary 0 =
      .ok wasm ∧
    generateBoundary asciiWord nodePolicy nodeSource "interspec::node".toList bufferBoundary =
      .ok nacl ∧
    WasmMacrosReach nodePolicy bufferBoundary 0 wasm ∧
    MacrosReach nodePolicy bufferBoundary nacl := by
  obtain ⟨wasm, hwasm⟩ : ∃ wasm, generateWasmBoundary asciiWord nodePolicy nodeSource
      "interspec::node".toList bufferBoundary 0 = .ok wasm := ⟨_, rfl⟩
  obtain ⟨nacl, hnacl⟩ : ∃ nacl, generateBoundary asciiWord nodePolicy nodeSource
      "interspec::node".toList bufferBoundary = .ok nacl := ⟨_, rfl⟩
  have hnames : NoneAlike (helperNames bufferBoundary) := by
    intro x hx y hy _
    rw [List.mem_singleton.mp hx, List.mem_singleton.mp hy]
  have htypes : NoneAlike (allTypes nodePolicy bufferBoundary) := by
    intro x hx y hy hxy
    have hlen := hxy.length_eq
    rcases List.mem_pair.mp hx with rfl | rfl <;> rcases List.mem_pair.mp hy with rfl | rfl
    · rfl
    · exact absurd hlen (by decide)
    · exact absurd hlen (by decide)
    · rfl
  have hreach :=
    macros_reach_iff asciiWord nodePolicy nodeSource "interspec::node".toList bufferBoundary
  exact ⟨wasm, nacl, hwasm, hnacl, (hreach.1 0 wasm hwasm).mpr ⟨hnames, htypes⟩,
    (hreach.2 nacl hnacl).mpr ⟨hnames, htypes⟩⟩

/-- Two helpers of different types with names that are alike. -/
def copyBoundary : Boundary :=
  ⟨["buffer".toList], [⟨"copy-in".toList, "node".toList⟩, ⟨"copy_in".toList, "buffer".toList⟩]⟩

/-- **The second helper takes the macro of the first.**  Both generators accept the
boundary, and the macro of `copy-in` is the import, and the labels, of `copy_in`. -/
theorem alike_helpers_collide : ∃ (wasm : WasmOutput) (nacl : Str × UHeader × THeader),
    generateWasmBoundary asciiWord nodePolicy nodeSource "interspec::node".toList copyBoundary 0 =
      .ok wasm ∧
    generateBoundary asciiWord nodePolicy nodeSource "interspec::node".toList copyBoundary =
      .ok nacl ∧
    (wasm.tHeader.compile.isSome = true ∧ nacl.2.2.compile.isSome = true) ∧
    expand (allocMacro "copy-in".toList) wasm.uHeader.defines =
      some (.importCall "interspec_wasm_alloc_interspec__node_site_3".toList) ∧
    wasm.uHeader.imports[1]?.map (fun d => d.cName) =
      some "interspec_wasm_alloc_interspec__node_site_2".toList ∧
    ¬ WasmMacrosReach nodePolicy copyBoundary 0 wasm ∧
    ¬ MacrosReach nodePolicy copyBoundary nacl := by
  obtain ⟨wasm, hwasm, hcompile, hexpand, hname⟩ : ∃ wasm,
      generateWasmBoundary asciiWord nodePolicy nodeSource "interspec::node".toList copyBoundary 0 =
        .ok wasm ∧ wasm.tHeader.compile.isSome = true ∧
      expand (allocMacro "copy-in".toList) wasm.uHeader.defines =
        some (.importCall "interspec_wasm_alloc_interspec__node_site_3".toList) ∧
      wasm.uHeader.imports[1]?.map (fun d => d.cName) =
        some "interspec_wasm_alloc_interspec__node_site_2".toList := ⟨_, rfl, rfl, rfl, rfl⟩
  obtain ⟨nacl, hnacl, hcompile'⟩ : ∃ nacl, generateBoundary asciiWord nodePolicy nodeSource
      "interspec::node".toList copyBoundary = .ok nacl ∧ nacl.2.2.compile.isSome = true :=
    ⟨_, rfl, rfl⟩
  refine ⟨wasm, nacl, hwasm, hnacl, ⟨hcompile, hcompile'⟩, hexpand, hname, fun hreach => ?_,
    fun hreach => ?_⟩
  · exact absurd hreach.distinct (by decide)
  · exact absurd hreach.distinct (by decide)

end InterSpec.Tools
