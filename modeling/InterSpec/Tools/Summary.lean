import InterSpec.Data.Dict
import InterSpec.Data.Fallible
import InterSpec.Data.Statistics
import InterSpec.Tools.Text
import Mathlib.Data.List.Dedup
import Mathlib.Data.Prod.Lex
import Mathlib.Data.Rat.Cast.Order
import Mathlib.Tactic.FieldSimp
import Mathlib.Tactic.Ring

/-!
# The summary of the paired measurements

`tools/summarize_p9a_application.py` summarizes the times of the three modes in which an
application was run.  A repetition is a triple of times, one for each mode, and the
overheads are taken inside each triple before they are aggregated.  Numbers are exact.

* `addSample`: the first loop, which groups the samples in two ways.
* `collectTriple`, `summarizeWorkload`: the loop over the triples of a workload, and its row.
* `CompleteDesign`: every mode is known, no sample occurs twice, every triple is complete
  and the denominators are positive.
* `summarize_isOk_iff`: exactly the complete designs are accepted.
* `IsRow`, `rows_of_summarize`: what the row of a workload is computed from.
* `summarize_perm`, `summarize_paired`: the order of the samples does not matter.
-/

namespace InterSpec.Tools

open Fallible

/-! ### Samples -/

structure Sample where
  workload : Str
  mode : Str
  repetition : Int
  totalNs : Int
deriving DecidableEq, Repr

def rlboxOnly : Str := "rlbox_only".toList

def trackedNoCheck : Str := "tracked_no_check".toList

def extendedSp3 : Str := "extended_sp3".toList

/-- `MODES`, and `MODE_SET`. -/
def modes : List Str := [rlboxOnly, trackedNoCheck, extendedSp3]

/-- The `ValueError`s of `summarize`; `missingKey` and `emptyData` stand for the `KeyError`
of a mode and for the errors of the statistics functions. -/
inductive SummaryError
  | unknownMode (mode : Str)
  | duplicateSample (workload : Str) (repetition : Int) (mode : Str)
  | missingMode (workload : Str)
  | incompleteTriple (workload : Str) (repetition : Int)
  | nonPositive
  | noTriples (workload : Str)
  | duplicateRepetitions (workload : Str)
  | missingKey (mode : Str)
  | emptyData
deriving DecidableEq, Repr

namespace SummaryError

def int (n : Int) : Str := (toString n).toList

/-- The text of the exception; `repr` is Python's, which quotes a string. -/
def message (repr : Str → Str) : SummaryError → Str
  | unknownMode mode => "unknown P9a application mode: ".toList ++ mode
  | duplicateSample workload repetition mode =>
    "duplicate P9a sample: (".toList ++ repr workload ++ ", ".toList ++ int repetition ++
      ") ".toList ++ mode
  | missingMode workload => "missing P9a mode for ".toList ++ workload
  | incompleteTriple workload repetition =>
    "incomplete P9a triple for ".toList ++ workload ++ " repetition ".toList ++ int repetition
  | nonPositive => "non-positive P9a timing sample".toList
  | noTriples workload => "no complete P9a triples for ".toList ++ workload
  | duplicateRepetitions workload => "duplicate P9a repetitions for ".toList ++ workload
  | missingKey mode => repr mode
  | emptyData => "empty data".toList

end SummaryError

/-! ### Grouping -/

/-- `by_mode` and `triples`, which are empty where nothing was set. -/
structure Grouped where
  byMode : Dict (Str × Str) (List Int)
  triples : Dict (Str × Int) (Dict Str Int)

def Grouped.times (grouped : Grouped) (workload mode : Str) : List Int :=
  (grouped.byMode.get? (workload, mode)).getD []

def Grouped.triple (grouped : Grouped) (key : Str × Int) : Dict Str Int :=
  (grouped.triples.get? key).getD .empty

def addSample (grouped : Grouped) (sample : Sample) : Except SummaryError Grouped := do
  ensure (sample.mode ∈ modes) (.unknownMode sample.mode)
  let times := grouped.times sample.workload sample.mode ++ [sample.totalNs]
  let key := (sample.workload, sample.repetition)
  let triple := grouped.triple key
  ensure (sample.mode ∉ triple.keys)
    (.duplicateSample sample.workload sample.repetition sample.mode)
  return ⟨grouped.byMode.set (sample.workload, sample.mode) times,
    grouped.triples.set key (triple.set sample.mode sample.totalNs)⟩

/-! ### Overheads -/

/-- In percent. -/
def overhead (numerator denominator : Int) : Except SummaryError ℚ := do
  ensure (¬ denominator ≤ 0) .nonPositive
  return ((numerator : ℚ) / (denominator : ℚ) - 1) * 100

/-- The repetitions of a workload and their overheads, in the order of the repetitions. -/
structure Overheads where
  repetitions : List Int
  tracking : List ℚ
  validation : List ℚ
  total : List ℚ

def item (values : Dict Str Int) (mode : Str) : Except SummaryError Int :=
  match values.get? mode with
  | some time => .ok time
  | none => .error (.missingKey mode)

/-- `set(values) == MODE_SET`. -/
def HasModes (values : Dict Str Int) : Prop :=
  (∀ mode ∈ values.keys, mode ∈ modes) ∧ ∀ mode ∈ modes, mode ∈ values.keys

instance (values : Dict Str Int) : Decidable (HasModes values) :=
  inferInstanceAs (Decidable (_ ∧ _))

def collectTriple (workload : Str) (found : Overheads) (entry : (Str × Int) × Dict Str Int) :
    Except SummaryError Overheads :=
  if entry.1.1 ≠ workload then .ok found
  else do
    ensure (HasModes entry.2) (.incompleteTriple workload entry.1.2)
    let rlbox ← item entry.2 rlboxOnly
    let tracked ← item entry.2 trackedNoCheck
    let extended ← item entry.2 extendedSp3
    let tracking ← overhead tracked rlbox
    let validation ← overhead extended tracked
    let total ← overhead extended rlbox
    return ⟨found.repetitions ++ [entry.1.2], found.tracking ++ [tracking],
      found.validation ++ [validation], found.total ++ [total]⟩

/-- `sorted(triples.items())`; the keys are different. -/
def sortedItems (triples : Dict (Str × Int) (Dict Str Int)) :
    List ((Str × Int) × Dict Str Int) :=
  Sorting.sortBy (fun entry => (toLex entry.1 : Str ×ₗ Int)) triples.entries

/-! ### Rows -/

structure TimeStats where
  medianMs : ℚ
  meanMs : ℚ
deriving DecidableEq, Repr

structure OverheadStats where
  medianPct : ℚ
  meanPct : ℚ
  minPct : ℚ
  maxPct : ℚ
deriving DecidableEq, Repr

/-- A row has `{rlbox,tracked,extended}_{median,mean}_ms` and
`{tracking,validation,total}_overhead_{median,mean,min,max}_pct`. -/
@[ext] structure SummaryRow where
  workload : Str
  repetitions : Nat
  rlbox : TimeStats
  tracked : TimeStats
  extended : TimeStats
  trackingOverhead : OverheadStats
  validationOverhead : OverheadStats
  totalOverhead : OverheadStats
deriving DecidableEq, Repr

def timeStats (times : List Int) : Option TimeStats := do
  let values := times.map (fun time : Int => (time : ℚ))
  let median ← Statistics.median values
  let mean ← Statistics.mean values
  return ⟨median / 1000000, mean / 1000000⟩

def overheadStats (values : List ℚ) : Option OverheadStats := do
  let median ← Statistics.median values
  let mean ← Statistics.mean values
  let least ← values.min?
  let greatest ← values.max?
  return ⟨median, mean, least, greatest⟩

/-- The statistics functions raise on an empty list. -/
def statistic {α : Type} (value : Option α) : Except SummaryError α :=
  match value with
  | some a => .ok a
  | none => .error .emptyData

def summarizeWorkload (grouped : Grouped) (workload : Str) : Except SummaryError SummaryRow := do
  ensure (¬ ∃ mode ∈ modes, grouped.times workload mode = []) (.missingMode workload)
  let found ← fold (collectTriple workload) ⟨[], [], [], []⟩ (sortedItems grouped.triples)
  ensure (found.repetitions ≠ []) (.noTriples workload)
  ensure (found.repetitions.dedup.length = found.repetitions.length)
    (.duplicateRepetitions workload)
  let rlbox ← statistic (timeStats (grouped.times workload rlboxOnly))
  let tracked ← statistic (timeStats (grouped.times workload trackedNoCheck))
  let extended ← statistic (timeStats (grouped.times workload extendedSp3))
  let tracking ← statistic (overheadStats found.tracking)
  let validation ← statistic (overheadStats found.validation)
  let total ← statistic (overheadStats found.total)
  return ⟨workload, found.repetitions.length, rlbox, tracked, extended, tracking, validation,
    total⟩

/-- `sorted({sample["workload"] for sample in samples})`. -/
def workloads (samples : List Sample) : List Str :=
  (samples.map Sample.workload).dedup.insertionSort (· ≤ ·)

def summarize (samples : List Sample) : Except SummaryError (List SummaryRow) := do
  let grouped ← fold addSample ⟨.empty, .empty⟩ samples
  numbered (fun _ workload => summarizeWorkload grouped workload) 0 (workloads samples)

/-! ### The design -/

def Sample.key (sample : Sample) : Str × Int × Str :=
  (sample.workload, sample.repetition, sample.mode)

/-- The modes are known and no sample was taken twice: what the first loop checks. -/
structure Distinct (samples : List Sample) : Prop where
  known : ∀ s ∈ samples, s.mode ∈ modes
  unique : (samples.map Sample.key).Nodup

/-- **A complete design**: every repetition of a workload was measured once in each mode, and
what an overhead is relative to is positive. -/
structure CompleteDesign (samples : List Sample) : Prop extends Distinct samples where
  complete : ∀ s ∈ samples, ∀ mode ∈ modes, ∃ t ∈ samples,
    t.workload = s.workload ∧ t.repetition = s.repetition ∧ t.mode = mode
  positive : ∀ s ∈ samples, s.mode = rlboxOnly ∨ s.mode = trackedNoCheck → 0 < s.totalNs

/-! ### What the first loop groups -/

/-- The two dictionaries after the samples `done`. -/
structure Groups (done : List Sample) (grouped : Grouped) : Prop where
  distinct : Distinct done
  times : ∀ workload mode, grouped.times workload mode =
    (done.filter (fun s => decide (s.workload = workload ∧ s.mode = mode))).map Sample.totalNs
  triples : ∀ workload repetition mode time,
    (grouped.triple (workload, repetition)).get? mode = some time ↔
      ⟨workload, mode, repetition, time⟩ ∈ done
  keys : ∀ key, key ∈ grouped.triples.keys ↔ ∃ s ∈ done, (s.workload, s.repetition) = key

theorem groups_nil : Groups [] ⟨.empty, .empty⟩ where
  distinct := ⟨fun _ h => absurd h List.not_mem_nil, List.nodup_nil⟩
  times _ _ := rfl
  triples _ _ _ _ := iff_of_false nofun List.not_mem_nil
  keys _ := iff_of_false List.not_mem_nil (fun ⟨_, h, _⟩ => List.not_mem_nil h)

theorem Groups.mem_triple_keys {done : List Sample} {grouped : Grouped}
    (h : Groups done grouped) (sample : Sample) :
    sample.mode ∈ (grouped.triple (sample.workload, sample.repetition)).keys ↔
      sample.key ∈ done.map Sample.key := by
  rw [← not_iff_not, ← Dict.get?_eq_none, Option.eq_none_iff_forall_ne_some]
  constructor
  · intro hnone hmem
    obtain ⟨s, hs, hkey⟩ := List.mem_map.mp hmem
    obtain ⟨workload, mode, repetition, time⟩ := s
    cases hkey
    exact hnone time ((h.triples _ _ _ _).mpr hs)
  · intro hmem time hsome
    exact hmem (List.mem_map.mpr ⟨_, (h.triples _ _ _ _).mp hsome, rfl⟩)

theorem Grouped.times_set (grouped : Grouped) (workload mode workload' mode' : Str)
    (times : List Int) (triples : Dict (Str × Int) (Dict Str Int)) :
    (Grouped.mk (grouped.byMode.set (workload, mode) times) triples).times workload' mode' =
      if workload = workload' ∧ mode = mode' then times else grouped.times workload' mode' := by
  rw [Grouped.times, Dict.get?_set]
  by_cases hkey : workload = workload' ∧ mode = mode'
  · rw [if_pos hkey, if_pos (Prod.ext hkey.1.symm hkey.2.symm)]
    rfl
  · rw [if_neg hkey, if_neg (fun he => hkey ⟨(Prod.mk.inj he).1.symm, (Prod.mk.inj he).2.symm⟩)]
    rfl

theorem Grouped.triple_set (grouped : Grouped) (key key' : Str × Int)
    (byMode : Dict (Str × Str) (List Int)) (triple : Dict Str Int) :
    (Grouped.mk byMode (grouped.triples.set key triple)).triple key' =
      if key' = key then triple else grouped.triple key' := by
  rw [Grouped.triple, Dict.get?_set]
  by_cases hkey : key' = key
  · rw [if_pos hkey, if_pos hkey]
    rfl
  · rw [if_neg hkey, if_neg hkey]
    rfl

theorem addSample_eq_ok {grouped grouped' : Grouped} {sample : Sample} :
    addSample grouped sample = .ok grouped' ↔ sample.mode ∈ modes ∧
      sample.mode ∉ (grouped.triple (sample.workload, sample.repetition)).keys ∧
      grouped' = ⟨grouped.byMode.set (sample.workload, sample.mode)
          (grouped.times sample.workload sample.mode ++ [sample.totalNs]),
        grouped.triples.set (sample.workload, sample.repetition)
          ((grouped.triple (sample.workload, sample.repetition)).set sample.mode
            sample.totalNs)⟩ := by
  rw [addSample, bind_eq_ok]
  constructor
  · rintro ⟨_, hmode, h⟩
    obtain ⟨_, hfresh, h⟩ := bind_eq_ok.mp h
    cases h
    exact ⟨ensure_eq_ok.mp hmode, ensure_eq_ok.mp hfresh, rfl⟩
  · rintro ⟨hmode, hfresh, rfl⟩
    exact ⟨(), ensure_eq_ok.mpr hmode, bind_eq_ok.mpr ⟨(), ensure_eq_ok.mpr hfresh, rfl⟩⟩

/-- **A sample goes to its list and to its triple.** -/
theorem Groups.addSample {done : List Sample} {grouped grouped' : Grouped} {sample : Sample}
    (h : Groups done grouped) (hok : addSample grouped sample = .ok grouped') :
    Groups (done ++ [sample]) grouped' := by
  obtain ⟨hmode, hfresh, rfl⟩ := addSample_eq_ok.mp hok
  rw [h.mem_triple_keys] at hfresh
  refine ⟨⟨?_, ?_⟩, fun workload mode => ?_, fun workload repetition mode time => ?_,
    fun key => ?_⟩
  · rw [List.forall_mem_append, List.forall_mem_singleton]
    exact ⟨h.distinct.known, hmode⟩
  · rw [List.map_append, List.nodup_append]
    refine ⟨h.distinct.unique, List.nodup_singleton _, fun k hk k' hk' he => hfresh ?_⟩
    rw [← List.mem_singleton.mp hk', ← he]
    exact hk
  · rw [Grouped.times_set, h.times, h.times, List.filter_append, List.map_append]
    by_cases hkey : sample.workload = workload ∧ sample.mode = mode
    · simp [hkey]
    · simp [hkey]
  · rw [Grouped.triple_set, List.mem_append, List.mem_singleton, ← h.triples]
    by_cases hkey : (workload, repetition) = (sample.workload, sample.repetition)
    · obtain ⟨rfl, rfl⟩ := Prod.mk.inj hkey
      rw [if_pos rfl, Dict.get?_set]
      by_cases hm : mode = sample.mode
      · subst hm
        have hnone : (grouped.triple (sample.workload, sample.repetition)).get? sample.mode =
            none := by
          rwa [Dict.get?_eq_none, h.mem_triple_keys]
        rw [if_pos rfl, hnone]
        exact ⟨fun he => .inr (by cases he; rfl), fun he => by
          rw [← he.resolve_left nofun]⟩
      · rw [if_neg hm]
        exact ⟨.inl, fun he => he.resolve_right (fun hs => hm (congrArg Sample.mode hs))⟩
    · rw [if_neg hkey]
      exact ⟨.inl, fun he => he.resolve_right (fun hs => hkey
        (Prod.ext (congrArg Sample.workload hs) (congrArg Sample.repetition hs)))⟩
  · rw [Dict.mem_keys_set, h.keys]
    simp [or_and_right, exists_or, eq_comm]

theorem Groups.exists_addSample {done : List Sample} {grouped : Grouped} {sample : Sample}
    (h : Groups done grouped) (hmode : sample.mode ∈ modes)
    (hfresh : sample.key ∉ done.map Sample.key) :
    ∃ grouped', Tools.addSample grouped sample = .ok grouped' ∧
      Groups (done ++ [sample]) grouped' := by
  have hok := addSample_eq_ok.mpr ⟨hmode, h.mem_triple_keys sample |>.not.mpr hfresh, rfl⟩
  exact ⟨_, hok, h.addSample hok⟩

/-- **The first loop accepts samples of known modes that are all different.** -/
theorem group_total {samples : List Sample} (h : Distinct samples) :
    ∃ grouped, fold addSample ⟨.empty, .empty⟩ samples = .ok grouped ∧
      Groups samples grouped := by
  apply fold_total _ (List.nil_append samples).symm groups_nil
  intro done sample rest grouped hsamples hdone
  refine hdone.exists_addSample (h.known sample ?_) (fun hmem => ?_)
  · rw [hsamples]
    exact List.mem_append_right _ List.mem_cons_self
  · have hunique := h.unique
    rw [hsamples, List.map_append, List.map_cons] at hunique
    exact (List.nodup_append.mp hunique).2.2 _ hmem _ List.mem_cons_self rfl

theorem groups_of_group {samples : List Sample} {grouped : Grouped}
    (h : fold addSample ⟨.empty, .empty⟩ samples = .ok grouped) : Groups samples grouped :=
  fold_rule (fun _ _ _ _ _ _ hdone hok => hdone.addSample hok) (List.nil_append samples).symm
    groups_nil h

/-! ### What the second loop collects -/

/-- The value that `overhead` returns. -/
def overheadPct (numerator denominator : Int) : ℚ :=
  ((numerator : ℚ) / (denominator : ℚ) - 1) * 100

theorem overhead_eq_ok {numerator denominator : Int} {q : ℚ} :
    overhead numerator denominator = .ok q ↔
      0 < denominator ∧ q = overheadPct numerator denominator := by
  rw [overhead, bind_eq_ok]
  constructor
  · rintro ⟨_, hpos, h⟩
    cases h
    exact ⟨not_le.mp (ensure_eq_ok.mp hpos), rfl⟩
  · rintro ⟨hpos, rfl⟩
    exact ⟨(), ensure_eq_ok.mpr (not_le.mpr hpos), rfl⟩

/-- **The two steps make up the whole**: a factor is one plus an overhead. -/
theorem overheadPct_mul {rlbox tracked : Int} (extended : Int) (hr : 0 < rlbox)
    (ht : 0 < tracked) :
    (1 + overheadPct tracked rlbox / 100) * (1 + overheadPct extended tracked / 100) =
      1 + overheadPct extended rlbox / 100 := by
  have hr' : (rlbox : ℚ) ≠ 0 := by exact_mod_cast hr.ne'
  have ht' : (tracked : ℚ) ≠ 0 := by exact_mod_cast ht.ne'
  unfold overheadPct
  field_simp
  ring

/-- The time of a mode in a triple that has it. -/
def timeOf (values : Dict Str Int) (mode : Str) : Int := (values.get? mode).getD 0

theorem item_eq_ok {values : Dict Str Int} {mode : Str} (h : mode ∈ values.keys) :
    item values mode = .ok (timeOf values mode) := by
  unfold item timeOf
  cases hget : values.get? mode with
  | none => exact absurd h (Dict.get?_eq_none.mp hget)
  | some time => rfl

/-- What `collectTriple` checks of a triple. -/
structure Fair (values : Dict Str Int) : Prop where
  modes : HasModes values
  rlbox : 0 < timeOf values rlboxOnly
  tracked : 0 < timeOf values trackedNoCheck

/-- What the entries of one workload add. -/
def overheadsOf (entries : List ((Str × Int) × Dict Str Int)) : Overheads where
  repetitions := entries.map (fun e => e.1.2)
  tracking := entries.map (fun e => overheadPct (timeOf e.2 trackedNoCheck) (timeOf e.2 rlboxOnly))
  validation :=
    entries.map (fun e => overheadPct (timeOf e.2 extendedSp3) (timeOf e.2 trackedNoCheck))
  total := entries.map (fun e => overheadPct (timeOf e.2 extendedSp3) (timeOf e.2 rlboxOnly))

def Overheads.append (found more : Overheads) : Overheads where
  repetitions := found.repetitions ++ more.repetitions
  tracking := found.tracking ++ more.tracking
  validation := found.validation ++ more.validation
  total := found.total ++ more.total

theorem Overheads.append_nil (found : Overheads) : found.append (overheadsOf []) = found := by
  simp [append, overheadsOf]

theorem Overheads.append_cons (found : Overheads) (e : (Str × Int) × Dict Str Int)
    (entries : List ((Str × Int) × Dict Str Int)) :
    found.append (overheadsOf (e :: entries)) =
      (found.append (overheadsOf [e])).append (overheadsOf entries) := by
  simp [append, overheadsOf]

/-- In a triple with the three modes the lookups succeed. -/
theorem collectTriple_of_modes (found : Overheads) {e : (Str × Int) × Dict Str Int}
    (h : HasModes e.2) : collectTriple e.1.1 found e = (do
      let tracking ← overhead (timeOf e.2 trackedNoCheck) (timeOf e.2 rlboxOnly)
      let validation ← overhead (timeOf e.2 extendedSp3) (timeOf e.2 trackedNoCheck)
      let total ← overhead (timeOf e.2 extendedSp3) (timeOf e.2 rlboxOnly)
      return ⟨found.repetitions ++ [e.1.2], found.tracking ++ [tracking],
        found.validation ++ [validation], found.total ++ [total]⟩) := by
  have hmodes : ensure (HasModes e.2) (SummaryError.incompleteTriple e.1.1 e.1.2) = .ok () :=
    ensure_eq_ok.mpr h
  have hitem : ∀ mode ∈ modes, item e.2 mode = .ok (timeOf e.2 mode) := fun mode hmode =>
    item_eq_ok (h.2 mode hmode)
  rw [collectTriple, if_neg (not_not_intro rfl), hmodes, hitem rlboxOnly (by decide),
    hitem trackedNoCheck (by decide), hitem extendedSp3 (by decide)]
  rfl

theorem collectTriple_eq_ok {found found' : Overheads} (e : (Str × Int) × Dict Str Int) :
    collectTriple e.1.1 found e = .ok found' ↔
      Fair e.2 ∧ found' = found.append (overheadsOf [e]) := by
  constructor
  · intro h
    have hmodes : HasModes e.2 := by
      rw [collectTriple, if_neg (not_not_intro rfl)] at h
      obtain ⟨_, hmodes, _⟩ := bind_eq_ok.mp h
      exact ensure_eq_ok.mp hmodes
    rw [collectTriple_of_modes found hmodes] at h
    obtain ⟨tracking, htracking, h⟩ := bind_eq_ok.mp h
    obtain ⟨validation, hvalidation, h⟩ := bind_eq_ok.mp h
    obtain ⟨total, htotal, h⟩ := bind_eq_ok.mp h
    obtain ⟨hr, rfl⟩ := overhead_eq_ok.mp htracking
    obtain ⟨ht, rfl⟩ := overhead_eq_ok.mp hvalidation
    obtain ⟨_, rfl⟩ := overhead_eq_ok.mp htotal
    cases h
    exact ⟨⟨hmodes, hr, ht⟩, rfl⟩
  · rintro ⟨⟨hmodes, hr, ht⟩, rfl⟩
    rw [collectTriple_of_modes found hmodes]
    exact bind_eq_ok.mpr ⟨_, overhead_eq_ok.mpr ⟨hr, rfl⟩,
      bind_eq_ok.mpr ⟨_, overhead_eq_ok.mpr ⟨ht, rfl⟩,
        bind_eq_ok.mpr ⟨_, overhead_eq_ok.mpr ⟨hr, rfl⟩, rfl⟩⟩⟩

/-- **The loop over the triples collects those of the workload, which must be fair.** -/
theorem collect_eq_ok {workload : Str} {items : List ((Str × Int) × Dict Str Int)} :
    ∀ {found found' : Overheads}, fold (collectTriple workload) found items = .ok found' ↔
      (∀ e ∈ items, e.1.1 = workload → Fair e.2) ∧
      found' = found.append
        (overheadsOf (items.filter (fun e => decide (e.1.1 = workload)))) := by
  induction items with
  | nil =>
    intro found found'
    rw [List.filter_nil, Overheads.append_nil]
    exact ⟨fun h => by cases h; exact ⟨fun _ he => absurd he List.not_mem_nil, rfl⟩,
      fun ⟨_, h⟩ => by rw [h]; rfl⟩
  | cons e items ih =>
    intro found found'
    rw [fold, bind_eq_ok, List.forall_mem_cons]
    by_cases hw : e.1.1 = workload
    · subst hw
      have hkeep : (e :: items).filter (fun x => decide (x.1.1 = e.1.1)) =
          e :: items.filter (fun x => decide (x.1.1 = e.1.1)) :=
        List.filter_cons_of_pos (decide_eq_true rfl)
      rw [hkeep, Overheads.append_cons]
      constructor
      · rintro ⟨next, hnext, hrest⟩
        obtain ⟨hfair, rfl⟩ := (collectTriple_eq_ok e).mp hnext
        obtain ⟨hall, rfl⟩ := ih.mp hrest
        exact ⟨⟨fun _ => hfair, hall⟩, rfl⟩
      · rintro ⟨⟨hfair, hall⟩, rfl⟩
        exact ⟨_, (collectTriple_eq_ok e).mpr ⟨hfair rfl, rfl⟩, ih.mpr ⟨hall, rfl⟩⟩
    · have hskip : collectTriple workload found e = .ok found := by
        rw [collectTriple, if_pos hw]
      rw [List.filter_cons_of_neg (by simpa using hw), hskip]
      constructor
      · rintro ⟨next, hnext, hrest⟩
        cases hnext
        obtain ⟨hall, rfl⟩ := ih.mp hrest
        exact ⟨⟨fun he => absurd he hw, hall⟩, rfl⟩
      · rintro ⟨⟨_, hall⟩, rfl⟩
        exact ⟨found, rfl, ih.mpr ⟨hall, rfl⟩⟩

/-! ### The triples of a complete design -/

theorem Distinct.totalNs_eq {samples : List Sample} (h : Distinct samples) {workload mode : Str}
    {repetition time time' : Int} (ht : ⟨workload, mode, repetition, time⟩ ∈ samples)
    (ht' : ⟨workload, mode, repetition, time'⟩ ∈ samples) : time = time' :=
  congrArg Sample.totalNs (List.inj_on_of_nodup_map h.unique ht ht' rfl)

theorem Grouped.triple_eq {grouped : Grouped} {e : (Str × Int) × Dict Str Int}
    (he : e ∈ grouped.triples.entries) : grouped.triple (e.1.1, e.1.2) = e.2 := by
  rw [Grouped.triple, Dict.mem_entries.mp (show ((e.1.1, e.1.2), e.2) ∈ _ from he)]
  rfl

theorem Groups.mem_entry_keys {samples : List Sample} {grouped : Grouped}
    (h : Groups samples grouped) {e : (Str × Int) × Dict Str Int}
    (he : e ∈ grouped.triples.entries) {mode : Str} : mode ∈ e.2.keys ↔
      ∃ s ∈ samples, s.workload = e.1.1 ∧ s.repetition = e.1.2 ∧ s.mode = mode := by
  rw [← Grouped.triple_eq he]
  refine (h.mem_triple_keys ⟨e.1.1, mode, e.1.2, 0⟩).trans ?_
  rw [List.mem_map]
  refine exists_congr (fun s => and_congr_right (fun _ => ?_))
  simp [Sample.key]

theorem Groups.entry_time_mem {samples : List Sample} {grouped : Grouped}
    (h : Groups samples grouped) {e : (Str × Int) × Dict Str Int}
    (he : e ∈ grouped.triples.entries) {mode : Str} (hmode : mode ∈ e.2.keys) :
    ⟨e.1.1, mode, e.1.2, timeOf e.2 mode⟩ ∈ samples := by
  rw [← h.triples, Grouped.triple_eq he, timeOf]
  cases hget : e.2.get? mode with
  | none => exact absurd hmode (Dict.get?_eq_none.mp hget)
  | some time => rfl

theorem Groups.exists_entry {samples : List Sample} {grouped : Grouped}
    (h : Groups samples grouped) {s : Sample} (hs : s ∈ samples) :
    ∃ e ∈ grouped.triples.entries, e.1 = (s.workload, s.repetition) :=
  List.mem_map.mp ((h.keys _).mpr ⟨s, hs, rfl⟩)

theorem Groups.exists_sample {samples : List Sample} {grouped : Grouped}
    (h : Groups samples grouped) {e : (Str × Int) × Dict Str Int}
    (he : e ∈ grouped.triples.entries) : ∃ s ∈ samples, (s.workload, s.repetition) = e.1 :=
  (h.keys e.1).mp (List.mem_map_of_mem he)

/-- **The design is complete exactly when every triple is fair.** -/
theorem Groups.completeDesign_iff {samples : List Sample} {grouped : Grouped}
    (h : Groups samples grouped) :
    CompleteDesign samples ↔ ∀ e ∈ grouped.triples.entries, Fair e.2 := by
  constructor
  · intro hdesign e he
    obtain ⟨s, hs, hkey⟩ := h.exists_sample he
    have hall : ∀ mode ∈ modes, mode ∈ e.2.keys := by
      intro mode hmode
      obtain ⟨t, ht, hw, hr, hm⟩ := hdesign.complete s hs mode hmode
      rw [h.mem_entry_keys he, ← hkey]
      exact ⟨t, ht, hw, hr, hm⟩
    refine ⟨⟨fun mode hmode => ?_, hall⟩, ?_, ?_⟩
    · obtain ⟨t, ht, _, _, rfl⟩ := (h.mem_entry_keys he).mp hmode
      exact hdesign.known t ht
    · exact hdesign.positive _ (h.entry_time_mem he (hall rlboxOnly (by decide))) (.inl rfl)
    · exact hdesign.positive _ (h.entry_time_mem he (hall trackedNoCheck (by decide))) (.inr rfl)
  · intro hfair
    refine ⟨h.distinct, fun s hs mode hmode => ?_, fun s hs hmode => ?_⟩
    · obtain ⟨e, he, hkey⟩ := h.exists_entry hs
      obtain ⟨t, ht, hw, hr, hm⟩ := (h.mem_entry_keys he).mp ((hfair e he).modes.2 mode hmode)
      rw [hkey] at hw hr
      exact ⟨t, ht, hw, hr, hm⟩
    · obtain ⟨e, he, hkey⟩ := h.exists_entry hs
      have htime := h.entry_time_mem he ((hfair e he).modes.2 s.mode (h.distinct.known s hs))
      rw [hkey] at htime
      rw [← h.distinct.totalNs_eq htime hs]
      rcases hmode with hm | hm
      · rw [hm]
        exact (hfair e he).rlbox
      · rw [hm]
        exact (hfair e he).tracked

/-! ### Statistics of times and overheads -/

theorem timeStats_total {times : List Int} (h : times ≠ []) :
    ∃ stats, timeStats times = some stats := by
  have hvalues : times.map (fun time : Int => (time : ℚ)) ≠ [] := fun he =>
    h (List.map_eq_nil_iff.mp he)
  obtain ⟨median, hmedian⟩ := Statistics.median_total hvalues
  obtain ⟨mean, hmean⟩ := Statistics.mean_total hvalues
  simp only [timeStats, hmedian, hmean]
  exact ⟨_, rfl⟩

theorem overheadStats_total {values : List ℚ} (h : values ≠ []) :
    ∃ stats, overheadStats values = some stats := by
  obtain ⟨median, hmedian⟩ := Statistics.median_total h
  obtain ⟨mean, hmean⟩ := Statistics.mean_total h
  obtain ⟨least, hleast⟩ := Option.isSome_iff_exists.mp (List.isSome_min?_of_ne_nil h)
  obtain ⟨greatest, hgreatest⟩ := Option.isSome_iff_exists.mp (List.isSome_max?_of_ne_nil h)
  rw [overheadStats, hmedian, hmean, hleast, hgreatest]
  exact ⟨_, rfl⟩

theorem timeStats_perm {times times' : List Int} (h : times'.Perm times) :
    timeStats times' = timeStats times := by
  simp only [timeStats, Statistics.median_perm (h.map _), Statistics.mean_perm (h.map _)]

theorem overheadStats_perm {values values' : List ℚ} (h : values'.Perm values) :
    overheadStats values' = overheadStats values := by
  rw [overheadStats, overheadStats, Statistics.median_perm h, Statistics.mean_perm h,
    Statistics.min?_perm h, Statistics.max?_perm h]

/-! ### The row of a workload -/

/-- The repetitions of a workload, each once, and the time of each in each mode. -/
structure Measured (samples : List Sample) (workload : Str) (repetitions : List Int)
    (time : Int → Str → Int) : Prop where
  nodup : repetitions.Nodup
  mem : ∀ r, r ∈ repetitions ↔ ∃ s ∈ samples, s.workload = workload ∧ s.repetition = r
  time : ∀ r ∈ repetitions, ∀ mode ∈ modes, ⟨workload, mode, r, time r mode⟩ ∈ samples

/-- The overhead of one mode over another in each repetition. -/
def pairedOverheads (repetitions : List Int) (time : Int → Str → Int) (mode base : Str) : List ℚ :=
  repetitions.map (fun r => overheadPct (time r mode) (time r base))

/-- **The statistics of the row range over each repetition's triple exactly once**, and in
each triple the tracking and the validation overhead make up the total one. -/
def IsRow (samples : List Sample) (row : SummaryRow) : Prop :=
  ∃ (repetitions : List Int) (time : Int → Str → Int),
    Measured samples row.workload repetitions time ∧
    row.repetitions = repetitions.length ∧
    timeStats (repetitions.map (fun r => time r rlboxOnly)) = some row.rlbox ∧
    timeStats (repetitions.map (fun r => time r trackedNoCheck)) = some row.tracked ∧
    timeStats (repetitions.map (fun r => time r extendedSp3)) = some row.extended ∧
    overheadStats (pairedOverheads repetitions time trackedNoCheck rlboxOnly) =
      some row.trackingOverhead ∧
    overheadStats (pairedOverheads repetitions time extendedSp3 trackedNoCheck) =
      some row.validationOverhead ∧
    overheadStats (pairedOverheads repetitions time extendedSp3 rlboxOnly) =
      some row.totalOverhead ∧
    ∀ r ∈ repetitions,
      (1 + overheadPct (time r trackedNoCheck) (time r rlboxOnly) / 100) *
        (1 + overheadPct (time r extendedSp3) (time r trackedNoCheck) / 100) =
      1 + overheadPct (time r extendedSp3) (time r rlboxOnly) / 100

/-- The entries of a workload, in the order of the repetitions. -/
def entriesOf (grouped : Grouped) (workload : Str) : List ((Str × Int) × Dict Str Int) :=
  (sortedItems grouped.triples).filter (fun e => decide (e.1.1 = workload))

theorem mem_sortedItems {triples : Dict (Str × Int) (Dict Str Int)}
    {e : (Str × Int) × Dict Str Int} : e ∈ sortedItems triples ↔ e ∈ triples.entries :=
  Sorting.mem_sortBy

theorem mem_entriesOf {grouped : Grouped} {workload : Str} {e : (Str × Int) × Dict Str Int} :
    e ∈ entriesOf grouped workload ↔ e ∈ grouped.triples.entries ∧ e.1.1 = workload := by
  rw [entriesOf, List.mem_filter, mem_sortedItems, decide_eq_true_iff]

def repetitionsOf (grouped : Grouped) (workload : Str) : List Int :=
  (entriesOf grouped workload).map (fun e => e.1.2)

def repetitionTime (grouped : Grouped) (workload : Str) (repetition : Int) (mode : Str) : Int :=
  timeOf (grouped.triple (workload, repetition)) mode

theorem nodup_repetitionsOf (grouped : Grouped) (workload : Str) :
    (repetitionsOf grouped workload).Nodup := by
  have hkeys : ((entriesOf grouped workload).map Prod.fst).Nodup := by
    have hsorted : ((sortedItems grouped.triples).map Prod.fst).Nodup :=
      ((Sorting.sortBy_perm _ _).map Prod.fst).nodup_iff.mpr grouped.triples.nodup
    exact (List.filter_sublist.map Prod.fst).nodup hsorted
  have hpair : (entriesOf grouped workload).map Prod.fst =
      (repetitionsOf grouped workload).map (fun r => (workload, r)) := by
    rw [repetitionsOf, List.map_map]
    apply List.map_congr_left
    intro e he
    exact Prod.ext (mem_entriesOf.mp he).2 rfl
  rw [hpair] at hkeys
  exact hkeys.of_map _

theorem Groups.measured {samples : List Sample} {grouped : Grouped}
    (h : Groups samples grouped) {workload : Str}
    (hfair : ∀ e ∈ grouped.triples.entries, Fair e.2) :
    Measured samples workload (repetitionsOf grouped workload)
      (repetitionTime grouped workload) := by
  refine ⟨nodup_repetitionsOf grouped workload, fun r => ?_, fun r hr mode hmode => ?_⟩
  · rw [repetitionsOf, List.mem_map]
    constructor
    · rintro ⟨e, he, rfl⟩
      obtain ⟨hentry, rfl⟩ := mem_entriesOf.mp he
      obtain ⟨s, hs, hkey⟩ := h.exists_sample hentry
      exact ⟨s, hs, congrArg Prod.fst hkey, congrArg Prod.snd hkey⟩
    · rintro ⟨s, hs, rfl, rfl⟩
      obtain ⟨e, he, hkey⟩ := h.exists_entry hs
      exact ⟨e, mem_entriesOf.mpr ⟨he, congrArg Prod.fst hkey⟩, congrArg Prod.snd hkey⟩
  · obtain ⟨e, he, rfl⟩ := List.mem_map.mp hr
    obtain ⟨hentry, rfl⟩ := mem_entriesOf.mp he
    rw [repetitionTime, Grouped.triple_eq hentry]
    exact h.entry_time_mem hentry ((hfair e hentry).modes.2 mode hmode)

/-- The times of a mode are those of the repetitions, in another order. -/
theorem Groups.times_perm {samples : List Sample} {grouped : Grouped}
    (h : Groups samples grouped) {workload : Str} {repetitions : List Int}
    {time : Int → Str → Int} (hm : Measured samples workload repetitions time) {mode : Str}
    (hmode : mode ∈ modes) :
    (grouped.times workload mode).Perm (repetitions.map (fun r => time r mode)) := by
  have hmem : ∀ s, s ∈ samples.filter (fun s => decide (s.workload = workload ∧ s.mode = mode)) ↔
      s ∈ samples ∧ s.workload = workload ∧ s.mode = mode := fun s => by
    rw [List.mem_filter, decide_eq_true_iff]
  have htimes : grouped.times workload mode =
      ((samples.filter (fun s => decide (s.workload = workload ∧ s.mode = mode))).map
        Sample.repetition).map (fun r => time r mode) := by
    rw [h.times, List.map_map]
    apply List.map_congr_left
    rintro ⟨w, m, r, t⟩ hs
    obtain ⟨hsample, rfl, rfl⟩ := (hmem _).mp hs
    exact h.distinct.totalNs_eq hsample
      (hm.time r ((hm.mem r).mpr ⟨_, hsample, rfl, rfl⟩) _ hmode)
  rw [htimes]
  refine List.Perm.map _ ((List.perm_ext_iff_of_nodup ?_ hm.nodup).mpr (fun r => ?_))
  · refine List.Nodup.map_on ?_ (h.distinct.unique.of_map _ |>.filter _)
    intro s hs t ht hr
    obtain ⟨hs, hsw, hsm⟩ := (hmem s).mp hs
    obtain ⟨ht, htw, htm⟩ := (hmem t).mp ht
    apply List.inj_on_of_nodup_map h.distinct.unique hs ht
    rw [Sample.key, Sample.key, hsw, htw, hsm, htm, hr]
  · rw [List.mem_map]
    constructor
    · rintro ⟨s, hs, rfl⟩
      obtain ⟨hs, hw, _⟩ := (hmem s).mp hs
      exact (hm.mem _).mpr ⟨s, hs, hw, rfl⟩
    · intro hr
      exact ⟨_, (hmem _).mpr ⟨hm.time r hr mode hmode, rfl, rfl⟩, rfl⟩

theorem overheadsOf_entriesOf (grouped : Grouped) (workload : Str) :
    overheadsOf (entriesOf grouped workload) =
      ⟨repetitionsOf grouped workload,
        pairedOverheads (repetitionsOf grouped workload) (repetitionTime grouped workload)
          trackedNoCheck rlboxOnly,
        pairedOverheads (repetitionsOf grouped workload) (repetitionTime grouped workload)
          extendedSp3 trackedNoCheck,
        pairedOverheads (repetitionsOf grouped workload) (repetitionTime grouped workload)
          extendedSp3 rlboxOnly⟩ := by
  have hpaired : ∀ mode base : Str, (entriesOf grouped workload).map
      (fun e => overheadPct (timeOf e.2 mode) (timeOf e.2 base)) =
        pairedOverheads (repetitionsOf grouped workload) (repetitionTime grouped workload)
          mode base := by
    intro mode base
    rw [pairedOverheads, repetitionsOf, List.map_map]
    apply List.map_congr_left
    intro e he
    obtain ⟨hentry, rfl⟩ := mem_entriesOf.mp he
    simp only [Function.comp_apply, repetitionTime, Grouped.triple_eq hentry]
  rw [overheadsOf, hpaired, hpaired, hpaired]
  rfl

theorem statistic_eq_ok {α : Type} {value : Option α} {a : α} :
    statistic value = .ok a ↔ value = some a := by
  cases value with
  | none => exact iff_of_false nofun nofun
  | some b => exact ⟨fun h => congrArg some (Except.ok.inj h), fun h => by cases h; rfl⟩

theorem collect_of_fair {grouped : Grouped} (hfair : ∀ e ∈ grouped.triples.entries, Fair e.2)
    (workload : Str) :
    fold (collectTriple workload) ⟨[], [], [], []⟩ (sortedItems grouped.triples) =
      .ok (overheadsOf (entriesOf grouped workload)) := by
  refine collect_eq_ok.mpr ⟨fun e he _ => hfair e (mem_sortedItems.mp he), ?_⟩
  simp [Overheads.append, entriesOf]

theorem pairedOverheads_ne_nil {repetitions : List Int} (h : repetitions ≠ [])
    (time : Int → Str → Int) (mode base : Str) :
    pairedOverheads repetitions time mode base ≠ [] :=
  fun he => h (List.map_eq_nil_iff.mp he)

/-- **The row of a workload that was measured.** -/
theorem Groups.summarizeWorkload {samples : List Sample} {grouped : Grouped}
    (h : Groups samples grouped) {workload : Str}
    (hfair : ∀ e ∈ grouped.triples.entries, Fair e.2)
    (hw : ∃ s ∈ samples, s.workload = workload) :
    ∃ row, summarizeWorkload grouped workload = .ok row ∧ row.workload = workload ∧
      IsRow samples row := by
  have hm : Measured samples workload _ _ := h.measured hfair
  have hcollect := collect_of_fair hfair workload
  rw [overheadsOf_entriesOf] at hcollect
  have hrepetitions : repetitionsOf grouped workload ≠ [] := by
    obtain ⟨s, hs, hsw⟩ := hw
    exact List.ne_nil_of_mem ((hm.mem s.repetition).mpr ⟨s, hs, hsw, rfl⟩)
  -- the times of a mode are not empty, so their statistics are those of the repetitions
  have htimes : ∀ mode ∈ modes, grouped.times workload mode ≠ [] ∧
      ∃ stats, timeStats (grouped.times workload mode) = some stats ∧
        timeStats ((repetitionsOf grouped workload).map
          (fun r => repetitionTime grouped workload r mode)) = some stats := by
    intro mode hmode
    have hperm := h.times_perm hm hmode
    have hne : grouped.times workload mode ≠ [] := by
      intro he
      rw [he, List.nil_perm, List.map_eq_nil_iff] at hperm
      exact hrepetitions hperm
    obtain ⟨stats, hstats⟩ := timeStats_total hne
    exact ⟨hne, stats, hstats, (timeStats_perm hperm).symm.trans hstats⟩
  obtain ⟨_, rlbox, hrlbox, hrlbox'⟩ := htimes rlboxOnly (by decide)
  obtain ⟨_, tracked, htracked, htracked'⟩ := htimes trackedNoCheck (by decide)
  obtain ⟨_, extended, hextended, hextended'⟩ := htimes extendedSp3 (by decide)
  have hoverheads := fun mode base => overheadStats_total
    (pairedOverheads_ne_nil hrepetitions (repetitionTime grouped workload) mode base)
  obtain ⟨tracking, htracking⟩ := hoverheads trackedNoCheck rlboxOnly
  obtain ⟨validation, hvalidation⟩ := hoverheads extendedSp3 trackedNoCheck
  obtain ⟨total, htotal⟩ := hoverheads extendedSp3 rlboxOnly
  refine ⟨⟨workload, (repetitionsOf grouped workload).length, rlbox, tracked, extended, tracking,
    validation, total⟩, ?_, rfl, _, _, hm, rfl, hrlbox', htracked', hextended', htracking,
    hvalidation, htotal, ?_⟩
  · have hmissing : ¬ ∃ mode ∈ modes, grouped.times workload mode = [] :=
      fun ⟨mode, hmode, he⟩ => (htimes mode hmode).1 he
    have hdedup : (repetitionsOf grouped workload).dedup.length =
        (repetitionsOf grouped workload).length := by
      rw [List.dedup_eq_self.mpr hm.nodup]
    exact bind_eq_ok.mpr ⟨(), ensure_eq_ok.mpr hmissing, bind_eq_ok.mpr ⟨_, hcollect,
      bind_eq_ok.mpr ⟨(), ensure_eq_ok.mpr hrepetitions,
      bind_eq_ok.mpr ⟨(), ensure_eq_ok.mpr hdedup,
      bind_eq_ok.mpr ⟨_, statistic_eq_ok.mpr hrlbox,
      bind_eq_ok.mpr ⟨_, statistic_eq_ok.mpr htracked,
      bind_eq_ok.mpr ⟨_, statistic_eq_ok.mpr hextended,
      bind_eq_ok.mpr ⟨_, statistic_eq_ok.mpr htracking,
      bind_eq_ok.mpr ⟨_, statistic_eq_ok.mpr hvalidation,
      bind_eq_ok.mpr ⟨_, statistic_eq_ok.mpr htotal, rfl⟩⟩⟩⟩⟩⟩⟩⟩⟩⟩
  · intro r hr
    obtain ⟨e, he, rfl⟩ := List.mem_map.mp hr
    obtain ⟨hentry, rfl⟩ := mem_entriesOf.mp he
    simp only [repetitionTime, Grouped.triple_eq hentry]
    exact overheadPct_mul _ (hfair e hentry).rlbox (hfair e hentry).tracked

/-- A row is only made of fair triples. -/
theorem fair_of_summarizeWorkload {grouped : Grouped} {workload : Str} {row : SummaryRow}
    (h : summarizeWorkload grouped workload = .ok row) :
    ∀ e ∈ grouped.triples.entries, e.1.1 = workload → Fair e.2 := by
  obtain ⟨_, _, h⟩ := bind_eq_ok.mp h
  obtain ⟨found, hfound, _⟩ := bind_eq_ok.mp h
  exact fun e he => (collect_eq_ok.mp hfound).1 e (mem_sortedItems.mpr he)

/-! ### The whole summary -/

theorem mem_workloads {samples : List Sample} {workload : Str} :
    workload ∈ workloads samples ↔ ∃ s ∈ samples, s.workload = workload := by
  rw [workloads, List.mem_insertionSort, List.mem_dedup, List.mem_map]

/-- **Exactly the complete designs are accepted.** -/
theorem summarize_isOk_iff (samples : List Sample) :
    (∃ rows, summarize samples = .ok rows) ↔ CompleteDesign samples := by
  constructor
  · rintro ⟨rows, h⟩
    obtain ⟨grouped, hgroup, h⟩ := bind_eq_ok.mp h
    have hgroups := groups_of_group hgroup
    refine hgroups.completeDesign_iff.mpr (fun e he => ?_)
    obtain ⟨s, hs, hkey⟩ := hgroups.exists_sample he
    have hw : e.1.1 ∈ workloads samples := mem_workloads.mpr ⟨s, hs, congrArg Prod.fst hkey⟩
    obtain ⟨i, hi⟩ := List.getElem?_of_mem hw
    obtain ⟨row, _, hrow⟩ := (numbered_eq_ok h).2 i e.1.1 hi
    exact fair_of_summarizeWorkload hrow e he rfl
  · intro hdesign
    obtain ⟨grouped, hgroup, hgroups⟩ := group_total hdesign.toDistinct
    have hfair := hgroups.completeDesign_iff.mp hdesign
    obtain ⟨rows, hrows⟩ := numbered_total
      (f := fun _ workload => summarizeWorkload grouped workload) (k := 0)
      (l := workloads samples) (fun i workload hi => by
        have hw := mem_workloads.mp (List.mem_of_getElem? hi)
        obtain ⟨row, hrow, _⟩ := hgroups.summarizeWorkload hfair hw
        exact ⟨row, hrow⟩)
    exact ⟨rows, bind_eq_ok.mpr ⟨grouped, hgroup, hrows⟩⟩

theorem workloads_sorted (samples : List Sample) : (workloads samples).Pairwise (· < ·) := by
  have hsorted : (workloads samples).Pairwise (· ≤ ·) := List.pairwise_insertionSort _ _
  have hnodup : (workloads samples).Nodup :=
    (List.perm_insertionSort _ _).nodup_iff.mpr (List.nodup_dedup _)
  exact hsorted.imp₂ (fun _ _ hle hne => lt_of_le_of_ne hle hne) hnodup

/-- **There is one row for each workload, in sorted order, and what it is computed from.** -/
theorem rows_of_summarize {samples : List Sample} {rows : List SummaryRow}
    (h : summarize samples = .ok rows) :
    rows.map SummaryRow.workload = workloads samples ∧ ∀ row ∈ rows, IsRow samples row := by
  have hdesign := (summarize_isOk_iff samples).mp ⟨rows, h⟩
  obtain ⟨grouped, hgroup, h⟩ := bind_eq_ok.mp h
  have hgroups := groups_of_group hgroup
  have hfair := hgroups.completeDesign_iff.mp hdesign
  obtain ⟨hlen, hrow⟩ := numbered_eq_ok h
  have hget : ∀ (i : Nat) (workload : Str), (workloads samples)[i]? = some workload →
      ∃ row, rows[i]? = some row ∧ row.workload = workload ∧ IsRow samples row := by
    intro i workload hi
    obtain ⟨row, hi', hok⟩ := hrow i workload hi
    obtain ⟨row', hok', hw, his⟩ := hgroups.summarizeWorkload hfair
      (mem_workloads.mp (List.mem_of_getElem? hi))
    rw [hok'] at hok
    cases hok
    exact ⟨row, hi', hw, his⟩
  constructor
  · apply List.ext_getElem?
    intro i
    rw [List.getElem?_map]
    cases hi : (workloads samples)[i]? with
    | none =>
      rw [List.getElem?_eq_none (hlen ▸ List.getElem?_eq_none_iff.mp hi)]
      rfl
    | some workload =>
      obtain ⟨row, hi', hw, _⟩ := hget i workload hi
      rw [hi', ← hw]
      rfl
  · intro row hmem
    obtain ⟨i, hi⟩ := List.getElem?_of_mem hmem
    have hlt : i < (workloads samples).length := hlen ▸ (List.getElem?_eq_some_iff.mp hi).1
    obtain ⟨row', hi', _, his⟩ := hget i _ (List.getElem?_eq_getElem hlt)
    rw [hi] at hi'
    cases hi'
    exact his

/-! ### The order of the samples -/

theorem CompleteDesign.perm {samples samples' : List Sample} (h : CompleteDesign samples)
    (hperm : samples'.Perm samples) : CompleteDesign samples' where
  known s hs := h.known s (hperm.mem_iff.mp hs)
  unique := (hperm.map Sample.key).nodup_iff.mpr h.unique
  complete s hs mode hmode := by
    obtain ⟨t, ht, hkey⟩ := h.complete s (hperm.mem_iff.mp hs) mode hmode
    exact ⟨t, hperm.mem_iff.mpr ht, hkey⟩
  positive s hs := h.positive s (hperm.mem_iff.mp hs)

/-- **The row of a workload is determined by the samples.** -/
theorem IsRow.eq {samples samples' : List Sample} {row row' : SummaryRow}
    (h : IsRow samples row) (h' : IsRow samples' row') (hw : row'.workload = row.workload)
    (hd : Distinct samples) (hmem : ∀ s, s ∈ samples' ↔ s ∈ samples) : row' = row := by
  obtain ⟨repetitions, time, hm, hlen, hr, ht, he, htr, hva, hto, _⟩ := h
  obtain ⟨repetitions', time', hm', hlen', hr', ht', he', htr', hva', hto', _⟩ := h'
  have hperm : repetitions'.Perm repetitions := by
    refine (List.perm_ext_iff_of_nodup hm'.nodup hm.nodup).mpr (fun r => ?_)
    rw [hm.mem, hm'.mem, hw]
    exact exists_congr (fun s => and_congr_left (fun _ => hmem s))
  have htime : ∀ r ∈ repetitions', ∀ mode ∈ modes, time' r mode = time r mode := by
    intro r hr mode hmode
    have hs' := (hmem _).mp (hm'.time r hr mode hmode)
    rw [hw] at hs'
    exact hd.totalNs_eq hs' (hm.time r (hperm.mem_iff.mp hr) mode hmode)
  have htimes : ∀ mode ∈ modes, timeStats (repetitions'.map (fun r => time' r mode)) =
      timeStats (repetitions.map (fun r => time r mode)) := by
    intro mode hmode
    rw [List.map_congr_left (fun r hr => htime r hr mode hmode)]
    exact timeStats_perm (hperm.map _)
  have hpaired : ∀ mode ∈ modes, ∀ base ∈ modes,
      overheadStats (pairedOverheads repetitions' time' mode base) =
        overheadStats (pairedOverheads repetitions time mode base) := by
    intro mode hmode base hbase
    unfold pairedOverheads
    rw [List.map_congr_left (fun r hr => congrArg₂ overheadPct (htime r hr mode hmode)
      (htime r hr base hbase))]
    exact overheadStats_perm (hperm.map _)
  rw [htimes _ (by decide), hr] at hr'
  rw [htimes _ (by decide), ht] at ht'
  rw [htimes _ (by decide), he] at he'
  rw [hpaired _ (by decide) _ (by decide), htr] at htr'
  rw [hpaired _ (by decide) _ (by decide), hva] at hva'
  rw [hpaired _ (by decide) _ (by decide), hto] at hto'
  rw [hperm.length_eq, ← hlen] at hlen'
  exact SummaryRow.ext hw hlen' (Option.some.inj hr').symm (Option.some.inj ht').symm
    (Option.some.inj he').symm (Option.some.inj htr').symm (Option.some.inj hva').symm
    (Option.some.inj hto').symm

theorem eq_of_map_eq {α β : Type} {f : α → β} : ∀ {l l' : List α}, l'.map f = l.map f →
    (∀ a' ∈ l', ∀ a ∈ l, f a' = f a → a' = a) → l' = l := by
  intro l
  induction l with
  | nil => exact fun h _ => List.map_eq_nil_iff.mp h
  | cons a l ih =>
    intro l' h heq
    cases l' with
    | nil => cases h
    | cons a' l' =>
      rw [List.map_cons, List.map_cons, List.cons.injEq] at h
      rw [heq a' List.mem_cons_self a List.mem_cons_self h.1,
        ih h.2 (fun b' hb' b hb =>
          heq b' (List.mem_cons_of_mem _ hb') b (List.mem_cons_of_mem _ hb))]

theorem workloads_perm {samples samples' : List Sample} (hperm : samples'.Perm samples) :
    workloads samples' = workloads samples :=
  Sorting.sorted_eq_of_mem_iff (List.nodup_dedup _) (List.nodup_dedup _) (fun w => by
    rw [List.mem_dedup, List.mem_dedup, (hperm.map Sample.workload).mem_iff])

theorem summarize_perm {samples samples' : List Sample} (hperm : samples'.Perm samples) :
    (summarize samples').toOption = (summarize samples).toOption := by
  have hok : ∀ {l l' : List Sample} {rows : List SummaryRow}, l'.Perm l →
      summarize l = .ok rows → ∃ rows', summarize l' = .ok rows' := fun hl h =>
    (summarize_isOk_iff _).mpr (((summarize_isOk_iff _).mp ⟨_, h⟩).perm hl)
  cases h : summarize samples with
  | error e =>
    cases h' : summarize samples' with
    | error e' => rfl
    | ok rows' =>
      obtain ⟨rows, hrows⟩ := hok hperm.symm h'
      rw [h] at hrows
      cases hrows
  | ok rows =>
    obtain ⟨rows', h'⟩ := hok hperm h
    have hdesign := (summarize_isOk_iff samples).mp ⟨rows, h⟩
    obtain ⟨hmap, hrows⟩ := rows_of_summarize h
    obtain ⟨hmap', hrows'⟩ := rows_of_summarize h'
    have heq : rows' = rows := by
      apply eq_of_map_eq (f := SummaryRow.workload)
      · rw [hmap', hmap, workloads_perm hperm]
      · exact fun row' hrow' row hrow hw => (hrows row hrow).eq (hrows' row' hrow') hw
          hdesign.toDistinct (fun s => hperm.mem_iff)
    rw [h', heq]

/-- **The summary of a complete design**: exactly the complete designs are accepted, the rows
are those of their workloads, and the order of the samples does not matter. -/
theorem summarize_paired (samples : List Sample) :
    ((∃ rows, summarize samples = .ok rows) ↔ CompleteDesign samples) ∧
    (∀ rows, summarize samples = .ok rows →
      (rows.map SummaryRow.workload).Pairwise (· < ·) ∧
      (∀ workload, workload ∈ rows.map SummaryRow.workload ↔
        ∃ s ∈ samples, s.workload = workload) ∧
      ∀ row ∈ rows, IsRow samples row) ∧
    ∀ samples' : List Sample, samples'.Perm samples →
      (summarize samples').toOption = (summarize samples).toOption := by
  refine ⟨summarize_isOk_iff samples, fun rows h => ?_, fun samples' => summarize_perm⟩
  obtain ⟨hmap, hrows⟩ := rows_of_summarize h
  rw [hmap]
  exact ⟨workloads_sorted samples, fun w => mem_workloads, hrows⟩

/-- Three repetitions that differ by a factor. -/
def sampleDesign : List Sample :=
  ([0, 1, 2] : List Int).flatMap (fun r =>
    [⟨"sample".toList, rlboxOnly, r, 100 * (r + 1)⟩,
      ⟨"sample".toList, trackedNoCheck, r, 110 * (r + 1)⟩,
      ⟨"sample".toList, extendedSp3, r, 121 * (r + 1)⟩])

example : (summarize sampleDesign).toOption.map (fun rows => rows.map (fun row =>
    (row.repetitions, row.trackingOverhead.medianPct, row.validationOverhead.medianPct,
      row.totalOverhead.medianPct))) = some [(3, 10, 10, 21)] := by
  decide +kernel

end InterSpec.Tools
