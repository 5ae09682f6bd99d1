import InterSpec.Runtime.Step

/-!
# Addresses and capacity along a run

`recorded s ops` lists the records that a run makes, in their order: the call
answers with an address that had no record before it and has one after it.  The
cursor is the sum of their padded sizes, whatever else the run does, so the sizes
alone decide the next address and whether the next request is admitted.

* `Requests s op size`: in state `s` the call `op` asks for `size` bytes, with a
  type, a site, a program counter or a live base it is authorised by.
* `newRecord_of_requests`: such a call makes a record exactly when it `Fits`.
* `used_after`, `bases_recorded`: the cursor and the addresses, from the sizes.
-/

namespace InterSpec.Runtime

/-- The record that a call makes, if it makes one. -/
def newRecord (s : Runtime) (op : Op) : Option Allocation :=
  match (step s op).2 with
  | .word w => if s.allocations.find w = none then (step s op).1.allocations.find w else none
  | _ => none

/-- The records that a run makes. -/
def recorded : Runtime → List Op → List Allocation
  | _, [] => []
  | s, op :: ops => (newRecord s op).toList ++ recorded (step s op).1 ops

@[simp] theorem recorded_cons (s : Runtime) (op : Op) (ops : List Op) :
    recorded s (op :: ops) = (newRecord s op).toList ++ recorded (step s op).1 ops := rfl

/-- The sizes of all allocations and successful reallocations of a run. -/
def recordedSizes (s : Runtime) (ops : List Op) : List Nat :=
  (recorded s ops).map (fun a => a.size.toNat)

def recordedBases (s : Runtime) (ops : List Op) : List UInt64 :=
  (recorded s ops).map Allocation.base

/-- The bytes that a list of requests takes, with its padding. -/
def padded : List Nat → Nat
  | [] => 0
  | n :: sizes => roundUp8 n + padded sizes

@[simp] theorem padded_cons (n : Nat) (sizes : List Nat) :
    padded (n :: sizes) = roundUp8 n + padded sizes := rfl

/-- The addresses of a list of requests that are placed one behind the other. -/
def addresses (start : Nat) : List Nat → List Nat
  | [] => []
  | n :: sizes => start :: addresses (start + roundUp8 n) sizes

/-- A call that asks for `size` bytes with the authority to get them. -/
inductive Requests (s : Runtime) : Op → UInt64 → Prop
  | allocate {size typeHash : UInt64} {t : TypeId} (ht : s.types.find t = some typeHash) :
      Requests s (.allocate size t) size
  | allocateFromSite {size typeHash : UInt64} {i : SiteId}
      (hi : s.siteTypes.find i = some typeHash) : Requests s (.allocateFromSite size i) size
  | allocateFromPc {size pc : UInt64} {site : AllocationSite}
      (hs : s.findSiteUnlocked pc = some site) : Requests s (.allocateFromPc size pc) size
  | reallocate {p size : UInt64} {a : Allocation} (hp : s.allocations.find p = some a) :
      Requests s (.reallocate p size) size

/-! ### One call -/

theorem newRecord_eq {s t : Runtime} {op : Op} {w : UInt64} (hop : step s op = (t, .word w)) :
    newRecord s op = if s.allocations.find w = none then t.allocations.find w else none := by
  rw [newRecord, hop]

theorem newRecord_eq_none {s : Runtime} {op : Op}
    (hkeep : ∀ p, s.allocations.find p = none → (step s op).1.allocations.find p = none) :
    newRecord s op = none := by
  unfold newRecord
  cases (step s op).2 with
  | word w =>
    dsimp only
    split
    · exact hkeep w ‹_›
    · rfl
  | _ => rfl

/-- What the call `op` does with a request of `size` bytes. -/
structure Served (s : Runtime) (op : Op) (size : UInt64) : Prop where
  fits : s.Fits size → ∃ a, newRecord s op = some a ∧ a.size = size ∧ a.base = s.cursor ∧
    (step s op).2 = .word s.cursor ∧
    (step s op).1.used.toNat = s.used.toNat + roundUp8 size.toNat
  refused : ¬ s.Fits size → newRecord s op = none ∧ (step s op).1.used = s.used

theorem served_of_eq {s : Runtime} (h : Layout s) {op : Op} {size typeHash : UInt64}
    {siteId : SiteId} (hop : step s op =
      ((if s.Fits size then (s.record size typeHash siteId, s.cursor) else (s, (0 : UInt64))).1,
        .word (if s.Fits size then (s.record size typeHash siteId, s.cursor)
          else (s, (0 : UInt64))).2)) : Served s op size where
  fits hf := by
    rw [if_pos hf] at hop
    refine ⟨⟨s.cursor, size, typeHash, siteId⟩, ?_, rfl, rfl, by rw [hop], ?_⟩
    · rw [newRecord_eq hop, if_pos h.cursor_fresh, find_record h, if_pos rfl]
    · rw [hop]
      exact hf.toNat_used
  refused hf := by
    rw [if_neg hf] at hop
    exact ⟨newRecord_eq_none (fun p hp => by rw [hop]; exact hp), by rw [hop]⟩

/-- **A request with authority is recorded at the cursor exactly when it fits.** -/
theorem served_of_requests {s : Runtime} (h : Layout s) {op : Op} {size : UInt64}
    (hr : Requests s op size) : Served s op size := by
  cases hr with
  | allocate ht => exact served_of_eq h (by rw [step, allocate_of_find h ht])
  | allocateFromSite hi => exact served_of_eq h (by rw [step, allocateFromSite_of_find h hi])
  | allocateFromPc hs => exact served_of_eq h (by rw [step, allocateFromPc_of_find h hs])
  | @reallocate p _ a hp =>
    by_cases hf : s.Fits size
    · have hop : step s (.reallocate p size) =
          ((s.record size a.typeHash a.siteId).remove p, .word s.cursor) := by
        rw [step, reallocate_of_find h hp hf.2.1, if_pos hf]
      have hne : s.cursor ≠ p := by
        intro hc
        rw [← hc, h.cursor_fresh] at hp
        cases hp
      refine ⟨fun _ => ⟨⟨s.cursor, size, a.typeHash, a.siteId⟩, ?_, rfl, rfl, by rw [hop], ?_⟩,
        fun hno => absurd hf hno⟩
      · rw [newRecord_eq hop, if_pos h.cursor_fresh, find_remove, if_neg hne, find_record h,
          if_pos rfl]
      · rw [hop]
        exact hf.toNat_used
    · refine ⟨fun hyes => absurd hyes hf, fun _ => ?_⟩
      by_cases hz : size = 0
      · have hop : step s (.reallocate p size) = (s.remove p, .word 0) := by
          rw [step, hz, reallocate_zero hp]
        refine ⟨newRecord_eq_none (fun q hq => ?_), by rw [hop]; rfl⟩
        rw [hop, find_remove, hq, ite_self]
      · have hop : step s (.reallocate p size) = (s, .word 0) := by
          rw [step, reallocate_of_find h hp hz, if_neg hf]
        exact ⟨newRecord_eq_none (fun q hq => by rw [hop]; exact hq), by rw [hop]⟩

theorem newRecord_of_not_requests {s : Runtime} {op : Op}
    (hr : ∀ size, ¬ Requests s op size) :
    newRecord s op = none ∧ (step s op).1.used = s.used := by
  have hsame : (step s op).1 = s → newRecord s op = none ∧ (step s op).1.used = s.used := by
    intro he
    exact ⟨newRecord_eq_none (fun p hp => by rw [he]; exact hp), by rw [he]⟩
  cases op with
  | registerType id typeHash =>
    refine ⟨rfl, ?_⟩
    show (s.registerType id typeHash).1.used = s.used
    rcases s.registerType_eq id typeHash with he | ⟨_, he⟩ <;> rw [he]
    rfl
  | registerAllocationSiteId id typeId =>
    refine ⟨rfl, ?_⟩
    show (s.registerAllocationSiteId id typeId).1.used = s.used
    rcases s.registerAllocationSiteId_eq id typeId with he | ⟨_, _, _, he⟩ <;> rw [he]
    rfl
  | registerAllocationSite id beginPc endPc typeId =>
    refine ⟨rfl, ?_⟩
    show (s.registerAllocationSite id beginPc endPc typeId).1.used = s.used
    rcases s.registerAllocationSite_eq id beginPc endPc typeId with he | ⟨_, _, _, he⟩ <;> rw [he]
    rfl
  | allocate size typeId =>
    apply hsame
    cases ht : s.types.find typeId with
    | none => rw [step, allocate_of_none ht]
    | some typeHash => exact absurd (.allocate ht) (hr size)
  | allocateFromSite size siteId =>
    apply hsame
    cases hi : s.siteTypes.find siteId with
    | none => rw [step, allocateFromSite_of_none hi]
    | some typeHash => exact absurd (.allocateFromSite hi) (hr size)
  | allocateFromPc size callerPc =>
    apply hsame
    cases hs : s.findSiteUnlocked callerPc with
    | none => rw [step, allocateFromPc_of_none hs]
    | some site => exact absurd (.allocateFromPc hs) (hr size)
  | release p =>
    refine ⟨rfl, ?_⟩
    show (s.release p).1.used = s.used
    cases hp : s.allocations.find p with
    | none => rw [release_of_none hp]
    | some a => rw [release_of_find hp]; rfl
  | reallocate p size =>
    apply hsame
    cases hp : s.allocations.find p with
    | none => rw [step, reallocate_of_none hp]
    | some a => exact absurd (.reallocate hp) (hr size)
  | query q => exact hsame rfl

/-- **One call makes one record at the cursor, or none.** -/
theorem newRecord_cases {s : Runtime} (h : Layout s) (op : Op) :
    (newRecord s op = none ∧ (step s op).1.used = s.used) ∨
      ∃ a, newRecord s op = some a ∧ a.base.toNat = s.base.toNat + s.used.toNat ∧
        (step s op).1.used.toNat = s.used.toNat + roundUp8 a.size.toNat := by
  by_cases hr : ∃ size, Requests s op size
  · obtain ⟨size, hr⟩ := hr
    have hserved := served_of_requests h hr
    by_cases hf : s.Fits size
    · obtain ⟨a, hnew, hsize, hbase, _, hused⟩ := hserved.fits hf
      refine .inr ⟨a, hnew, ?_, ?_⟩
      · rw [hbase, h.toNat_cursor hf.1]
      · rw [hused, hsize]
    · exact .inl (hserved.refused hf)
  · exact .inl (newRecord_of_not_requests (not_exists.mp hr))

/-! ### Whole runs -/

/-- **The cursor is the sum of the padded sizes recorded so far.** -/
theorem used_after (ops : List Op) : ∀ (s : Runtime), Layout s →
    (s.after ops).used.toNat = s.used.toNat + padded (recordedSizes s ops) := by
  induction ops with
  | nil => intro s _; rfl
  | cons op ops ih =>
    intro s h
    rw [after_cons, ih _ (layout_step s op h), recordedSizes, recordedSizes, recorded_cons]
    rcases newRecord_cases h op with ⟨hnone, hused⟩ | ⟨a, hnew, _, hused⟩
    · rw [hnone, hused]
      rfl
    · rw [hnew, hused, Option.toList_some, List.map_append, List.map_cons, List.map_nil,
        List.singleton_append, padded_cons, Nat.add_assoc]

/-- **The addresses are the ones of requests placed one behind the other.** -/
theorem bases_recorded (ops : List Op) : ∀ (s : Runtime), Layout s →
    (recordedBases s ops).map UInt64.toNat =
      addresses (s.base.toNat + s.used.toNat) (recordedSizes s ops) := by
  induction ops with
  | nil => intro s _; rfl
  | cons op ops ih =>
    intro s h
    have hrest := ih _ (layout_step s op h)
    rw [(step_change h op).arena.1] at hrest
    rw [recordedBases, recordedSizes, recorded_cons]
    rcases newRecord_cases h op with ⟨hnone, hused⟩ | ⟨a, hnew, hbase, hused⟩
    · rw [hused] at hrest
      rw [hnone]
      exact hrest
    · rw [hused, ← Nat.add_assoc] at hrest
      rw [hnew, Option.toList_some, List.singleton_append, List.map_cons, List.map_cons,
        List.map_cons, addresses, hbase]
      exact congrArg _ hrest

/-- **Sizes alone decide admission and addresses.** -/
theorem accounting_exact (arenaBase arenaSize : UInt64)
    (hvalid : (new arenaBase arenaSize).arenaValid = true) (ops : List Op) :
    let s := (new arenaBase arenaSize).after ops
    let sizes := recordedSizes (new arenaBase arenaSize) ops
    (∀ op size, Requests s op size →
      ((newRecord s op).isSome = true ↔
        1 ≤ size.toNat ∧ padded sizes + roundUp8 size.toNat ≤ arenaSize.toNat) ∧
      ∀ a, newRecord s op = some a → a.size = size ∧
        a.base.toNat = arenaBase.toNat + padded sizes ∧ (step s op).2 = .word a.base) ∧
    (recordedBases (new arenaBase arenaSize) ops).map UInt64.toNat =
      addresses arenaBase.toNat sizes ∧
    ∀ (otherSize : UInt64) (others : List Op),
      recordedSizes (new arenaBase otherSize) others = sizes →
      recordedBases (new arenaBase otherSize) others =
        recordedBases (new arenaBase arenaSize) ops := by
  intro s sizes
  have hnew := layout_new arenaBase arenaSize
  have h : Layout s := layout_after hnew ops
  obtain ⟨hbase, hcap, hav⟩ := arena_after hnew ops
  have hused : s.used.toNat = padded sizes := by
    rw [used_after ops _ hnew]
    exact Nat.zero_add _
  have hbases := bases_recorded ops _ hnew
  refine ⟨fun op size hr => ?_, hbases, fun otherSize others hsame => ?_⟩
  · have hserved := served_of_requests h hr
    have hfits : s.Fits size ↔
        1 ≤ size.toNat ∧ padded sizes + roundUp8 size.toNat ≤ arenaSize.toNat := by
      have hz : size ≠ 0 ↔ 1 ≤ size.toNat := by
        rw [Nat.one_le_iff_ne_zero, ne_eq, ne_eq, ← UInt64.toNat_inj]
        rfl
      rw [Fits, hz, hused, show s.capacity = arenaSize from hcap]
      exact and_iff_right (hav.trans hvalid)
    by_cases hf : s.Fits size
    · obtain ⟨a, hrec, hsize, hat, hret, _⟩ := hserved.fits hf
      refine ⟨iff_of_true (by rw [hrec]; rfl) (hfits.mp hf), fun b hb => ?_⟩
      have hab : a = b := Option.some.inj (hrec.symm.trans hb)
      subst hab
      refine ⟨hsize, ?_, by rw [hret, hat]⟩
      rw [hat, h.toNat_cursor hf.1, hused, show s.base = arenaBase from hbase]
    · have hrec := (hserved.refused hf).1
      refine ⟨iff_of_false (by rw [hrec]; exact nofun) (fun hc => hf (hfits.mpr hc)), ?_⟩
      intro b hb
      rw [hrec] at hb
      cases hb
  · apply List.map_injective_iff.mpr (fun _ _ => UInt64.toNat_inj.mp)
    rw [hbases, bases_recorded others _ (layout_new arenaBase otherSize), hsame]
    rfl

/-- A run that fills 16 of 24 bytes, releases and rejects; 8 bytes more fit, 9 do not. -/
theorem accounting_exact_fit :
    let ops : List Op := [.registerType 1 7, .allocate 3 1, .allocate 20 1, .release 4096,
      .allocate 5 1, .allocate 0 1]
    let s := (new 4096 24).after ops
    (newRecord s (.allocate 8 1)).isSome = true ∧ (newRecord s (.allocate 9 1)).isSome = false := by
  intro ops s
  have hsizes : recordedSizes (new 4096 24) ops = [3, 5] := rfl
  have hfact := (accounting_exact 4096 24 rfl ops).1
  rw [hsizes] at hfact
  have hreq : ∀ size, Requests s (.allocate size 1) size :=
    fun size => Requests.allocate (t := 1) (show _ = some 7 from rfl)
  refine ⟨(hfact _ _ (hreq 8)).1.mpr (by decide), ?_⟩
  rw [Bool.eq_false_iff, ne_eq, (hfact _ _ (hreq 9)).1]
  decide

end InterSpec.Runtime
