import InterSpec.Runtime.Check

/-!
# The heap along runs

`Grows s t` relates a state to the states after it: the arena is the same, the
cursor has not moved back, and a record live in `t` was live in `s` already or
lies at or above the cursor of `s`.  It is a preorder kept by every call
(`grows_after`), and with the layout it gives the results about whole runs.

* `layout_exact`: the layout of every reachable heap, and the branches that
  never run.
* `temporal_safety`: once a record stops being live, its bytes stay untracked
  for ever, and later records have larger bases.
* `live_stable`: a record that is not released or moved answers every query as
  before, whatever the other clients do.
-/

namespace InterSpec.Runtime

/-- `t` may come after `s`. -/
structure Grows (s t : Runtime) : Prop where
  base_eq : t.base = s.base
  used_le : s.used.toNat ≤ t.used.toNat
  old_or_above : ∀ p a, t.allocations.find p = some a →
    s.allocations.find p = some a ∨ s.base.toNat + s.used.toNat ≤ p.toNat

theorem Grows.refl (s : Runtime) : Grows s s :=
  ⟨rfl, le_rfl, fun _ _ h => .inl h⟩

theorem Grows.trans (s t r : Runtime) (h1 : Grows s t) (h2 : Grows t r) : Grows s r := by
  refine ⟨h2.base_eq.trans h1.base_eq, h1.used_le.trans h2.used_le, fun p a hp => ?_⟩
  rcases h2.old_or_above p a hp with hp' | hge
  · exact h1.old_or_above p a hp'
  · refine .inr (le_trans ?_ hge)
    rw [h1.base_eq]
    exact Nat.add_le_add_left h1.used_le _

theorem grows_record {s : Runtime} (h : Layout s) {size : UInt64} (hf : s.Fits size)
    (typeHash : UInt64) (siteId : SiteId) : Grows s (s.record size typeHash siteId) := by
  refine ⟨rfl, ?_, fun p a hp => ?_⟩
  · show s.used.toNat ≤ (s.used + UInt64.ofNat (roundUp8 size.toNat)).toNat
    rw [hf.toNat_used]
    omega
  · rw [find_record h] at hp
    split at hp
    · rename_i hpc
      rw [hpc, h.toNat_cursor hf.1]
      exact .inr le_rfl
    · exact .inl hp

theorem grows_remove (s : Runtime) (q : UInt64) : Grows s (s.remove q) := by
  refine ⟨rfl, le_rfl, fun p a hp => ?_⟩
  rw [find_remove] at hp
  split at hp
  · cases hp
  · exact .inl hp

theorem Change.grows {s t : Runtime} (hc : Change s t) (h : Layout s) : Grows s t := by
  cases hc with
  | same => exact .refl s
  | bindType => exact ⟨rfl, le_rfl, fun _ _ hp => .inl hp⟩
  | bindSite => exact ⟨rfl, le_rfl, fun _ _ hp => .inl hp⟩
  | bindRange => exact ⟨rfl, le_rfl, fun _ _ hp => .inl hp⟩
  | record _ hf => exact grows_record h hf _ _
  | remove => exact grows_remove s _
  | move _ hf => exact (grows_record h hf _ _).trans _ _ _ (grows_remove _ _)

theorem grows_step {s : Runtime} (h : Layout s) (op : Op) : Grows s (step s op).1 :=
  (step_change h op).grows h

theorem grows_after {s : Runtime} (h : Layout s) (ops : List Op) : Grows s (s.after ops) :=
  Machine.after_relation Grows.refl Grows.trans layout_step (fun _ op hs => grows_step hs op) ops s
    h

/-! ### The layout of reachable heaps -/

/-- **The layout of every reachable heap.**  The cursor is a multiple of 8 within
the capacity; every record is stored under its base, is not empty, starts at a
multiple of 8 behind the arena base and ends, padding included, before the
cursor, in an arena that does not wrap; distinct records are disjoint; an arena
that would wrap holds no record; and the branches `used > capacity`,
`used > max - base` and `not inserted` are never taken. -/
theorem layout_exact (arenaBase arenaSize : UInt64) (ops : List Op) :
    let s := (new arenaBase arenaSize).after ops
    s.base = arenaBase ∧ s.capacity = arenaSize ∧
    8 ∣ s.used.toNat ∧ s.used.toNat ≤ s.capacity.toNat ∧
    (∀ p a, s.allocations.find p = some a →
      a.base = p ∧ 1 ≤ a.size.toNat ∧ 8 ∣ a.base.toNat - arenaBase.toNat ∧
      arenaBase.toNat ≤ a.base.toNat ∧
      a.base.toNat + roundUp8 a.size.toNat ≤ arenaBase.toNat + s.used.toNat ∧
      arenaBase.toNat + s.used.toNat ≤ arenaBase.toNat + arenaSize.toNat ∧
      arenaBase.toNat + arenaSize.toNat ≤ 2 ^ 64 - 1) ∧
    (∀ p a q b, s.allocations.find p = some a → s.allocations.find q = some b → p ≠ q →
      Disjoint (Set.Ico a.base.toNat (a.base.toNat + a.size.toNat))
        (Set.Ico b.base.toNat (b.base.toNat + b.size.toNat))) ∧
    (2 ^ 64 - 1 < arenaBase.toNat + arenaSize.toNat → s.live = []) ∧
    ¬ s.capacity < s.used ∧ ¬ Word.max64 - s.base < s.used ∧
    (∀ a, (s.allocations.emplace (s.base + s.used) a).2 = true) := by
  intro s
  have h0 := layout_new arenaBase arenaSize
  have h : Layout s := layout_after h0 ops
  obtain ⟨hb, hc, hv⟩ := arena_after h0 ops
  have hb : s.base = arenaBase := hb
  have hc : s.capacity = arenaSize := hc
  have hused := h.used_le
  have hwrap : 2 ^ 64 - 1 < arenaBase.toNat + arenaSize.toNat →
      ∀ p, s.allocations.find p = none := by
    intro hw p
    cases hp : s.allocations.find p with
    | none => rfl
    | some a =>
      have := h.valid_iff.mp (h.inArena p a hp).valid
      rw [hb, hc] at this
      omega
  refine ⟨hb, hc, h.used_aligned, hused, fun p a hp => ?_, fun p a q b hp hq hne => ?_,
    fun hw => ?_, ?_, ?_, fun a => (SortedMap.emplace_inserted a).mpr h.cursor_fresh⟩
  · have hin := h.inArena p a hp
    have hbase := hin.base_le
    have hoff := hin.offset_aligned
    have hend := hin.end_le
    have hvalid := h.valid_iff.mp hin.valid
    rw [← hin.base_eq, hb] at hbase hoff
    rw [paddedEnd, hb] at hend
    rw [hb, hc] at hvalid
    rw [hc] at hused
    exact ⟨hin.base_eq, hin.size_pos, hoff, hbase, hend, by omega, hvalid⟩
  · have hdis := h.separated_bytes.disjoint hp hq hne
    rwa [byteEnd, byteEnd, ← (h.inArena p a hp).base_eq, ← (h.inArena q b hq).base_eq] at hdis
  · refine List.eq_nil_iff_forall_not_mem.mpr (fun a ha => ?_)
    have := (mem_live h).mp ha
    rw [hwrap hw] at this
    cases this
  · rw [UInt64.lt_iff_toNat_lt]
    omega
  · have hlt := s.base.toNat_lt
    rw [UInt64.lt_iff_toNat_lt, Word.toNat_sub_of_le (by rw [Word.toNat_max64]; omega),
      Word.toNat_max64]
    by_cases hval : s.arenaValid = true
    · have := h.valid_iff.mp hval
      omega
    · -- nothing was ever recorded in an arena that wraps
      have h0 : s.used.toNat = 0 := by
        rw [h.invalid_unused (by simpa using hval)]
        rfl
      omega

/-! ### The end of a record -/

/-- The calls that end the record at `p`: a release that succeeds, a
reallocation to size 0, a reallocation that returns a new address. -/
inductive Ends (s : Runtime) (p : UInt64) : Op → Prop
  | release (hret : (s.release p).2 = true) : Ends s p (.release p)
  | free : Ends s p (.reallocate p 0)
  | move {n : UInt64} (hret : (s.reallocate p n).2 ≠ 0) : Ends s p (.reallocate p n)

theorem find_step_of_ends {s : Runtime} (h : Layout s) {p : UInt64} {a : Allocation}
    (hp : s.allocations.find p = some a) {op : Op} (he : Ends s p op) :
    (step s op).1.allocations.find p = none := by
  cases he with
  | release =>
    show (s.release p).1.allocations.find p = none
    rw [release_of_find hp, find_remove, if_pos rfl]
  | free =>
    show (s.reallocate p 0).1.allocations.find p = none
    rw [reallocate_zero hp, find_remove, if_pos rfl]
  | @move n hret =>
    show (s.reallocate p n).1.allocations.find p = none
    by_cases hz : n = 0
    · subst hz
      rw [reallocate_zero hp, find_remove, if_pos rfl]
    · rw [reallocate_of_find h hp hz] at hret ⊢
      split at hret
      · rename_i hf
        rw [if_pos hf, find_remove, if_pos rfl]
      · exact absurd rfl hret

theorem find_record_of_live {s : Runtime} (h : Layout s) {p : UInt64} {a : Allocation}
    (hp : s.allocations.find p = some a) (size typeHash : UInt64) (siteId : SiteId) :
    (s.record size typeHash siteId).allocations.find p = some a := by
  have hne : p ≠ s.cursor := fun he => by
    rw [he, h.cursor_fresh] at hp
    cases hp
  rw [find_record h, if_neg hne, hp]

theorem find_request {s : Runtime} (h : Layout s) {p : UInt64} {a : Allocation}
    (hp : s.allocations.find p = some a) (size typeHash : UInt64) (siteId : SiteId) :
    (if s.Fits size then (s.record size typeHash siteId, s.cursor)
      else (s, (0 : UInt64))).1.allocations.find p = some a := by
  split
  · exact find_record_of_live h hp size typeHash siteId
  · exact hp

/-- **No other call touches a live record.** -/
theorem find_step_of_not_ends {s : Runtime} (h : Layout s) {p : UInt64} {a : Allocation}
    (hp : s.allocations.find p = some a) {op : Op} (hne : ¬ Ends s p op) :
    (step s op).1.allocations.find p = some a := by
  cases op with
  | registerType id typeHash =>
    show (s.registerType id typeHash).1.allocations.find p = some a
    rcases s.registerType_eq id typeHash with he | ⟨_, he⟩ <;> rw [he] <;> exact hp
  | registerAllocationSiteId id typeId =>
    show (s.registerAllocationSiteId id typeId).1.allocations.find p = some a
    rcases s.registerAllocationSiteId_eq id typeId with he | ⟨_, _, _, he⟩ <;> rw [he] <;> exact hp
  | registerAllocationSite id beginPc endPc typeId =>
    show (s.registerAllocationSite id beginPc endPc typeId).1.allocations.find p = some a
    rcases s.registerAllocationSite_eq id beginPc endPc typeId with he | ⟨_, _, _, he⟩ <;>
      rw [he] <;> exact hp
  | allocate size typeId =>
    show (s.allocate size typeId).1.allocations.find p = some a
    cases ht : s.types.find typeId with
    | none => rw [allocate_of_none ht]; exact hp
    | some typeHash => rw [allocate_of_find h ht]; exact find_request h hp _ _ _
  | allocateFromSite size siteId =>
    show (s.allocateFromSite size siteId).1.allocations.find p = some a
    cases hi : s.siteTypes.find siteId with
    | none => rw [allocateFromSite_of_none hi]; exact hp
    | some typeHash => rw [allocateFromSite_of_find h hi]; exact find_request h hp _ _ _
  | allocateFromPc size callerPc =>
    show (s.allocateFromPc size callerPc).1.allocations.find p = some a
    cases hs : s.findSiteUnlocked callerPc with
    | none => rw [allocateFromPc_of_none hs]; exact hp
    | some site => rw [allocateFromPc_of_find h hs]; exact find_request h hp _ _ _
  | release q =>
    show (s.release q).1.allocations.find p = some a
    cases hq : s.allocations.find q with
    | none => rw [release_of_none hq]; exact hp
    | some b =>
      have hpq : p ≠ q := fun he => by
        subst he
        exact hne (.release (by rw [release_of_find hq]))
      rw [release_of_find hq, find_remove, if_neg hpq, hp]
  | reallocate q n =>
    show (s.reallocate q n).1.allocations.find p = some a
    cases hq : s.allocations.find q with
    | none => rw [reallocate_of_none hq]; exact hp
    | some b =>
      by_cases hz : n = 0
      · subst hz
        have hpq : p ≠ q := fun he => by
          subst he
          exact hne .free
        rw [reallocate_zero hq, find_remove, if_neg hpq, hp]
      · rw [reallocate_of_find h hq hz]
        by_cases hf : s.Fits n
        · have hpq : p ≠ q := fun he => by
            subst he
            refine hne (.move ?_)
            rw [reallocate_of_find h hq hz, if_pos hf]
            exact h.cursor_ne_zero hq
          rw [if_pos hf, find_remove, if_neg hpq]
          exact find_record_of_live h hp _ _ _
        · rw [if_neg hf]; exact hp
  | query q => exact hp

/-! ### Temporal safety -/

/-- A pointer no record covers is dead to every call that takes a pointer. -/
theorem dead_of_uncovered {t : Runtime} (h : Layout t) {q : UInt64}
    (hno : ∀ b ∈ t.live, ¬ b.Covers q) :
    (∀ n typeHash, t.check q n typeHash = .untracked) ∧ (t.release q).2 = false ∧
      (∀ out, (t.allocationSize q out).1 = false) ∧ ∀ out, (t.allocationSite q out).1 = false := by
  have hnone : t.allocations.find q = none := by
    cases hq : t.allocations.find q with
    | none => rfl
    | some b =>
      have hin := h.inArena q b hq
      have hb : b ∈ t.live := (mem_live h).mpr (by rw [hin.base_eq]; exact hq)
      refine absurd ⟨?_, ?_⟩ (hno b hb)
      · rw [hin.base_eq]
      · rw [hin.base_eq]
        have := hin.size_pos
        omega
  refine ⟨fun n typeHash => check_of_uncovered h hno n typeHash, ?_, fun out => ?_, fun out => ?_⟩
  · rw [release_of_none hnone]
  · rw [allocationSize, hnone]
  · rw [allocationSite, hnone]

/-- **The bytes of a record that has ended are never covered again.** -/
theorem uncovered_after_end {s : Runtime} (h : Layout s) {p : UInt64} {a : Allocation}
    (hp : s.allocations.find p = some a) {op : Op} (he : Ends s p op) (later : List Op)
    {q : UInt64} (hq : a.Covers q) : ∀ b ∈ ((step s op).1.after later).live, ¬ b.Covers q := by
  intro b hb hbq
  have h1 := layout_step s op h
  have h2 := layout_after h1 later
  have hin := h.inArena p a hp
  have hpad := le_roundUp8 a.size.toNat
  have hend := hin.end_le
  rw [paddedEnd] at hend
  have hstart := hbq.1
  have hqend := hq.2
  have hfind := (mem_live h2).mp hb
  have hfirst := (grows_step h op).used_le
  have hbase := (grows_step h op).base_eq
  -- `b` is live after the end: it was live before, or lies above the old cursor
  rcases (grows_after h1 later).old_or_above _ b hfind with hmid | habove
  · rcases (grows_step h op).old_or_above _ b hmid with hold | habove
    · -- then it is the ended record itself
      have hbs := (mem_live h).mpr hold
      have has : a ∈ s.live := (mem_live h).mpr (by rw [hin.base_eq]; exact hp)
      have hab := h.covers_unique has hbs hq hbq
      rw [← hab, hin.base_eq, find_step_of_ends h hp he] at hmid
      cases hmid
    · omega
  · rw [hbase] at habove
    omega

/-- The call records `a`. -/
def Records (s : Runtime) (op : Op) (a : Allocation) : Prop :=
  s.allocations.find a.base = none ∧ (step s op).1.allocations.find a.base = some a

theorem Records.bounds {s : Runtime} (h : Layout s) {op : Op} {a : Allocation}
    (hr : Records s op a) : s.base.toNat + s.used.toNat ≤ a.base.toNat ∧
      paddedEnd a ≤ (step s op).1.base.toNat + (step s op).1.used.toNat ∧ 1 ≤ a.size.toNat := by
  have hin := (layout_step s op h).inArena _ a hr.2
  refine ⟨?_, hin.end_le, hin.size_pos⟩
  rcases (grows_step h op).old_or_above _ a hr.2 with hold | habove
  · rw [hr.1] at hold
    cases hold
  · exact habove

/-- **Temporal safety.**  Once a record has ended, the bytes it occupied are
untracked in every later state of every run, and no call that takes a pointer
succeeds on them.  A record made later has a base greater than every base
recorded before, and no byte in common with that record. -/
theorem temporal_safety (arenaBase arenaSize : UInt64) (ops : List Op) :
    let s := (new arenaBase arenaSize).after ops
    (∀ p a op later q, s.allocations.find p = some a → Ends s p op → a.Covers q →
      let t := (step s op).1.after later
      (∀ n typeHash, t.check q n typeHash = .untracked) ∧ (t.release q).2 = false ∧
        (∀ out, (t.allocationSize q out).1 = false) ∧
        ∀ out, (t.allocationSite q out).1 = false) ∧
    (∀ op a later op' b, Records s op a → Records ((step s op).1.after later) op' b →
      a.base.toNat < b.base.toNat ∧ ∀ q, a.Covers q → ¬ b.Covers q) := by
  intro s
  have h : Layout s := layout_reachable arenaBase arenaSize ops
  refine ⟨fun p a op later q hp he hq => ?_, fun op a later op' b hr hr' => ?_⟩
  · exact dead_of_uncovered (layout_after (layout_step s op h) later)
      (uncovered_after_end h hp he later hq)
  · have h1 := layout_step s op h
    have hgrows := grows_after h1 later
    obtain ⟨_, hend, hpos⟩ := hr.bounds h
    obtain ⟨hstart, _, _⟩ := hr'.bounds (layout_after h1 later)
    have hused := hgrows.used_le
    have hpad := le_roundUp8 a.size.toNat
    rw [hgrows.base_eq] at hstart
    rw [paddedEnd] at hend
    refine ⟨by omega, fun q hq hq' => ?_⟩
    have := hq.2
    have := hq'.1
    omega

/-- A pointer kept over a move is dead, also after another allocation. -/
theorem temporal_safety_move :
    let s := (new 0x1000 0x100).after [.registerType 1 7, .allocate 12 1]
    s.allocations.find 0x1000 = some ⟨0x1000, 12, 7, 0⟩ ∧
      ((step s (.reallocate 0x1000 24)).1.after [.allocate 8 1]).check 0x100b 1 7 = .untracked := by
  have h := temporal_safety 0x1000 0x100 [.registerType 1 7, .allocate 12 1]
  exact ⟨by decide, (h.1 0x1000 ⟨0x1000, 12, 7, 0⟩ (.reallocate 0x1000 24) [.allocate 8 1] 0x100b
    (by decide) (.move (by decide)) (by decide)).1 1 7⟩

/-! ### Stability of a live record -/

/-- The run releases `p` nowhere, and reallocates it only to a non-zero size and
in vain. -/
def Spares (p : UInt64) : Runtime → List Op → Prop
  | _, [] => True
  | s, op :: ops =>
    (op ≠ .release p ∧ ∀ n, op = .reallocate p n → n ≠ 0 ∧ (s.reallocate p n).2 = 0) ∧
      Spares p (step s op).1 ops

theorem find_after_of_spares {p : UInt64} {a : Allocation} : ∀ (ops : List Op) (s : Runtime),
    Layout s → s.allocations.find p = some a → Spares p s ops →
    (s.after ops).allocations.find p = some a := by
  intro ops
  induction ops with
  | nil => intro s _ hp _; exact hp
  | cons op ops ih =>
    intro s h hp hs
    obtain ⟨⟨hrel, hre⟩, hrest⟩ := hs
    refine ih _ (layout_step s op h) (find_step_of_not_ends h hp (fun he => ?_)) hrest
    cases he with
    | release => exact hrel rfl
    | free => exact (hre 0 rfl).1 rfl
    | move hret => exact hret (hre _ rfl).2

/-- Every query about the bytes of a record is answered from the record alone. -/
theorem queries_of_find {s t : Runtime} (hs : Layout s) (ht : Layout t) {p : UInt64}
    {a : Allocation} (hp : s.allocations.find p = some a) (hp' : t.allocations.find p = some a)
    {q : UInt64} (hq : a.Covers q) : t.findAllocationUnlocked q = s.findAllocationUnlocked q := by
  have hbase := (hs.inArena p a hp).base_eq
  have has : a ∈ s.live := (mem_live hs).mpr (by rw [hbase]; exact hp)
  have hat : a ∈ t.live := (mem_live ht).mpr (by rw [hbase]; exact hp')
  rw [(findAllocationUnlocked_eq_some hs).mpr ⟨has, hq⟩,
    (findAllocationUnlocked_eq_some ht).mpr ⟨hat, hq⟩]

/-- Only the base of a record is a key: calls on the pointers inside it fail. -/
theorem interior_not_found {s : Runtime} (h : Layout s) {p q : UInt64} {a : Allocation}
    (hp : s.allocations.find p = some a) (hq : a.Covers q) (hne : q ≠ p) :
    s.allocations.find q = none := by
  cases hfind : s.allocations.find q with
  | none => rfl
  | some b =>
    have hin := h.inArena q b hfind
    have hcov : b.Covers q := by
      refine ⟨by rw [hin.base_eq], ?_⟩
      rw [hin.base_eq]
      have := hin.size_pos
      omega
    have hkey := h.separated_bytes.key_unique hfind hp ((h.contains_iff hfind).mpr hcov)
      ((h.contains_iff hp).mpr hq)
    exact absurd hkey hne

/-- **A live record is stable.**  Take any reachable state and any record live at
`p`, and let any clients issue any calls in any order, none of which releases `p`
or reallocates it to size 0 or with success.  The record is unchanged and every
query about it answers as before; calls on the pointers inside it fail and
change nothing. -/
theorem live_stable {ι : Type} (arenaBase arenaSize : UInt64) (ops : List Op) (p : UInt64)
    (a : Allocation) (schedule : List (ι × Op))
    (hlive : ((new arenaBase arenaSize).after ops).allocations.find p = some a)
    (hspares : Spares p ((new arenaBase arenaSize).after ops) (schedule.map Prod.snd)) :
    let s := (new arenaBase arenaSize).after ops
    let t := s.after (schedule.map Prod.snd)
    t.allocations.find p = some a ∧
    (∀ q, a.Covers q → (∀ n typeHash, t.check q n typeHash = s.check q n typeHash) ∧
      ∀ typeHash out, t.remainingBytes q typeHash out = s.remainingBytes q typeHash out) ∧
    (∀ out, t.allocationSize p out = s.allocationSize p out) ∧
    (∀ out, t.allocationSite p out = s.allocationSite p out) ∧
    (∀ q, a.Covers q → q ≠ p → t.release q = (t, false) ∧ ∀ n, t.reallocate q n = (t, 0)) := by
  intro s t
  have hs : Layout s := layout_reachable arenaBase arenaSize ops
  have ht : Layout t := layout_after hs _
  have hkept : t.allocations.find p = some a := find_after_of_spares _ s hs hlive hspares
  refine ⟨hkept, fun q hq => ⟨fun n typeHash => ?_, fun typeHash out => ?_⟩, fun out => ?_,
    fun out => ?_, fun q hq hne => ⟨?_, fun n => ?_⟩⟩
  · rw [check, check, queries_of_find hs ht hlive hkept hq]
  · rw [remainingBytes, remainingBytes, queries_of_find hs ht hlive hkept hq]
  · rw [allocationSize, allocationSize, hkept, hlive]
  · rw [allocationSite, allocationSite, hkept, hlive]
  · exact release_of_none (interior_not_found ht hkept hq hne)
  · exact reallocate_of_none (interior_not_found ht hkept hq hne)

/-- Three clients allocate, release an interior pointer and reallocate in vain. -/
theorem live_stable_clients :
    ((new 0x1000 0x100).after [.registerType 1 7, .allocate 12 1]).allocations.find 0x1000 =
      some ⟨0x1000, 12, 7, 0⟩ ∧
    let s := (new 0x1000 0x100).after [.registerType 1 7, .allocate 12 1]
    (s.after [.allocate 8 1, .release 0x1004, .reallocate 0x1000 0x1000, .release 0x1010]).check
      0x100b 2 7 = s.check 0x100b 2 7 := by
  refine ⟨by decide, ?_⟩
  have h := live_stable 0x1000 0x100 [.registerType 1 7, .allocate 12 1] 0x1000
    ⟨0x1000, 12, 7, 0⟩ [((0 : Nat), .allocate 8 1), (1, .release 0x1004),
      (2, .reallocate 0x1000 0x1000), (0, .release 0x1010)] (by decide)
    ⟨⟨by decide, fun n hn => nomatch hn⟩, ⟨by decide, fun n hn => nomatch hn⟩,
      ⟨by decide, fun n hn => by cases hn; decide⟩, ⟨by decide, fun n hn => nomatch hn⟩, trivial⟩
  exact (h.2.1 0x100b (by decide)).1 2 7

end InterSpec.Runtime
