import InterSpec.Bridge.Options

/-!
# The option table is simulated

What the parser writes through the options of the sandbox arrives at the destinations of the
host.  Each of the four loops has an invariant: `AssignedFor` for the slots, `Mirrors` for
the values in them, `Wired` for the pointers, and `Mirrors` again on the way back.

* `assignSlots_spec`: every destination has one slot, with its own index and kind.
* `initializeSlots_spec`: the slots mirror the destinations.
* `wireOptions_spec`: an option points to the slot of its destination.
* `Mirrors.write`: a write through an option is a write to its destination.
* `option_table_simulated`: after `syncSlots` the destinations hold what direct writes leave.
-/

namespace InterSpec.Bridge

open InterSpec.Runtime Fallible

/-! ### Slots -/

/-- What the first loop has made of the options it has been through. -/
structure AssignedFor (env : Surroundings) (done : List PoptOption) (assigned : Assigned) :
    Prop where
  nodup : (assigned.slotByAddress.map Prod.fst).Nodup
  numbered : assigned.slotByAddress.map Prod.snd =
    (List.range assigned.kinds.length).map UInt32.ofNat
  size : assigned.kinds.length ≤ (done.filter (fun o => o.arg ≠ 0)).length
  sound : ∀ d ∈ assigned.slotByAddress, d.1 ≠ 0 ∧ ∃ o ∈ done, o.arg = d.1
  complete : ∀ o ∈ done, o.arg ≠ 0 → ∃ index kind, (o.arg, index) ∈ assigned.slotByAddress ∧
    optionSlotKind env.header o = .ok kind ∧ assigned.kinds[index.toNat]? = some kind

theorem assignedFor_nil (env : Surroundings) : AssignedFor env [] ⟨[], []⟩ where
  nodup := List.nodup_nil
  numbered := rfl
  size := Nat.le_refl 0
  sound := nofun
  complete := nofun

theorem AssignedFor.length {env : Surroundings} {done : List PoptOption} {assigned : Assigned}
    (h : AssignedFor env done assigned) :
    assigned.slotByAddress.length = assigned.kinds.length := by
  have hlen := congrArg List.length h.numbered
  simpa using hlen

theorem AssignedFor.index_lt {env : Surroundings} {done : List PoptOption} {assigned : Assigned}
    (h : AssignedFor env done assigned) {d : UInt64 × UInt32} (hd : d ∈ assigned.slotByAddress) :
    d.2.toNat < assigned.kinds.length := by
  have hmem : d.2 ∈ (List.range assigned.kinds.length).map UInt32.ofNat := by
    rw [← h.numbered]
    exact List.mem_map_of_mem hd
  obtain ⟨k, hk, hd2⟩ := List.mem_map.mp hmem
  have hlt := List.mem_range.mp hk
  rw [← hd2, UInt32.toNat_ofNat']
  exact Nat.lt_of_le_of_lt (Nat.mod_le _ _) hlt

theorem AssignedFor.step {env : Surroundings} {done : List PoptOption} {o : PoptOption}
    {assigned assigned' : Assigned} (h : AssignedFor env done assigned)
    (hbound : done.length < 2 ^ 32) (hok : assignSlot env assigned o = .ok assigned') :
    AssignedFor env (done ++ [o]) assigned' := by
  have hfilter := List.filter_append (p := fun o => decide (o.arg ≠ 0)) done [o]
  have hmore : ∀ d, (∃ x ∈ done, x.arg = d) → ∃ x ∈ done ++ [o], x.arg = d := by
    rintro d ⟨x, hx, hd⟩
    exact ⟨x, List.mem_append_left _ hx, hd⟩
  unfold assignSlot at hok
  by_cases h0 : o.arg = 0
  · rw [if_pos h0] at hok
    cases hok
    refine ⟨h.nodup, h.numbered, ?_, fun d hd => ⟨(h.sound d hd).1, hmore _ (h.sound d hd).2⟩, ?_⟩
    · rw [hfilter, List.length_append]
      exact Nat.le_add_right_of_le h.size
    · intro x hx hx0
      rcases List.mem_append.mp hx with hx | hx
      · exact h.complete x hx hx0
      · rw [List.mem_singleton.mp hx] at hx0
        exact absurd h0 hx0
  rw [if_neg h0] at hok
  obtain ⟨kind, hkind, hok⟩ := bind_eq_ok.mp hok
  have hone : [o].filter (fun o => decide (o.arg ≠ 0)) = [o] :=
    List.filter_eq_self.mpr (fun x hx => by
      rw [List.mem_singleton.mp hx]
      exact decide_eq_true h0)
  cases hl : Dict.lookup o.arg assigned.slotByAddress with
  | some index =>
    rw [hl] at hok
    dsimp only at hok
    by_cases hne : assigned.kinds[index.toNat]? ≠ some kind
    · rw [if_pos hne] at hok
      cases hok
    · rw [if_neg hne] at hok
      cases hok
      have hmem := (Dict.lookup_eq_some h.nodup).mp hl
      refine ⟨h.nodup, h.numbered, ?_, fun d hd => ⟨(h.sound d hd).1, hmore _ (h.sound d hd).2⟩,
        ?_⟩
      · rw [hfilter, List.length_append]
        exact Nat.le_add_right_of_le h.size
      · intro x hx hx0
        rcases List.mem_append.mp hx with hx | hx
        · exact h.complete x hx hx0
        · rw [List.mem_singleton.mp hx]
          exact ⟨index, kind, hmem, hkind, Classical.not_not.mp hne⟩
  | none =>
    rw [hl] at hok
    cases hok
    have hnew := Dict.lookup_eq_none.mp hl
    have hsize : assigned.kinds.length < 2 ^ 32 :=
      Nat.lt_of_le_of_lt (h.size.trans (List.length_filter_le _ _)) hbound
    refine ⟨?_, ?_, ?_, ?_, ?_⟩
    · rw [List.map_append]
      refine List.nodup_append.mpr ⟨h.nodup, List.nodup_singleton _, fun a ha b hb hab => ?_⟩
      have hb : b = o.arg := List.mem_singleton.mp hb
      exact hnew (hb ▸ hab ▸ ha)
    · rw [List.map_append, h.numbered, List.length_append, List.length_singleton,
        List.range_succ, List.map_append]
      rfl
    · rw [hfilter, hone, List.length_append, List.length_append]
      exact Nat.add_le_add_right h.size 1
    · intro d hd
      rcases List.mem_append.mp hd with hd | hd
      · exact ⟨(h.sound d hd).1, hmore _ (h.sound d hd).2⟩
      · rw [List.mem_singleton.mp hd]
        exact ⟨h0, o, List.mem_append_right _ List.mem_cons_self, rfl⟩
    · intro x hx hx0
      rcases List.mem_append.mp hx with hx | hx
      · obtain ⟨index, k, hmem, hk, hget⟩ := h.complete x hx hx0
        refine ⟨index, k, List.mem_append_left _ hmem, hk, ?_⟩
        rw [List.getElem?_append_left (h.index_lt hmem)]
        exact hget
      · rw [List.mem_singleton.mp hx]
        refine ⟨_, kind, List.mem_append_right _ List.mem_cons_self, hkind, ?_⟩
        rw [UInt32.toNat_ofNat_of_lt' hsize]
        exact List.getElem?_concat_length

theorem assignSlots_spec {env : Surroundings} {options : List PoptOption} {assigned : Assigned}
    (hbound : options.length ≤ 2 ^ 32) (hok : assignSlots env options = .ok assigned) :
    AssignedFor env options assigned := by
  refine fold_rule (P := AssignedFor env) (fun done o rest a a' hwhole h hstep => ?_)
    (List.nil_append options).symm (assignedFor_nil env) hok
  refine h.step ?_ hstep
  rw [hwhole, List.length_append, List.length_cons] at hbound
  omega

/-- A table ends at a terminator, and is not longer than 32 bits can count. -/
theorem optionCountFrom_eq_ok {options : Nat → PoptOption} {passes : Nat} : ∀ {count n : Nat},
    optionCountFrom options count passes = .ok n →
      count < n ∧ n ≤ count + passes ∧ (options (n - 1)).Terminator := by
  induction passes with
  | zero => intro count n h; cases h
  | succ passes ih =>
    intro count n h
    rw [optionCountFrom] at h
    by_cases ht : (options count).Terminator
    · rw [if_pos ht] at h
      cases h
      exact ⟨by omega, by omega, ht⟩
    · rw [if_neg ht] at h
      obtain ⟨h1, h2, h3⟩ := ih h
      exact ⟨by omega, by omega, h3⟩

/-! ### Strings of the loops -/

/-- What the code outside does: it traverses the whole map once, its allocator and the sites
are those of the copies, and a context is made without touching the strings copied in. -/
structure Surroundings.Faithful (env : Surroundings) (s : Runtime) : Prop where
  enumerate : ∀ entries, (env.enumerate entries).Perm entries
  sandboxCall : ∀ e src, (Event.copyIn (env.sandboxCall e src) (some src.val)).Allowed s
  getContext : ∀ e name box table flags p src, Marshalled e p src →
    Marshalled (env.getContext e name box table flags).1 p src

/-- The word of the sandbox is null, or points to the string as `H` says. -/
def HoldsText (H : UInt32 → CString → Prop) (p : UInt32) : Option CString → Prop
  | none => p = 0
  | some src => p ≠ 0 ∧ H p src

theorem HoldsText.mono {H H' : UInt32 → CString → Prop} (hH : ∀ p src, H p src → H' p src)
    {p : UInt32} {src : Option CString} (h : HoldsText H p src) : HoldsText H' p src := by
  cases src with
  | none => exact h
  | some src => exact ⟨h.1, hH p src h.2⟩

theorem copyString_ok {env : Surroundings} {s : Runtime} (henv : env.Faithful s) {e e' : Engine}
    (h : EngineOver s e) {src : Option CString} {p : UInt32}
    (hok : copyString env e src = .ok (e', p)) :
    EngineOver s e' ∧ EngineKept e e' ∧ HoldsText (fun p src => Marshalled e' p src) p src := by
  cases src with
  | none =>
    cases hok
    exact ⟨h, .refl e, rfl⟩
  | some src =>
    have hallowed := henv.sandboxCall e src
    have hkept := (serve_kept e _ h hallowed).1
    have hover := EngineOver.serve e _ h hallowed
    unfold copyString at hok
    cases hcopy : (copyToU (env.sandboxCall e src) e (some src.val)).2 with
    | error err =>
      dsimp only at hok
      rw [hcopy] at hok
      cases hok
    | ok ptr =>
      dsimp only at hok
      rw [hcopy] at hok
      cases hok
      obtain ⟨q, rfl, hm⟩ := h.marshalled hallowed hcopy
      obtain ⟨a, hfind, _⟩ := hm.recorded
      exact ⟨hover, hkept, hover.inSandbox.ptr_ne_zero hfind, hm⟩

/-! ### Values of the slots -/

/-- The slot of the binding has the value of its destination. -/
def Mirrors (H : UInt32 → CString → Prop) (slots : List Slot) (trusted : Trusted)
    (b : SlotBinding) : Prop :=
  match b.kind with
  | .integer =>
    slots[b.index.toNat]? = some ⟨slotInt, (trusted.ints b.trustedAddress).toUInt32⟩
  | .string => ∃ p, slots[b.index.toNat]? = some ⟨slotString, p⟩ ∧
    HoldsText H p (trusted.strings b.trustedAddress)

theorem Mirrors.of_kept {H H' : UInt32 → CString → Prop} {slots : List Slot} {trusted : Trusted}
    {b : SlotBinding} (h : Mirrors H slots trusted b)
    (hH : b.kind = .string → ∀ src ∈ trusted.strings b.trustedAddress, ∀ p, H p src → H' p src) :
    Mirrors H' slots trusted b := by
  unfold Mirrors at h ⊢
  cases hk : b.kind with
  | integer =>
    rw [hk] at h
    exact h
  | string =>
    rw [hk] at h
    obtain ⟨p, hp, htext⟩ := h
    refine ⟨p, hp, ?_⟩
    cases hsrc : trusted.strings b.trustedAddress with
    | none =>
      rw [hsrc] at htext
      exact htext
    | some src =>
      rw [hsrc] at htext
      exact ⟨htext.1, hH hk src hsrc p htext.2⟩

theorem Mirrors.mono {H H' : UInt32 → CString → Prop} (hH : ∀ p src, H p src → H' p src)
    {slots : List Slot} {trusted : Trusted} {b : SlotBinding} (h : Mirrors H slots trusted b) :
    Mirrors H' slots trusted b :=
  h.of_kept fun _ src _ p => hH p src

theorem Mirrors.congr {H : UInt32 → CString → Prop} {slots slots' : List Slot}
    {trusted trusted' : Trusted} {b : SlotBinding} (h : Mirrors H slots trusted b)
    (hslot : slots'[b.index.toNat]? = slots[b.index.toNat]?)
    (hint : b.kind = .integer → trusted'.ints b.trustedAddress = trusted.ints b.trustedAddress)
    (hstr : b.kind = .string →
      trusted'.strings b.trustedAddress = trusted.strings b.trustedAddress) :
    Mirrors H slots' trusted' b := by
  unfold Mirrors at h ⊢
  cases hk : b.kind with
  | integer =>
    rw [hk] at h
    dsimp only at h ⊢
    rw [hslot, hint hk]
    exact h
  | string =>
    rw [hk] at h
    dsimp only at h ⊢
    rw [hslot, hstr hk]
    exact h

theorem slotSet_eq_some {table table' : Table} {index : UInt32} {slot : Slot}
    (h : slotSet table index slot = some table') :
    index < table.slotCount ∧
      table' = { table with slots := table.slots.set index.toNat slot } := by
  unfold slotSet at h
  by_cases hle : table.slotCount ≤ index
  · rw [if_pos hle] at h
    cases h
  · rw [if_neg hle] at h
    exact ⟨UInt32.not_le.mp hle, (Option.some.inj h).symm⟩

/-- What the second loop keeps, and what it has done so far. -/
structure Initialized (s : Runtime) (trusted : Trusted) (table : Table) (done : List SlotBinding)
    (state : Engine × Table) : Prop where
  engine : EngineOver s state.1
  same : state.2 = { table with slots := state.2.slots }
  length : state.2.slots.length = table.slots.length
  mirrors : ∀ b ∈ done, Mirrors (fun p src => Marshalled state.1 p src) state.2.slots trusted b

/-- **One slot.**  It gets the value of its destination, and the others keep theirs. -/
theorem Initialized.step {env : Surroundings} {s : Runtime} (henv : env.Faithful s)
    {trusted : Trusted} {table : Table} {done : List SlotBinding} {b : SlotBinding}
    {state state' : Engine × Table} (h : Initialized s trusted table done state)
    (hnew : ∀ b' ∈ done, b'.index ≠ b.index) (hlt : b.index.toNat < table.slots.length)
    (hok : initializeSlot env trusted state b = .ok state') :
    Initialized s trusted table (done ++ [b]) state' := by
  -- the new slot, with the engine of its string
  have hset : ∀ {e' : Engine} {slot : Slot} {table' : Table}, EngineOver s e' →
      EngineKept state.1 e' → slotSet state.2 b.index slot = some table' →
      Mirrors (fun p src => Marshalled e' p src) (state.2.slots.set b.index.toNat slot) trusted b →
      Initialized s trusted table (done ++ [b]) (e', table') := by
    intro e' slot table' hover hkept hslot hb
    obtain ⟨_, rfl⟩ := slotSet_eq_some hslot
    refine ⟨hover, ?_, ?_, fun b' hb' => ?_⟩
    · dsimp only
      rw [h.same]
    · exact (List.length_set).trans h.length
    · rcases List.mem_append.mp hb' with hb' | hb'
      · have hne : b.index.toNat ≠ b'.index.toNat := fun he =>
          hnew b' hb' (UInt32.toNat_inj.mp he).symm
        exact ((h.mirrors b' hb').mono (fun p src hm => hm.kept hkept)).congr
          (List.getElem?_set_ne hne) (fun _ => rfl) (fun _ => rfl)
      · rw [List.mem_singleton.mp hb']
        exact hb
  have hget : ∀ slot : Slot, (state.2.slots.set b.index.toNat slot)[b.index.toNat]? = some slot :=
    fun slot => List.getElem?_set_self (by rw [h.length]; exact hlt)
  unfold initializeSlot at hok
  cases hk : b.kind with
  | integer =>
    rw [hk] at hok
    dsimp only at hok
    cases hslot : slotSetInt state.2 b.index (trusted.ints b.trustedAddress) with
    | none =>
      rw [hslot] at hok
      cases hok
    | some table' =>
      rw [hslot] at hok
      cases hok
      refine hset h.engine (.refl _) hslot ?_
      unfold Mirrors
      rw [hk]
      exact hget _
  | string =>
    rw [hk] at hok
    obtain ⟨⟨e', p⟩, hcopy, hok⟩ := bind_eq_ok.mp hok
    obtain ⟨hover, hkept, htext⟩ := copyString_ok henv h.engine hcopy
    dsimp only at hok
    cases hslot : slotSetString state.2 b.index p with
    | none =>
      rw [hslot] at hok
      cases hok
    | some table' =>
      rw [hslot] at hok
      cases hok
      refine hset hover hkept hslot ?_
      unfold Mirrors
      rw [hk]
      exact ⟨p, hget _, htext⟩

theorem initializeSlots_spec {env : Surroundings} {s : Runtime} (henv : env.Faithful s)
    {trusted : Trusted} {e e' : Engine} {table table' : Table} {bindings : List SlotBinding}
    (h : EngineOver s e) (hnodup : (bindings.map SlotBinding.index).Nodup)
    (hlt : ∀ b ∈ bindings, b.index.toNat < table.slots.length)
    (hok : initializeSlots env trusted (e, table) bindings = .ok (e', table')) :
    Initialized s trusted table bindings (e', table') := by
  refine fold_rule (P := Initialized s trusted table)
    (fun done b rest state state' hwhole h hstep => ?_) (List.nil_append bindings).symm
    ⟨h, rfl, rfl, nofun⟩ hok
  rw [hwhole, List.map_append, List.map_cons] at hnodup
  refine h.step henv (fun b' hb' he => ?_) (hlt b ?_) hstep
  · have hdisjoint := List.disjoint_of_nodup_append hnodup
    exact hdisjoint (List.mem_map_of_mem hb') (he ▸ List.mem_cons_self)
  · rw [hwhole]
    exact List.mem_append_right _ List.mem_cons_self

/-! ### Pointers of the options -/

/-- The slot that an option of the sandbox points to. -/
def Table.argOf (table : Table) (i : Nat) : Option UInt32 :=
  (table.options[i]?).bind (fun o => o.arg)

/-- What the third loop keeps, and what it has done so far. -/
structure Wired (s : Runtime) (slotByAddress : List (UInt64 × UInt32))
    (options : Nat → PoptOption) (e : Engine) (table : Table) (done : List Nat)
    (state : Engine × Table) : Prop where
  engine : EngineOver s state.1
  kept : EngineKept e state.1
  same : state.2 = { table with options := state.2.options }
  length : state.2.options.length = table.options.length
  wired : ∀ i ∈ done, state.2.argOf i =
    if (options i).arg = 0 then none else Dict.lookup (options i).arg slotByAddress

theorem optionArg_of_slotOf {table : Table} {slotByAddress : List (UInt64 × UInt32)}
    (hlt : ∀ d ∈ slotByAddress, d.2.toNat < 2 ^ 32 - 1)
    (hnodup : (slotByAddress.map Prod.fst).Nodup) {arg : UInt64} {slot : UInt32}
    {pointer : Option UInt32} (hslot : slotOf slotByAddress arg = .ok slot)
    (hpointer : optionArg table slot = some pointer) :
    pointer = if arg = 0 then none else Dict.lookup arg slotByAddress := by
  unfold slotOf at hslot
  unfold optionArg at hpointer
  by_cases h0 : arg = 0
  · rw [if_pos h0] at hslot ⊢
    cases hslot
    rw [if_pos rfl] at hpointer
    exact (Option.some.inj hpointer).symm
  · rw [if_neg h0] at hslot ⊢
    cases hl : Dict.lookup arg slotByAddress with
    | none =>
      rw [hl] at hslot
      cases hslot
    | some found =>
      rw [hl] at hslot
      cases hslot
      have hbound := hlt _ ((Dict.lookup_eq_some hnodup).mp hl)
      have hne : slot ≠ UInt32.ofNat (2 ^ 32 - 1) := by
        rintro rfl
        exact Nat.lt_irrefl _ hbound
      rw [if_neg hne] at hpointer
      split at hpointer
      · cases hpointer
      · split at hpointer
        · split at hpointer
          · exact (Option.some.inj hpointer).symm
          · cases hpointer
        · cases hpointer

theorem optionSet_eq_some {table table' : Table} {index shortName argInfo slot : UInt32}
    {value : Int32} (h : optionSet table index shortName argInfo slot value = some table') :
    ∃ pointer, optionArg table slot = some pointer ∧
      table' = { table with options := table'.options } ∧
      table'.options.length = table.options.length ∧
      ∀ j, table'.argOf j =
        if j = index.toNat ∧ j < table.options.length then pointer else table.argOf j := by
  unfold optionSet at h
  by_cases hle : table.optionCount ≤ index
  · rw [if_pos hle] at h
    cases h
  rw [if_neg hle] at h
  cases hp : optionArg table slot with
  | none =>
    rw [hp] at h
    cases h
  | some pointer =>
    rw [hp] at h
    cases h
    refine ⟨pointer, rfl, rfl, List.length_modify _ _ _, fun j => ?_⟩
    unfold Table.argOf
    dsimp only
    rw [List.getElem?_modify]
    by_cases hj : j < table.options.length
    · rw [List.getElem?_eq_getElem hj, Option.map_eq_map, Option.map_some, Option.bind_some,
        Option.bind_some]
      by_cases hi : index.toNat = j
      · rw [if_pos hi, if_pos ⟨hi.symm, hj⟩]
      · rw [if_neg hi, if_neg (fun hc => hi hc.1.symm)]
    · rw [if_neg (fun hc => hj hc.2), List.getElem?_eq_none (Nat.le_of_not_lt hj)]
      rfl

theorem optionSetStrings_eq_some {table table' : Table}
    {index longName description argDescription : UInt32}
    (h : optionSetStrings table index longName description argDescription = some table') :
    table' = { table with options := table'.options } ∧
      table'.options.length = table.options.length ∧ ∀ j, table'.argOf j = table.argOf j := by
  unfold optionSetStrings at h
  by_cases hle : table.optionCount ≤ index
  · rw [if_pos hle] at h
    cases h
  rw [if_neg hle] at h
  cases h
  refine ⟨rfl, List.length_modify _ _ _, fun j => ?_⟩
  unfold Table.argOf
  dsimp only
  rw [List.getElem?_modify]
  cases table.options[j]? with
  | none => rfl
  | some o =>
    rw [Option.map_eq_map, Option.map_some, Option.bind_some, Option.bind_some]
    by_cases hi : index.toNat = j
    · rw [if_pos hi]
    · rw [if_neg hi]

theorem Wired.step {env : Surroundings} {s : Runtime} (henv : env.Faithful s)
    {slotByAddress : List (UInt64 × UInt32)} (hlt : ∀ d ∈ slotByAddress, d.2.toNat < 2 ^ 32 - 1)
    (hnodup : (slotByAddress.map Prod.fst).Nodup) {options : Nat → PoptOption} {e : Engine}
    {table : Table} {done : List Nat} {i : Nat} {state state' : Engine × Table}
    (h : Wired s slotByAddress options e table done state) (hi : i < table.options.length)
    (hbound : table.options.length < 2 ^ 32)
    (hok : wireOption env slotByAddress options state i = .ok state') :
    Wired s slotByAddress options e table (done ++ [i]) state' := by
  obtain ⟨slot, hslot, hok⟩ := bind_eq_ok.mp hok
  cases hset : optionSet state.2 (UInt32.ofNat i) (options i).shortName.toUInt32
      (options i).argInfo slot (options i).val with
  | none =>
    rw [hset] at hok
    cases hok
  | some table₁ =>
    rw [hset] at hok
    obtain ⟨⟨e₁, longName⟩, h₁, hok⟩ := bind_eq_ok.mp hok
    obtain ⟨⟨e₂, description⟩, h₂, hok⟩ := bind_eq_ok.mp hok
    obtain ⟨⟨e₃, argDescription⟩, h₃, hok⟩ := bind_eq_ok.mp hok
    obtain ⟨hover₁, hkept₁, _⟩ := copyString_ok henv h.engine h₁
    obtain ⟨hover₂, hkept₂, _⟩ := copyString_ok henv hover₁ h₂
    obtain ⟨hover₃, hkept₃, _⟩ := copyString_ok henv hover₂ h₃
    dsimp only at hok
    cases hnames : optionSetStrings table₁ (UInt32.ofNat i) longName description
        argDescription with
    | none =>
      rw [hnames] at hok
      cases hok
    | some table₂ =>
      rw [hnames] at hok
      cases hok
      obtain ⟨pointer, hpointer, hsame₁, hlen₁, harg₁⟩ := optionSet_eq_some hset
      obtain ⟨hsame₂, hlen₂, harg₂⟩ := optionSetStrings_eq_some hnames
      have hnat : (UInt32.ofNat i).toNat = i := UInt32.toNat_ofNat_of_lt' (hi.trans hbound)
      rw [hnat] at harg₁
      refine ⟨hover₃, ?_, ?_, ?_, fun j hj => ?_⟩
      · exact h.kept.trans _ _ _ (hkept₁.trans _ _ _ (hkept₂.trans _ _ _ hkept₃))
      · dsimp only
        rw [hsame₂, hsame₁, h.same]
      · exact hlen₂.trans (hlen₁.trans h.length)
      · rw [harg₂, harg₁]
        by_cases hji : j = i
        · rw [if_pos ⟨hji, by rw [h.length, hji]; exact hi⟩, hji]
          exact optionArg_of_slotOf hlt hnodup hslot hpointer
        · rw [if_neg (fun hc => hji hc.1)]
          rcases List.mem_append.mp hj with hj | hj
          · exact h.wired j hj
          · exact absurd (List.mem_singleton.mp hj) hji

theorem wireOptions_spec {env : Surroundings} {s : Runtime} (henv : env.Faithful s)
    {slotByAddress : List (UInt64 × UInt32)} (hlt : ∀ d ∈ slotByAddress, d.2.toNat < 2 ^ 32 - 1)
    (hnodup : (slotByAddress.map Prod.fst).Nodup) {options : Nat → PoptOption}
    {state state' : Engine × Table} {count : Nat} (h : EngineOver s state.1)
    (hcount : count = state.2.options.length) (hbound : count < 2 ^ 32)
    (hok : wireOptions env slotByAddress options state count = .ok state') :
    Wired s slotByAddress options state.1 state.2 (List.range count) state' := by
  refine fold_rule (P := Wired s slotByAddress options state.1 state.2)
    (fun done i rest t t' hwhole h hstep => ?_) (List.nil_append (List.range count)).symm
    ⟨h, .refl _, rfl, rfl, nofun⟩ hok
  have hi : i ∈ List.range count := by
    rw [hwhole]
    exact List.mem_append_right _ List.mem_cons_self
  exact h.step henv hlt hnodup (hcount ▸ List.mem_range.mp hi) (hcount ▸ hbound) hstep

theorem copyArguments_spec {env : Surroundings} {s : Runtime} (henv : env.Faithful s)
    {argv : Nat → Option CString} {state state' : Engine × UArgv} {l : List Nat}
    (h : EngineOver s state.1) (hok : fold (copyArgument env argv) state l = .ok state') :
    EngineOver s state'.1 ∧ EngineKept state.1 state'.1 := by
  refine fold_rule (P := fun _ t => EngineOver s t.1 ∧ EngineKept state.1 t.1)
    (fun done i rest t t' _ ht hstep => ?_) (List.nil_append l).symm ⟨h, .refl _⟩ hok
  obtain ⟨⟨e', p⟩, hcopy, hstep⟩ := bind_eq_ok.mp hstep
  obtain ⟨hover, hkept, _⟩ := copyString_ok henv ht.1 hcopy
  dsimp only at hstep
  cases hset : argvSet t.2 (UInt32.ofNat i) p with
  | none =>
    rw [hset] at hstep
    cases hstep
  | some box =>
    rw [hset] at hstep
    cases hstep
    exact ⟨hover, ht.2.trans _ _ _ hkept⟩

/-! ### The context -/

/-- What an accepted option table has been turned into. -/
structure Shadowed (env : Surroundings) (options : Nat → PoptOption) (count : Nat)
    (trusted : Trusted) (e : Engine) (context : TrustedContext) : Prop where
  addresses : (context.slots.map SlotBinding.trustedAddress).Nodup
  indices : (context.slots.map SlotBinding.index).Nodup
  bound : ∀ b ∈ context.slots, b.index < context.untrustedTable.slotCount
  used : ∀ b ∈ context.slots, b.trustedAddress ≠ 0 ∧ ∃ i < count, (options i).arg = b.trustedAddress
  served : ∀ i < count, (options i).arg ≠ 0 → ∃ b ∈ context.slots,
    b.trustedAddress = (options i).arg ∧ optionSlotKind env.header (options i) = .ok b.kind ∧
      context.untrustedTable.argOf i = some b.index
  unserved : ∀ i < count, (options i).arg = 0 → context.untrustedTable.argOf i = none
  mirrors : ∀ b ∈ context.slots,
    Mirrors (fun p src => Marshalled e p src) context.untrustedTable.slots trusted b

theorem AssignedFor.nodup_indices {env : Surroundings} {done : List PoptOption}
    {assigned : Assigned} (h : AssignedFor env done assigned)
    (hbound : assigned.kinds.length ≤ 2 ^ 32) : (assigned.slotByAddress.map Prod.snd).Nodup := by
  rw [h.numbered]
  refine List.Nodup.map_on (fun i hi j hj hij => ?_) List.nodup_range
  have hnat := congrArg UInt32.toNat hij
  have hi := List.mem_range.mp hi
  have hj := List.mem_range.mp hj
  rw [UInt32.toNat_ofNat_of_lt' (show i < 2 ^ 32 by omega),
    UInt32.toNat_ofNat_of_lt' (show j < 2 ^ 32 by omega)] at hnat
  exact hnat

theorem AssignedFor.kinds_lt {env : Surroundings} {options : Nat → PoptOption} {count : Nat}
    {assigned : Assigned} (h : AssignedFor env ((List.range count).map options) assigned)
    (hpos : 0 < count) (hend : (options (count - 1)).Terminator) :
    assigned.kinds.length < count := by
  have hlast : options (count - 1) ∈ (List.range count).map options :=
    List.mem_map_of_mem (List.mem_range.mpr (by omega))
  have hlt := List.length_filter_lt_length_iff_exists
    (p := fun o : PoptOption => decide (o.arg ≠ 0)) |>.mpr
    ⟨_, hlast, by simp [hend.2.2]⟩
  rw [List.length_map, List.length_range] at hlt
  exact Nat.lt_of_le_of_lt h.size hlt

/-- The bindings, in any order, have different addresses and indices, and each of them is
an entry of the map. -/
theorem AssignedFor.bindings {env : Surroundings} {done : List PoptOption} {assigned : Assigned}
    (h : AssignedFor env done assigned) (hbound : assigned.kinds.length ≤ 2 ^ 32)
    {entries : List (UInt64 × UInt32)} (hperm : entries.Perm assigned.slotByAddress) :
    ((entries.map assigned.binding).map SlotBinding.trustedAddress).Nodup ∧
    ((entries.map assigned.binding).map SlotBinding.index).Nodup ∧
    ∀ b ∈ entries.map assigned.binding, ∃ d ∈ assigned.slotByAddress, b = assigned.binding d := by
  refine ⟨?_, ?_, fun b hb => ?_⟩
  · rw [List.map_map]
    exact (hperm.map Prod.fst).nodup_iff.mpr h.nodup
  · rw [List.map_map]
    exact (hperm.map Prod.snd).nodup_iff.mpr (h.nodup_indices hbound)
  · obtain ⟨d, hd, rfl⟩ := List.mem_map.mp hb
    exact ⟨d, hperm.mem_iff.mp hd, rfl⟩

theorem tableNew_ok {allocated : Bool} {optionCount slotCount : UInt32} {table : Table}
    (h : orBadAlloc (tableNew allocated optionCount slotCount) = .ok table) :
    table.slotCount = slotCount ∧ table.options.length = optionCount.toNat ∧
      slotCount.toNat ≤ table.slots.length := by
  unfold tableNew at h
  by_cases hallocated : allocated = true
  · rw [if_pos hallocated] at h
    cases h
    refine ⟨rfl, List.length_replicate, ?_⟩
    rw [List.length_replicate]
    by_cases h0 : slotCount ≠ 0
    · rw [if_pos h0]
    · rw [Classical.not_not.mp h0]
      exact Nat.zero_le _
  · rw [if_neg hallocated] at h
    cases h

/-- **An accepted option table is shadowed.** -/
theorem makeContext_ok {env : Surroundings} {s : Runtime} (henv : env.Faithful s) {e e' : Engine}
    (h : EngineOver s e) {trusted : Trusted} {name : Option CString} {argc : Int32}
    {argv : Option (Nat → Option CString)} {options : Option (Nat → PoptOption)} {flags : UInt32}
    {context : TrustedContext}
    (hok : makeContext env e trusted name argc argv options flags = .ok (e', some context)) :
    ∃ table count, options = some table ∧ optionCount options = .ok count ∧
      Shadowed env table count trusted e' context := by
  obtain ⟨_, _, hok⟩ := bind_eq_ok.mp hok
  obtain ⟨count, hcount, hok⟩ := bind_eq_ok.mp hok
  cases options with
  | none => cases hcount
  | some options =>
  obtain ⟨assigned, hassigned, hok⟩ := bind_eq_ok.mp hok
  obtain ⟨table, htable, hok⟩ := bind_eq_ok.mp hok
  obtain ⟨⟨e₁, table₁⟩, hinit, hok⟩ := bind_eq_ok.mp hok
  obtain ⟨⟨e₂, table₂⟩, hwire, hok⟩ := bind_eq_ok.mp hok
  obtain ⟨box, _, hok⟩ := bind_eq_ok.mp hok
  obtain ⟨⟨e₃, box'⟩, hargv, hok⟩ := bind_eq_ok.mp hok
  obtain ⟨⟨e₄, copiedName⟩, hname, hok⟩ := bind_eq_ok.mp hok
  refine ⟨options, count, rfl, hcount, ?_⟩
  -- the first loop
  obtain ⟨hpos, hmax, hend⟩ := optionCountFrom_eq_ok hcount
  have hfor : AssignedFor env ((List.range count).map options) assigned :=
    assignSlots_spec (by rw [List.length_map, List.length_range]; omega) hassigned
  have hkinds := hfor.kinds_lt hpos hend
  have hindex : ∀ d ∈ assigned.slotByAddress, d.2.toNat < 2 ^ 32 - 1 := fun d hd => by
    have := hfor.index_lt hd
    omega
  have hperm := henv.enumerate assigned.slotByAddress
  obtain ⟨haddresses, hindices, hentry⟩ := hfor.bindings (by omega) hperm
  -- the table
  obtain ⟨hslotCount, hlength, hslotsLength⟩ := tableNew_ok htable
  have hcountNat : (UInt32.ofNat count).toNat = count :=
    UInt32.toNat_ofNat_of_lt' (show count < 2 ^ 32 by omega)
  have hkindsNat : (UInt32.ofNat assigned.kinds.length).toNat = assigned.kinds.length :=
    UInt32.toNat_ofNat_of_lt' (show _ < 2 ^ 32 by omega)
  have hbelow : ∀ b ∈ (env.enumerate assigned.slotByAddress).map assigned.binding,
      b.index.toNat < assigned.kinds.length := by
    intro b hb
    obtain ⟨d, hd, rfl⟩ := hentry b hb
    exact hfor.index_lt hd
  -- the other loops
  have hinitialized := initializeSlots_spec henv h hindices
    (fun b hb => by have := hbelow b hb; omega) hinit
  have hoptions : (e₁, table₁).2.options = table.options := by rw [hinitialized.same]
  have hwired := wireOptions_spec henv hindex hfor.nodup hinitialized.engine
    (hcountNat.symm.trans (hlength.symm.trans (congrArg List.length hoptions).symm))
    (show count < 2 ^ 32 by omega) hwire
  obtain ⟨hover₃, hkept₃⟩ := copyArguments_spec henv hwired.engine hargv
  obtain ⟨_, hkept₄, _⟩ := copyString_ok henv hover₃ hname
  have hcontext : (e', some context) = ((env.getContext e₄ copiedName box' table₂ flags).1,
      some ⟨(env.getContext e₄ copiedName box' table₂ flags).2, table₂, box',
        (env.enumerate assigned.slotByAddress).map assigned.binding⟩) := by
    dsimp only at hok
    split at hok
    · cases hok
    · exact (Except.ok.inj hok).symm
  cases hcontext
  have hslotCount₂ : table₂.slotCount = UInt32.ofNat assigned.kinds.length := by
    have h1 : (e₂, table₂).2.slotCount = table₁.slotCount := by rw [hwired.same]
    have h2 : (e₁, table₁).2.slotCount = table.slotCount := by rw [hinitialized.same]
    exact h1.trans (h2.trans hslotCount)
  have hslots : (e₂, table₂).2.slots = table₁.slots := by rw [hwired.same]
  exact {
    addresses := haddresses
    indices := hindices
    bound := fun b hb => by
      rw [hslotCount₂, UInt32.lt_iff_toNat_lt, hkindsNat]
      exact hbelow b hb
    used := fun b hb => by
      obtain ⟨d, hd, rfl⟩ := hentry b hb
      obtain ⟨hne, o, ho, harg⟩ := hfor.sound d hd
      obtain ⟨i, hi, rfl⟩ := List.mem_map.mp ho
      exact ⟨hne, i, List.mem_range.mp hi, harg⟩
    served := fun i hi hne => by
      obtain ⟨index, kind, hmem, hkind, hget⟩ := hfor.complete (options i)
        (List.mem_map_of_mem (List.mem_range.mpr hi)) hne
      refine ⟨assigned.binding ((options i).arg, index),
        List.mem_map_of_mem (hperm.mem_iff.mpr hmem), rfl, ?_, ?_⟩
      · rw [hkind, Assigned.binding, List.getD_eq_getElem?_getD, hget]
        rfl
      · exact (hwired.wired i (List.mem_range.mpr hi)).trans
          ((if_neg hne).trans ((Dict.lookup_eq_some hfor.nodup).mpr hmem))
    unserved := fun i hi h0 => (hwired.wired i (List.mem_range.mpr hi)).trans (if_pos h0)
    mirrors := fun b hb => by
      refine ((hinitialized.mirrors b hb).mono fun p src hm => ?_).congr
        (congrArg (fun slots : List Slot => slots[b.index.toNat]?) hslots) (fun _ => rfl)
        (fun _ => rfl)
      exact henv.getContext _ _ _ _ _ _ _
        (((hm.kept hwired.kept).kept hkept₃).kept hkept₄) }

/-! ### The parser's writes -/

/-- What the parser writes through the `arg` pointer of an option. -/
inductive ArgValue
  | int (value : Int32)
  | string (ptr : UInt32)
deriving DecidableEq, Repr

def ArgValue.word : ArgValue → UInt32
  | .int value => value.toUInt32
  | .string ptr => ptr

def Table.writeArg (table : Table) (i : Nat) (word : UInt32) : Table :=
  match table.argOf i with
  | none => table
  | some index =>
    { table with slots := table.slots.modify index.toNat (fun slot => { slot with value := word }) }

/-- The context after the writes of the parser. -/
def TrustedContext.written (context : TrustedContext) (writes : List (Nat × ArgValue)) :
    TrustedContext where
  untrustedContext := context.untrustedContext
  untrustedTable := writes.foldl (fun t w => t.writeArg w.1 w.2.word) context.untrustedTable
  untrustedArgv := context.untrustedArgv
  slots := context.slots

/-- The string that a pointer of the sandbox stands for. -/
def stringAt (m : Memory UInt8) (p : UInt32) : Option CString :=
  if p = 0 then none
  else some (CString.ofBytes (Memory.load m p.toNat (Memory.strlen 0 m p.toNat (2 ^ 64))))

/-- The same write, made directly on the destination. -/
def Trusted.writeArg (m : Memory UInt8) (trusted : Trusted) (a : UInt64) : ArgValue → Trusted
  | .int value => trusted.setInt a value
  | .string ptr => trusted.setString a (stringAt m ptr)

/-- A live `char` record has the string at the pointer, with its terminator. -/
def Held (u : Sandbox) (p : UInt32) (src : CString) : Prop :=
  ∃ a, CharRecord u.runtime p.toUInt64 a ∧ Memory.StringAt 0 u.memory p.toNat src.val ∧
    p.toNat + src.val.length < byteEnd a

/-- An integer goes to an integer option; null, or a string in a live `char` record, to a
string option. -/
def Fitting (env : Surroundings) (options : Nat → PoptOption) (count : Nat) (u : Sandbox)
    (write : Nat × ArgValue) : Prop :=
  write.1 < count ∧ (options write.1).arg ≠ 0 ∧
    match write.2 with
    | .int _ => optionSlotKind env.header (options write.1) = .ok .integer
    | .string p => optionSlotKind env.header (options write.1) = .ok .string ∧
        (p = 0 ∨ ∃ src, Held u p src)

theorem CString.ofBytes_append (src : CString) (rest : List UInt8) :
    CString.ofBytes (src.val ++ 0 :: rest) = src := by
  apply Subtype.ext
  show (src.val ++ 0 :: rest).takeWhile (fun b => b != 0) = src.val
  rw [List.takeWhile_append_of_pos (fun b hb => by
    simp only [bne_iff_ne, ne_eq]
    rintro rfl
    exact src.property hb)]
  simp

theorem CString.ofBytes_val (src : CString) : CString.ofBytes src.val = src := by
  apply Subtype.ext
  refine List.takeWhile_eq_self_iff.mpr (fun b hb => ?_)
  simp only [bne_iff_ne, ne_eq]
  rintro rfl
  exact src.property hb

section Held

variable {u : Sandbox} {p : UInt32} {src : CString}

theorem Held.stringAt (hl : Layout u.runtime) (h : Held u p src) (hp : p ≠ 0) :
    stringAt u.memory p = some src := by
  obtain ⟨a, hrec, hstr, hend⟩ := h
  have hbound : byteEnd a ≤ 2 ^ 64 := by
    have hend := end_le_cursor hl ((mem_live hl).mp hrec.live)
    have hcursor := u.runtime.cursor.toNat_lt
    unfold byteEnd
    omega
  rw [Bridge.stringAt, if_neg hp, hstr.strlen (by omega), hstr.load_text, CString.ofBytes_val]

theorem Held.copyChecked {e : Engine} (hl : Layout e.sandbox.runtime) (h : Held e.sandbox p src) :
    (copyChecked e (some p.toUInt64)).result = .ok (some (src.val ++ [0])) := by
  obtain ⟨a, hrec, hstr, hend⟩ := h
  have hnat : p.toUInt64.toNat = p.toNat := UInt32.toNat_toUInt64 p
  rw [copyChecked_accept hl hrec (hnat ▸ hstr) (by omega)]

theorem Marshalled.held {e : Engine} (hl : Layout e.sandbox.runtime) (h : Marshalled e p src) :
    Held e.sandbox p src := by
  obtain ⟨a, hrec, hend⟩ := h.charRecord hl
  exact ⟨a, hrec, h.text, by omega⟩

end Held

/-- The state of a run of writes: the slots mirror what direct writes make of the
destinations, and the options are as they were. -/
structure Tracks (u : Sandbox) (context : TrustedContext) (table : Table) (trusted : Trusted) :
    Prop where
  same : table = { context.untrustedTable with slots := table.slots }
  mirrors : ∀ b ∈ context.slots, Mirrors (Held u) table.slots trusted b

/-- **A write through an option is a write to its destination.** -/
theorem Tracks.write {env : Surroundings} {options : Nat → PoptOption} {count : Nat}
    {trusted₀ : Trusted} {e : Engine} {context : TrustedContext}
    (hs : Shadowed env options count trusted₀ e context) {u : Sandbox} (hl : Layout u.runtime)
    {table : Table} {trusted : Trusted} (h : Tracks u context table trusted) {i : Nat}
    {value : ArgValue} (hfit : Fitting env options count u (i, value)) :
    Tracks u context (table.writeArg i value.word)
      (trusted.writeArg u.memory (options i).arg value) := by
  obtain ⟨hi, hne, hkind⟩ := hfit
  obtain ⟨b, hb, haddress, hbkind, harg⟩ := hs.served i hi hne
  have hargOf : table.argOf i = some b.index := by
    rw [← harg, h.same]
    rfl
  unfold Table.writeArg
  rw [hargOf]
  refine ⟨by dsimp only; rw [h.same], fun b' hb' => ?_⟩
  by_cases hbb : b' = b
  · -- the slot written to
    subst hbb
    have hold := h.mirrors b' hb'
    have hset : ∀ slot : Slot, table.slots[b'.index.toNat]? = some slot →
        (table.slots.modify b'.index.toNat
          (fun slot => { slot with value := value.word }))[b'.index.toNat]? =
            some { slot with value := value.word } := by
      intro slot hslot
      rw [List.getElem?_modify_eq, hslot]
      rfl
    rw [← haddress]
    unfold Mirrors at hold ⊢
    cases value with
    | int value =>
      have hint : b'.kind = .integer := Except.ok.inj (hbkind.symm.trans hkind)
      rw [hint] at hold ⊢
      rw [hset _ hold]
      exact congrArg (fun v : Int32 => some (Slot.mk slotInt v.toUInt32)) (if_pos rfl).symm
    | string p =>
      obtain ⟨hstring, hheld⟩ := hkind
      have hstr : b'.kind = .string := Except.ok.inj (hbkind.symm.trans hstring)
      rw [hstr] at hold ⊢
      obtain ⟨q, hq, _⟩ := hold
      refine ⟨p, hset _ hq, ?_⟩
      have hnow : (trusted.writeArg u.memory b'.trustedAddress (.string p)).strings
          b'.trustedAddress = stringAt u.memory p := if_pos rfl
      rw [hnow]
      by_cases hp : p = 0
      · rw [stringAt, if_pos hp]
        exact hp
      · obtain ⟨src, hsrc⟩ := hheld.resolve_left hp
        rw [hsrc.stringAt hl hp]
        exact ⟨hp, hsrc⟩
  · -- another slot
    have hindex : b.index.toNat ≠ b'.index.toNat := fun hc =>
      hbb (List.inj_on_of_nodup_map hs.indices hb' hb (UInt32.toNat_inj.mp hc).symm)
    have hother : b'.trustedAddress ≠ (options i).arg := fun hc =>
      hbb (List.inj_on_of_nodup_map hs.addresses hb' hb (hc.trans haddress.symm))
    refine (h.mirrors b' hb').congr ?_ (fun _ => ?_) (fun _ => ?_)
    · exact List.getElem?_modify_ne _ _ hindex
    · cases value with
      | int value => exact if_neg hother
      | string p => rfl
    · cases value with
      | int value => rfl
      | string p => exact if_neg hother

theorem Tracks.writes {env : Surroundings} {options : Nat → PoptOption} {count : Nat}
    {trusted₀ : Trusted} {e : Engine} {context : TrustedContext}
    (hs : Shadowed env options count trusted₀ e context) {u : Sandbox} (hl : Layout u.runtime)
    {writes : List (Nat × ArgValue)} : ∀ {table : Table} {trusted : Trusted},
    Tracks u context table trusted → (∀ w ∈ writes, Fitting env options count u w) →
      Tracks u context (writes.foldl (fun t w => t.writeArg w.1 w.2.word) table)
        (writes.foldl (fun t w => t.writeArg u.memory (options w.1).arg w.2) trusted) := by
  induction writes with
  | nil => intro table trusted h _; exact h
  | cons w writes ih =>
    intro table trusted h hfit
    exact ih (h.write hs hl (hfit w List.mem_cons_self))
      (fun w' hw' => hfit w' (List.mem_cons_of_mem _ hw'))

/-! ### The way back -/

/-- The destination holds the same in both, as a value of the kind. -/
def Agrees (kind : SlotKind) (a : UInt64) (t t' : Trusted) : Prop :=
  match kind with
  | .integer => t.ints a = t'.ints a
  | .string => t.strings a = t'.strings a

/-- What the fourth loop has done so far. -/
structure Synced (u : Engine) (target : Trusted) (done : List SlotBinding)
    (state : Engine × Trusted) : Prop where
  sandbox : state.1.sandbox = u.sandbox
  agrees : ∀ b ∈ done, Agrees b.kind b.trustedAddress state.2 target

/-- **One slot.**  The destination gets the value that the slot mirrors. -/
theorem Synced.step {u : Engine} (hl : Layout u.sandbox.runtime) {target : Trusted}
    {table : Table} {done : List SlotBinding} {b : SlotBinding} {state : Engine × Trusted}
    (h : Synced u target done state) (hlt : b.index < table.slotCount)
    (hnew : ∀ b' ∈ done, b'.trustedAddress ≠ b.trustedAddress)
    (hm : Mirrors (Held u.sandbox) table.slots target b) :
    ∃ state', syncSlot table state b = .ok state' ∧ Synced u target (done ++ [b]) state' := by
  have hset : ∀ {e : Engine} {trusted : Trusted}, e.sandbox = u.sandbox →
      (∀ a, a ≠ b.trustedAddress → trusted.ints a = state.2.ints a ∧
        trusted.strings a = state.2.strings a) →
      Agrees b.kind b.trustedAddress trusted target →
      Synced u target (done ++ [b]) (e, trusted) := by
    intro e trusted he hothers hb
    refine ⟨he, fun b' hb' => ?_⟩
    rcases List.mem_append.mp hb' with hb' | hb'
    · have hold := h.agrees b' hb'
      obtain ⟨hints, hstrings⟩ := hothers _ (hnew b' hb')
      unfold Agrees at hold ⊢
      cases hk : b'.kind with
      | integer =>
        rw [hk] at hold
        exact hints.trans hold
      | string =>
        rw [hk] at hold
        exact hstrings.trans hold
    · rw [List.mem_singleton.mp hb']
      exact hb
  have hle : ¬ table.slotCount ≤ b.index := UInt32.not_le.mpr hlt
  unfold Mirrors at hm
  unfold syncSlot
  cases hk : b.kind with
  | integer =>
    rw [hk] at hm
    dsimp only at hm ⊢
    have hget : slotGetInt table b.index = target.ints b.trustedAddress := by
      rw [slotGetInt, if_neg hle, hm]
      exact if_pos rfl
    refine ⟨_, rfl, hset h.sandbox (fun a ha => ⟨if_neg ha, rfl⟩) ?_⟩
    rw [hk, hget]
    exact if_pos rfl
  | string =>
    rw [hk] at hm
    obtain ⟨p, hp, htext⟩ := hm
    have hget : slotGetString table b.index = p := by
      rw [slotGetString, if_neg hle, hp]
      exact if_pos rfl
    dsimp only
    rw [hget]
    -- the copy of the string, or of null
    have hcopy : ∃ copy, (copyChecked state.1 (if p = 0 then none else some p.toUInt64)).result =
        .ok copy ∧ copy.map CString.ofBytes = target.strings b.trustedAddress := by
      cases htarget : target.strings b.trustedAddress with
      | none =>
        rw [htarget] at htext
        rw [if_pos (show p = 0 from htext)]
        exact ⟨none, rfl, rfl⟩
      | some src =>
        rw [htarget] at htext
        rw [if_neg htext.1]
        refine ⟨some (src.val ++ [0]), Held.copyChecked ?_ ?_, ?_⟩
        · rw [h.sandbox]
          exact hl
        · rw [h.sandbox]
          exact htext.2
        · exact congrArg some (CString.ofBytes_append src [])
    obtain ⟨copy, hresult, hcopy⟩ := hcopy
    rw [hresult]
    dsimp only
    rw [hcopy]
    refine ⟨_, rfl, hset ?_ (fun a ha => ⟨rfl, if_neg ha⟩) ?_⟩
    · rw [copyChecked_sandbox]
      exact h.sandbox
    · rw [hk]
      exact if_pos rfl

theorem syncSlots_spec {u : Engine} (hl : Layout u.sandbox.runtime) {target trusted : Trusted}
    {context : TrustedContext}
    (hlt : ∀ b ∈ context.slots, b.index < context.untrustedTable.slotCount)
    (hnodup : (context.slots.map SlotBinding.trustedAddress).Nodup)
    (hm : ∀ b ∈ context.slots,
      Mirrors (Held u.sandbox) context.untrustedTable.slots target b) :
    ∃ state, syncSlots context u trusted = .ok state ∧ Synced u target context.slots state := by
  refine fold_total (P := Synced u target) (fun done b rest state hwhole h => ?_)
    (List.nil_append context.slots).symm ⟨rfl, nofun⟩
  have hb : b ∈ context.slots := by
    rw [hwhole]
    exact List.mem_append_right _ List.mem_cons_self
  rw [hwhole, List.map_append, List.map_cons] at hnodup
  refine h.step hl (hlt b hb) (fun b' hb' he => ?_) (hm b hb)
  exact List.disjoint_of_nodup_append hnodup (List.mem_map_of_mem hb') (he ▸ List.mem_cons_self)

/-- The kind as the slots of the sandbox have it. -/
def SlotKind.code : SlotKind → UInt32
  | .integer => slotInt
  | .string => slotString

theorem Mirrors.slot {H : UInt32 → CString → Prop} {slots : List Slot} {trusted : Trusted}
    {b : SlotBinding} (h : Mirrors H slots trusted b) :
    ∃ value, slots[b.index.toNat]? = some ⟨b.kind.code, value⟩ := by
  unfold Mirrors at h
  cases hk : b.kind with
  | integer =>
    rw [hk] at h
    exact ⟨_, h⟩
  | string =>
    rw [hk] at h
    obtain ⟨p, hp, _⟩ := h
    exact ⟨p, hp⟩

/-- Two options alias the same slot where they alias the same destination. -/
theorem Shadowed.alias_iff {env : Surroundings} {options : Nat → PoptOption} {count : Nat}
    {trusted : Trusted} {e : Engine} {context : TrustedContext}
    (h : Shadowed env options count trusted e context) {i j : Nat} (hi : i < count)
    (hj : j < count) (hi0 : (options i).arg ≠ 0) (hj0 : (options j).arg ≠ 0) :
    context.untrustedTable.argOf i = context.untrustedTable.argOf j ↔
      (options i).arg = (options j).arg := by
  obtain ⟨b, hb, haddress, _, harg⟩ := h.served i hi hi0
  obtain ⟨b', hb', haddress', _, harg'⟩ := h.served j hj hj0
  rw [harg, harg', ← haddress, ← haddress']
  constructor
  · intro he
    rw [List.inj_on_of_nodup_map h.indices hb hb' (Option.some.inj he)]
  · intro he
    rw [List.inj_on_of_nodup_map h.addresses hb hb' he]

/-- **The shadow option table simulates the destinations.**  For an option table that
`makeContext` accepts, each destination has one slot, below `slotCount` and of its kind, and
two options point to the same slot exactly when they have the same destination.  After any
writes through the options, `syncSlots` leaves in the destinations what the same writes
would have left there directly. -/
theorem option_table_simulated (arenaBase arenaSize : UInt64) (hbase : arenaBase ≠ 0)
    (hspace : arenaBase.toNat + arenaSize.toNat ≤ 2 ^ 32) (ops : List Op) (env : Surroundings)
    (henv : env.Faithful ((new arenaBase arenaSize).after ops)) (memory : Memory UInt8)
    (trustedStrings : List (List UInt8)) (trusted : Trusted) (name : Option CString)
    (argc : Int32) (argv : Option (Nat → Option CString)) (options : Option (Nat → PoptOption))
    (flags : UInt32) (e : Engine) (context : TrustedContext)
    (hok : makeContext env ⟨⟨(new arenaBase arenaSize).after ops, memory⟩, trustedStrings⟩ trusted
      name argc argv options flags = .ok (e, some context)) :
    ∃ table count, options = some table ∧ optionCount options = .ok count ∧
      (∀ i < count, (table i).arg ≠ 0 → ∃ b ∈ context.slots,
        (b.trustedAddress = (table i).arg ∧ b.index < context.untrustedTable.slotCount ∧
          optionSlotKind env.header (table i) = .ok b.kind ∧
          (∃ value, context.untrustedTable.slots[b.index.toNat]? = some ⟨b.kind.code, value⟩) ∧
          context.untrustedTable.argOf i = some b.index) ∧
        ∀ b' ∈ context.slots, b'.trustedAddress = (table i).arg → b' = b) ∧
      (∀ b ∈ context.slots, ∃ i < count, (table i).arg = b.trustedAddress) ∧
      (∀ i < count, ∀ j < count, (table i).arg ≠ 0 → (table j).arg ≠ 0 →
        (context.untrustedTable.argOf i = context.untrustedTable.argOf j ↔
          (table i).arg = (table j).arg)) ∧
      ∀ (u : Engine) (later : List Op) (writes : List (Nat × ArgValue)),
        u.sandbox.runtime = (new arenaBase arenaSize).after later →
        (∀ p (src : CString), Marshalled e p src → Held u.sandbox p src) →
        (∀ w ∈ writes, Fitting env table count u.sandbox w) →
        ∃ u' trusted', syncSlots (context.written writes) u trusted = .ok (u', trusted') ∧
          ∀ i < count, ∀ kind, (table i).arg ≠ 0 →
            optionSlotKind env.header (table i) = .ok kind →
            Agrees kind (table i).arg trusted' (writes.foldl
              (fun t w => t.writeArg u.sandbox.memory (table w.1).arg w.2) trusted) ∧
            (writes = [] → Agrees kind (table i).arg trusted' trusted) := by
  have hover := EngineOver.reachable hbase hspace ops memory trustedStrings
  obtain ⟨table, count, hoptions, hcount, hs⟩ := makeContext_ok henv hover hok
  refine ⟨table, count, hoptions, hcount, fun i hi hne => ?_, fun b hb => (hs.used b hb).2,
    fun i hi j hj hi0 hj0 => hs.alias_iff hi hj hi0 hj0, fun u later writes hu hheld hfit => ?_⟩
  · obtain ⟨b, hb, haddress, hkind, harg⟩ := hs.served i hi hne
    refine ⟨b, hb, ⟨haddress, hs.bound b hb, hkind, (hs.mirrors b hb).slot, harg⟩, ?_⟩
    exact fun b' hb' he => List.inj_on_of_nodup_map hs.addresses hb' hb (he.trans haddress.symm)
  · have hl : Layout u.sandbox.runtime := hu ▸ layout_reachable arenaBase arenaSize later
    have hstart : Tracks u.sandbox context context.untrustedTable trusted :=
      ⟨rfl, fun b hb => (hs.mirrors b hb).mono hheld⟩
    have hend := hstart.writes hs hl hfit
    have hbound : ∀ b ∈ (context.written writes).slots,
        b.index < (context.written writes).untrustedTable.slotCount := by
      unfold TrustedContext.written
      rw [hend.same]
      exact hs.bound
    obtain ⟨⟨u', trusted'⟩, hsync, hsynced⟩ : ∃ state,
        syncSlots (context.written writes) u trusted = .ok state ∧ Synced u _ context.slots state :=
      syncSlots_spec hl hbound hs.addresses hend.mirrors
    refine ⟨u', trusted', hsync, fun i hi kind hne hkind => ?_⟩
    obtain ⟨b, hb, haddress, hbkind, _⟩ := hs.served i hi hne
    have hagrees := hsynced.agrees b hb
    rw [haddress, Except.ok.inj (hbkind.symm.trans hkind)] at hagrees
    exact ⟨hagrees, fun hnil => by subst hnil; exact hagrees⟩

/-- Two options with one integer destination, and one with a string. -/
def aliasingOptions (i : Nat) : PoptOption :=
  if i = 0 then ⟨none, 97, 2, 16, 0, none, none⟩
  else if i = 1 then ⟨none, 98, 7, 16, 3, none, none⟩
  else if i = 2 then ⟨none, 99, 1, 24, 0, none, none⟩
  else ⟨none, 0, 0, 0, 0, none, none⟩

/-- The constants of `popt.h`, a map traversed backwards and a small allocator. -/
def smallSurroundings : Surroundings where
  header := ⟨65535, 0, 1, 2, 7⟩
  enumerate := List.reverse
  sandboxCall _ src := ⟨if src.val.length ≤ 8 then 8192 else 0, id, id, 150, 0⟩
  tableAllocated := true
  argvAllocated := true
  getContext e _ _ _ _ := (e, 1)

def smallOps : List Op := [.registerType 1 kTypeHashChar, .registerAllocationSite 1 100 200 1]

theorem faithful_small : smallSurroundings.Faithful ((new 4096 64).after smallOps) where
  enumerate entries := List.reverse_perm entries
  sandboxCall e src := by
    refine ⟨src.property, ⟨fun hne _ => ?_, fun _ _ _ => rfl, fun _ _ _ => rfl⟩, ?_⟩
    · have hlen : src.val.length ≤ 8 := by
        by_contra hlong
        exact hne (if_neg hlong)
      rw [show (smallSurroundings.sandboxCall e src).temporary = 8192 from if_pos hlen]
      exact ⟨show 8192 + _ ≤ _ by omega, .inr (by decide)⟩
    · intro site hsite
      obtain rfl : ⟨1, 100, 200, 1, kTypeHashChar⟩ = site := Option.some.inj hsite
      rfl
  getContext _ _ _ _ _ _ _ h := h

/-- The last write to the shared integer is the one that arrives. -/
theorem option_table_simulated_alias :
    let e : Engine := ⟨⟨(new 4096 64).after smallOps, fun _ => 7⟩, []⟩
    let trusted : Trusted := ⟨fun _ => 1, fun _ => none⟩
    ∃ context u' trusted',
      makeContext smallSurroundings e trusted none 0 none (some aliasingOptions) 0 =
        .ok (e, some context) ∧
      syncSlots (context.written [(0, .int 5), (1, .int 3), (2, .string 0)]) e trusted =
        .ok (u', trusted') ∧
      trusted'.ints 16 = 3 ∧ trusted'.strings 24 = none := by
  intro e trusted
  have hok : makeContext smallSurroundings e trusted none 0 none (some aliasingOptions) 0 =
      .ok (e, some ⟨1,
        ⟨4, 2, [⟨0, 97, 2, some 0, 0, 0, 0⟩, ⟨0, 98, 7, some 0, 3, 0, 0⟩,
          ⟨0, 99, 1, some 1, 0, 0, 0⟩, ⟨0, 0, 0, none, 0, 0, 0⟩], [⟨1, 1⟩, ⟨2, 0⟩]⟩,
        ⟨0, [0]⟩, [⟨24, .string, 1⟩, ⟨16, .integer, 0⟩]⟩) := rfl
  obtain ⟨table, count, htable, hcount, _, _, _, hsync⟩ :=
    option_table_simulated 4096 64 (by decide) (by decide) smallOps smallSurroundings
      faithful_small (fun _ => 7) [] trusted none 0 none (some aliasingOptions) 0 e _ hok
  obtain rfl := Option.some.inj htable
  obtain rfl : 4 = count := Except.ok.inj hcount
  have hl : Layout e.sandbox.runtime := layout_reachable 4096 64 smallOps
  obtain ⟨u', trusted', hrun, hall⟩ := hsync e smallOps
    [(0, .int 5), (1, .int 3), (2, .string 0)] rfl (fun p src hm => hm.held hl) (fun w hw => by
      rcases List.mem_cons.mp hw with rfl | hw
      · exact ⟨by decide, by decide, rfl⟩
      rcases List.mem_cons.mp hw with rfl | hw
      · exact ⟨by decide, by decide, rfl⟩
      obtain rfl := List.mem_singleton.mp hw
      exact ⟨by decide, by decide, rfl, .inl rfl⟩)
  refine ⟨_, u', trusted', hok, hrun, ?_, ?_⟩
  · exact (hall 0 (by decide) .integer (by decide) rfl).1
  · exact (hall 2 (by decide) .string (by decide) rfl).1

end InterSpec.Bridge
