import InterSpec.Data.Ranges
import InterSpec.Runtime.Basic

/-!
# The layout of the arena

`Layout s` is the heap invariant: the cursor `used` is a multiple of 8 within
the capacity, every record lies between the arena base and the cursor, and the
padded records do not overlap.  On such a state the defensive branches of
`allocateWithHashUnlocked` are dead, and the function is one test:

* `alignedSize_eq`: rounding fails exactly when the rounded size does not fit
  in 64 bits.
* `allocateWithHashUnlocked_eq`: a request is recorded at the cursor when it
  `Fits`, and leaves the state alone otherwise.
* `Layout.record`, `Layout.remove`: the two effects on the heap keep `Layout`.
-/

namespace InterSpec.Runtime

open SortedMap (Separated Contains)

/-- A size with its padding, as an unbounded integer. -/
def roundUp8 (n : Nat) : Nat := (n + 7) / 8 * 8

theorem le_roundUp8 (n : Nat) : n ≤ roundUp8 n := by
  unfold roundUp8; omega

theorem roundUp8_dvd (n : Nat) : 8 ∣ roundUp8 n := Dvd.intro_left _ rfl

theorem roundUp8_pos {n : Nat} (h : n ≠ 0) : 8 ≤ roundUp8 n := by
  unfold roundUp8; omega

/-- **Rounding a size fails exactly when the rounded size needs more than 64 bits.** -/
theorem alignedSize_eq (size : UInt64) : alignedSize size =
    if roundUp8 size.toNat < 2 ^ 64 then some (UInt64.ofNat (roundUp8 size.toNat)) else none := by
  have hsize := size.toNat_lt
  by_cases hbig : Word.max64 - (8 - 1) < size
  · have h : 2 ^ 64 - 1 - 7 < size.toNat := Word.toNat_strictMono hbig
    have hover : ¬ roundUp8 size.toNat < 2 ^ 64 := by unfold roundUp8; omega
    rw [alignedSize, if_pos hbig, if_neg hover]
  · have h : size.toNat ≤ 2 ^ 64 - 1 - 7 := UInt64.le_iff_toNat_le.mp (not_lt.mp hbig)
    have hfit : roundUp8 size.toNat < 2 ^ 64 := by unfold roundUp8; omega
    have hsum : (size + (8 - 1)).toNat = size.toNat + 7 :=
      Word.toNat_add_of_lt (show size.toNat + 7 < 2 ^ 64 by omega)
    have hmask : ((size + (8 - 1)) &&& ~~~(8 - 1)).toNat = roundUp8 size.toNat := by
      rw [roundUp8, ← hsum]
      exact Word.toNat_and_not_mask (size + (8 - 1)) (k := 3) (by decide)
    have hge : size ≤ (size + (8 - 1)) &&& ~~~(8 - 1) := by
      rw [UInt64.le_iff_toNat_le, hmask]
      exact le_roundUp8 _
    rw [alignedSize, if_neg hbig, if_pos hfit]
    simp only [if_pos hge, Option.some.injEq]
    rw [← UInt64.toNat_inj, hmask, UInt64.toNat_ofNat_of_lt' hfit]

/-! ### The invariant -/

/-- The end of a record with its padding. -/
def paddedEnd (a : Allocation) : Nat := a.base.toNat + roundUp8 a.size.toNat

/-- What holds of a record stored under `p`. -/
structure InArena (s : Runtime) (p : UInt64) (a : Allocation) : Prop where
  valid : s.arenaValid = true
  base_eq : a.base = p
  size_pos : 1 ≤ a.size.toNat
  base_le : s.base.toNat ≤ p.toNat
  offset_aligned : 8 ∣ p.toNat - s.base.toNat
  end_le : paddedEnd a ≤ s.base.toNat + s.used.toNat

structure Layout (s : Runtime) : Prop where
  used_aligned : 8 ∣ s.used.toNat
  used_le : s.used.toNat ≤ s.capacity.toNat
  valid_iff : s.arenaValid = true ↔ s.base.toNat + s.capacity.toNat ≤ 2 ^ 64 - 1
  invalid_unused : s.arenaValid = false → s.used = 0
  inArena : ∀ p a, s.allocations.find p = some a → InArena s p a
  separated : Separated UInt64.toNat paddedEnd s.allocations

theorem layout_new (arenaBase arenaSize : UInt64) : Layout (new arenaBase arenaSize) where
  used_aligned := Nat.dvd_zero 8
  used_le := Nat.zero_le _
  valid_iff := by
    have hb := arenaBase.toNat_lt
    show decide (arenaSize ≤ Word.max64 - arenaBase) = true
      ↔ arenaBase.toNat + arenaSize.toNat ≤ 2 ^ 64 - 1
    rw [decide_eq_true_iff, UInt64.le_iff_toNat_le,
      Word.toNat_sub_of_le (by rw [Word.toNat_max64]; omega), Word.toNat_max64]
    omega
  invalid_unused _ := rfl
  inArena _ _ h := nomatch h
  separated := SortedMap.separated_empty

theorem Layout.congr {s t : Runtime} (h : Layout s) (hb : t.base = s.base)
    (hc : t.capacity = s.capacity) (hv : t.arenaValid = s.arenaValid) (hu : t.used = s.used)
    (ha : t.allocations = s.allocations) : Layout t where
  used_aligned := hu ▸ h.used_aligned
  used_le := by rw [hu, hc]; exact h.used_le
  valid_iff := by rw [hv, hb, hc]; exact h.valid_iff
  invalid_unused := by rw [hv, hu]; exact h.invalid_unused
  inArena p a hp := by
    have hin := h.inArena p a (ha ▸ hp)
    exact ⟨hv ▸ hin.valid, hin.base_eq, hin.size_pos, hb ▸ hin.base_le, hb ▸ hin.offset_aligned,
      by rw [hb, hu]; exact hin.end_le⟩
  separated := ha ▸ h.separated

/-! ### Requests that fit -/

/-- The address the next record gets. -/
def cursor (s : Runtime) : UInt64 := s.base + s.used

/-- The request is not empty and its padded size fits behind the cursor. -/
def Fits (s : Runtime) (size : UInt64) : Prop :=
  s.arenaValid = true ∧ size ≠ 0 ∧ s.used.toNat + roundUp8 size.toNat ≤ s.capacity.toNat

instance decidableFits (s : Runtime) (size : UInt64) : Decidable (s.Fits size) :=
  inferInstanceAs (Decidable (_ ∧ _ ∧ _))

/-- The state with a record of `size` bytes at the cursor. -/
def record (s : Runtime) (size typeHash : UInt64) (siteId : SiteId) : Runtime :=
  { s with
    allocations := (s.allocations.emplace s.cursor ⟨s.cursor, size, typeHash, siteId⟩).1
    used := s.used + UInt64.ofNat (roundUp8 size.toNat) }

/-- The state without the record at `p`. -/
def remove (s : Runtime) (p : UInt64) : Runtime :=
  { s with allocations := s.allocations.erase p }

theorem Layout.toNat_cursor {s : Runtime} (h : Layout s) (hv : s.arenaValid = true) :
    s.cursor.toNat = s.base.toNat + s.used.toNat := by
  have h1 := h.used_le
  have h2 := h.valid_iff.mp hv
  exact Word.toNat_add_of_lt (by omega)

theorem Layout.base_lt_cursor {s : Runtime} (h : Layout s) {p : UInt64} {a : Allocation}
    (hp : s.allocations.find p = some a) : p.toNat + roundUp8 a.size.toNat ≤ s.cursor.toNat := by
  have hin := h.inArena p a hp
  rw [h.toNat_cursor hin.valid]
  have := hin.end_le
  rwa [paddedEnd, hin.base_eq] at this

theorem Layout.cursor_fresh {s : Runtime} (h : Layout s) : s.allocations.find s.cursor = none := by
  cases hf : s.allocations.find s.cursor with
  | none => rfl
  | some a =>
    have hlt := h.base_lt_cursor hf
    have hpos := roundUp8_pos (Nat.ne_of_gt (h.inArena _ _ hf).size_pos)
    omega

theorem Fits.toNat_rounded {s : Runtime} {size : UInt64} (hf : s.Fits size) :
    (UInt64.ofNat (roundUp8 size.toNat)).toNat = roundUp8 size.toNat := by
  have h1 := hf.2.2
  have h2 := s.capacity.toNat_lt
  exact UInt64.toNat_ofNat_of_lt' (show _ < 2 ^ 64 by omega)

theorem Fits.toNat_used {s : Runtime} {size : UInt64} (hf : s.Fits size) :
    (s.used + UInt64.ofNat (roundUp8 size.toNat)).toNat = s.used.toNat + roundUp8 size.toNat := by
  have h1 := hf.2.2
  have h2 := s.capacity.toNat_lt
  rw [Word.toNat_add_of_lt (by rw [hf.toNat_rounded]; omega), hf.toNat_rounded]

/-- **On a laid out state an allocation is one test.**  The guards against
`used > capacity`, against an unaddressable cursor and against a duplicate key
never fire. -/
theorem allocateWithHashUnlocked_eq {s : Runtime} (h : Layout s) (size typeHash : UInt64)
    (siteId : SiteId) : s.allocateWithHashUnlocked size typeHash siteId =
      if s.Fits size then (s.record size typeHash siteId, s.cursor) else (s, 0) := by
  have hused := h.used_le
  have hcap := s.capacity.toNat_lt
  unfold allocateWithHashUnlocked
  by_cases hguard : s.arenaValid = false ∨ size = 0
  · have hno : ¬ s.Fits size := by
      rintro ⟨hv, hz, _⟩
      rcases hguard with hg | hg
      · rw [hv] at hg; cases hg
      · exact hz hg
    rw [if_pos hguard, if_neg hno]
  rw [if_neg hguard]
  obtain ⟨hv, hz⟩ := not_or.mp hguard
  have hv : s.arenaValid = true := by simpa using hv
  have hvalid := h.valid_iff.mp hv
  rw [alignedSize_eq]
  by_cases hround : roundUp8 size.toNat < 2 ^ 64
  · rw [if_pos hround]
    have hsub : (s.capacity - s.used).toNat = s.capacity.toNat - s.used.toNat :=
      Word.toNat_sub_of_le hused
    have hle : ¬ s.capacity < s.used := by rw [UInt64.lt_iff_toNat_lt]; omega
    have hdead : ¬ Word.max64 - s.base < s.used := by
      rw [UInt64.lt_iff_toNat_lt, Word.toNat_sub_of_le (by rw [Word.toNat_max64]; omega),
        Word.toNat_max64]
      omega
    by_cases hroom : s.used.toNat + roundUp8 size.toNat ≤ s.capacity.toNat
    · have hfits : s.Fits size := ⟨hv, hz, hroom⟩
      have hlt : ¬ s.capacity - s.used < UInt64.ofNat (roundUp8 size.toNat) := by
        rw [UInt64.lt_iff_toNat_lt, hsub, hfits.toNat_rounded]
        omega
      have hins : (s.allocations.emplace (s.base + s.used)
          ⟨s.base + s.used, size, typeHash, siteId⟩).2 = true :=
        (SortedMap.emplace_inserted _).mpr h.cursor_fresh
      simp only [hle, hlt, or_self, if_false, hdead, hins, if_pos hfits, Bool.true_eq_false]
      rfl
    · have hno : ¬ s.Fits size := fun hf => hroom hf.2.2
      have hlt : s.capacity - s.used < UInt64.ofNat (roundUp8 size.toNat) := by
        rw [UInt64.lt_iff_toNat_lt, hsub, UInt64.toNat_ofNat_of_lt' hround]
        omega
      simp only [hlt, or_true, if_true, if_neg hno]
  · have hno : ¬ s.Fits size := fun hf => by
      have := hf.2.2
      omega
    rw [if_neg hround, if_neg hno]

/-! ### The effects on the heap -/

theorem find_record {s : Runtime} (h : Layout s) (size typeHash : UInt64) (siteId : SiteId)
    (p : UInt64) : (s.record size typeHash siteId).allocations.find p =
      if p = s.cursor then some ⟨s.cursor, size, typeHash, siteId⟩
      else s.allocations.find p :=
  SortedMap.find_emplace h.cursor_fresh _ p

theorem find_remove (s : Runtime) (q p : UInt64) : (s.remove q).allocations.find p =
    if p = q then none else s.allocations.find p :=
  SortedMap.find_erase s.allocations q p

theorem Layout.remove {s : Runtime} (h : Layout s) (q : UInt64) : Layout (s.remove q) where
  used_aligned := h.used_aligned
  used_le := h.used_le
  valid_iff := h.valid_iff
  invalid_unused := h.invalid_unused
  inArena p a hp := by
    rw [find_remove] at hp
    split at hp
    · cases hp
    · have hin := h.inArena p a hp
      exact ⟨hin.valid, hin.base_eq, hin.size_pos, hin.base_le, hin.offset_aligned, hin.end_le⟩
  separated := h.separated.erase q

theorem Layout.record {s : Runtime} (h : Layout s) {size : UInt64} (hf : s.Fits size)
    (typeHash : UInt64) (siteId : SiteId) : Layout (s.record size typeHash siteId) where
  used_aligned := by
    show 8 ∣ (s.used + UInt64.ofNat (roundUp8 size.toNat)).toNat
    rw [hf.toNat_used]
    exact Nat.dvd_add h.used_aligned (roundUp8_dvd _)
  used_le := by
    show (s.used + UInt64.ofNat (roundUp8 size.toNat)).toNat ≤ s.capacity.toNat
    rw [hf.toNat_used]
    exact hf.2.2
  valid_iff := h.valid_iff
  invalid_unused hv := absurd (hf.1.symm.trans hv) Bool.true_eq_false.mp
  inArena p a hp := by
    have hcur := h.toNat_cursor hf.1
    have hused : (s.record size typeHash siteId).used.toNat
        = s.used.toNat + roundUp8 size.toNat := hf.toNat_used
    have hbase : (s.record size typeHash siteId).base = s.base := rfl
    rw [find_record h] at hp
    split at hp
    · rename_i hpc
      subst hpc
      cases hp
      refine ⟨hf.1, rfl, ?_, ?_, ?_, ?_⟩
      · exact Nat.one_le_iff_ne_zero.mpr (fun h0 => hf.2.1 (UInt64.toNat_inj.mp h0))
      · rw [hbase, hcur]; omega
      · rw [hbase, hcur, Nat.add_sub_cancel_left]; exact h.used_aligned
      · rw [paddedEnd, hbase, hused]; simp only [hcur]; omega
    · have hin := h.inArena p a hp
      refine ⟨hin.valid, hin.base_eq, hin.size_pos, hin.base_le, hin.offset_aligned, ?_⟩
      have := hin.end_le
      rw [hbase, hused]
      omega
  separated := by
    have hcur := h.toNat_cursor hf.1
    refine h.separated.emplace (fun _ _ hlt => Word.toNat_strictMono hlt) h.cursor_fresh ?_ ?_
    · -- nothing lies at or above the cursor
      intro q b hq
      obtain ⟨hfind, hge, _⟩ := SortedMap.lowerBound_get_eq_some.mp hq
      have h1 := h.base_lt_cursor hfind
      have h2 := roundUp8_pos (Nat.ne_of_gt (h.inArena _ _ hfind).size_pos)
      have h3 := UInt64.le_iff_toNat_le.mp hge
      omega
    · intro q b hq
      obtain ⟨hfind, _, _⟩ := SortedMap.lowerBound_prev_eq_some.mp hq
      rw [hcur]
      exact (h.inArena q b hfind).end_le

end InterSpec.Runtime
