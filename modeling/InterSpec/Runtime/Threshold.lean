import InterSpec.Runtime.Check

/-!
# The remaining bytes and the check

Bridges copy as many bytes as `remaining_bytes` says, and the policy is stated by `check`.
The two are written separately; `remaining_exact` says that the one is the threshold of the
other, at every pointer, in every reachable state.
-/

namespace InterSpec

namespace Runtime

theorem remainingBytes_of_covers {s : Runtime} (h : Layout s) {ptr : UInt64} {a : Allocation}
    (ha : a ∈ s.live) (hc : a.Covers ptr) (expectedType bytes : UInt64) :
    s.remainingBytes ptr expectedType bytes =
      if a.typeHash ≠ expectedType then (.wrongType, bytes)
      else (.ok, a.size - (ptr - a.base)) := by
  rw [remainingBytes, (findAllocationUnlocked_eq_some h).mpr ⟨ha, hc⟩]

theorem remainingBytes_of_uncovered {s : Runtime} (h : Layout s) {ptr : UInt64}
    (hno : ∀ a ∈ s.live, ¬ a.Covers ptr) (expectedType bytes : UInt64) :
    s.remainingBytes ptr expectedType bytes = (.untracked, bytes) := by
  rw [remainingBytes, (findAllocationUnlocked_eq_none h).mpr hno]

/-- **The remaining bytes lead to the end of the record that covers the pointer.** -/
theorem remainingBytes_eq_ok {s : Runtime} (h : Layout s) {ptr expectedType bytes r : UInt64} :
    s.remainingBytes ptr expectedType bytes = (.ok, r) ↔
      ∃ a ∈ s.live, a.typeHash = expectedType ∧ a.Covers ptr ∧
        ptr.toNat + r.toNat = a.base.toNat + a.size.toNat := by
  constructor
  · intro hok
    by_cases hno : ∀ a ∈ s.live, ¬ a.Covers ptr
    · rw [remainingBytes_of_uncovered h hno] at hok
      cases hok
    · simp only [not_forall, not_not] at hno
      obtain ⟨a, ha, hc⟩ := hno
      rw [remainingBytes_of_covers h ha hc] at hok
      split at hok
      · cases hok
      · rename_i htype
        cases hok
        have hleft := Allocation.toNat_remaining hc
        have hend := hc.2
        exact ⟨a, ha, not_not.mp htype, hc, by omega⟩
  · rintro ⟨a, ha, rfl, hc, hend⟩
    have hleft := Allocation.toNat_remaining hc
    have hr : a.size - (ptr - a.base) = r := UInt64.toNat_inj.mp (by omega)
    rw [remainingBytes_of_covers h ha hc, if_neg (fun hne => hne rfl), hr]

theorem Allocation.covers_add {a : Allocation} {ptr k : UInt64} (hc : a.Covers ptr)
    (hlt : ptr.toNat + k.toNat < a.base.toNat + a.size.toNat)
    (hend : a.base.toNat + a.size.toNat < 2 ^ 64) :
    (ptr + k).toNat = ptr.toNat + k.toNat ∧ a.Covers (ptr + k) := by
  have hadd : (ptr + k).toNat = ptr.toNat + k.toNat := Word.toNat_add_of_lt (by omega)
  refine ⟨hadd, ?_, ?_⟩ <;> rw [hadd]
  · exact le_trans hc.1 (Nat.le_add_right _ _)
  · exact hlt

/-- **The remaining bytes are the exact threshold of the check**, in every reachable state.
An answer `ok` gives a number of bytes that is not 0, ends at the end of the covering record
without a wrap, and separates the lengths that the check grants from those it refuses; from
a pointer moved forward by fewer bytes, what remains is the difference.  Any other answer is
the answer of the check at every length, and leaves the caller's output alone. -/
theorem remaining_exact (arenaBase arenaSize : UInt64) (ops : List Op)
    (ptr expectedType bytes : UInt64) :
    let s := (new arenaBase arenaSize).after ops
    (∀ r, s.remainingBytes ptr expectedType bytes = (.ok, r) →
      1 ≤ r ∧
      (∃ a ∈ s.live, a.Covers ptr ∧ ptr.toNat + r.toNat = a.base.toNat + a.size.toNat ∧
        ptr.toNat + r.toNat < 2 ^ 64) ∧
      (∀ n, (s.check ptr n expectedType = .ok ↔ n ≤ r) ∧
        (s.check ptr n expectedType = .outOfBounds ↔ r < n)) ∧
      ∀ k, k < r → ∀ other, s.remainingBytes (ptr + k) expectedType other = (.ok, r - k)) ∧
    ∀ v out, v ≠ .ok → s.remainingBytes ptr expectedType bytes = (v, out) →
      out = bytes ∧ ∀ n, s.check ptr n expectedType = v := by
  intro s
  have h : Layout s := layout_reachable arenaBase arenaSize ops
  refine ⟨fun r hr => ?_, fun v out hv hr => ?_⟩
  · obtain ⟨a, ha, htype, hc, hend⟩ := (remainingBytes_eq_ok h).mp hr
    have hlt := h.end_lt ha
    have hcend := hc.2
    refine ⟨UInt64.le_iff_toNat_le.mpr ?_, ⟨a, ha, hc, hend, by omega⟩, fun n => ?_,
      fun k hk other => ?_⟩
    · show 1 ≤ r.toNat
      omega
    · rw [check_of_covers h ha hc, if_neg (not_not.mpr htype), UInt64.le_iff_toNat_le,
        UInt64.lt_iff_toNat_lt]
      by_cases hn : ptr.toNat + n.toNat ≤ a.base.toNat + a.size.toNat
      · rw [if_pos hn]
        exact ⟨iff_of_true rfl (by omega), iff_of_false nofun (by omega)⟩
      · rw [if_neg hn]
        exact ⟨iff_of_false nofun (by omega), iff_of_true rfl (by omega)⟩
    · have hk' : k.toNat < r.toNat := Word.toNat_strictMono hk
      obtain ⟨hadd, hmoved⟩ := Allocation.covers_add (k := k) hc (by omega) hlt
      have hsub : (r - k).toNat = r.toNat - k.toNat := Word.toNat_sub_of_le (by omega)
      exact (remainingBytes_eq_ok h).mpr ⟨a, ha, htype, hmoved, by omega⟩
  · by_cases hno : ∀ a ∈ s.live, ¬ a.Covers ptr
    · rw [remainingBytes_of_uncovered h hno] at hr
      cases hr
      exact ⟨rfl, fun n => check_of_uncovered h hno n expectedType⟩
    · simp only [not_forall, not_not] at hno
      obtain ⟨a, ha, hc⟩ := hno
      rw [remainingBytes_of_covers h ha hc] at hr
      split at hr
      · rename_i htype
        cases hr
        exact ⟨rfl, fun n => by rw [check_of_covers h ha hc, if_pos htype]⟩
      · cases hr
        exact absurd rfl hv

/-- At the last byte of a 12 byte record, whose padding ends 4 bytes later. -/
theorem remaining_exact_last :
    let s := (new 0x1000 0x40).after [.registerType 1 7, .allocate 12 1]
    ∀ n, (s.check 0x100b n 7 = .ok ↔ n ≤ 1) ∧ (s.check 0x100b n 7 = .outOfBounds ↔ 1 < n) :=
  ((remaining_exact 0x1000 0x40 [.registerType 1 7, .allocate 12 1] 0x100b 7 0).1 1
    (by decide)).2.2.1

end Runtime

end InterSpec
