import InterSpec.Tools.Uses

/-!
# What a generated check grants

The label based header checks the extent `offset + bytes` from the base and then hands out
the address `base + offset`, a sum that it computes again.

* `InObject`: the access lies in the record, as numbers.
* `AccessLaw`: the results a check may have for an access.
* `access_exact`: the fixed check and the dynamic one obey it.
-/

namespace InterSpec.Tools

open InterSpec.Runtime

/-- The base points into the record, and the access ends in it. -/
def InObject (a : Allocation) (typeHash base offset bytes : UInt64) : Prop :=
  a.typeHash = typeHash ∧ a.Covers base ∧
    base.toNat + offset.toNat + bytes.toNat ≤ a.base.toNat + a.size.toNat

/-- An access is granted exactly when it lies in a live record; it then starts `offset`
bytes behind the base and lies in that record.  A refusal carries no address. -/
structure AccessLaw (s : Runtime) (typeHash base offset bytes : UInt64) (r : CheckedAccess) :
    Prop where
  ok_iff : r.result = .ok ↔ ∃ a ∈ s.live, InObject a typeHash base offset bytes
  granted : ∀ a ∈ s.live, InObject a typeHash base offset bytes →
    r.address.toNat = base.toNat + offset.toNat ∧ r.bytes = bytes ∧
      a.base.toNat ≤ r.address.toNat ∧
      r.address.toNat + r.bytes.toNat ≤ a.base.toNat + a.size.toNat
  unique : ∀ a ∈ s.live, ∀ b ∈ s.live, InObject a typeHash base offset bytes → b.Covers base →
    b = a
  refused : r.result ≠ .ok → r.address = 0 ∧ r.bytes = 0

theorem toNat_extent {offset bytes : UInt64} (h : ¬ Word.max64 - bytes < offset) :
    (offset + bytes).toNat = offset.toNat + bytes.toNat := by
  have hbytes := bytes.toNat_lt
  have hmax : (Word.max64 - bytes).toNat = 2 ^ 64 - 1 - bytes.toNat :=
    Word.toNat_sub_of_le (by rw [Word.toNat_max64]; omega)
  have hle := UInt64.le_iff_toNat_le.mp (not_lt.mp h)
  exact Word.toNat_add_of_lt (by omega)

theorem not_inObject_of_over {s : Runtime} (h : Layout s) {typeHash base offset bytes : UInt64}
    (hover : Word.max64 - bytes < offset) {a : Allocation} (ha : a ∈ s.live) :
    ¬ InObject a typeHash base offset bytes := by
  rintro ⟨_, _, hend⟩
  have hlt := h.end_lt ha
  have hbytes := bytes.toNat_lt
  have hmax : (Word.max64 - bytes).toNat = 2 ^ 64 - 1 - bytes.toNat :=
    Word.toNat_sub_of_le (by rw [Word.toNat_max64]; omega)
  have hoff := UInt64.lt_iff_toNat_lt.mp hover
  omega

/-- **A check that compares the extent obeys the law.** -/
theorem accessLaw_of_check {s : Runtime} (h : Layout s) {typeHash base offset bytes : UInt64}
    {r : CheckedAccess} (hr : r = if Word.max64 - bytes < offset then ⟨.outOfBounds, 0, 0⟩
      else if s.check base (offset + bytes) typeHash ≠ .ok then
        ⟨s.check base (offset + bytes) typeHash, 0, 0⟩
      else ⟨s.check base (offset + bytes) typeHash, base + offset, bytes⟩) :
    AccessLaw s typeHash base offset bytes r := by
  have hunique : ∀ a ∈ s.live, ∀ b ∈ s.live, InObject a typeHash base offset bytes →
      b.Covers base → b = a := fun a ha b hb hin hc => h.covers_unique hb ha hc hin.2.1
  by_cases hover : Word.max64 - bytes < offset
  · rw [if_pos hover] at hr
    subst hr
    exact ⟨iff_of_false nofun (fun ⟨a, ha, hin⟩ => not_inObject_of_over h hover ha hin),
      fun a ha hin => absurd hin (not_inObject_of_over h hover ha), hunique, fun _ => ⟨rfl, rfl⟩⟩
  rw [if_neg hover] at hr
  have hcheck : s.check base (offset + bytes) typeHash = .ok ↔
      ∃ a ∈ s.live, InObject a typeHash base offset bytes := by
    rw [check_eq_ok_iff h, toNat_extent hover]
    simp only [InObject, Nat.add_assoc]
  by_cases hok : s.check base (offset + bytes) typeHash = .ok
  · rw [if_neg (fun hne => hne hok)] at hr
    subst hr
    refine ⟨hcheck, fun a ha hin => ?_, hunique, fun hne => absurd hok hne⟩
    have hend := hin.2.2
    have hlt := h.end_lt ha
    have hbase := hin.2.1.1
    have haddr : (base + offset).toNat = base.toNat + offset.toNat :=
      Word.toNat_add_of_lt (by omega)
    refine ⟨haddr, rfl, ?_, ?_⟩ <;> rw [haddr] <;> omega
  · rw [if_pos hok] at hr
    subst hr
    exact ⟨hcheck, fun a ha hin => absurd (hcheck.mpr ⟨a, ha, hin⟩) hok, hunique,
      fun _ => ⟨rfl, rfl⟩⟩

/-- **The generated checks grant only ranges inside one object.**  In every reachable state,
for any base, policy and length, the fixed check obeys the law with the length of the
policy; the dynamic check obeys it with the length of the call when the policy has 0 bytes,
and refuses otherwise. -/
theorem access_exact (arenaBase arenaSize : UInt64) (ops : List Op) (base dynamicBytes : UInt64)
    (policy : AccessPolicy) :
    let s := (new arenaBase arenaSize).after ops
    AccessLaw s policy.typeHash base policy.offset policy.bytes (checkedAccess s base policy) ∧
    (policy.bytes = 0 → AccessLaw s policy.typeHash base policy.offset dynamicBytes
      (checkedDynamicAccess s base dynamicBytes policy)) ∧
    (policy.bytes ≠ 0 →
      checkedDynamicAccess s base dynamicBytes policy = ⟨.outOfBounds, 0, 0⟩) := by
  intro s
  have h : Layout s := layout_reachable arenaBase arenaSize ops
  refine ⟨accessLaw_of_check h rfl, fun hz => ?_, fun hne => if_pos (.inl hne)⟩
  refine accessLaw_of_check h ?_
  have hguard : (policy.bytes ≠ 0 ∨ Word.max64 - dynamicBytes < policy.offset) ↔
      Word.max64 - dynamicBytes < policy.offset :=
    or_iff_right (fun hne => hne hz)
  simp only [checkedDynamicAccess, hguard]

/-- A dynamic access that fills an 8 byte record from its third byte on. -/
theorem access_exact_inside : AccessLaw (oneRecord 7) 7 0x1001 1 6
    (checkedDynamicAccess (oneRecord 7) 0x1001 6 ⟨7, 1, 0⟩) :=
  (access_exact 0x1000 0x100 [.registerType 1 7, .allocate 8 1] 0x1001 6 ⟨7, 1, 0⟩).2.1 rfl

end InterSpec.Tools
