import InterSpec.Data.Word
import Mathlib.Order.Interval.Set.Defs

/-!
# Whole pages

Addresses in pages of `p` bytes.  A range of addresses is extended to the pages it touches,
which for a range that begins a page means that its end is rounded up.

* `roundUp`: the first multiple of `p` that is not below an address.
* `hull`: the addresses that share a page with a set; `hull_Ico` computes it for a range.
* `toNat_roundUp`: rounding up by a mask, in 64-bit words, is rounding up and wrapping.
-/

namespace Pages

variable {p a b x : Nat}

/-! ### Rounding up -/

/-- The least multiple of `p` that is at least `b`. -/
def roundUp (p b : Nat) : Nat := (b + (p - 1)) / p * p

theorem dvd_roundUp (p b : Nat) : p ∣ roundUp p b := Nat.dvd_mul_left _ _

theorem le_roundUp (hp : 0 < p) (b : Nat) : b ≤ roundUp p b := by
  have hlt := Nat.lt_div_mul_add (a := b + (p - 1)) hp
  unfold roundUp
  omega

theorem roundUp_le_add (p b : Nat) : roundUp p b ≤ b + (p - 1) := Nat.div_mul_le_self _ _

/-- **A multiple of `p` is at least the rounded address when it is at least the address.** -/
theorem roundUp_le_iff (hp : 0 < p) (ha : p ∣ a) : roundUp p b ≤ a ↔ b ≤ a := by
  constructor
  · exact Nat.le_trans (le_roundUp hp b)
  · intro h
    obtain ⟨k, rfl⟩ := ha
    rw [roundUp, Nat.mul_comm p k]
    refine Nat.mul_le_mul_right p (Nat.lt_succ_iff.mp ((Nat.div_lt_iff_lt_mul hp).mpr ?_))
    rw [Nat.succ_mul, Nat.mul_comm k p]
    omega

/-- An address is below the rounded one when the beginning of its page is below the address
that is rounded. -/
theorem lt_roundUp_iff (hp : 0 < p) : x < roundUp p b ↔ x / p * p < b := by
  have hpage := Nat.lt_div_mul_add (a := x) hp
  constructor
  · intro h
    by_contra hle
    have hround := (roundUp_le_iff hp (Nat.dvd_mul_left p (x / p))).mpr (Nat.le_of_not_lt hle)
    have hbegin := Nat.div_mul_le_self x p
    omega
  · intro h
    obtain ⟨k, hk⟩ := dvd_roundUp p b
    have hb := le_roundUp hp b
    rw [hk, Nat.mul_comm p k] at hb ⊢
    exact (Nat.div_lt_iff_lt_mul hp).mp
      (Nat.lt_of_mul_lt_mul_right (Nat.lt_of_lt_of_le h hb))

/-! ### The pages of a set -/

/-- The addresses on the pages that the set touches. -/
def hull (p : Nat) (s : Set Nat) : Set Nat := {x | ∃ y ∈ s, y / p = x / p}

/-- **The pages of a range that begins a page end where its end is rounded up to.** -/
theorem hull_Ico (hp : 0 < p) (ha : p ∣ a) :
    hull p (Set.Ico a b) = Set.Ico a (roundUp p b) := by
  obtain ⟨k, rfl⟩ := ha
  ext x
  constructor
  · rintro ⟨y, ⟨hle, hlt⟩, hpage⟩
    refine ⟨?_, (lt_roundUp_iff hp).mpr ?_⟩
    · have hk := (Nat.le_div_iff_mul_le hp).mpr (Nat.mul_comm p k ▸ hle)
      rw [hpage] at hk
      exact Nat.mul_comm p k ▸ (Nat.le_div_iff_mul_le hp).mp hk
    · rw [← hpage]
      exact Nat.lt_of_le_of_lt (Nat.div_mul_le_self y p) hlt
  · rintro ⟨hle, hlt⟩
    have hk := (Nat.le_div_iff_mul_le hp).mpr (Nat.mul_comm p k ▸ hle)
    refine ⟨x / p * p, ⟨?_, (lt_roundUp_iff hp).mp hlt⟩, Nat.mul_div_cancel _ hp⟩
    rw [Nat.mul_comm p k]
    exact Nat.mul_le_mul_right p hk

/-! ### In words -/

theorem mod_div_mul (x : Nat) {k w : Nat} (hk : k ≤ w) :
    x % 2 ^ w / 2 ^ k * 2 ^ k = x / 2 ^ k * 2 ^ k % 2 ^ w := by
  obtain ⟨d, rfl⟩ := Nat.exists_eq_add_of_le hk
  rw [Nat.pow_add, Nat.mod_mul_right_div_self, Nat.mul_comm (2 ^ k) (2 ^ d),
    Nat.mul_mod_mul_right]

/-- **Rounding up by a mask**: the sum may wrap, and what is above the last page is 0. -/
theorem toNat_roundUp (a : UInt64) {k : Nat} (hk : k < 64) :
    ((a + UInt64.ofNat (2 ^ k - 1)) &&& ~~~(UInt64.ofNat (2 ^ k - 1))).toNat =
      roundUp (2 ^ k) a.toNat % 2 ^ 64 := by
  have hlt : 2 ^ k - 1 < 2 ^ 64 := by
    have hpow : 2 ^ k < 2 ^ 64 := Nat.pow_lt_pow_right (by decide) hk
    omega
  rw [Word.toNat_and_not_mask _ hk, UInt64.toNat_add, UInt64.toNat_ofNat_of_lt' hlt,
    mod_div_mul _ (Nat.le_of_lt hk), roundUp]

end Pages
