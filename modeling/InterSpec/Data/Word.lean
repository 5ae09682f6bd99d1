import Mathlib.Order.Defs.LinearOrder
import Mathlib.Data.Nat.Bitwise
import Mathlib.Tactic.Common

/-!
# Machine words

Linear orders on the 32-bit and the 64-bit words, so that they can be keys of a
sorted map, and the arithmetic of 64-bit words read as natural numbers.

* `toNat_add_of_lt`, `toNat_sub_of_le`: a sum or a difference that does not
  wrap is the sum or the difference of the numbers.
* `toNat_and_not_mask`: clearing the low `k` bits rounds down to a multiple of
  `2 ^ k`.
* `toNat_ofInt`: an integer that fits a 32-bit word is kept.
* `addTrap`, `subTrap`: the same operations, trapping when they would wrap.
  A computation written with them returns exactly when nothing wraps.
-/

namespace Word

instance linearOrder64 : LinearOrder UInt64 where
  le_refl := UInt64.le_refl
  le_trans _ _ _ := UInt64.le_trans
  le_antisymm _ _ := UInt64.le_antisymm
  le_total := UInt64.le_total
  lt_iff_le_not_ge a b := by
    simp only [UInt64.lt_iff_toNat_lt, UInt64.le_iff_toNat_le]
    omega
  toDecidableLE := inferInstance
  toDecidableLT := inferInstance
  toDecidableEq := inferInstance

instance linearOrder32 : LinearOrder UInt32 where
  le_refl := UInt32.le_refl
  le_trans _ _ _ := UInt32.le_trans
  le_antisymm _ _ := UInt32.le_antisymm
  le_total := UInt32.le_total
  lt_iff_le_not_ge a b := by
    simp only [UInt32.lt_iff_toNat_lt, UInt32.le_iff_toNat_le]
    omega
  toDecidableLE := inferInstance
  toDecidableLT := inferInstance
  toDecidableEq := inferInstance

theorem toNat_strictMono {a b : UInt64} (h : a < b) : a.toNat < b.toNat :=
  UInt64.lt_iff_toNat_lt.mp h

/-- The greatest 64-bit word. -/
def max64 : UInt64 := UInt64.ofNat (2 ^ 64 - 1)

@[simp] theorem toNat_max64 : max64.toNat = 2 ^ 64 - 1 := rfl

theorem toNat_add_of_lt {a b : UInt64} (h : a.toNat + b.toNat < 2 ^ 64) :
    (a + b).toNat = a.toNat + b.toNat := by
  rw [UInt64.toNat_add, Nat.mod_eq_of_lt h]

theorem toNat_sub_of_le {a b : UInt64} (h : b.toNat ≤ a.toNat) :
    (a - b).toNat = a.toNat - b.toNat :=
  UInt64.toNat_sub_of_le a b (UInt64.le_iff_toNat_le.mpr h)

/-! ### Clearing low bits -/

theorem and_shifted_ones (n k w : Nat) (hn : n < 2 ^ w) (hk : k ≤ w) :
    n &&& (2 ^ w - 1 - (2 ^ k - 1)) = n / 2 ^ k * 2 ^ k := by
  have hmask : 2 ^ w - 1 - (2 ^ k - 1) = (2 ^ (w - k) - 1) * 2 ^ k := by
    rw [Nat.sub_mul, ← pow_add, Nat.sub_add_cancel hk]
    have := Nat.one_le_two_pow (n := k)
    omega
  refine Nat.eq_of_testBit_eq (fun i => ?_)
  rw [hmask, Nat.testBit_and, Nat.testBit_mul_two_pow, Nat.testBit_mul_two_pow,
    Nat.testBit_two_pow_sub_one, Nat.testBit_div_two_pow]
  by_cases hi : k ≤ i
  · rw [Nat.sub_add_cancel hi]
    by_cases hw : i < w
    · simp [hi, show i - k < w - k by omega]
    · -- past the width there is no bit left
      have hbit : n.testBit i = false :=
        Nat.testBit_lt_two_pow (lt_of_lt_of_le hn (Nat.pow_le_pow_right (by decide) (by omega)))
      simp [hbit]
  · simp [hi]

/-- **Clearing the low `k` bits rounds down to a multiple of `2 ^ k`.** -/
theorem toNat_and_not_mask (a : UInt64) {k : Nat} (hk : k < 64) :
    (a &&& ~~~(UInt64.ofNat (2 ^ k - 1))).toNat = a.toNat / 2 ^ k * 2 ^ k := by
  have hlt : 2 ^ k - 1 < 2 ^ 64 := by
    have : 2 ^ k < 2 ^ 64 := Nat.pow_lt_pow_right (by decide) hk
    omega
  rw [UInt64.toNat_and, UInt64.toNat_not, UInt64.toNat_ofNat_of_lt' hlt]
  exact and_shifted_ones a.toNat k 64 a.toNat_lt hk.le

/-! ### Trapping arithmetic -/

/-- The sum, if it does not wrap. -/
def addTrap (a b : UInt64) : Option UInt64 :=
  if a.toNat + b.toNat < 2 ^ 64 then some (a + b) else none

/-- The difference, if it does not underflow. -/
def subTrap (a b : UInt64) : Option UInt64 :=
  if b.toNat ≤ a.toNat then some (a - b) else none

theorem addTrap_of_lt {a b : UInt64} (h : a.toNat + b.toNat < 2 ^ 64) :
    addTrap a b = some (a + b) := if_pos h

theorem subTrap_of_le {a b : UInt64} (h : b.toNat ≤ a.toNat) :
    subTrap a b = some (a - b) := if_pos h

/-! ### Integers as 32-bit words -/

theorem ofInt_natCast (n : Nat) : UInt32.ofInt (n : Int) = UInt32.ofNat n := by
  apply UInt32.toNat_inj.mp
  rw [UInt32.ofInt, UInt32.toNat_ofNat', UInt32.toNat_ofNat']
  omega

theorem toNat_ofInt {x : Int} (h0 : 0 ≤ x) (h : x < 2 ^ 32) :
    ((UInt32.ofInt x).toNat : Int) = x := by
  rw [UInt32.ofInt, UInt32.toNat_ofNat']
  omega

/-- Integers that fit a 32-bit word are different words when they are different. -/
theorem ofInt_injective {x y : Int} (hx : 0 ≤ x ∧ x < 2 ^ 32) (hy : 0 ≤ y ∧ y < 2 ^ 32)
    (h : UInt32.ofInt x = UInt32.ofInt y) : x = y := by
  have hnat := congrArg (fun w : UInt32 => (w.toNat : Int)) h
  rwa [show ((UInt32.ofInt x).toNat : Int) = x from toNat_ofInt hx.1 hx.2,
    show ((UInt32.ofInt y).toNat : Int) = y from toNat_ofInt hy.1 hy.2] at hnat

theorem ofInt_ne_zero {x : Int} (h0 : 0 < x) (h : x < 2 ^ 32) : UInt32.ofInt x ≠ 0 := by
  intro hz
  have hnat := toNat_ofInt (Int.le_of_lt h0) h
  rw [hz] at hnat
  have : ((0 : UInt32).toNat : Int) = 0 := rfl
  omega

end Word
