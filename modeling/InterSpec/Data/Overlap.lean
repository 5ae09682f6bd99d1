import InterSpec.Data.Regex
import Mathlib.Data.List.Infix

/-!
# Texts whose occurrences do not overlap

Two texts are apart when no occurrence of the one can share a place with an occurrence of the
other.  A part of a text that is apart from what is replaced in it is still there afterwards,
wherever the replacement is made.

* `Overlap.Apart`, and `Overlap.clash`, which decides it.
* `Apart.occurrence`: where a text can occur around one that is apart from it.
* `Apart.infix_replace`: what is apart from the replaced text stays.
* `Apart.find_around`, `Apart.count_around`: searching and counting around such a text.
-/

namespace Overlap

variable {α : Type}

/-- The second text can begin inside the first one, or at its beginning. -/
def Clash (a b : List α) : Prop := ∃ t, t ≠ [] ∧ t <:+ a ∧ (t <+: b ∨ b <+: t)

structure Apart (a b : List α) : Prop where
  left : ¬ Clash a b
  right : ¬ Clash b a

theorem Apart.symm {a b : List α} (h : Apart a b) : Apart b a := ⟨h.right, h.left⟩

/-! ### Replacing -/

/-- Where two texts occur in one, with the first one first, they are behind each other. -/
theorem split_of_not_clash {a b x y z : List α} (hclash : ¬ Clash a b) (h : a ++ y = x ++ b ++ z)
    (ha : a ≠ []) : ∃ u, x = a ++ u ∧ y = u ++ b ++ z := by
  rw [List.append_assoc] at h
  rcases List.append_eq_append_iff.mp h with ⟨u, rfl, rfl⟩ | ⟨t, rfl, ht⟩
  · exact ⟨u, rfl, (List.append_assoc u b z).symm⟩
  · -- `t` is the part of `a` from the beginning of `b` on
    by_cases hnil : t = []
    · subst hnil
      exact ⟨[], by rw [List.append_nil, List.append_nil], ht.symm⟩
    · refine absurd ⟨t, hnil, List.suffix_append x t, ?_⟩ hclash
      rcases List.append_eq_append_iff.mp ht with ⟨u, hu, _⟩ | ⟨u, hu, _⟩
      · exact .inr ⟨u, hu.symm⟩
      · exact .inl ⟨u, hu.symm⟩

/-- **An occurrence of a text that is apart from another one is before or behind it.** -/
theorem Apart.occurrence {s mid before behind x y : List α} (h : Apart s mid) (hs : s ≠ [])
    (hmid : mid ≠ []) (heq : before ++ mid ++ behind = x ++ s ++ y) :
    (∃ u, before = x ++ s ++ u ∧ y = u ++ mid ++ behind) ∨
      ∃ u, behind = u ++ s ++ y ∧ x = before ++ mid ++ u := by
  rw [List.append_assoc, List.append_assoc] at heq
  rcases List.append_eq_append_iff.mp heq.symm with ⟨u, rfl, hu⟩ | ⟨u, rfl, hu⟩
  · -- `s` begins before `mid`
    obtain ⟨v, rfl, hy⟩ := split_of_not_clash h.left
      (hu.trans (List.append_assoc u mid behind).symm) hs
    exact .inl ⟨v, (List.append_assoc x s v).symm, hy⟩
  · -- `mid` begins before `s`, or where it does
    obtain ⟨v, rfl, hbehind⟩ := split_of_not_clash h.right
      (hu.trans (List.append_assoc u s y).symm) hmid
    exact .inr ⟨v, hbehind, (List.append_assoc before mid v).symm⟩

/-- **A part that is apart from the replaced text stays.** -/
theorem Apart.infix_replace {keep old new before behind : List α} (h : Apart keep old)
    (hold : old ≠ []) (hin : keep <:+: before ++ old ++ behind) :
    keep <:+: before ++ new ++ behind := by
  by_cases hkeep : keep = []
  · rw [hkeep]
    exact List.nil_infix
  obtain ⟨x, y, hxy⟩ := hin
  rcases h.occurrence hkeep hold hxy.symm with ⟨u, rfl, _⟩ | ⟨u, rfl, _⟩
  · exact ⟨x, u ++ new ++ behind, by simp only [List.append_assoc]⟩
  · exact ⟨before ++ new ++ u, y, by simp only [List.append_assoc]⟩

/-! ### Deciding -/

variable [DecidableEq α]

def clash : List α → List α → Bool
  | [], _ => false
  | c :: s, b => (c :: s).isPrefixOf b || b.isPrefixOf (c :: s) || clash s b

theorem clash_eq_true {a b : List α} (h : Clash a b) : clash a b = true := by
  obtain ⟨t, hne, hsuffix, hshared⟩ := h
  induction a with
  | nil => exact absurd (List.suffix_nil.mp hsuffix) hne
  | cons c s ih =>
    rw [clash, Bool.or_eq_true, Bool.or_eq_true, List.isPrefixOf_iff_prefix,
      List.isPrefixOf_iff_prefix]
    rcases List.suffix_cons_iff.mp hsuffix with rfl | hsuffix
    · exact .inl hshared
    · exact .inr (ih hsuffix)

theorem Apart.of_clash {a b : List α} (h : (clash a b || clash b a) = false) : Apart a b := by
  obtain ⟨hab, hba⟩ := Bool.or_eq_false_iff.mp h
  refine ⟨fun h => ?_, fun h => ?_⟩
  · exact nomatch hab.symm.trans (clash_eq_true h)
  · exact nomatch hba.symm.trans (clash_eq_true h)

/-! ### Searching around a text that is apart -/

section Find

variable {s mid before behind : List α} {h : s ≠ []}

/-- **The first occurrence is the one before it, or else the one behind it.** -/
theorem Apart.find_around (hs : Apart s mid) (hmid : mid ≠ []) :
    (Regex.plain s h).find (before ++ mid ++ behind) =
      match (Regex.plain s h).find before with
      | some (x, u) => some (x, u ++ mid ++ behind)
      | none => ((Regex.plain s h).find behind).map fun found =>
          (before ++ mid ++ found.1, found.2) := by
  cases hbefore : (Regex.plain s h).find before with
  | some found =>
    obtain ⟨x, u⟩ := found
    obtain ⟨hx, hleast⟩ := Regex.find_plain_eq_some_iff.mp hbefore
    refine Regex.find_plain_eq_some_iff.mpr ⟨?_, fun a b hab => ?_⟩
    · rw [hx]
      simp only [List.append_assoc]
    · rcases hs.occurrence h hmid hab with ⟨v, hv, _⟩ | ⟨v, _, rfl⟩
      · exact hleast a v hv
      · rw [hx]
        simp only [List.length_append]
        omega
  | none =>
    have hnone : ∀ a b, before ≠ a ++ s ++ b := fun a b hab => by
      have hsome : ((Regex.plain s h).find before).isSome :=
        Regex.find_plain_isSome_iff.mpr ⟨a, b, hab.symm⟩
      rw [hbefore] at hsome
      cases hsome
    cases hbehind : (Regex.plain s h).find behind with
    | some found =>
      obtain ⟨x, u⟩ := found
      obtain ⟨hx, hleast⟩ := Regex.find_plain_eq_some_iff.mp hbehind
      refine Regex.find_plain_eq_some_iff.mpr ⟨?_, fun a b hab => ?_⟩
      · rw [hx]
        simp only [List.append_assoc]
      · rcases hs.occurrence h hmid hab with ⟨v, hv, _⟩ | ⟨v, hv, rfl⟩
        · exact absurd hv (hnone a v)
        · have hle := hleast v b hv
          simp only [List.length_append]
          omega
    | none =>
      cases hfind : (Regex.plain s h).find (before ++ mid ++ behind) with
      | none => rfl
      | some found =>
        obtain ⟨a, b⟩ := found
        rcases hs.occurrence h hmid (Regex.eq_of_find_plain hfind) with ⟨v, hv, _⟩ | ⟨v, hv, _⟩
        · exact absurd hv (hnone a v)
        · have hsome : ((Regex.plain s h).find behind).isSome :=
            Regex.find_plain_isSome_iff.mpr ⟨v, b, hv.symm⟩
          rw [hbehind] at hsome
          cases hsome

/-- **The occurrences before it and those behind it are counted.** -/
theorem Apart.count_around (hs : Apart s mid) (hmid : mid ≠ []) :
    (Regex.plain s h).count (before ++ mid ++ behind) =
      (Regex.plain s h).count before + (Regex.plain s h).count behind := by
  induction hn : before.length using Nat.strongRecOn generalizing before with
  | ind n ih =>
    have haround : (Regex.plain s h).find (before ++ mid ++ behind) = _ := hs.find_around hmid
    cases hbefore : (Regex.plain s h).find before with
    | some found =>
      obtain ⟨x, u⟩ := found
      rw [hbefore] at haround
      have hlt := Regex.find_length hbefore
      rw [Regex.count_of_some haround, Regex.count_of_some hbefore,
        ih u.length (by omega) rfl]
      omega
    | none =>
      rw [hbefore] at haround
      rw [Regex.count_of_none hbefore, Nat.zero_add]
      cases hbehind : (Regex.plain s h).find behind with
      | some found =>
        obtain ⟨x, u⟩ := found
        rw [hbehind] at haround
        rw [Regex.count_of_some haround, Regex.count_of_some hbehind]
      | none =>
        rw [hbehind] at haround
        rw [Regex.count_of_none haround, Regex.count_of_none hbehind]

end Find

end Overlap
