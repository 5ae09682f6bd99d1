import InterSpec.Data.Pages
import Mathlib.Order.Interval.Set.LinearOrder

/-!
# The guard of the arena

The sandbox reserves one arena for the trusted side, and the calls of the untrusted side that
map, unmap or protect pages are refused when they touch it.  The pages of a call are its range
extended to whole pages of 64 KiB, and both the end of the range and its page may not fit in a
word.

* `typedArenaOverlaps`: the guard, in 64-bit words.
* `GuardExact`: what it should decide, in natural numbers.
* `typedArenaOverlaps_exact_iff`: it decides this but for a range that begins at 0 and ends on
  the last page.
* `arena_of_reserve`: what a reservation has to find to record such an arena.
* `munmap_refused_iff`: for the ranges of 32 bits that can be unmapped it is exact.
-/

namespace InterSpec.Backend

open Pages

/-- The bytes of a page. -/
def allocPage : Nat := 2 ^ 16

/-- The fields of the application that hold the arena. -/
structure NaClApp where
  typedArenaStart : UInt64
  typedArenaSize : UInt64
deriving DecidableEq, Repr

def naClRoundAllocPage (x : UInt64) : UInt64 := (x + 0xFFFF) &&& ~~~0xFFFF

/-- The application and the address that is returned, 0 for a failure; `mmapIntern` is the
address at which the system maps a size, if it does. -/
def reserveTypedArena (nap : NaClApp) (size : UInt64) (mmapIntern : UInt64 → Option UInt64) :
    NaClApp × UInt64 :=
  if size = 0 ∨ nap.typedArenaSize ≠ 0 then (nap, 0)
  else
    let size := naClRoundAllocPage size
    match mmapIntern size with
    | none => (nap, 0)
    | some addr => (⟨addr, size⟩, addr)

/-- The guard; its result is the truth value of an `int`. -/
def typedArenaOverlaps (nap : NaClApp) (start length : UInt64) : Bool :=
  if nap.typedArenaSize = 0 ∨ length = 0 then false
  else
    let stop := start + length
    if stop < start then true
    else
      let stop := naClRoundAllocPage stop
      if stop < start then true
      else
        let arenaEnd := nap.typedArenaStart + nap.typedArenaSize
        decide (start < arenaEnd) && decide (nap.typedArenaStart < stop)

/-- The calls of the untrusted side; `fixed` is the flag `NACL_ABI_MAP_FIXED`. -/
inductive Syscall
  | mmap (fixed : Bool) (start length : UInt64)
  | munmap (start length : UInt32)
  | mprotect (start : UInt32) (length : UInt64)
deriving DecidableEq, Repr

/-- The call is answered with `NACL_ABI_EINVAL` before anything else is done. -/
def Syscall.refused (nap : NaClApp) : Syscall → Bool
  | mmap fixed start length => fixed && typedArenaOverlaps nap start length
  | munmap start length => typedArenaOverlaps nap start.toUInt64 length.toUInt64
  | mprotect start length => typedArenaOverlaps nap start.toUInt64 length

/-! ### What it should decide -/

/-- An arena of whole pages inside the address space. -/
structure Arena (nap : NaClApp) : Prop where
  start_aligned : allocPage ∣ nap.typedArenaStart.toNat
  size_ne_zero : nap.typedArenaSize ≠ 0
  size_aligned : allocPage ∣ nap.typedArenaSize.toNat
  no_wrap : nap.typedArenaStart.toNat + nap.typedArenaSize.toNat < 2 ^ 64

/-- The bytes of the arena. -/
def arenaBytes (nap : NaClApp) : Set Nat :=
  Set.Ico nap.typedArenaStart.toNat (nap.typedArenaStart.toNat + nap.typedArenaSize.toNat)

/-- The end of the pages of a range. -/
def pageEnd (start length : UInt64) : Nat := roundUp allocPage (start.toNat + length.toNat)

/-- The bytes on the pages of a range. -/
def pageBytes (start length : UInt64) : Set Nat :=
  hull allocPage (Set.Ico start.toNat (start.toNat + length.toNat))

/-- **The guard misses no overlap, and finds none that is not there.** -/
structure GuardExact (nap : NaClApp) (start length : UInt64) : Prop where
  of_shared : (pageBytes start length ∩ arenaBytes nap).Nonempty →
    typedArenaOverlaps nap start length = true
  of_beyond : 2 ^ 64 - 1 < pageEnd start length → typedArenaOverlaps nap start length = true
  of_clear : pageEnd start length ≤ 2 ^ 64 - 1 → pageBytes start length ∩ arenaBytes nap = ∅ →
    typedArenaOverlaps nap start length = false

theorem pageBytes_eq {start : UInt64} (hstart : allocPage ∣ start.toNat) (length : UInt64) :
    pageBytes start length = Set.Ico start.toNat (pageEnd start length) :=
  hull_Ico (by decide) hstart

theorem le_pageEnd (start length : UInt64) : start.toNat + length.toNat ≤ pageEnd start length :=
  le_roundUp (by decide) _

theorem pos_of_ne_zero {length : UInt64} (h : length ≠ 0) : 0 < length.toNat :=
  UInt64.lt_iff_toNat_lt.mp (UInt64.pos_iff_ne_zero.mpr h)

theorem shared_iff {nap : NaClApp} (h : Arena nap) {start length : UInt64}
    (hstart : allocPage ∣ start.toNat) (hlength : length ≠ 0) :
    (pageBytes start length ∩ arenaBytes nap).Nonempty ↔
      start.toNat < nap.typedArenaStart.toNat + nap.typedArenaSize.toNat ∧
        nap.typedArenaStart.toNat < pageEnd start length := by
  have hend := le_pageEnd start length
  have hpos := pos_of_ne_zero hlength
  have hsize := pos_of_ne_zero h.size_ne_zero
  rw [pageBytes_eq hstart, arenaBytes, Set.Ico_inter_Ico, Set.nonempty_Ico, sup_lt_iff, lt_inf_iff,
    lt_inf_iff]
  constructor
  · rintro ⟨⟨-, hs⟩, ha, -⟩
    exact ⟨hs, ha⟩
  · rintro ⟨hs, ha⟩
    exact ⟨⟨by omega, hs⟩, ha, by omega⟩

/-! ### What it decides -/

theorem toNat_naClRoundAllocPage (x : UInt64) :
    (naClRoundAllocPage x).toNat = roundUp allocPage x.toNat % 2 ^ 64 := by
  have hmask : (0xFFFF : UInt64) = UInt64.ofNat (2 ^ 16 - 1) := by decide
  have hbits : 16 < 64 := by decide
  rw [naClRoundAllocPage, hmask, toNat_roundUp x hbits]
  rfl

theorem overlaps_of_wrap {nap : NaClApp} (h : Arena nap) {start length : UInt64}
    (hlength : length ≠ 0) (hwrap : 2 ^ 64 ≤ start.toNat + length.toNat) :
    typedArenaOverlaps nap start length = true := by
  have hstop : start + length < start := by
    have hlt := length.toNat_lt
    have hlt' := start.toNat_lt
    rw [UInt64.lt_iff_toNat_lt, UInt64.toNat_add]
    omega
  rw [typedArenaOverlaps, if_neg (not_or.mpr ⟨h.size_ne_zero, hlength⟩), if_pos hstop]

/-- **What is left to decide for a range that ends inside.** -/
theorem overlaps_of_not_wrap {nap : NaClApp} (h : Arena nap) {start length : UInt64}
    (hlength : length ≠ 0) (hstop : start.toNat + length.toNat < 2 ^ 64) :
    typedArenaOverlaps nap start length = true ↔
      pageEnd start length % 2 ^ 64 < start.toNat ∨
        start.toNat < nap.typedArenaStart.toNat + nap.typedArenaSize.toNat ∧
          nap.typedArenaStart.toNat < pageEnd start length % 2 ^ 64 := by
  have hnot : ¬ start + length < start := by
    rw [UInt64.lt_iff_toNat_lt, Word.toNat_add_of_lt hstop]
    omega
  have hpage : (naClRoundAllocPage (start + length)).toNat = pageEnd start length % 2 ^ 64 := by
    rw [toNat_naClRoundAllocPage, Word.toNat_add_of_lt hstop, pageEnd]
  rw [typedArenaOverlaps, if_neg (not_or.mpr ⟨h.size_ne_zero, hlength⟩), if_neg hnot, ← hpage,
    ← Word.toNat_add_of_lt h.no_wrap, ← UInt64.lt_iff_toNat_lt, ← UInt64.lt_iff_toNat_lt,
    ← UInt64.lt_iff_toNat_lt]
  by_cases hlt : naClRoundAllocPage (start + length) < start
  · rw [if_pos hlt]
    exact iff_of_true rfl (.inl hlt)
  · rw [if_neg hlt, Bool.and_eq_true, decide_eq_true_eq, decide_eq_true_eq]
    exact (or_iff_right hlt).symm

theorem pageEnd_eq_of_beyond {start length : UInt64}
    (hstop : start.toNat + length.toNat < 2 ^ 64) (hbeyond : 2 ^ 64 - 1 < pageEnd start length) :
    pageEnd start length = 2 ^ 64 := by
  have hle : pageEnd start length ≤ 2 ^ 64 :=
    (roundUp_le_iff (by decide) (by decide)).mpr (Nat.le_of_lt hstop)
  omega

theorem beyond_iff {start length : UInt64} :
    2 ^ 64 - 1 < pageEnd start length ↔ 2 ^ 64 - 2 ^ 16 < start.toNat + length.toNat := by
  have hdvd : allocPage ∣ 2 ^ 64 - 2 ^ 16 := by decide
  have hbelow := roundUp_le_iff (b := start.toNat + length.toNat) (by decide) hdvd
  obtain ⟨k, hk⟩ := dvd_roundUp allocPage (start.toNat + length.toNat)
  rw [← Nat.not_le, ← Nat.not_le, ← hbelow, ← pageEnd]
  have hpage : allocPage = 65536 := rfl
  rw [← pageEnd, hpage] at hk
  omega

/-- **For a range whose pages end inside, the guard decides whether they meet the arena.** -/
theorem overlaps_iff_of_fit {nap : NaClApp} (h : Arena nap) {start length : UInt64}
    (hstart : allocPage ∣ start.toNat) (hlength : length ≠ 0)
    (hfit : pageEnd start length ≤ 2 ^ 64 - 1) : typedArenaOverlaps nap start length = true ↔
      (pageBytes start length ∩ arenaBytes nap).Nonempty := by
  have hend := le_pageEnd start length
  have hstop : start.toNat + length.toNat < 2 ^ 64 := by omega
  have hiff := overlaps_of_not_wrap h hlength hstop
  rw [Nat.mod_eq_of_lt (by omega)] at hiff
  rw [hiff, shared_iff h hstart hlength]
  exact or_iff_right (by omega)

/-- **When the guard is exact.**  For an arena of whole pages and a range of at least one byte
that begins a page, the guard decides whether the pages of the range meet the arena or leave
the address space, if and only if the range does not both begin at 0 and end on the last
page. -/
theorem typedArenaOverlaps_exact_iff {nap : NaClApp} (h : Arena nap) {start length : UInt64}
    (hstart : allocPage ∣ start.toNat) (hlength : length ≠ 0) :
    GuardExact nap start length ↔ ¬ (start = 0 ∧ 2 ^ 64 - 2 ^ 16 < length.toNat) := by
  have hzero : (0 : UInt64).toNat = 0 := rfl
  by_cases hwrap : 2 ^ 64 ≤ start.toNat + length.toNat
  · -- the end of the range wraps, and it does not begin at 0
    have htrue := overlaps_of_wrap h hlength hwrap
    have hend := le_pageEnd start length
    refine iff_of_true ⟨fun _ => htrue, fun _ => htrue, fun hle => by omega⟩ ?_
    rintro ⟨rfl, -⟩
    have hlt := length.toNat_lt
    omega
  · have hstop := Nat.lt_of_not_le hwrap
    by_cases hbeyond : 2 ^ 64 - 1 < pageEnd start length
    · -- the end of its page wraps to 0
      have hiff := overlaps_of_not_wrap h hlength hstop
      rw [pageEnd_eq_of_beyond hstop hbeyond, Nat.mod_self] at hiff
      constructor
      · rintro hexact ⟨rfl, -⟩
        have htrue := hiff.mp (hexact.of_beyond hbeyond)
        omega
      · intro hnot
        have hne : start ≠ 0 := by
          rintro rfl
          have hlast := beyond_iff.mp hbeyond
          exact hnot ⟨rfl, by omega⟩
        have htrue := hiff.mpr (.inl (pos_of_ne_zero hne))
        exact ⟨fun _ => htrue, fun _ => htrue, fun hle => absurd hbeyond (Nat.not_lt.mpr hle)⟩
    · -- nothing wraps, and two half-open ranges are compared
      have hdecides := overlaps_iff_of_fit h hstart hlength (Nat.le_of_not_lt hbeyond)
      refine iff_of_true ⟨hdecides.mpr, fun hlt => absurd hlt hbeyond, fun _ hclear => ?_⟩ ?_
      · rw [← Bool.not_eq_true, hdecides, hclear]
        exact Set.not_nonempty_empty
      · rintro ⟨rfl, hlast⟩
        exact hbeyond (beyond_iff.mpr (by omega))

/-- An arena of one page, behind the first one. -/
def secondPage : NaClApp := ⟨0x10000, 0x10000⟩

theorem arena_secondPage : Arena secondPage where
  start_aligned := by decide
  size_ne_zero := by decide
  size_aligned := by decide
  no_wrap := by decide

theorem typedArenaOverlaps_exact_iff_behind : GuardExact secondPage 0x20000 1 :=
  (typedArenaOverlaps_exact_iff arena_secondPage (by decide) (by decide)).mpr (by decide)

/-- **The range from 0 to the last byte is accepted**, although the arena is in it. -/
theorem typedArenaOverlaps_misses : Arena secondPage ∧
    typedArenaOverlaps secondPage 0 0xFFFFFFFFFFFFFFFF = false ∧
      ¬ GuardExact secondPage 0 0xFFFFFFFFFFFFFFFF := by
  have hfalse : typedArenaOverlaps secondPage 0 0xFFFFFFFFFFFFFFFF = false := by decide
  refine ⟨arena_secondPage, hfalse, fun h => ?_⟩
  rw [h.of_beyond (by decide)] at hfalse
  cases hfalse

/-! ### The calls -/

/-- **A reservation that succeeds records an arena**, if the system maps it at a page and inside
the address space, and the size can be rounded. -/
theorem arena_of_reserve {nap : NaClApp} {size addr : UInt64}
    {mmapIntern : UInt64 → Option UInt64} (hnap : nap.typedArenaSize = 0) (hsize : size ≠ 0)
    (hround : size.toNat ≤ 2 ^ 64 - 2 ^ 16)
    (hmap : mmapIntern (naClRoundAllocPage size) = some addr) (haddr : allocPage ∣ addr.toNat)
    (hfit : addr.toNat + (naClRoundAllocPage size).toNat < 2 ^ 64) :
    (reserveTypedArena nap size mmapIntern).2 = addr ∧
      Arena (reserveTypedArena nap size mmapIntern).1 := by
  have hreserve : reserveTypedArena nap size mmapIntern =
      (⟨addr, naClRoundAllocPage size⟩, addr) := by
    rw [reserveTypedArena, if_neg (not_or.mpr ⟨hsize, fun h => h hnap⟩)]
    simp only [hmap]
  have hle : roundUp allocPage size.toNat ≤ 2 ^ 64 - 2 ^ 16 :=
    (roundUp_le_iff (by decide) (by decide)).mpr hround
  have hnat : (naClRoundAllocPage size).toNat = roundUp allocPage size.toNat := by
    rw [toNat_naClRoundAllocPage, Nat.mod_eq_of_lt (by omega)]
  have hge : size.toNat ≤ roundUp allocPage size.toNat := le_roundUp (by decide) _
  rw [hreserve]
  refine ⟨rfl, haddr, ?_, ?_, hfit⟩
  · intro hzero
    have hpos := pos_of_ne_zero hsize
    have hzero : (naClRoundAllocPage size).toNat = 0 := congrArg UInt64.toNat hzero
    omega
  · show allocPage ∣ (naClRoundAllocPage size).toNat
    rw [hnat]
    exact dvd_roundUp _ _

/-- **A range of 32 bits is unmapped exactly when its pages do not meet the arena.** -/
theorem munmap_refused_iff {nap : NaClApp} (h : Arena nap) {start length : UInt32}
    (hstart : allocPage ∣ start.toNat) (hlength : length ≠ 0) :
    (Syscall.munmap start length).refused nap = true ↔
      (pageBytes start.toUInt64 length.toUInt64 ∩ arenaBytes nap).Nonempty := by
  have hne : length.toUInt64 ≠ 0 := by
    intro hzero
    refine hlength (UInt32.toNat_inj.mp ?_)
    rw [← UInt32.toNat_toUInt64, hzero]
    rfl
  refine overlaps_iff_of_fit h (by rw [UInt32.toNat_toUInt64]; exact hstart) hne ?_
  have hs := start.toNat_lt
  have hl := length.toNat_lt
  have hle := roundUp_le_add allocPage (start.toNat + length.toNat)
  have hpage : allocPage = 65536 := rfl
  rw [pageEnd, UInt32.toNat_toUInt64, UInt32.toNat_toUInt64]
  omega

end InterSpec.Backend
