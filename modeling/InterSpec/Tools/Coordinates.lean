import InterSpec.Tools.Lines
import Mathlib.Data.List.DropRight

/-!
# Coordinates of characters

A policy names a character by its line and its column.  The coordinates are made by counting
newlines, and `sourceOffset` reads them with the line boundaries of `str.splitlines`, which
are more than the newlines.

* `location`: the line and the column of an offset, by newlines.
* `RoundTrips`: `sourceOffset` undoes `location`, and accepts nothing else.
* `StrayBreak`, `BreaksLast`: a boundary that is no newline, and where it does no harm.
* `sourceOffset_exact_iff`: the coordinates of a text round-trip exactly when no character
  but `\n` and `\r` stands behind such a boundary.
-/

namespace InterSpec.Tools

open Fallible

/-! ### By newlines -/

/-- The offset just behind the last newline before `offset`. -/
def lineStart (source : Str) (offset : Nat) : Nat :=
  ((source.take offset).rdropWhile (· != '\n')).length

/-- The line and the column of an offset, as the analysis and the tests count them. -/
def location (source : Str) (offset : Nat) : Int × Int :=
  ((source.take offset).count '\n' + 1, (offset : Int) - lineStart source offset + 1)

/-- A character other than `\n` and `\r` stands at the offset. -/
def IsVisible (source : Str) (offset : Nat) : Prop :=
  ∃ c, source[offset]? = some c ∧ c ≠ '\n' ∧ c ≠ '\r'

/-- **The coordinates of a text round-trip.**  Each character is found at its coordinate, no
two coordinates name one offset, and what is not the coordinate of a character is refused. -/
structure RoundTrips (source : Str) : Prop where
  decodes : ∀ i, IsVisible source i →
    sourceOffset source (location source i).1 (location source i).2 false = .ok i ∧
      sourceOffset source (location source i).1 (location source i).2 true = .ok (i + 1)
  injective : ∀ (line column line' column' : Int) (o : Nat),
    sourceOffset source line column false = .ok o →
      sourceOffset source line' column' false = .ok o → line = line' ∧ column = column'
  rejects : ∀ line column : Int, (¬ ∃ i, IsVisible source i ∧ location source i = (line, column)) →
    ∃ e, sourceOffset source line column false = .error e

theorem isVisible_iff {source : Str} {i : Nat} : IsVisible source i ↔
    ∃ x c y, source = x ++ c :: y ∧ x.length = i ∧ c ≠ '\n' ∧ c ≠ '\r' := by
  constructor
  · rintro ⟨c, hget, hc⟩
    obtain ⟨hlt, rfl⟩ := List.getElem?_eq_some_iff.mp hget
    refine ⟨source.take i, source[i], source.drop (i + 1), ?_, ?_, hc⟩
    · rw [List.getElem_cons_drop, List.take_append_drop]
    · rw [List.length_take]
      omega
  · rintro ⟨x, c, y, rfl, rfl, hc⟩
    refine ⟨c, ?_, hc⟩
    rw [List.getElem?_append_right (Nat.le_refl _), Nat.sub_self]
    rfl

/-! ### What is accepted -/

/-- **Each character is found behind the lines before it.** -/
theorem sourceOffset_cut (x y : Str) {c : Char} (hn : c ≠ '\n') (hr : c ≠ '\r') (atEnd : Bool) :
    sourceOffset (x ++ c :: y) ((linesBefore [] x).1.length + 1)
      ((linesBefore [] x).2.length + 1) atEnd = .ok (x.length + atEnd.toNat) := by
  obtain ⟨u, rest, h⟩ := splitLinesFrom_cut [] x y hn
  have hflat := congrArg List.length (flatten_linesBefore [] x)
  rw [List.length_append, List.nil_append] at hflat
  have hvisible := length_visible_cut hn hr (linesBefore [] x).2 u
  refine sourceOffset_eq_ok.mpr ⟨_, _, (linesBefore [] x).2 ++ c :: u, rfl, rfl, ?_, ?_, ?_⟩
  · rw [splitLines, h, List.getElem?_append_right (Nat.le_refl _), Nat.sub_self]
    rfl
  · omega
  · rw [splitLines, h, List.take_left' rfl, hflat]

theorem flatten_splitLinesFrom (line text : Str) :
    (splitLinesFrom line text).flatten = line ++ text := by
  fun_induction splitLinesFrom line text with
  | case1 => rfl
  | case2 line _ => simp
  | case3 line rest ih =>
    rw [List.flatten_cons, ih, List.append_assoc]
    rfl
  | case4 line c rest hno hbreak ih =>
    rw [List.flatten_cons, ih, List.append_assoc]
    rfl
  | case5 line c rest hno hbreak ih =>
    rw [ih, List.append_assoc]
    rfl

theorem dropTrailing_concat (d : Char) (line : Str) (c : Char) :
    dropTrailing d (line ++ [c]) = if c = d then line else line ++ [c] := by
  simp [dropTrailing]

theorem mem_of_mem_dropTrailing {d c : Char} {text : Str} (h : c ∈ dropTrailing d text) :
    c ∈ text := by
  unfold dropTrailing at h
  split at h
  · exact (List.dropLast_sublist text).mem h
  · exact h

theorem dropTrailing_append (d : Char) (text : Str) : ∃ e, text = dropTrailing d text ++ e := by
  unfold dropTrailing
  split
  · exact ⟨_, (List.dropLast_append_getLast? _ ‹_›).symm⟩
  · exact ⟨[], (List.append_nil text).symm⟩

theorem visible_append (text : Str) : ∃ e, text = visible text ++ e := by
  obtain ⟨e, he⟩ := dropTrailing_append '\n' text
  obtain ⟨e', he'⟩ := dropTrailing_append '\r' (dropTrailing '\n' text)
  exact ⟨e' ++ e, by rw [← List.append_assoc, visible, ← he', ← he]⟩

theorem getElem?_of_visible {text : Str} {k : Nat} {c : Char} (h : (visible text)[k]? = some c) :
    text[k]? = some c := by
  obtain ⟨e, he⟩ := visible_append text
  rw [he, List.getElem?_append_left (List.getElem?_eq_some_iff.mp h).1, h]

theorem visible_concat {line : Str} (hline : ∀ c ∈ line, isLineBreak c = false) {c d : Char}
    (h : d ∈ visible (line ++ [c])) : d ≠ '\n' ∧ d ≠ '\r' := by
  have hbefore : ∀ d ∈ line, d ≠ '\n' ∧ d ≠ '\r' :=
    fun d hd => ne_newline_of_not_isLineBreak (hline d hd)
  rw [visible, dropTrailing_concat] at h
  by_cases hn : c = '\n'
  · rw [if_pos hn] at h
    exact hbefore d (mem_of_mem_dropTrailing h)
  · rw [if_neg hn, dropTrailing_concat] at h
    by_cases hr : c = '\r'
    · rw [if_pos hr] at h
      exact hbefore d h
    · rw [if_neg hr] at h
      rcases List.mem_append.mp h with hd | hd
      · exact hbefore d hd
      · rw [List.mem_singleton.mp hd]
        exact ⟨hn, hr⟩

theorem not_newline_of_mem_visible {line text l : Str}
    (hline : ∀ c ∈ line, isLineBreak c = false) (hl : l ∈ splitLinesFrom line text) {d : Char}
    (hd : d ∈ visible l) : d ≠ '\n' ∧ d ≠ '\r' := by
  have hnil : ∀ c ∈ ([] : Str), isLineBreak c = false := fun c hc => absurd hc List.not_mem_nil
  fun_induction splitLinesFrom line text with
  | case1 => exact absurd hl List.not_mem_nil
  | case2 line _ =>
    rw [List.mem_singleton.mp hl] at hd
    have hmem : d ∈ line := mem_of_mem_dropTrailing (mem_of_mem_dropTrailing hd)
    exact ne_newline_of_not_isLineBreak (hline d hmem)
  | case3 line rest ih =>
    rcases List.mem_cons.mp hl with rfl | hl
    · -- `\r\n` is invisible as a whole
      have hvisible : visible (line ++ ['\r', '\n']) = line := by
        rw [List.append_cons, visible, dropTrailing_concat, if_pos rfl, dropTrailing_concat,
          if_pos rfl]
      rw [hvisible] at hd
      exact ne_newline_of_not_isLineBreak (hline d hd)
    · exact ih hnil hl
  | case4 line c rest hno hbreak ih =>
    rcases List.mem_cons.mp hl with rfl | hl
    · exact visible_concat hline hd
    · exact ih hnil hl
  | case5 line c rest hno hbreak ih =>
    refine ih (fun d hd => ?_) hl
    rcases List.mem_append.mp hd with hd | hd
    · exact hline d hd
    · rw [List.mem_singleton.mp hd]
      simpa using hbreak

/-- **What is accepted is the offset of a visible character.** -/
theorem isVisible_of_sourceOffset {source : Str} {line column : Int} {o : Nat}
    (h : sourceOffset source line column false = .ok o) : IsVisible source o := by
  obtain ⟨l, k, text, rfl, rfl, hget, hk, rfl⟩ := sourceOffset_eq_ok.mp h
  obtain ⟨hlt, htext⟩ := List.getElem?_eq_some_iff.mp hget
  have hk : k < (visible text).length := hk
  have hmem : text ∈ splitLinesFrom [] source := List.mem_of_getElem? hget
  obtain ⟨hn, hr⟩ := not_newline_of_mem_visible (fun c hc => absurd hc List.not_mem_nil) hmem
    (List.getElem_mem hk)
  obtain ⟨rest, hsource⟩ : ∃ rest,
      source = ((splitLines source).take l).flatten ++ (text ++ rest) := by
    refine ⟨((splitLines source).drop (l + 1)).flatten, ?_⟩
    rw [← htext, ← List.flatten_cons, List.getElem_cons_drop, ← List.flatten_append,
      List.take_append_drop]
    exact (flatten_splitLinesFrom [] source).symm
  generalize ((splitLines source).take l).flatten = base at hsource ⊢
  refine ⟨(visible text)[k], ?_, hn, hr⟩
  show source[base.length + k]? = _
  have htext : text[k]? = some (visible text)[k] :=
    getElem?_of_visible (List.getElem?_eq_getElem hk)
  rw [hsource, List.getElem?_append_right (Nat.le_add_right _ _), Nat.add_sub_cancel_left,
    List.getElem?_append_left (List.getElem?_eq_some_iff.mp htext).1, htext]

/-! ### Boundaries that are not counted -/

/-- A line boundary that is neither a newline nor the first half of `\r\n`; `rest` is the
text behind it. -/
def StrayBreak (c : Char) (rest : Str) : Prop :=
  isLineBreak c = true ∧ c ≠ '\n' ∧ ¬ (c = '\r' ∧ rest.head? = some '\n')

instance decidableStrayBreak (c : Char) (rest : Str) : Decidable (StrayBreak c rest) :=
  inferInstanceAs (Decidable (_ ∧ _ ∧ ¬ (_ ∧ _)))

/-- Nothing but `\n` and `\r` stands behind a stray boundary. -/
def BreaksLast (source : Str) : Prop :=
  ∀ x c y, source = x ++ c :: y → StrayBreak c y → ∀ d ∈ y, d = '\n' ∨ d = '\r'

def strayBreaks : Str → Nat
  | [] => 0
  | c :: rest => (if StrayBreak c rest then 1 else 0) + strayBreaks rest

theorem strayBreaks_eq_zero {x : Str} :
    strayBreaks x = 0 ↔ ∀ u c v, x = u ++ c :: v → ¬ StrayBreak c v := by
  induction x with
  | nil =>
    refine ⟨fun _ u c v h => absurd h.symm ?_, fun _ => rfl⟩
    exact List.append_ne_nil_of_right_ne_nil u (List.cons_ne_nil c v)
  | cons d rest ih =>
    rw [strayBreaks, Nat.add_eq_zero_iff, ih]
    constructor
    · rintro ⟨hd, hrest⟩ u c v h
      cases u with
      | nil =>
        obtain ⟨rfl, rfl⟩ := List.cons.inj h
        intro hstray
        rw [if_pos hstray] at hd
        exact absurd hd Nat.one_ne_zero
      | cons e u => exact hrest u c v (List.cons.inj h).2
    · intro h
      exact ⟨if_neg (h [] d rest rfl), fun u c v hx => h (d :: u) c v (by rw [hx]; rfl)⟩

theorem strayBreak_append {d c : Char} (hc : c ≠ '\n') (v y : Str) :
    StrayBreak d (v ++ c :: y) ↔ StrayBreak d v := by
  cases v with
  | nil => simp [StrayBreak, hc]
  | cons e v => rfl

/-- **The condition says that no visible character has a stray boundary before it.** -/
theorem breaksLast_iff {source : Str} : BreaksLast source ↔
    ∀ x c y, source = x ++ c :: y → c ≠ '\n' → c ≠ '\r' → strayBreaks x = 0 := by
  constructor
  · intro h x c y hsource hn hr
    refine strayBreaks_eq_zero.mpr (fun u d v hx hstray => ?_)
    have hsplit : source = u ++ d :: (v ++ c :: y) := by
      rw [hsource, hx, List.append_assoc]
      rfl
    rcases h u d _ hsplit ((strayBreak_append hn v y).mpr hstray) c (by simp) with he | he
    · exact hn he
    · exact hr he
  · intro h x c y hsource hstray d hd
    by_contra hne
    rw [not_or] at hne
    obtain ⟨v, w, rfl⟩ := List.append_of_mem hd
    have hsplit : source = (x ++ c :: v) ++ d :: w := by
      rw [hsource, List.append_assoc]
      rfl
    exact strayBreaks_eq_zero.mp (h _ d w hsplit hne.1 hne.2) x c v rfl
      ((strayBreak_append hne.1 v w).mp hstray)

theorem strayBreaks_cons_of_not_isLineBreak {c : Char} (hc : ¬ isLineBreak c = true) (rest : Str) :
    strayBreaks (c :: rest) = strayBreaks rest := by
  rw [strayBreaks, if_neg (fun h => hc h.1), Nat.zero_add]

theorem strayBreaks_newline (rest : Str) : strayBreaks ('\n' :: rest) = strayBreaks rest := by
  rw [strayBreaks, if_neg (fun h => h.2.1 rfl), Nat.zero_add]

theorem strayBreaks_return_newline (rest : Str) :
    strayBreaks ('\r' :: '\n' :: rest) = strayBreaks rest := by
  rw [strayBreaks, if_neg (fun h => h.2.2 ⟨rfl, rfl⟩), Nat.zero_add, strayBreaks_newline]

/-- A boundary that begins no `\r\n` is stray unless it is a newline. -/
theorem strayBreak_iff {c : Char} {rest : Str} (hbreak : isLineBreak c = true)
    (hno : ∀ rest', c = '\r' → rest = '\n' :: rest' → False) : StrayBreak c rest ↔ c ≠ '\n' := by
  refine ⟨fun h => h.2.1, fun hc => ⟨hbreak, hc, fun h => ?_⟩⟩
  cases rest with
  | nil => cases h.2
  | cons e rest =>
    obtain rfl : e = '\n' := Option.some.inj h.2
    exact hno rest h.1 rfl

/-- **The lines are counted by the newlines and the stray boundaries.** -/
theorem length_linesBefore (line x : Str) :
    (linesBefore line x).1.length = x.count '\n' + strayBreaks x := by
  fun_induction linesBefore line x with
  | case1 line => rfl
  | case2 line rest ih =>
    rw [List.length_cons, ih, strayBreaks_return_newline, List.count_cons_of_ne (by decide),
      List.count_cons_self]
    omega
  | case3 line c rest hno hbreak ih =>
    rw [List.length_cons, ih, strayBreaks]
    by_cases hc : c = '\n'
    · rw [if_neg (fun h => h.2.1 hc), hc, List.count_cons_self]
      omega
    · rw [if_pos ((strayBreak_iff hbreak hno).mpr hc), List.count_cons_of_ne hc]
      omega
  | case4 line c rest hno hbreak ih =>
    have hc : c ≠ '\n' := by
      rintro rfl
      exact hbreak rfl
    rw [ih, strayBreaks_cons_of_not_isLineBreak hbreak, List.count_cons_of_ne hc]

/-- Without stray boundaries every complete line ends in a newline. -/
theorem getLast_of_mem_linesBefore {line x l : Str} (h : strayBreaks x = 0)
    (hl : l ∈ (linesBefore line x).1) : ∃ l', l = l' ++ ['\n'] := by
  fun_induction linesBefore line x with
  | case1 line => exact absurd hl List.not_mem_nil
  | case2 line rest ih =>
    rw [strayBreaks_return_newline] at h
    rcases List.mem_cons.mp hl with rfl | hl
    · exact ⟨line ++ ['\r'], by rw [List.append_assoc]; rfl⟩
    · exact ih h hl
  | case3 line c rest hno hbreak ih =>
    rw [strayBreaks, Nat.add_eq_zero_iff] at h
    rcases List.mem_cons.mp hl with rfl | hl
    · obtain rfl : c = '\n' := by
        by_contra hc
        rw [if_pos ((strayBreak_iff hbreak hno).mpr hc)] at h
        exact absurd h.1 Nat.one_ne_zero
      exact ⟨line, rfl⟩
    · exact ih h.2 hl
  | case4 line c rest hno hbreak ih =>
    rw [strayBreaks_cons_of_not_isLineBreak hbreak] at h
    exact ih h hl

theorem newline_not_mem_linesBefore {line : Str} (hline : '\n' ∉ line) (x : Str) :
    '\n' ∉ (linesBefore line x).2 := by
  fun_induction linesBefore line x with
  | case1 line => exact hline
  | case2 line rest ih => exact ih List.not_mem_nil
  | case3 line c rest hno hbreak ih => exact ih List.not_mem_nil
  | case4 line c rest hno hbreak ih =>
    refine ih (fun h => ?_)
    rcases List.mem_append.mp h with h | h
    · exact hline h
    · rw [List.mem_singleton] at h
      exact hbreak (by rw [← h]; rfl)

/-! ### Where the two agree -/

theorem rdropWhile_append {lines : List Str} {last : Str}
    (hlines : ∀ l ∈ lines, ∃ l', l = l' ++ ['\n']) (hlast : '\n' ∉ last) :
    (lines.flatten ++ last).rdropWhile (· != '\n') = lines.flatten := by
  have hall : ∀ c ∈ last.reverse, (c != '\n') = true := fun c hc =>
    bne_iff_ne.mpr (fun h => hlast (h ▸ List.mem_reverse.mp hc))
  rw [List.rdropWhile, List.reverse_append, List.dropWhile_append_of_pos hall,
    ← List.rdropWhile]
  rcases List.eq_nil_or_concat lines with rfl | ⟨init, l, rfl⟩
  · rfl
  · obtain ⟨l', rfl⟩ := hlines l (by simp)
    rw [List.concat_eq_append, List.flatten_append, List.flatten_singleton, ← List.append_assoc]
    exact List.rdropWhile_concat_neg _ _ _ (by decide)

/-- **Without stray boundaries before it a character has the coordinate that is read.** -/
theorem location_eq {x : Str} (h : strayBreaks x = 0) (y : Str) :
    location (x ++ y) x.length =
      (((linesBefore [] x).1.length : Int) + 1, ((linesBefore [] x).2.length : Int) + 1) := by
  have hflat := flatten_linesBefore [] x
  rw [List.nil_append] at hflat
  have hstart : lineStart (x ++ y) x.length = (linesBefore [] x).1.flatten.length := by
    rw [lineStart, List.take_left' rfl, ← rdropWhile_append
      (fun l hl => getLast_of_mem_linesBefore h hl)
      (newline_not_mem_linesBefore List.not_mem_nil x), hflat]
  have hlength := congrArg List.length hflat
  rw [List.length_append] at hlength
  rw [location, hstart, length_linesBefore, h, List.take_left' rfl, Nat.add_zero]
  congr 1
  omega

/-- **A character is found at its coordinate exactly when no stray boundary is before it.** -/
theorem sourceOffset_location_iff {x y : Str} {c : Char} (hn : c ≠ '\n') (hr : c ≠ '\r') :
    sourceOffset (x ++ c :: y) (location (x ++ c :: y) x.length).1
      (location (x ++ c :: y) x.length).2 false = .ok x.length ↔ strayBreaks x = 0 := by
  have hcut := sourceOffset_cut x y hn hr false
  constructor
  · intro h
    have hline := (sourceOffset_inj h hcut).1
    rw [location, List.take_left' rfl, length_linesBefore] at hline
    dsimp only at hline
    omega
  · intro h
    rw [location_eq h]
    exact hcut

/-- **When coordinates round-trip.**  Each character of a text is found at its coordinate,
distinct coordinates that are accepted name distinct offsets and all others are refused, if
and only if nothing but `\n` and `\r` stands behind a stray boundary. -/
theorem sourceOffset_exact_iff (source : Str) : RoundTrips source ↔ BreaksLast source := by
  rw [breaksLast_iff]
  constructor
  · rintro h x c y rfl hn hr
    exact (sourceOffset_location_iff hn hr).mp
      (h.decodes x.length (isVisible_iff.mpr ⟨x, c, y, rfl, rfl, hn, hr⟩)).1
  · intro h
    have hdecodes : ∀ i, IsVisible source i → ∀ atEnd : Bool, sourceOffset source
        (location source i).1 (location source i).2 atEnd = .ok (i + atEnd.toNat) := by
      intro i hi atEnd
      obtain ⟨x, c, y, rfl, rfl, hn, hr⟩ := isVisible_iff.mp hi
      rw [location_eq (h x c y rfl hn hr)]
      exact sourceOffset_cut x y hn hr atEnd
    refine ⟨fun i hi => ⟨hdecodes i hi false, hdecodes i hi true⟩,
      fun line column line' column' o => sourceOffset_inj, fun line column hno => ?_⟩
    cases ho : sourceOffset source line column false with
    | error e => exact ⟨e, rfl⟩
    | ok o =>
      -- an offset that is accepted is found at its own coordinate, and only there
      have hvisible := isVisible_of_sourceOffset ho
      obtain ⟨hline, hcolumn⟩ := sourceOffset_inj (hdecodes o hvisible false) ho
      exact absurd ⟨o, hvisible, Prod.ext hline hcolumn⟩ hno

/-- A form feed in a comment, above two calls. -/
def pagedSource : Str := "/*\x0c*/\nmalloc(1);\nmalloc(2);".toList

/-- **A form feed shifts the lines.**  The coordinate of the second call names the first. -/
theorem sourceOffset_shifted : location pagedSource 17 = (3, 1) ∧
    sourceOffset pagedSource 3 1 false = .ok 6 ∧ ¬ RoundTrips pagedSource := by
  have hlocation : location pagedSource 17 = (3, 1) := by decide
  have hoffset : sourceOffset pagedSource 3 1 false = .ok 6 := by decide
  refine ⟨hlocation, hoffset, fun h => ?_⟩
  have hdecodes := (h.decodes 17 ⟨'m', by decide, by decide, by decide⟩).1
  rw [hlocation, hoffset] at hdecodes
  cases hdecodes

end InterSpec.Tools
