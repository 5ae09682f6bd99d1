import InterSpec.Tools.Source

/-!
# Offsets of lines and columns

An offset that `sourceOffset` gives is settled by the text before it: a text that
agrees up to there gives the same offset, whatever comes behind.

* `sourceOffset_eq_ok`: the offset through the lines of the text.
* `linesBefore`, `splitLinesFrom_cut`: the lines of a text, cut at a character that is no
  newline.
* `AgreeTo`, `sourceOffset_agree`: two texts that agree up to an offset.
* `sourceOffset_le`: a position that is not before another has no smaller offset.
-/

namespace InterSpec.Tools

open Fallible

/-! ### One offset -/

/-- The line without its line break `\n`, `\r` or `\r\n`. -/
def visible (text : Str) : Str := dropTrailing '\r' (dropTrailing '\n' text)

theorem sourceOffset_eq_ok {source : Str} {line column : Int} {atEnd : Bool} {o : Nat} :
    sourceOffset source line column atEnd = .ok o ↔
      ∃ (l k : Nat) (text : Str), line = l + 1 ∧ column = k + 1 ∧
        (splitLines source)[l]? = some text ∧
        k + 1 ≤ (visible text).length + atEnd.toNat ∧
        o = ((splitLines source).take l).flatten.length + k + atEnd.toNat := by
  have hgetD : ∀ (l : Nat) (text : Str), (splitLines source)[l]? = some text →
      (splitLines source).getD l [] = text := by
    intro l text h
    rw [List.getD_eq_getElem?_getD, h, Option.getD_some]
  constructor
  · intro h
    obtain ⟨_, hpos, h⟩ := bind_eq_ok.mp h
    obtain ⟨_, hline, h⟩ := bind_eq_ok.mp h
    obtain ⟨_, hcolumn, h⟩ := bind_eq_ok.mp h
    have hpos := ensure_eq_ok.mp hpos
    have hline := ensure_eq_ok.mp hline
    have hcolumn := ensure_eq_ok.mp hcolumn
    obtain ⟨l, rfl⟩ : ∃ l : Nat, line = l + 1 := ⟨(line - 1).toNat, by omega⟩
    obtain ⟨k, rfl⟩ : ∃ k : Nat, column = k + 1 := ⟨(column - 1).toNat, by omega⟩
    have hlt : l < (splitLines source).length := by omega
    have hl : ((l : Int) + 1).toNat - 1 = l := by omega
    have hget := List.getElem?_eq_getElem hlt
    rw [hl, hgetD l _ hget] at hcolumn
    rw [hl] at h
    refine ⟨l, k, _, rfl, rfl, hget, ?_, ?_⟩
    · cases atEnd
      · exact Int.ofNat_le.mp hcolumn
      · exact Int.ofNat_le.mp hcolumn
    · rw [List.length_flatten]
      cases atEnd
      · cases h
        show _ + ((k : Int) + 1).toNat - 1 = _
        rw [show ((k : Int) + 1).toNat = k + 1 from by omega]
        rfl
      · cases h
        show _ + ((k : Int) + 1).toNat = _
        rw [show ((k : Int) + 1).toNat = k + 1 from by omega]
        rfl
  · rintro ⟨l, k, text, rfl, rfl, hget, hk, rfl⟩
    have hlt := (List.getElem?_eq_some_iff.mp hget).1
    have hl : ((l : Int) + 1).toNat - 1 = l := by omega
    refine bind_eq_ok.mpr ⟨(), ensure_eq_ok.mpr (by omega), bind_eq_ok.mpr
      ⟨(), ensure_eq_ok.mpr (by omega), bind_eq_ok.mpr ⟨(), ensure_eq_ok.mpr ?_, ?_⟩⟩⟩
    · rw [hl, hgetD l _ hget]
      cases atEnd
      · exact Int.ofNat_le.mpr hk
      · exact Int.ofNat_le.mpr hk
    · rw [hl, List.length_flatten]
      cases atEnd
      · show Except.ok (_ + ((k : Int) + 1).toNat - 1) = _
        rw [show ((k : Int) + 1).toNat = k + 1 from by omega]
        rfl
      · show Except.ok (_ + ((k : Int) + 1).toNat) = _
        rw [show ((k : Int) + 1).toNat = k + 1 from by omega]
        rfl

/-! ### Lines -/

theorem length_dropTrailing_le (c : Char) (text : Str) :
    (dropTrailing c text).length ≤ text.length := by
  unfold dropTrailing
  split
  · rw [List.length_dropLast]
    omega
  · exact Nat.le_refl _

theorem length_visible_le (text : Str) : (visible text).length ≤ text.length :=
  Nat.le_trans (length_dropTrailing_le _ _) (length_dropTrailing_le _ _)

theorem dropTrailing_cut {d c : Char} (hc : c ≠ d) (x u : Str) :
    ∃ u', dropTrailing d (x ++ c :: u) = x ++ c :: u' := by
  unfold dropTrailing
  by_cases hlast : (x ++ c :: u).getLast? = some d
  · rw [if_pos hlast]
    cases u with
    | nil =>
      rw [List.getLast?_append_cons] at hlast
      exact absurd (Option.some.inj hlast) hc
    | cons e u =>
      refine ⟨(e :: u).dropLast, ?_⟩
      rw [List.dropLast_append_of_ne_nil (List.cons_ne_nil _ _), List.dropLast_cons_of_ne_nil
        (List.cons_ne_nil _ _)]
  · rw [if_neg hlast]
    exact ⟨u, rfl⟩

theorem length_visible_cut {c : Char} (hn : c ≠ '\n') (hr : c ≠ '\r') (x u : Str) :
    x.length + 1 ≤ (visible (x ++ c :: u)).length := by
  obtain ⟨u₁, h₁⟩ := dropTrailing_cut hn x u
  obtain ⟨u₂, h₂⟩ := dropTrailing_cut hr x u₁
  rw [visible, h₁, h₂, List.length_append, List.length_cons]
  omega

theorem ne_newline_of_not_isLineBreak {c : Char} (hc : isLineBreak c = false) :
    c ≠ '\n' ∧ c ≠ '\r' := by
  constructor
  · rintro rfl
    cases hc
  · rintro rfl
    cases hc

theorem splitLinesFrom_cons {c : Char} (hc : isLineBreak c = false) (line text : Str) :
    splitLinesFrom line (c :: text) = splitLinesFrom (line ++ [c]) text := by
  rw [splitLinesFrom, if_neg (by rw [hc]; exact nofun)]
  rintro rest rfl -
  cases hc

theorem splitLinesFrom_ne_nil (text : Str) : ∀ line : Str, line ≠ [] →
    ∃ u rest, splitLinesFrom line text = (line ++ u) :: rest := by
  induction text with
  | nil =>
    intro line hline
    exact ⟨[], [], by rw [splitLinesFrom, if_neg hline, List.append_nil]⟩
  | cons c text ih =>
    intro line hline
    unfold splitLinesFrom
    split
    · cases ‹_ :: _ = []›
    · exact ⟨['\r', '\n'], _, rfl⟩
    · rename_i d rest _ heq
      obtain ⟨rfl, rfl⟩ := List.cons.inj heq
      by_cases hbreak : isLineBreak c = true
      · rw [if_pos hbreak]
        exact ⟨[c], _, rfl⟩
      · rw [if_neg hbreak]
        obtain ⟨u, rest, h⟩ := ih (line ++ [c]) (by simp)
        exact ⟨c :: u, rest, by rw [h, List.append_assoc]; rfl⟩

theorem splitLinesFrom_cons_eq (line text : Str) (c : Char) :
    ∃ u rest, splitLinesFrom line (c :: text) = (line ++ c :: u) :: rest := by
  by_cases hc : isLineBreak c = true
  · unfold splitLinesFrom
    split
    · cases ‹_ :: _ = []›
    · rename_i heq
      obtain ⟨rfl, -⟩ := List.cons.inj heq
      exact ⟨['\n'], _, rfl⟩
    · rename_i heq
      obtain ⟨rfl, rfl⟩ := List.cons.inj heq
      exact ⟨[], _, by rw [if_pos hc]⟩
  · obtain ⟨u, rest, h⟩ := splitLinesFrom_ne_nil text (line ++ [c]) (by simp)
    refine ⟨u, rest, ?_⟩
    rw [splitLinesFrom_cons (by simpa using hc), h, List.append_assoc]
    rfl

/-- The complete lines of a text, and the part of a line behind them; `line` is the part of
the first line read so far. -/
def linesBefore (line : Str) : Str → List Str × Str
  | [] => ([], line)
  | '\r' :: '\n' :: rest =>
    ((line ++ ['\r', '\n']) :: (linesBefore [] rest).1, (linesBefore [] rest).2)
  | c :: rest =>
    if isLineBreak c then ((line ++ [c]) :: (linesBefore [] rest).1, (linesBefore [] rest).2)
    else linesBefore (line ++ [c]) rest

theorem flatten_linesBefore (line x : Str) :
    (linesBefore line x).1.flatten ++ (linesBefore line x).2 = line ++ x := by
  fun_induction linesBefore line x with
  | case1 line => exact (List.append_nil line).symm
  | case2 line rest ih =>
    rw [List.flatten_cons, List.append_assoc, ih, List.append_assoc]
    rfl
  | case3 line c rest hno hbreak ih =>
    rw [List.flatten_cons, List.append_assoc, ih, List.append_assoc]
    rfl
  | case4 line c rest hno hbreak ih =>
    rw [ih, List.append_assoc]
    rfl

/-- **The lines of a text, cut at a character that is no newline.**  The complete lines
before it and the part of its own line before it are those of the text before it. -/
theorem splitLinesFrom_cut (line x : Str) {c : Char} (y : Str) (hc : c ≠ '\n') :
    ∃ u rest, splitLinesFrom line (x ++ c :: y) =
      (linesBefore line x).1 ++ ((linesBefore line x).2 ++ c :: u) :: rest := by
  fun_induction linesBefore line x with
  | case1 line => exact splitLinesFrom_cons_eq line y c
  | case2 line rest ih =>
    obtain ⟨u, tail, h⟩ := ih
    refine ⟨u, tail, ?_⟩
    show splitLinesFrom line ('\r' :: '\n' :: (rest ++ c :: y)) = _
    rw [splitLinesFrom, h]
    rfl
  | case3 line d rest hno hbreak ih =>
    obtain ⟨u, tail, h⟩ := ih
    refine ⟨u, tail, ?_⟩
    show splitLinesFrom line (d :: (rest ++ c :: y)) = _
    rw [splitLinesFrom, if_pos hbreak, h]
    · rfl
    · intro rest' hd hrest
      cases rest with
      | nil => exact hc (List.cons.inj hrest).1
      | cons e rest =>
        rw [(List.cons.inj hrest).1] at hno
        exact hno _ hd rfl
  | case4 line d rest hno hbreak ih =>
    obtain ⟨u, tail, h⟩ := ih
    refine ⟨u, tail, ?_⟩
    show splitLinesFrom line (d :: (rest ++ c :: y)) = _
    rw [splitLinesFrom_cons (by simpa using hbreak), h]

/-! ### Two texts -/

theorem split_of_length_le {u v x y : Str} (h : u ++ v = x ++ y) (hle : u.length ≤ x.length) :
    ∃ z, x = u ++ z ∧ v = z ++ y := by
  rcases List.append_eq_append_iff.mp h with ⟨z, hx, hv⟩ | ⟨z, hu, hy⟩
  · exact ⟨z, hx, hv⟩
  · rw [hu, List.length_append] at hle
    obtain rfl : z = [] := List.eq_nil_of_length_eq_zero (by omega)
    exact ⟨[], by rw [hu, List.append_nil, List.append_nil], hy.symm⟩

/-- The texts agree up to offset `n`, and neither has a line break there. -/
def AgreeTo (n : Nat) (s t : Str) : Prop :=
  ∃ x c y c' y', s = x ++ c :: y ∧ t = x ++ c' :: y' ∧ x.length = n ∧
    isLineBreak c = false ∧ isLineBreak c' = false

theorem AgreeTo.symm {n : Nat} {s t : Str} (h : AgreeTo n s t) : AgreeTo n t s := by
  obtain ⟨x, c, y, c', y', hs, ht, hn, hc, hc'⟩ := h
  exact ⟨x, c', y', c, y, ht, hs, hn, hc', hc⟩

/-- **An offset is settled by the text before it.** -/
theorem sourceOffset_agree {n : Nat} {s t : Str} (h : AgreeTo n s t) {line column : Int}
    {atEnd : Bool} {o : Nat} (ho : sourceOffset s line column atEnd = .ok o) (hle : o ≤ n) :
    sourceOffset t line column atEnd = .ok o := by
  obtain ⟨x, c, y, c', y', rfl, rfl, hn, hc, hc'⟩ := h
  have hne := ne_newline_of_not_isLineBreak hc'
  obtain ⟨u, rest, hs⟩ := splitLinesFrom_cut [] x y (ne_newline_of_not_isLineBreak hc).1
  obtain ⟨u', rest', ht⟩ := splitLinesFrom_cut [] x y' hne.1
  have hflat := flatten_linesBefore [] x
  generalize (linesBefore [] x).1 = lines at hs ht hflat
  generalize (linesBefore [] x).2 = last at hs ht hflat
  obtain ⟨l, k, text, rfl, rfl, hget, hk, rfl⟩ := sourceOffset_eq_ok.mp ho
  have hlen : lines.flatten.length + last.length = n := by
    rw [← List.length_append, hflat, List.nil_append, hn]
  have hs : splitLines (x ++ c :: y) = lines ++ (last ++ c :: u) :: rest := hs
  have ht : splitLines (x ++ c' :: y') = lines ++ (last ++ c' :: u') :: rest' := ht
  rw [hs] at hget hle ⊢
  rcases Nat.lt_trichotomy l lines.length with hl | rfl | hl
  · -- a line that both texts have
    refine sourceOffset_eq_ok.mpr ⟨l, k, text, rfl, rfl, ?_, hk, ?_⟩
    · rw [ht, List.getElem?_append_left hl]
      rwa [List.getElem?_append_left hl] at hget
    · rw [ht, List.take_append_of_le_length (Nat.le_of_lt hl),
        List.take_append_of_le_length (Nat.le_of_lt hl)]
  · -- the line that is cut
    rw [List.take_left' rfl] at hle ⊢
    refine sourceOffset_eq_ok.mpr ⟨lines.length, k, last ++ c' :: u', rfl, rfl, ?_, ?_, ?_⟩
    · rw [ht, List.getElem?_append_right (Nat.le_refl _), Nat.sub_self]
      rfl
    · have hvisible := length_visible_cut hne.1 hne.2 last u'
      omega
    · rw [ht, List.take_left' rfl]
  · -- a line behind the cut
    exfalso
    rw [List.take_append, List.take_of_length_le (Nat.le_of_lt hl)] at hle
    obtain ⟨m, hm⟩ : ∃ m, l - lines.length = m + 1 := ⟨l - lines.length - 1, by omega⟩
    rw [hm, List.take_succ_cons, List.flatten_append, List.flatten_cons, List.length_append,
      List.length_append, List.length_append, List.length_cons] at hle
    omega

/-! ### Two positions -/

/-- **A position before another has a smaller offset**, since the offset is inside the line. -/
theorem sourceOffset_lt {source : Str} {line column line' column' : Int} {o o' : Nat}
    (h : sourceOffset source line column false = .ok o)
    (h' : sourceOffset source line' column' false = .ok o')
    (hlt : line < line' ∨ (line = line' ∧ column < column')) : o < o' := by
  obtain ⟨l, k, text, rfl, rfl, hget, hk, rfl⟩ := sourceOffset_eq_ok.mp h
  obtain ⟨l', k', text', rfl, rfl, _, _, rfl⟩ := sourceOffset_eq_ok.mp h'
  have hvisible := length_visible_le text
  have hzero : false.toNat = 0 := rfl
  rcases hlt with hline | ⟨heq, hcol⟩
  · obtain ⟨d, rfl⟩ : ∃ d, l' = l + 1 + d := ⟨l' - (l + 1), by omega⟩
    have htake : ((splitLines source).take (l + 1)).flatten.length =
        ((splitLines source).take l).flatten.length + text.length := by
      rw [List.take_add_one, hget, List.flatten_append, List.length_append]
      simp
    have hmono : ((splitLines source).take (l + 1)).flatten.length ≤
        ((splitLines source).take (l + 1 + d)).flatten.length := by
      rw [List.take_add (i := l + 1) (j := d), List.flatten_append, List.length_append]
      omega
    omega
  · obtain rfl : l = l' := by omega
    omega

theorem sourceOffset_le {source : Str} {line column line' column' : Int} {o o' : Nat}
    (h : sourceOffset source line column false = .ok o)
    (h' : sourceOffset source line' column' false = .ok o')
    (hle : line < line' ∨ (line = line' ∧ column ≤ column')) : o ≤ o' := by
  by_cases heq : line = line' ∧ column = column'
  · rw [heq.1, heq.2, h'] at h
    exact Nat.le_of_eq (Except.ok.inj h).symm
  · exact Nat.le_of_lt (sourceOffset_lt h h' (by omega))

theorem sourceOffset_inj {source : Str} {line column line' column' : Int} {o : Nat}
    (h : sourceOffset source line column false = .ok o)
    (h' : sourceOffset source line' column' false = .ok o) : line = line' ∧ column = column' := by
  by_contra hne
  rcases (by omega : (line < line' ∨ (line = line' ∧ column < column')) ∨
    (line' < line ∨ (line' = line ∧ column' < column))) with hlt | hlt
  · exact absurd (sourceOffset_lt h h' hlt) (Nat.lt_irrefl o)
  · exact absurd (sourceOffset_lt h' h hlt) (Nat.lt_irrefl o)

end InterSpec.Tools
