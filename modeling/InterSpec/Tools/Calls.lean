import InterSpec.Tools.Lines

/-!
# Calls of `malloc`

The scan for the closing parenthesis as an automaton that reads one character at a
time, and the calls that `mallocCallExtent` accepts.

* `Scan`, `scanParen`: the automaton.  What the source reads in one go, the two
  characters of `//`, `/*` and `*/`, is a state of it.
* `closingParen_eq_scanParen`: the two scans agree.
* `mallocCallExtent_eq_ok`: the accepted call, as a part of the text.
-/

namespace InterSpec.Tools

open Fallible

/-! ### The automaton -/

/-- The states of the scan; `slash` and `star` say that the character before was the first of
a comment mark. -/
inductive Scan
  | code (slash : Bool)
  | lineComment
  | blockComment (star : Bool)
  | literal (quote : Char) (escaped : Bool)
deriving DecidableEq, Repr

namespace Scan

def next : Scan → Char → Scan
  | code slash, c =>
    if slash = true ∧ c = '/' then lineComment
    else if slash = true ∧ c = '*' then blockComment false
    else if c = '\x22' ∨ c = '\x27' then literal c false
    else code (c == '/')
  | lineComment, c => if c = '\n' then code false else lineComment
  | blockComment star, c => if star = true ∧ c = '/' then code false else blockComment (c == '*')
  | literal quote escaped, c =>
    if escaped then literal quote false
    else if c = '\x5c' then literal quote true
    else if c = quote then code false
    else literal quote false

/-- The character is a parenthesis of the code. -/
def isParen (paren : Char) : Scan → Char → Bool
  | code _, c => c == paren
  | _, _ => false

theorem eq_of_isParen {s : Scan} {paren c : Char} (h : s.isParen paren c = true) : c = paren := by
  cases s with
  | code slash => exact eq_of_beq h
  | lineComment => cases h
  | blockComment star => cases h
  | literal quote escaped => cases h

end Scan

/-- `closingParen` with the automaton. -/
def scanParen : Scan → Int → Nat → Str → Option Nat
  | _, _, _, [] => none
  | state, depth, pos, c :: rest =>
    if state.isParen '(' c then scanParen (state.next c) (depth + 1) (pos + 1) rest
    else if state.isParen ')' c then
      if depth - 1 = 0 then some pos
      else if depth - 1 < 0 then none
      else scanParen (state.next c) (depth - 1) (pos + 1) rest
    else scanParen (state.next c) depth (pos + 1) rest

/-- The state of the automaton for a state of the source. -/
def Lex.scan : Lex → Scan
  | code => .code false
  | lineComment => .lineComment
  | blockComment => .blockComment false
  | literal quote escaped => .literal quote escaped

theorem scanParen_code_slash {depth : Int} {pos : Nat} {text : Str}
    (hslash : ∀ rest, text ≠ '/' :: rest) (hstar : ∀ rest, text ≠ '*' :: rest) (slash : Bool) :
    scanParen (.code slash) depth pos text = scanParen (.code false) depth pos text := by
  cases text with
  | nil => rfl
  | cons c text =>
    have h₁ : c ≠ '/' := fun h => hslash text (by rw [h])
    have h₂ : c ≠ '*' := fun h => hstar text (by rw [h])
    have hnext : (Scan.code slash).next c = (Scan.code false).next c := by
      simp [Scan.next, h₁, h₂]
    rw [scanParen, scanParen, hnext]
    rfl

theorem scanParen_blockComment_star {depth : Int} {pos : Nat} {text : Str}
    (hslash : ∀ rest, text ≠ '/' :: rest) (star : Bool) :
    scanParen (.blockComment star) depth pos text =
      scanParen (.blockComment false) depth pos text := by
  cases text with
  | nil => rfl
  | cons c text =>
    have h₁ : c ≠ '/' := fun h => hslash text (by rw [h])
    have hnext : (Scan.blockComment star).next c = (Scan.blockComment false).next c := by
      simp [Scan.next, h₁]
    rw [scanParen, scanParen, hnext]
    rfl

/-- **The two scans agree.** -/
theorem closingParen_eq_scanParen (state : Lex) (depth : Int) (pos : Nat) (text : Str) :
    closingParen state depth pos text = scanParen state.scan depth pos text := by
  fun_induction closingParen state depth pos text with
  | case1 => rfl
  | case2 depth pos c rest ih =>
    rw [ih]
    show _ = scanParen (if c = '\n' then .code false else .lineComment) depth (pos + 1) rest
    by_cases hc : c = '\n'
    · rw [if_pos hc, if_pos hc]; rfl
    · rw [if_neg hc, if_neg hc]; rfl
  | case3 depth pos rest ih => exact ih
  | case4 depth pos c rest hend ih =>
    rw [ih]
    show _ = scanParen (.blockComment (c == '*')) depth (pos + 1) rest
    by_cases hc : c = '*'
    · exact (scanParen_blockComment_star (fun r hr => hend r hc hr) _).symm
    · rw [beq_false_of_ne hc]; rfl
  | case5 quote escaped depth pos c rest ih =>
    rw [ih]
    show _ = scanParen (if escaped then _ else if c = _ then _ else if c = quote then _ else _)
      depth (pos + 1) rest
    split
    · rfl
    · split
      · rfl
      · split <;> rfl
  | case6 depth pos rest ih => exact ih
  | case7 depth pos rest ih => exact ih
  | case8 depth pos c rest hline hblock hquote ih =>
    rw [ih]
    rcases hquote with rfl | rfl <;> rfl
  | case9 depth pos rest hline hblock hquote ih => exact ih
  | case10 depth pos rest hzero => exact (if_pos hzero).symm
  | case11 depth pos rest hzero hneg =>
    show none = if depth - 1 = 0 then _ else _
    rw [if_neg hzero, if_pos hneg]
  | case12 depth pos rest hzero hneg hline hblock hquote hopen ih =>
    show _ = if depth - 1 = 0 then _ else _
    rw [if_neg hzero, if_neg hneg]
    exact ih
  | case13 depth pos c rest hline hblock hquote hopen hclose ih =>
    rw [ih, Lex.scan, scanParen]
    have hno : ∀ paren, paren ≠ c → (Scan.code false).isParen paren c = false :=
      fun paren h => beq_false_of_ne h.symm
    rw [if_neg (by rw [hno _ (Ne.symm hopen)]; exact nofun),
      if_neg (by rw [hno _ (Ne.symm hclose)]; exact nofun)]
    have hnext : (Scan.code false).next c = .code (c == '/') := by
      simp [Scan.next, not_or.mp hquote]
    rw [hnext]
    by_cases hc : c = '/'
    · exact (scanParen_code_slash (fun r hr => hline r hc hr) (fun r hr => hblock r hc hr) _).symm
    · rw [beq_false_of_ne hc]

/-! ### Accepted calls -/

/-- **One character of a scan that succeeds.**  It is the parenthesis that is found, or the
scan goes on behind it, whatever stands there. -/
theorem scanParen_cons_eq_some {state : Scan} {depth : Int} {pos q : Nat} {c : Char} {text : Str}
    (h : scanParen state depth pos (c :: text) = some q) :
    (c = ')' ∧ q = pos ∧ ∀ pos' rest, scanParen state depth pos' (c :: rest) = some pos') ∨
      ∃ depth', (1 ≤ depth → 1 ≤ depth') ∧
        scanParen (state.next c) depth' (pos + 1) text = some q ∧
        ∀ pos' rest, scanParen state depth pos' (c :: rest) =
          scanParen (state.next c) depth' (pos' + 1) rest := by
  rw [scanParen] at h
  by_cases hopen : state.isParen '(' c = true
  · rw [if_pos hopen] at h
    exact .inr ⟨depth + 1, by omega, h, fun pos' rest => by rw [scanParen, if_pos hopen]⟩
  · rw [if_neg hopen] at h
    by_cases hclose : state.isParen ')' c = true
    · rw [if_pos hclose] at h
      by_cases hzero : depth - 1 = 0
      · rw [if_pos hzero] at h
        refine .inl ⟨Scan.eq_of_isParen hclose, (Option.some.inj h).symm, fun pos' rest => ?_⟩
        rw [scanParen, if_neg hopen, if_pos hclose, if_pos hzero]
      · rw [if_neg hzero] at h
        by_cases hneg : depth - 1 < 0
        · rw [if_pos hneg] at h
          cases h
        · rw [if_neg hneg] at h
          refine .inr ⟨depth - 1, by omega, h, fun pos' rest => ?_⟩
          rw [scanParen, if_neg hopen, if_pos hclose, if_neg hzero, if_neg hneg]
    · rw [if_neg hclose] at h
      refine .inr ⟨depth, id, h, fun pos' rest => ?_⟩
      rw [scanParen, if_neg hopen, if_neg hclose]

/-- **The scan reads up to the parenthesis that it finds**, and only that. -/
theorem scanParen_eq_some {text : Str} : ∀ {state : Scan} {depth : Int} {pos q : Nat},
    scanParen state depth pos text = some q →
      ∃ x rest, text = x ++ ')' :: rest ∧ q = pos + x.length ∧
        ∀ pos' rest', scanParen state depth pos' (x ++ ')' :: rest') = some (pos' + x.length) := by
  induction text with
  | nil => intro state depth pos q h; cases h
  | cons c text ih =>
    intro state depth pos q h
    rcases scanParen_cons_eq_some h with ⟨rfl, rfl, hstep⟩ | ⟨depth', -, hq, hstep⟩
    · exact ⟨[], text, rfl, rfl, hstep⟩
    · obtain ⟨x, rest, rfl, rfl, hx⟩ := ih hq
      refine ⟨c :: x, rest, rfl, ?_, fun pos' rest' => ?_⟩
      · rw [List.length_cons]
        omega
      · rw [List.cons_append, hstep, hx, List.length_cons]
        congr 1
        omega

theorem strip_split (s : Str) : ∃ w w', s = w ++ (strip s ++ w') ∧
    (∀ c ∈ w, isSpace c = true) ∧ ∀ c ∈ w', isSpace c = true := by
  refine ⟨s.takeWhile isSpace, (s.dropWhile isSpace).rtakeWhile isSpace, ?_,
    fun c hc => List.mem_takeWhile_imp hc, fun c hc => List.mem_rtakeWhile_imp hc⟩
  rw [strip, List.rdropWhile_append_rtakeWhile, List.takeWhile_append_dropWhile]

/-- A call with the white space `gap` before its argument list `raw`. -/
def callText (gap raw : Str) : Str := "malloc".toList ++ gap ++ '(' :: raw ++ [')']

/-- The parenthesis behind `raw` is the one that closes the parenthesis before it. -/
def Closes (raw : Str) : Prop :=
  ∀ pos rest, scanParen (.code false) 1 pos (raw ++ ')' :: rest) = some (pos + raw.length)

theorem takeWhile_gap {gap : Str} (hgap : ∀ c ∈ gap, isSpace c = true) (rest : Str) :
    (gap ++ '(' :: rest).takeWhile isSpace = gap := by
  rw [List.takeWhile_append_of_pos hgap, List.takeWhile_cons_of_neg (by decide), List.append_nil]

theorem callText_append (gap raw y : Str) :
    callText gap raw ++ y = "malloc".toList ++ (gap ++ '(' :: (raw ++ ')' :: y)) := by
  unfold callText
  simp only [List.append_assoc, List.cons_append, List.nil_append]

theorem length_callText (gap raw : Str) :
    (callText gap raw).length = "malloc".toList.length + gap.length + 1 + raw.length + 1 := by
  unfold callText
  simp only [List.length_append, List.length_cons, List.length_nil]
  omega

theorem slice_append (u v w : Str) : slice (u ++ v ++ w) u.length (u.length + v.length) = v := by
  rw [slice, ← List.length_append, List.take_left, List.drop_left]

/-- No call is accepted but one in which the parentheses close. -/
theorem mallocCallExtent_split {source : Str} {a e : Nat} {call : Nat × Nat × Str}
    (h : mallocCallExtent source a e = .ok call) :
    ∃ x gap raw y, source = x ++ callText gap raw ++ y ∧ x.length = a ∧
      (∀ c ∈ gap, isSpace c = true) ∧ Closes raw := by
  obtain ⟨_, hname, h⟩ := bind_eq_ok.mp h
  obtain ⟨_, -, h⟩ := bind_eq_ok.mp h
  obtain ⟨_, hopen, h⟩ := bind_eq_ok.mp h
  obtain ⟨-, hprefix⟩ := ensure_eq_ok.mp hname
  have hopen := ensure_eq_ok.mp hopen
  obtain ⟨z, hz⟩ := List.isPrefixOf_iff_prefix.mp hprefix
  obtain ⟨x, hsource, ha⟩ : ∃ x, source = x ++ ("malloc".toList ++ z) ∧ x.length = a := by
    refine ⟨source.take a, by rw [hz, List.take_append_drop], ?_⟩
    have hlt : a < source.length := by
      by_contra hle
      rw [List.drop_eq_nil_of_le (by omega)] at hz
      exact absurd hz nofun
    rw [List.length_take]
    omega
  have hdrop : source.drop (a + "malloc".toList.length) = z := by
    rw [hsource, ← List.append_assoc]
    exact List.drop_left' (by rw [List.length_append, ha])
  rw [hdrop] at hopen h
  have hz' : z.takeWhile isSpace ++ z.dropWhile isSpace = z := List.takeWhile_append_dropWhile
  have hdrop' : source.drop (a + "malloc".toList.length + (z.takeWhile isSpace).length) =
      z.dropWhile isSpace := by
    rw [← List.drop_drop, hdrop]
    exact (congrArg (List.drop (z.takeWhile isSpace).length) hz'.symm).trans List.drop_left
  rw [← List.head?_drop, hdrop'] at hopen
  obtain ⟨w, hw⟩ : ∃ w, z.dropWhile isSpace = '(' :: w := List.head?_eq_some_iff.mp hopen
  rw [hdrop', hw] at h
  rw [hw] at hz'
  cases hscan : closingParen .code 0
      (a + "malloc".toList.length + (z.takeWhile isSpace).length) ('(' :: w) with
  | none => rw [hscan] at h; cases h
  | some q =>
    rw [closingParen_eq_scanParen] at hscan
    obtain ⟨raw, y, rfl, -, hraw⟩ := scanParen_eq_some (show scanParen (.code false) 1
      (a + "malloc".toList.length + (z.takeWhile isSpace).length + 1) w = some q from hscan)
    refine ⟨x, z.takeWhile isSpace, raw, y, ?_, ha, fun c hc => List.mem_takeWhile_imp hc, hraw⟩
    rw [hsource, List.append_assoc, callText_append, hz']

/-- **The accepted calls.**  The span covers the name and nothing behind the call, and the
argument is not blank. -/
theorem mallocCallExtent_callText {x gap raw : Str} (y : Str) {e : Nat} {call : Nat × Nat × Str}
    (hgap : ∀ c ∈ gap, isSpace c = true) (hraw : Closes raw) :
    mallocCallExtent (x ++ callText gap raw ++ y) x.length e = .ok call ↔
      x.length + "malloc".toList.length ≤ e ∧ strip raw ≠ [] ∧
      strip (slice (x ++ callText gap raw ++ y) (x.length + (callText gap raw).length) e) = [] ∧
      call = (x.length, x.length + (callText gap raw).length, strip raw) := by
  have hdrop : (x ++ callText gap raw ++ y).drop x.length =
      "malloc".toList ++ (gap ++ '(' :: (raw ++ ')' :: y)) := by
    rw [List.append_assoc, List.drop_left, callText_append]
  have hrest : (x ++ callText gap raw ++ y).drop (x.length + "malloc".toList.length) =
      gap ++ '(' :: (raw ++ ')' :: y) := by
    rw [← List.drop_drop, hdrop, List.drop_left]
  have hopen : (x ++ callText gap raw ++ y).drop
      (x.length + "malloc".toList.length + gap.length) = '(' :: (raw ++ ')' :: y) := by
    rw [← List.drop_drop, hrest, List.drop_left]
  have hscan : closingParen .code 0 (x.length + "malloc".toList.length + gap.length)
      ('(' :: (raw ++ ')' :: y)) =
      some (x.length + "malloc".toList.length + gap.length + 1 + raw.length) := by
    rw [closingParen_eq_scanParen]
    exact hraw _ y
  have hargument : slice (x ++ callText gap raw ++ y)
      (x.length + "malloc".toList.length + gap.length + 1)
      (x.length + "malloc".toList.length + gap.length + 1 + raw.length) = raw := by
    have h := slice_append (x ++ ("malloc".toList ++ (gap ++ ['(']))) raw (')' :: y)
    rw [List.append_assoc x, callText_append]
    simp only [List.append_assoc, List.cons_append, List.nil_append, List.length_append,
      List.length_cons, List.length_nil, Nat.zero_add, ← Nat.add_assoc] at h ⊢
    exact h
  have hslice : ∀ b source, ¬ (b < e ∧ strip (slice source b e) ≠ []) ↔
      strip (slice source b e) = [] := by
    intro b source
    by_cases hb : b < e
    · simp [hb]
    · refine iff_of_true (fun h => hb h.1) ?_
      rw [slice, List.drop_eq_nil_of_le (by rw [List.length_take]; omega)]
      rfl
  have hlen : x.length + "malloc".toList.length + gap.length + 1 + raw.length + 1 =
      x.length + (callText gap raw).length := by
    rw [length_callText]
    omega
  have hname : x.length < e ∧ ("malloc".toList).isPrefixOf
      ((x ++ callText gap raw ++ y).drop x.length) = true ↔ x.length < e := by
    rw [hdrop]
    exact and_iff_left (List.isPrefixOf_iff_prefix.mpr ⟨_, rfl⟩)
  have hparen : (x ++ callText gap raw ++ y)[x.length + "malloc".toList.length + gap.length]? =
      some '(' := by
    rw [← List.head?_drop, hopen]
    rfl
  have hpos : 0 < "malloc".toList.length := by decide
  unfold mallocCallExtent
  simp only [hrest, takeWhile_gap hgap, hopen, hscan, hargument, hlen, bind_eq_ok, ensure_eq_ok,
    hslice, hname, hparen]
  constructor
  · rintro ⟨_, -, _, he, _, -, _, hempty, _, hspan, heq⟩
    exact ⟨he, hempty, hspan, (Except.ok.inj heq).symm⟩
  · rintro ⟨he, hempty, hspan, rfl⟩
    exact ⟨(), by omega, (), he, (), trivial, (), hempty, (), hspan, rfl⟩

end InterSpec.Tools
