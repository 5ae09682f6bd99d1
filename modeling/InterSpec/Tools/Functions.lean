import InterSpec.Tools.Lines

/-!
# Definitions of functions

The first definition of a function in a text, and how much of the text settles it.

* `IsHead`, `matchDefinition_eq_some`: what `name\s*\([^)]*\)\s*\{` matches.
* `functionMatch_eq_ok`, `functionMatch_agree`: the first match is settled by the text up
  to its end.
* `functionBody_agree`: that the body reaches an offset is settled by the text up to the
  offset and the braces behind it.
-/

namespace InterSpec.Tools

open Fallible

/-! ### Identifiers -/

/-- A property of identifier characters is checked on the ASCII ones. -/
theorem isIdentChar_rule {p : Char → Bool}
    (h : ∀ n < 128, isIdentChar (Char.ofNat n) = true → p (Char.ofNat n) = true) {c : Char}
    (hc : isIdentChar c = true) : p c = true := by
  have hlt : c.toNat < 128 := by
    rcases Bool.or_eq_true_iff.mp hc with halnum | hunder
    · exact toNat_lt_of_isAlphanum halnum
    · rw [eq_of_beq hunder]
      decide
  have hself := h c.toNat hlt
  rw [Char.ofNat_toNat] at hself
  exact hself hc

theorem isIdentChar_of_mem_symbol {name : Str} {c : Char} (h : c ∈ symbol name) :
    isIdentChar c = true := by
  obtain ⟨d, -, rfl⟩ := List.mem_map.mp h
  split
  · assumption
  · rfl

theorem isIdentChar_of_mem_digits {n : Nat} {c : Char} (h : c ∈ digits n) :
    isIdentChar c = true := by
  have hdigit := Nat.isDigit_of_mem_toDigits (by decide) (by decide) h
  exact Bool.or_eq_true_iff.mpr (Or.inl (Bool.or_eq_true_iff.mpr (Or.inr hdigit)))

/-! ### One match -/

theorem dropLiteral_eq_some {word text rest : Str} :
    dropLiteral word text = some rest ↔ text = word ++ rest := by
  unfold dropLiteral
  constructor
  · intro h
    split at h
    · rename_i hprefix
      obtain ⟨u, rfl⟩ := List.isPrefixOf_iff_prefix.mp hprefix
      rw [List.drop_left] at h
      rw [Option.some.inj h]
    · cases h
  · rintro rfl
    rw [if_pos (List.isPrefixOf_iff_prefix.mpr ⟨rest, rfl⟩), List.drop_left]

theorem dropLiteral_dropWhile (p : Char → Bool) {c : Char} (hc : p c = false) {text rest : Str} :
    dropLiteral [c] (text.dropWhile p) = some rest ↔
      ∃ w, (∀ d ∈ w, p d = true) ∧ text = w ++ c :: rest := by
  rw [dropLiteral_eq_some]
  constructor
  · intro h
    refine ⟨text.takeWhile p, fun d hd => List.mem_takeWhile_imp hd, ?_⟩
    have hsplit := List.takeWhile_append_dropWhile (p := p) (l := text)
    rw [h] at hsplit
    exact hsplit.symm
  · rintro ⟨w, hw, rfl⟩
    rw [List.dropWhile_append_of_pos hw, List.dropWhile_cons_of_neg (by rw [hc]; exact nofun)]
    rfl

/-- The head of a definition, from the name to the opening brace. -/
def IsHead (function head : Str) : Prop :=
  ∃ gap args gap', (∀ c ∈ gap, isSpace c = true) ∧ (∀ c ∈ args, (c != ')') = true) ∧
    (∀ c ∈ gap', isSpace c = true) ∧
    head = function ++ (gap ++ '(' :: (args ++ ')' :: (gap' ++ ['{'])))

theorem IsHead.ne_nil {function head : Str} (h : IsHead function head) : head ≠ [] := by
  obtain ⟨gap, args, gap', _, _, _, rfl⟩ := h
  exact fun h => absurd (List.append_eq_nil_iff.mp (List.append_eq_nil_iff.mp h).2).2
    (List.cons_ne_nil _ _)

theorem matchDefinition_eq_some {function text rest : Str} :
    matchDefinition function text = some rest ↔
      ∃ head, IsHead function head ∧ text = head ++ rest := by
  have hopen := @dropLiteral_dropWhile isSpace '(' (by decide)
  have hclose := @dropLiteral_dropWhile (fun c => c != ')') ')' (by decide)
  have hbrace := @dropLiteral_dropWhile isSpace '{' (by decide)
  constructor
  · intro h
    obtain ⟨r₀, h₀, h⟩ := Option.bind_eq_some_iff.mp h
    obtain ⟨r₁, h₁, h⟩ := Option.bind_eq_some_iff.mp h
    obtain ⟨r₂, h₂, h₃⟩ := Option.bind_eq_some_iff.mp h
    obtain rfl := dropLiteral_eq_some.mp h₀
    obtain ⟨gap, hgap, rfl⟩ := hopen.mp h₁
    obtain ⟨args, hargs, rfl⟩ := hclose.mp h₂
    obtain ⟨gap', hgap', rfl⟩ := hbrace.mp h₃
    refine ⟨_, ⟨gap, args, gap', hgap, hargs, hgap', rfl⟩, ?_⟩
    simp only [List.append_assoc, List.cons_append, List.nil_append]
  · rintro ⟨head, ⟨gap, args, gap', hgap, hargs, hgap', rfl⟩, rfl⟩
    simp only [List.append_assoc, List.cons_append, List.nil_append]
    exact Option.bind_eq_some_iff.mpr ⟨_, dropLiteral_eq_some.mpr rfl,
      Option.bind_eq_some_iff.mpr ⟨_, hopen.mpr ⟨gap, hgap, rfl⟩,
        Option.bind_eq_some_iff.mpr ⟨_, hclose.mpr ⟨args, hargs, rfl⟩,
          hbrace.mpr ⟨gap', hgap', rfl⟩⟩⟩⟩

/-- A run that starts earlier, up to a character that is not in it, ends no later. -/
theorem suffix_of_run {p : Char → Bool} {c : Char} (hc : p c = false) {v w w' rest rest' : Str}
    (hw' : ∀ d ∈ w', p d = true) (h : v ++ (w ++ c :: rest) = w' ++ c :: rest') :
    ∃ v', rest' = v' ++ rest := by
  rw [← List.append_assoc] at h
  rcases List.append_eq_append_iff.mp h with ⟨u, hu, hrest⟩ | ⟨u, hu, hrest⟩
  · cases u with
    | nil => exact ⟨[], (List.cons.inj hrest).2.symm⟩
    | cons d u =>
      -- the character would be inside the run
      obtain ⟨rfl, -⟩ := List.cons.inj hrest
      have hmem : c ∈ w' := by
        rw [hu]
        exact List.mem_append_right _ List.mem_cons_self
      exact nomatch (hw' c hmem).symm.trans hc
  · cases u with
    | nil => exact ⟨[], (List.cons.inj hrest).2⟩
    | cons d u => exact ⟨u ++ [c], by rw [(List.cons.inj hrest).2, List.append_assoc]; rfl⟩

/-- **A match that starts earlier ends no later.** -/
theorem IsHead.suffix {function head head' u rest rest' : Str} (h : IsHead function head)
    (h' : IsHead function head') (heq : u ++ (head ++ rest) = head' ++ rest') :
    ∃ v, rest' = v ++ rest := by
  obtain ⟨gap₁, args₁, gap₁', _, _, _, rfl⟩ := h
  obtain ⟨gap₂, args₂, gap₂', hgap, hargs, hgap', rfl⟩ := h'
  simp only [List.append_assoc, List.cons_append, List.nil_append] at heq
  have hdrop := congrArg (List.drop function.length) heq
  rw [List.drop_left, ← List.append_assoc, List.drop_append_of_le_length
    (by rw [List.length_append]; omega)] at hdrop
  obtain ⟨v₁, h₁⟩ := suffix_of_run (by decide) hgap hdrop
  obtain ⟨v₂, h₂⟩ := suffix_of_run (p := fun c => c != ')') (by decide) hargs h₁.symm
  exact suffix_of_run (by decide) hgap' h₂.symm

/-! ### The first match -/

section Search

variable {isWord : Char → Bool} {function : Str}

theorem searchDefinition_cons {before : Option Char} {pos : Nat} {c : Char} {text : Str}
    {found : Nat × Nat} :
    searchDefinition isWord function before pos (c :: text) = some found ↔
      (∃ head rest, wordBoundary isWord before (some c) = true ∧ IsHead function head ∧
        c :: text = head ++ rest ∧ found = (pos, pos + head.length)) ∨
      ((wordBoundary isWord before (some c) = true →
          ∀ head rest, IsHead function head → c :: text ≠ head ++ rest) ∧
        searchDefinition isWord function (some c) (pos + 1) text = some found) := by
  rw [searchDefinition]
  by_cases hbound : wordBoundary isWord before (some c) = true
  · rw [if_pos hbound]
    cases hmatch : matchDefinition function (c :: text) with
    | some tail =>
      obtain ⟨head, hhead, htext⟩ := matchDefinition_eq_some.mp hmatch
      have hlen : pos + (c :: text).length - tail.length = pos + head.length := by
        rw [htext, List.length_append]
        omega
      dsimp only
      rw [hlen]
      constructor
      · intro h
        exact Or.inl ⟨head, tail, hbound, hhead, htext, (Option.some.inj h).symm⟩
      · rintro (⟨head', tail', -, hhead', htext', rfl⟩ | ⟨hno, -⟩)
        · have htail := hmatch.symm.trans (matchDefinition_eq_some.mpr ⟨head', hhead', htext'⟩)
          rw [← Option.some.inj htail, htext] at htext'
          rw [List.append_cancel_right htext']
        · exact absurd htext (hno hbound head tail hhead)
    | none =>
      have hno : ∀ head rest, IsHead function head → c :: text ≠ head ++ rest := by
        intro head rest hhead htext
        exact nomatch hmatch.symm.trans (matchDefinition_eq_some.mpr ⟨head, hhead, htext⟩)
      constructor
      · intro h
        exact Or.inr ⟨fun _ => hno, h⟩
      · rintro (⟨head, rest, -, hhead, htext, -⟩ | ⟨-, h⟩)
        · exact absurd htext (hno head rest hhead)
        · exact h
  · rw [if_neg hbound]
    constructor
    · intro h
      exact Or.inr ⟨fun h => absurd h hbound, h⟩
    · rintro (⟨_, _, h, -⟩ | ⟨-, h⟩)
      · exact absurd h hbound
      · exact h

theorem searchDefinition_eq_some {text : Str} : ∀ {before : Option Char} {pos a b : Nat},
    searchDefinition isWord function before pos text = some (a, b) →
      ∃ u head rest, text = u ++ (head ++ rest) ∧ IsHead function head ∧ a = pos + u.length ∧
        b = a + head.length ∧
        wordBoundary isWord (u.getLast?.or before) (head ++ rest).head? = true := by
  induction text with
  | nil => intro before pos a b h; cases h
  | cons c text ih =>
    intro before pos a b h
    rcases searchDefinition_cons.mp h with ⟨head, rest, hbound, hhead, htext, hfound⟩ | ⟨-, h⟩
    · cases hfound
      refine ⟨[], head, rest, htext, hhead, rfl, rfl, ?_⟩
      rw [← htext]
      exact hbound
    · obtain ⟨u, head, rest, rfl, hhead, rfl, rfl, hbound⟩ := ih h
      refine ⟨c :: u, head, rest, rfl, hhead, ?_, rfl, ?_⟩
      · rw [List.length_cons]
        omega
      · rw [List.getLast?_cons]
        cases hu : u.getLast? with
        | none => rw [hu] at hbound; exact hbound
        | some d => rw [hu] at hbound; exact hbound

/-- **The first match is settled by the text up to its end.** -/
theorem searchDefinition_agree {y y' : Str} (x : Str) : ∀ {before : Option Char} {pos a b : Nat},
    searchDefinition isWord function before pos (x ++ y) = some (a, b) → b ≤ pos + x.length →
      searchDefinition isWord function before pos (x ++ y') = some (a, b) := by
  induction x with
  | nil =>
    intro before pos a b h hb
    obtain ⟨u, head, rest, -, hhead, rfl, rfl, -⟩ := searchDefinition_eq_some h
    have hpos := List.length_pos_of_ne_nil hhead.ne_nil
    rw [List.length_nil] at hb
    omega
  | cons c x ih =>
    intro before pos a b h hb
    rw [List.length_cons] at hb
    rw [List.cons_append] at h ⊢
    rcases searchDefinition_cons.mp h with ⟨head, rest, hbound, hhead, htext, hfound⟩ | ⟨hno, h⟩
    · cases hfound
      obtain ⟨z, hz, -⟩ := split_of_length_le (x := c :: x) htext.symm
        (by rw [List.length_cons]; omega)
      refine searchDefinition_cons.mpr (Or.inl ⟨head, z ++ y', hbound, hhead, ?_, rfl⟩)
      rw [← List.append_assoc, ← hz]
      rfl
    · have hrest := ih h (by omega)
      refine searchDefinition_cons.mpr (Or.inr ⟨fun hbound head rest hhead htext => ?_, hrest⟩)
      -- a match here would end no later than the one that is found
      obtain ⟨u, head', rest', htext', hhead', rfl, rfl, -⟩ := searchDefinition_eq_some hrest
      have heq : (c :: u) ++ (head' ++ rest') = head ++ rest := by
        rw [← htext, htext']
        rfl
      obtain ⟨v, rfl⟩ := hhead'.suffix hhead heq
      have hlen := congrArg List.length heq
      simp only [List.length_append, List.length_cons] at hlen
      obtain ⟨z, hz, -⟩ := split_of_length_le (x := c :: x) htext.symm
        (by rw [List.length_cons]; omega)
      exact hno hbound head (z ++ y) hhead (by rw [← List.append_assoc, ← hz]; rfl)

theorem functionMatch_eq_ok {source : Str} {found : Nat × Nat} :
    functionMatch isWord source function = .ok found ↔
      searchDefinition isWord function none 0 source = some found := by
  unfold functionMatch
  split
  · rename_i found' h
    rw [h]
    exact ⟨fun h => congrArg some (Except.ok.inj h), fun h => congrArg _ (Option.some.inj h)⟩
  · rename_i h
    rw [h]
    exact iff_of_false nofun nofun

theorem functionMatch_agree {n : Nat} {s t : Str} (h : AgreeTo n s t) {found : Nat × Nat}
    (hfound : functionMatch isWord s function = .ok found) (hle : found.2 ≤ n) :
    functionMatch isWord t function = .ok found := by
  obtain ⟨x, c, y, c', y', rfl, rfl, hn, -⟩ := h
  rw [functionMatch_eq_ok] at hfound ⊢
  exact searchDefinition_agree x hfound (by omega)

end Search

/-! ### The body -/

/-- The characters that the search for the end of a body counts. -/
def isBrace (c : Char) : Bool := c == '\x7b' || c == '\x7d'

/-- The depth after the text, where 0 stays 0. -/
def braceDepth : Nat → Str → Nat
  | 0, _ => 0
  | depth + 1, [] => depth + 1
  | depth + 1, c :: rest =>
    braceDepth (if c = '\x7b' then depth + 2 else if c = '\x7d' then depth else depth + 1) rest

theorem braceDepth_zero (text : Str) : braceDepth 0 text = 0 := by
  cases text <;> rfl

theorem braceDepth_filter (text : Str) : ∀ depth,
    braceDepth depth (text.filter isBrace) = braceDepth depth text := by
  induction text with
  | nil => intro depth; rfl
  | cons c text ih =>
    intro depth
    cases depth with
    | zero => rw [braceDepth_zero, braceDepth_zero]
    | succ depth =>
      by_cases hc : isBrace c = true
      · rw [List.filter_cons_of_pos hc, braceDepth, braceDepth, ih]
      · have hne := not_or.mp (fun h => hc (Bool.or_eq_true_iff.mpr h))
        have hopen : c ≠ '\x7b' := fun h => hne.1 (beq_iff_eq.mpr h)
        have hclose : c ≠ '\x7d' := fun h => hne.2 (beq_iff_eq.mpr h)
        rw [List.filter_cons_of_neg hc, ih, braceDepth, if_neg hopen, if_neg hclose]

theorem closingBrace_append (x : Str) : ∀ depth pos, braceDepth depth x ≠ 0 →
    ∀ y, closingBrace depth pos (x ++ y) =
      closingBrace (braceDepth depth x) (pos + x.length) y := by
  induction x with
  | nil =>
    intro depth pos _ y
    cases depth <;> rfl
  | cons c x ih =>
    intro depth pos hdepth y
    cases depth with
    | zero => exact absurd (braceDepth_zero _) hdepth
    | succ depth =>
      rw [List.cons_append, closingBrace, ih _ _ hdepth, braceDepth, List.length_cons]
      congr 1
      omega

theorem closingBrace_le (x : Str) : ∀ depth pos, braceDepth depth x = 0 →
    ∀ y, ∃ e, closingBrace depth pos (x ++ y) = some e ∧ e ≤ pos + x.length := by
  induction x with
  | nil =>
    intro depth pos hdepth y
    cases depth with
    | zero => exact ⟨pos, by cases y <;> rfl, Nat.le_refl _⟩
    | succ depth => cases hdepth
  | cons c x ih =>
    intro depth pos hdepth y
    cases depth with
    | zero => exact ⟨pos, rfl, Nat.le_add_right _ _⟩
    | succ depth =>
      obtain ⟨e, he, hle⟩ := ih _ (pos + 1) hdepth y
      refine ⟨e, he, ?_⟩
      rw [List.length_cons]
      omega

theorem closingBrace_ge {text : Str} : ∀ {depth pos e : Nat},
    closingBrace depth pos text = some e → pos ≤ e := by
  induction text with
  | nil =>
    intro depth pos e h
    cases depth with
    | zero => cases h; exact Nat.le_refl _
    | succ depth => cases h
  | cons c text ih =>
    intro depth pos e h
    cases depth with
    | zero => cases h; exact Nat.le_refl _
    | succ depth =>
      have hrest := ih h
      omega

theorem closingBrace_gt {text : Str} {depth pos e : Nat} (hdepth : depth ≠ 0)
    (h : closingBrace depth pos text = some e) : pos < e := by
  cases depth with
  | zero => exact absurd rfl hdepth
  | succ depth =>
    cases text with
    | nil => cases h
    | cons c text => exact closingBrace_ge h

/-- Where the end is found depends on the braces alone. -/
theorem closingBrace_isSome (text : Str) : ∀ depth pos,
    (closingBrace depth pos text).isSome = true ↔ braceDepth depth text = 0 := by
  intro depth pos
  constructor
  · intro h
    by_contra hdepth
    have hgo := closingBrace_append text depth pos hdepth []
    rw [List.append_nil] at hgo
    rw [hgo] at h
    cases hd : braceDepth depth text with
    | zero => exact hdepth hd
    | succ d => rw [hd] at h; cases h
  · intro h
    obtain ⟨e, he, -⟩ := closingBrace_le text depth pos h []
    rw [List.append_nil] at he
    rw [he]
    rfl

theorem functionBody_eq_ok {isWord : Char → Bool} {source function : Str} {body : Nat × Nat} :
    functionBody isWord source function = .ok body ↔
      ∃ found e, functionMatch isWord source function = .ok found ∧
        closingBrace 1 found.2 (source.drop found.2) = some e ∧ body = (found.2, e - 1) := by
  unfold functionBody
  rw [bind_eq_ok]
  refine exists_congr (fun found => ?_)
  cases hbrace : closingBrace 1 found.2 (source.drop found.2) with
  | none => exact iff_of_false (fun h => nomatch h.2) (fun ⟨_, _, h, _⟩ => nomatch h)
  | some e =>
    constructor
    · rintro ⟨hfound, h⟩
      exact ⟨e, hfound, rfl, (Except.ok.inj h).symm⟩
    · rintro ⟨_, hfound, h, rfl⟩
      cases h
      exact ⟨hfound, rfl⟩

/-- **That a body reaches an offset** is settled by the text up to there and the braces
behind it. -/
theorem functionBody_agree {isWord : Char → Bool} {function : Str} {n m : Nat} {s t : Str}
    (h : AgreeTo n s t) (hbraces : s.filter isBrace = t.filter isBrace) {body : Nat × Nat}
    (hbody : functionBody isWord s function = .ok body) (hfrom : body.1 ≤ m) (hto : m ≤ body.2)
    (hm : m ≤ n) : ∃ body', functionBody isWord t function = .ok body' ∧ body'.1 = body.1 ∧
      m ≤ body'.2 := by
  obtain ⟨found, e, hfound, hclose, rfl⟩ := functionBody_eq_ok.mp hbody
  have hfound' := functionMatch_agree h hfound (Nat.le_trans hfrom hm)
  obtain ⟨x, c, y, c', y', rfl, rfl, rfl, -⟩ := h
  -- the text from the beginning of the body to the offset, and what is behind the offset
  have hsplit : ∀ z, (x ++ z).drop found.2 =
      ((x.take m).drop found.2) ++ ((x.drop m) ++ z) := by
    intro z
    have hle : found.2 ≤ (x.take m).length := by
      rw [List.length_take]
      omega
    rw [← List.drop_append_of_le_length hle, ← List.append_assoc, List.take_append_drop]
  have hlen : found.2 + ((x.take m).drop found.2).length = m := by
    rw [List.length_drop, List.length_take]
    omega
  rw [hsplit] at hclose
  have hdepth : braceDepth 1 ((x.take m).drop found.2) ≠ 0 := by
    intro hzero
    obtain ⟨e', he', hle⟩ := closingBrace_le _ _ found.2 hzero (x.drop m ++ c :: y)
    rw [hclose] at he'
    obtain rfl : e = e' := Option.some.inj he'
    have hpos := closingBrace_gt Nat.one_ne_zero hclose
    omega
  rw [closingBrace_append _ _ _ hdepth, hlen] at hclose
  have hrest : (x.drop m ++ c :: y).filter isBrace = (x.drop m ++ c' :: y').filter isBrace := by
    rw [List.filter_append, List.filter_append] at hbraces ⊢
    rw [List.append_cancel_left hbraces]
  have hsome : (closingBrace (braceDepth 1 ((x.take m).drop found.2)) m
      (x.drop m ++ c' :: y')).isSome = true := by
    rw [closingBrace_isSome, ← braceDepth_filter, ← hrest, braceDepth_filter]
    exact (closingBrace_isSome _ _ m).mp (by rw [hclose]; rfl)
  obtain ⟨e', he'⟩ := Option.isSome_iff_exists.mp hsome
  refine ⟨(found.2, e' - 1), functionBody_eq_ok.mpr ⟨found, e', hfound', ?_, rfl⟩, rfl, ?_⟩
  · rw [hsplit, closingBrace_append _ _ _ hdepth, hlen, he']
  · have hpos := closingBrace_gt hdepth he'
    show m ≤ e' - 1
    omega

end InterSpec.Tools
