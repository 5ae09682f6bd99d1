import InterSpec.Data.Machine
import InterSpec.Tools.Balanced
import InterSpec.Tools.Source

/-!
# The tokens of C text

A lexer on top of the automaton of `Calls.lean`: comments and white space separate tokens,
a literal is one token, and the rest is cut by the longest match.  A parenthesis is a token
of its own, so text may be cut in front of one and behind one.

* `tokens`: the tokens of a text that begins in code.
* `tokens_append_paren`: a cut in front of a parenthesis.
* `tokens_paren_append`: a cut behind one.
-/

namespace InterSpec.Tools

/-- The operators of more than one character. -/
def operators : List Str :=
  ["->", "++", "--", "<<=", ">>=", "<=", ">=", "==", "!=", "&&", "||", "*=", "/=", "%=", "+=",
    "-=", "&=", "^=", "|=", "...", "##"].map String.toList

/-- A digit, or a point and a digit, begins a number. -/
def beginsNumber : Str → Bool
  | '.' :: c :: _ => c.isDigit
  | c :: _ => c.isDigit
  | [] => false

/-- The signs of an exponent are part of the number. -/
def continuesNumber (pending : Str) (c : Char) : Bool :=
  isIdentChar c || c == '.' ||
    ((c == '+' || c == '-') && pending.getLast?.any (fun d => ['e', 'E', 'p', 'P'].contains d))

/-- The character goes on with the token that is pending. -/
def joins (pending : Str) (c : Char) : Bool :=
  (pending.all isIdentChar && isIdentChar c) ||
    (beginsNumber (pending ++ [c]) && continuesNumber pending c) ||
    operators.any (fun o => (pending ++ [c]).isPrefixOf o)

/-- The token that is pending, if there is one. -/
def emit (pending : Str) : List Str := if pending = [] then [] else [pending]

structure LexState where
  scan : Scan
  pending : Str
deriving DecidableEq, Repr

/-- One more character, and the token that it ends. -/
def lexNext : Machine LexState Char (List Str) := fun s c =>
  match s.scan, s.scan.next c with
  | .code _, .code slash =>
    if isSpace c then (⟨.code slash, []⟩, emit s.pending)
    else if joins s.pending c then (⟨.code slash, s.pending ++ [c]⟩, [])
    else (⟨.code slash, [c]⟩, emit s.pending)
  | .code _, .literal quote escaped => (⟨.literal quote escaped, [c]⟩, emit s.pending)
  -- the slash before belongs to the comment mark
  | .code _, comment => (⟨comment, []⟩, emit s.pending.dropLast)
  | .literal _ _, .literal quote escaped => (⟨.literal quote escaped, s.pending ++ [c]⟩, [])
  | .literal _ _, other => (⟨other, []⟩, emit (s.pending ++ [c]))
  | _, other => (⟨other, []⟩, [])

def lexFrom (s : LexState) (text : Str) : List Str :=
  (lexNext.outputs s text).flatten ++ emit (lexNext.after s text).pending

def tokens (text : Str) : List Str := lexFrom ⟨.code false, []⟩ text

example : tokens "n+ 1.5e+3 /* ' */ ->p[\x22a b\x22]// c".toList =
    ["n", "+", "1.5e+3", "->", "p", "[", "\x22a b\x22", "]"].map String.toList := by
  decide +kernel

theorem lexFrom_cons (s : LexState) (c : Char) (text : Str) :
    lexFrom s (c :: text) = (lexNext s c).2 ++ lexFrom (lexNext s c).1 text := by
  rw [lexFrom, lexFrom, Machine.outputs_cons, Machine.after_cons, List.flatten_cons,
    List.append_assoc]

theorem lexFrom_append (s : LexState) (u v : Str) :
    lexFrom s (u ++ v) = (lexNext.outputs s u).flatten ++ lexFrom (lexNext.after s u) v := by
  rw [lexFrom, lexFrom, Machine.outputs_append, Machine.after_append, List.flatten_append,
    List.append_assoc]

/-- The lexer follows the automaton. -/
theorem lexNext_scan (s : LexState) (c : Char) : (lexNext s c).1.scan = s.scan.next c := by
  obtain ⟨scan, pending⟩ := s
  unfold lexNext
  dsimp only
  cases scan <;> cases hnext : Scan.next _ c <;> dsimp only
  all_goals first
    | rfl
    | (split
       · rfl
       · split <;> rfl)

theorem after_scan (text : Str) : ∀ s : LexState,
    (lexNext.after s text).scan = s.scan.run text := by
  induction text with
  | nil => intro s; rfl
  | cons c text ih => intro s; rw [Machine.after_cons, ih, lexNext_scan, Scan.run_cons]

/-! ### Parentheses -/

def isParenChar (c : Char) : Bool := c == '(' || c == ')'

theorem isParenChar_cases {c : Char} (h : isParenChar c = true) : c = '(' ∨ c = ')' := by
  simpa [isParenChar] using h

theorem not_operator_of_paren {c : Char} (hc : isParenChar c = true) {text : Str}
    (hmem : c ∈ text) : operators.any (fun o => text.isPrefixOf o) = false := by
  have hno : operators.all (fun o => o.all (fun d => !isParenChar d)) = true := by decide
  rw [List.any_eq_false]
  intro o ho h
  have hd := List.all_eq_true.mp (List.all_eq_true.mp hno o ho) c
    ((List.isPrefixOf_iff_prefix.mp h).subset hmem)
  rw [hc] at hd
  cases hd

theorem joins_paren {c : Char} (hc : isParenChar c = true) (pending : Str) :
    joins pending c = false := by
  have hident : isIdentChar c = false := by rcases isParenChar_cases hc with rfl | rfl <;> rfl
  have hnumber : continuesNumber pending c = false := by
    rcases isParenChar_cases hc with rfl | rfl <;> rfl
  rw [joins, hident, hnumber, not_operator_of_paren hc (by simp)]
  simp

theorem paren_joins {c : Char} (hc : isParenChar c = true) (d : Char) : joins [c] d = false := by
  have hident : isIdentChar c = false := by rcases isParenChar_cases hc with rfl | rfl <;> rfl
  have hnumber : beginsNumber ([c] ++ [d]) = false := by
    rcases isParenChar_cases hc with rfl | rfl <;> rfl
  rw [joins, hnumber, not_operator_of_paren hc (by simp), List.all_cons, hident]
  rfl

theorem lexNext_paren {c : Char} (hc : isParenChar c = true) (slash : Bool) (pending : Str) :
    lexNext ⟨.code slash, pending⟩ c = (⟨.code false, [c]⟩, emit pending) := by
  have hnext : (Scan.code slash).next c = .code false := by
    rcases isParenChar_cases hc with rfl | rfl <;> cases slash <;> rfl
  have hspace : isSpace c = false := by rcases isParenChar_cases hc with rfl | rfl <;> decide
  simp [lexNext, hnext, hspace, joins_paren hc]

/-- A character after a parenthesis ends it, and is read as it would be at the beginning. -/
theorem lexNext_of_paren {c : Char} (hc : isParenChar c = true) (d : Char) :
    lexNext ⟨.code false, [c]⟩ d = ((lexNext ⟨.code false, []⟩ d).1, [[c]]) ∧
      (lexNext ⟨.code false, []⟩ d).2 = [] := by
  have hemit : emit [c] = [[c]] := rfl
  by_cases hquote : d = '\x22' ∨ d = '\x27'
  · have hnext := Scan.next_quote hquote false
    simp [lexNext, hnext, emit]
  · have hnext : (Scan.code false).next d = .code (d == '/') := by
      rw [Scan.next, if_neg (fun h => absurd h.1 Bool.false_ne_true),
        if_neg (fun h => absurd h.1 Bool.false_ne_true), if_neg hquote]
    by_cases hspace : isSpace d = true
    · simp [lexNext, hnext, hspace, emit]
    · by_cases hjoins : joins [] d = true
      · simp [lexNext, hnext, hspace, paren_joins hc, hjoins, hemit]
      · simp [lexNext, hnext, hspace, paren_joins hc, hjoins, emit]

theorem lexFrom_paren {c : Char} (hc : isParenChar c = true) (text : Str) :
    lexFrom ⟨.code false, [c]⟩ text = [c] :: tokens text := by
  cases text with
  | nil => rfl
  | cons d text =>
    obtain ⟨hpending, hout⟩ := lexNext_of_paren hc d
    rw [tokens, lexFrom_cons, lexFrom_cons, hpending, hout]
    rfl

theorem tokens_paren_cons {c : Char} (hc : isParenChar c = true) (text : Str) :
    tokens (c :: text) = [c] :: tokens text := by
  rw [tokens, lexFrom_cons, lexNext_paren hc]
  exact lexFrom_paren hc text

/-- **Text in code may be cut in front of a parenthesis.** -/
theorem tokens_append_paren {u : Str} (hu : ((Scan.code false).run u).InCode) {c : Char}
    (hc : isParenChar c = true) (v : Str) : tokens (u ++ c :: v) = tokens u ++ tokens (c :: v) := by
  obtain ⟨scan, pending, hafter⟩ : ∃ scan pending,
      lexNext.after ⟨.code false, []⟩ u = ⟨scan, pending⟩ := ⟨_, _, rfl⟩
  have hscan := after_scan u ⟨.code false, []⟩
  rw [hafter] at hscan
  dsimp only at hscan
  rw [← hscan] at hu
  obtain ⟨slash, rfl⟩ := hu.eq_code
  have hu' : tokens u = (lexNext.outputs ⟨.code false, []⟩ u).flatten ++ emit pending := by
    rw [tokens, lexFrom, hafter]
  have htail : lexFrom ⟨.code slash, pending⟩ (c :: v) = emit pending ++ [c] :: tokens v := by
    rw [lexFrom_cons, lexNext_paren hc, lexFrom_paren hc]
  rw [tokens_paren_cons hc, hu', tokens, lexFrom_append, hafter, htail, List.append_assoc]

/-- **And behind one.** -/
theorem tokens_paren_append {u : Str} (hu : ((Scan.code false).run u).InCode) {c : Char}
    (hc : isParenChar c = true) (v : Str) :
    tokens (u ++ c :: v) = tokens (u ++ [c]) ++ tokens v := by
  rw [tokens_append_paren hu hc, tokens_append_paren hu hc, tokens_paren_cons hc,
    tokens_paren_cons hc, List.append_assoc]
  rfl

end InterSpec.Tools
