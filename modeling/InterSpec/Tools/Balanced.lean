import InterSpec.Data.Walk
import InterSpec.Tools.Calls
import Mathlib.Data.List.Infix

/-!
# Balanced text

The lexical grammar of C text with balanced brackets: code, literals and comments, in which
only the brackets of the code count.  It is stated as a grammar (`Balanced`) and read off
the automaton of `Calls.lean` as a walk (`signs`), with a step up at an opening bracket and
a step down at a closing one.

* `balanced_iff`: a text is balanced when its walk is an excursion that ends in code.
* `Balanced.unique`: where a balanced text ends before a closing bracket, it ends nowhere
  else.
* `scanParen_eq_firstZero`: the scan of `Calls.lean` is the search in that walk.
-/

namespace InterSpec.Tools

open Walk

/-- A character that can begin or end a comment or a literal. -/
def isMark (c : Char) : Bool := c == '/' || c == '*' || c == '\x22' || c == '\x27'

structure Brackets where
  opener : Char
  closer : Char
  ne : opener ≠ closer
  opener_plain : isMark opener = false
  closer_plain : isMark closer = false

def parens : Brackets := ⟨'(', ')', by decide, by decide, by decide⟩

def braces : Brackets := ⟨'\x7b', '\x7d', by decide, by decide, by decide⟩

/-! ### The grammar -/

/-- What may stand between the two quotes of a literal. -/
inductive LiteralText (quote : Char) : Str → Prop
  | nil : LiteralText quote []
  | plain {c : Char} {rest : Str} (hescape : c ≠ '\x5c') (hquote : c ≠ quote)
      (h : LiteralText quote rest) : LiteralText quote (c :: rest)
  | escape (c : Char) {rest : Str} (h : LiteralText quote rest) :
      LiteralText quote ('\x5c' :: c :: rest)

/-- A slash before the text would begin a comment. -/
def ContinuesMark : Str → Prop
  | [] => False
  | c :: _ => c = '/' ∨ c = '*'

/-- Code with its brackets nested, literals, comments up to the end of a line and comments
up to the first end mark. -/
inductive Balanced (b : Brackets) : Str → Prop
  | nil : Balanced b []
  | code {c : Char} {rest : Str} (hc : c ≠ b.opener ∧ c ≠ b.closer) (hslash : c ≠ '/')
      (hquote : c ≠ '\x22' ∧ c ≠ '\x27') (h : Balanced b rest) : Balanced b (c :: rest)
  | slash {rest : Str} (hmark : ¬ ContinuesMark rest) (h : Balanced b rest) :
      Balanced b ('/' :: rest)
  | group {body rest : Str} (hbody : Balanced b body) (h : Balanced b rest) :
      Balanced b (b.opener :: (body ++ b.closer :: rest))
  | literal {quote : Char} {text rest : Str} (hquote : quote = '\x22' ∨ quote = '\x27')
      (htext : LiteralText quote text) (h : Balanced b rest) :
      Balanced b (quote :: (text ++ quote :: rest))
  | lineComment {text rest : Str} (htext : '\n' ∉ text) (h : Balanced b rest) :
      Balanced b ('/' :: '/' :: (text ++ '\n' :: rest))
  | blockComment {text rest : Str} (htext : ¬ ['*', '/'] <:+: text) (h : Balanced b rest) :
      Balanced b ('/' :: '*' :: (text ++ '*' :: '/' :: rest))

/-! ### The walk -/

namespace Scan

/-- The state after a text. -/
def run (s : Scan) (text : Str) : Scan := text.foldl Scan.next s

@[simp] theorem run_nil (s : Scan) : s.run [] = s := rfl

@[simp] theorem run_cons (s : Scan) (c : Char) (text : Str) :
    s.run (c :: text) = (s.next c).run text := rfl

theorem run_append (s : Scan) (u v : Str) : s.run (u ++ v) = (s.run u).run v :=
  List.foldl_append

def InCode : Scan → Prop
  | code _ => True
  | _ => False

instance decidableInCode (s : Scan) : Decidable s.InCode :=
  match s with
  | code _ => isTrue trivial
  | lineComment => isFalse id
  | blockComment _ => isFalse id
  | literal _ _ => isFalse id

theorem InCode.eq_code {s : Scan} (hs : s.InCode) : ∃ slash, s = code slash := by
  cases s with
  | code slash => exact ⟨slash, rfl⟩
  | lineComment => exact absurd hs id
  | blockComment star => exact absurd hs id
  | literal quote escaped => exact absurd hs id

/-- 1 at an opening bracket of the code, -1 at a closing one. -/
def sign (b : Brackets) (s : Scan) (c : Char) : Int :=
  if s.isParen b.opener c then 1 else if s.isParen b.closer c then -1 else 0

def signs (b : Brackets) : Scan → Str → List Int
  | _, [] => []
  | s, c :: text => s.sign b c :: (s.next c).signs b text

theorem length_signs (b : Brackets) (text : Str) : ∀ s : Scan,
    (s.signs b text).length = text.length := by
  induction text with
  | nil => intro s; rfl
  | cons c text ih => intro s; rw [signs, List.length_cons, List.length_cons, ih]

theorem signs_append (b : Brackets) (u v : Str) : ∀ s : Scan,
    s.signs b (u ++ v) = s.signs b u ++ (s.run u).signs b v := by
  induction u with
  | nil => intro s; rfl
  | cons c u ih =>
    intro s
    rw [List.cons_append, signs, signs, ih, run_cons, List.cons_append]

theorem sign_ge (b : Brackets) (s : Scan) (c : Char) : -1 ≤ s.sign b c := by
  unfold sign
  split
  · omega
  · split <;> omega

theorem signs_ge (b : Brackets) (text : Str) : ∀ s : Scan, ∀ w ∈ s.signs b text, -1 ≤ w := by
  induction text with
  | nil => intro s w hw; cases hw
  | cons c text ih =>
    intro s w hw
    rcases List.mem_cons.mp hw with rfl | hw
    · exact sign_ge b s c
    · exact ih _ w hw

theorem sign_of_not_inCode {s : Scan} (hs : ¬ s.InCode) (b : Brackets) (c : Char) :
    s.sign b c = 0 := by
  cases s with
  | code slash => exact absurd trivial hs
  | lineComment => rfl
  | blockComment star => rfl
  | literal quote escaped => rfl

theorem sign_code (b : Brackets) (slash : Bool) (c : Char) : (code slash).sign b c =
    if c = b.opener then 1 else if c = b.closer then -1 else 0 := by
  simp [sign, isParen]

theorem InCode.sign_eq {s : Scan} (hs : s.InCode) (b : Brackets) (c : Char) : s.sign b c =
    if c = b.opener then 1 else if c = b.closer then -1 else 0 := by
  obtain ⟨slash, rfl⟩ := hs.eq_code
  exact sign_code b slash c

theorem sign_of_isMark (b : Brackets) (slash : Bool) {c : Char} (hc : isMark c = true) :
    (code slash).sign b c = 0 := by
  have hopen : c ≠ b.opener := fun h => by
    rw [h, b.opener_plain] at hc
    cases hc
  have hclose : c ≠ b.closer := fun h => by
    rw [h, b.closer_plain] at hc
    cases hc
  rw [sign_code, if_neg hopen, if_neg hclose]

theorem next_code {slash : Bool} {c : Char} (hmark : slash = true → c ≠ '/' ∧ c ≠ '*')
    (hquote : c ≠ '\x22' ∧ c ≠ '\x27') : (code slash).next c = code (c == '/') := by
  have h₁ : ¬ (slash = true ∧ c = '/') := fun h => (hmark h.1).1 h.2
  have h₂ : ¬ (slash = true ∧ c = '*') := fun h => (hmark h.1).2 h.2
  have h₃ : ¬ (c = '\x22' ∨ c = '\x27') := fun h => h.elim hquote.1 hquote.2
  rw [next, if_neg h₁, if_neg h₂, if_neg h₃]

theorem next_quote {quote : Char} (hquote : quote = '\x22' ∨ quote = '\x27') (slash : Bool) :
    (code slash).next quote = literal quote false := by
  rcases hquote with rfl | rfl <;> cases slash <;> rfl

theorem next_plain_code {c : Char} (hc : isMark c = false) (slash : Bool) :
    (code slash).next c = code false := by
  simp only [isMark, Bool.or_eq_false_iff, beq_eq_false_iff_ne] at hc
  obtain ⟨⟨⟨h₁, h₂⟩, h₃⟩, h₄⟩ := hc
  rw [next_code (fun _ => ⟨h₁, h₂⟩) ⟨h₃, h₄⟩, beq_false_of_ne h₁]

theorem InCode.next_plain {s : Scan} (hs : s.InCode) {c : Char} (hc : isMark c = false) :
    s.next c = code false := by
  obtain ⟨slash, rfl⟩ := hs.eq_code
  exact next_plain_code hc slash

/-! ### Literals and comments -/

/-- A text that is read from `s` to `s'` without a bracket that counts. -/
structure Passes (b : Brackets) (s : Scan) (text : Str) (s' : Scan) : Prop where
  run_eq : s.run text = s'
  zero : ∀ w ∈ s.signs b text, w = 0

theorem Passes.nil (b : Brackets) (s : Scan) : Passes b s [] s := ⟨rfl, nofun⟩

theorem Passes.cons {b : Brackets} {s s' : Scan} {c : Char} {text : Str} (hsign : s.sign b c = 0)
    (h : Passes b (s.next c) text s') : Passes b s (c :: text) s' where
  run_eq := h.run_eq
  zero := List.forall_mem_cons.mpr ⟨hsign, h.zero⟩

theorem Passes.cons_of_not_inCode {b : Brackets} {s s' : Scan} {c : Char} {text : Str}
    (hs : ¬ s.InCode) (h : Passes b (s.next c) text s') : Passes b s (c :: text) s' :=
  .cons (sign_of_not_inCode hs b c) h

theorem passes_literal (b : Brackets) {quote : Char} (hescape : quote ≠ '\x5c') {text : Str}
    (h : LiteralText quote text) :
    Passes b (literal quote false) (text ++ [quote]) (code false) := by
  induction h with
  | nil =>
    have hnext : (literal quote false).next quote = code false := by simp [next, hescape]
    exact .cons_of_not_inCode id (by rw [hnext]; exact .nil b _)
  | @plain c rest hc hquote _ ih =>
    have hnext : (literal quote false).next c = literal quote false := by simp [next, hc, hquote]
    exact .cons_of_not_inCode id (by rw [hnext]; exact ih)
  | @escape c rest _ ih =>
    have hnext : (literal quote false).next '\x5c' = literal quote true := by simp [next]
    refine .cons_of_not_inCode id ?_
    rw [hnext]
    exact .cons_of_not_inCode id ih

theorem passes_lineComment (b : Brackets) {text : Str} (h : '\n' ∉ text) :
    Passes b lineComment (text ++ ['\n']) (code false) := by
  induction text with
  | nil => exact .cons_of_not_inCode id (.nil b _)
  | cons c text ih =>
    rw [List.mem_cons, not_or] at h
    have hnext : lineComment.next c = lineComment := if_neg (Ne.symm h.1)
    exact .cons_of_not_inCode id (by rw [hnext]; exact ih h.2)

/-- The comment goes on to the first end mark; `star` says that the character before is a
star that may be half of it. -/
theorem passes_blockComment (b : Brackets) {text : Str} : ∀ {star : Bool},
    (star = true → ∀ rest, text ≠ '/' :: rest) → ¬ ['*', '/'] <:+: text →
    Passes b (blockComment star) (text ++ ['*', '/']) (code false) := by
  induction text with
  | nil =>
    intro star _ _
    have hnext : (blockComment star).next '*' = blockComment true := by simp [next]
    refine .cons_of_not_inCode id ?_
    rw [hnext]
    exact .cons_of_not_inCode id (.nil b _)
  | cons c text ih =>
    intro star hstar hinfix
    have hnext : (blockComment star).next c = blockComment (c == '*') :=
      if_neg (fun h => hstar h.1 text (by rw [h.2]))
    refine .cons_of_not_inCode id ?_
    rw [hnext]
    refine ih (fun hc rest hrest => hinfix ?_) (fun h => hinfix (List.infix_cons h))
    rw [eq_of_beq hc, hrest]
    exact ⟨[], rest, rfl⟩

/-- **A literal that ends is a literal of the grammar.** -/
theorem exists_literalText {quote : Char} {text : Str} : ∀ {escaped : Bool},
    ((literal quote escaped).run text).InCode → ∃ inner rest, text = inner ++ quote :: rest ∧
      if escaped then ∃ c inner', inner = c :: inner' ∧ LiteralText quote inner'
      else LiteralText quote inner := by
  induction text with
  | nil => intro escaped h; exact absurd h id
  | cons c text ih =>
    intro escaped h
    rw [run_cons] at h
    cases escaped with
    | true =>
      have hnext : (literal quote true).next c = literal quote false := rfl
      rw [hnext] at h
      obtain ⟨inner, rest, rfl, hinner⟩ := ih h
      exact ⟨c :: inner, rest, rfl, c, inner, rfl, hinner⟩
    | false =>
      by_cases hescape : c = '\x5c'
      · subst hescape
        have hnext : (literal quote false).next '\x5c' = literal quote true := by simp [next]
        rw [hnext] at h
        obtain ⟨inner, rest, rfl, d, inner', rfl, hinner⟩ := ih h
        exact ⟨_, rest, rfl, .escape d hinner⟩
      · by_cases hquote : c = quote
        · subst hquote
          exact ⟨[], text, rfl, .nil⟩
        · have hnext : (literal quote false).next c = literal quote false := by
            simp [next, hescape, hquote]
          rw [hnext] at h
          obtain ⟨inner, rest, rfl, hinner⟩ := ih h
          exact ⟨c :: inner, rest, rfl, .plain hescape hquote hinner⟩

theorem exists_lineEnd {text : Str} (h : (lineComment.run text).InCode) :
    ∃ inner rest, text = inner ++ '\n' :: rest ∧ '\n' ∉ inner := by
  induction text with
  | nil => exact absurd h id
  | cons c text ih =>
    rw [run_cons] at h
    by_cases hc : c = '\n'
    · exact ⟨[], text, by rw [hc]; rfl, nofun⟩
    · have hnext : lineComment.next c = lineComment := if_neg hc
      rw [hnext] at h
      obtain ⟨inner, rest, rfl, hinner⟩ := ih h
      exact ⟨c :: inner, rest, rfl, List.not_mem_cons_of_ne_of_not_mem (Ne.symm hc) hinner⟩

theorem exists_commentEnd {text : Str} : ∀ {star : Bool},
    ((blockComment star).run text).InCode → (star = true ∧ ∃ rest, text = '/' :: rest) ∨
      ∃ inner rest, text = inner ++ '*' :: '/' :: rest ∧ ¬ ['*', '/'] <:+: inner ∧
        (star = true → ∀ rest', inner ≠ '/' :: rest') := by
  induction text with
  | nil => intro star h; exact absurd h id
  | cons c text ih =>
    intro star h
    by_cases hend : star = true ∧ c = '/'
    · exact .inl ⟨hend.1, text, by rw [hend.2]⟩
    · have hnext : (blockComment star).next c = blockComment (c == '*') := if_neg hend
      rw [run_cons, hnext] at h
      refine .inr ?_
      rcases ih h with ⟨hstar, rest, rfl⟩ | ⟨inner, rest, rfl, hinfix, hfirst⟩
      · exact ⟨[], rest, by rw [eq_of_beq hstar]; rfl, by simp, fun _ _ => nofun⟩
      · refine ⟨c :: inner, rest, rfl, fun h => ?_, fun hs rest' hr => ?_⟩
        · rcases List.infix_cons_iff.mp h with hpre | htail
          · obtain ⟨hc, hpre⟩ := List.cons_prefix_cons.mp hpre
            obtain ⟨rest', hrest⟩ := hpre
            exact hfirst (by rw [← hc]; rfl) rest' hrest.symm
          · exact hinfix htail
        · exact hend ⟨hs, (List.cons.inj hr).1⟩

/-! ### The two descriptions agree -/

/-- From the state `s` the brackets of the text are balanced, and it ends in code. -/
structure Closed (b : Brackets) (s : Scan) (text : Str) : Prop where
  walk : Excursion (s.signs b text)
  ends : (s.run text).InCode

instance decidableClosed (b : Brackets) (s : Scan) (text : Str) : Decidable (Closed b s text) :=
  decidable_of_iff (Excursion (s.signs b text) ∧ (s.run text).InCode)
    ⟨fun h => ⟨h.1, h.2⟩, fun h => ⟨h.walk, h.ends⟩⟩

theorem Passes.closed_iff {b : Brackets} {s s' : Scan} {u : Str} (h : Passes b s u s')
    (rest : Str) : Closed b s (u ++ rest) ↔ Closed b s' rest := by
  constructor
  · rintro ⟨hwalk, hends⟩
    rw [signs_append, h.run_eq, excursion_zeros_append h.zero] at hwalk
    rw [run_append, h.run_eq] at hends
    exact ⟨hwalk, hends⟩
  · rintro ⟨hwalk, hends⟩
    refine ⟨?_, ?_⟩
    · rw [signs_append, h.run_eq, excursion_zeros_append h.zero]
      exact hwalk
    · rw [run_append, h.run_eq]
      exact hends

theorem Closed.nil (b : Brackets) (slash : Bool) : Closed b (code slash) [] := ⟨.nil, trivial⟩

theorem closed_code_slash {b : Brackets} {rest : Str} (hmark : ¬ ContinuesMark rest)
    (slash : Bool) : Closed b (code slash) rest ↔ Closed b (code false) rest := by
  cases rest with
  | nil => exact iff_of_true (.nil b slash) (.nil b false)
  | cons c rest =>
    have hnext : (code slash).next c = (code false).next c := by
      rw [ContinuesMark, not_or] at hmark
      simp [next, hmark.1, hmark.2]
    have hsigns : (code slash).signs b (c :: rest) = (code false).signs b (c :: rest) := by
      rw [signs, signs, hnext, sign_code, sign_code]
    have hrun : (code slash).run (c :: rest) = (code false).run (c :: rest) := by
      rw [run_cons, run_cons, hnext]
    constructor <;> rintro ⟨hwalk, hends⟩
    · exact ⟨hsigns ▸ hwalk, hrun ▸ hends⟩
    · exact ⟨hsigns ▸ hwalk, hrun ▸ hends⟩

theorem signs_group {b : Brackets} {body : Str} (hbody : ((code false).run body).InCode)
    (rest : Str) : (code false).signs b (b.opener :: (body ++ b.closer :: rest)) =
      1 :: ((code false).signs b body ++ -1 :: (code false).signs b rest) ∧
    (code false).run (b.opener :: (body ++ b.closer :: rest)) = (code false).run rest := by
  have hopen := next_plain_code b.opener_plain false
  have hclose := hbody.next_plain b.closer_plain
  constructor
  · rw [signs, hopen, signs_append, signs, hclose, sign_code, if_pos rfl, hbody.sign_eq,
      if_neg b.ne.symm, if_pos rfl]
  · rw [run_cons, hopen, run_append, run_cons, hclose]

theorem closed_of_balanced {b : Brackets} {text : Str} (h : Balanced b text) :
    Closed b (code false) text := by
  induction h with
  | nil => exact .nil b false
  | @code c rest hc hslash hquote _ ih =>
    have hnext : (code false).next c = code false := by
      rw [next_code (fun h => absurd h Bool.false_ne_true) hquote, beq_false_of_ne hslash]
    have hsign : (code false).sign b c = 0 := by
      rw [sign_code, if_neg hc.1, if_neg hc.2]
    have hpass : Passes b (code false) [c] (code false) :=
      .cons hsign (by rw [hnext]; exact .nil b _)
    exact (hpass.closed_iff rest).mpr ih
  | @slash rest hmark _ ih =>
    have hpass : Passes b (code false) ['/'] (code true) := 
      .cons (sign_of_isMark b false rfl) (.nil b _)
    exact (hpass.closed_iff rest).mpr ((closed_code_slash hmark true).mpr ih)
  | @group body rest _ _ ihbody ihrest =>
    obtain ⟨hsigns, hrun⟩ := signs_group (b := b) ihbody.ends rest
    refine ⟨?_, ?_⟩
    · rw [hsigns]
      exact .nest ihbody.walk ihrest.walk
    · rw [hrun]
      exact ihrest.ends
  | @literal quote inner rest hquote htext _ ih =>
    have hmark : isMark quote = true := by rcases hquote with rfl | rfl <;> rfl
    have hescape : quote ≠ '\x5c' := by rcases hquote with rfl | rfl <;> decide
    have hpass : Passes b (code false) (quote :: (inner ++ [quote])) (code false) :=
      .cons (sign_of_isMark b false hmark)
        (by rw [next_quote hquote]; exact passes_literal b hescape htext)
    have htext : quote :: (inner ++ quote :: rest) = quote :: (inner ++ [quote]) ++ rest := by simp
    rw [htext]
    exact (hpass.closed_iff rest).mpr ih
  | @lineComment inner rest htext _ ih =>
    have hpass : Passes b (code false) ('/' :: '/' :: (inner ++ ['\n'])) (code false) :=
      .cons (sign_of_isMark b false rfl)
        (.cons (sign_of_isMark b true rfl) (passes_lineComment b htext))
    have htext : '/' :: '/' :: (inner ++ '\n' :: rest) =
        '/' :: '/' :: (inner ++ ['\n']) ++ rest := by simp
    rw [htext]
    exact (hpass.closed_iff rest).mpr ih
  | @blockComment inner rest htext _ ih =>
    have hpass : Passes b (code false) ('/' :: '*' :: (inner ++ ['*', '/'])) (code false) :=
      .cons (sign_of_isMark b false rfl)
        (.cons (sign_of_isMark b true rfl)
          (passes_blockComment b (fun h => absurd h Bool.false_ne_true) htext))
    have htext : '/' :: '*' :: (inner ++ '*' :: '/' :: rest) =
        '/' :: '*' :: (inner ++ ['*', '/']) ++ rest := by simp
    rw [htext]
    exact (hpass.closed_iff rest).mpr ih

theorem eq_closer_of_sign {b : Brackets} {s : Scan} {c : Char} (h : s.sign b c = -1) :
    s.InCode ∧ c = b.closer := by
  cases s with
  | code slash =>
    rw [sign_code] at h
    by_cases hopen : c = b.opener
    · rw [if_pos hopen] at h
      cases h
    · rw [if_neg hopen] at h
      by_cases hclose : c = b.closer
      · exact ⟨trivial, hclose⟩
      · rw [if_neg hclose] at h
        cases h
  | lineComment => cases h
  | blockComment star => cases h
  | literal quote escaped => cases h

/-- The text behind an opening bracket comes apart where the bracket is closed. -/
theorem Closed.split_group {b : Brackets} {text : Str}
    (h : Closed b (code false) (b.opener :: text)) : ∃ body rest,
      text = body ++ b.closer :: rest ∧ Closed b (code false) body ∧
        Closed b (code false) rest := by
  have hopen := next_plain_code b.opener_plain false
  have hwalk := h.walk
  have hends := h.ends
  rw [signs, hopen, sign_code, if_pos rfl] at hwalk
  rw [run_cons, hopen] at hends
  obtain ⟨u, v, hsplit, hu, hv⟩ := hwalk.of_cons_one (signs_ge b text _)
  -- the position of the step down is the position of the bracket
  have hlen := congrArg List.length hsplit
  rw [length_signs, List.length_append, List.length_cons] at hlen
  obtain ⟨body, c, rest, htext, hbody⟩ : ∃ body c rest, text = body ++ c :: rest ∧
      body.length = u.length := by
    have hlt : u.length < text.length := by omega
    exact ⟨text.take u.length, text[u.length], text.drop (u.length + 1), by simp, by simp; omega⟩
  subst htext
  rw [signs_append, signs] at hsplit
  obtain ⟨rfl, htail⟩ := List.append_inj hsplit (by rw [length_signs, hbody])
  obtain ⟨hsign, rfl⟩ := List.cons.inj htail
  obtain ⟨hcode, rfl⟩ := eq_closer_of_sign hsign
  rw [run_append, run_cons] at hends
  rw [hcode.next_plain b.closer_plain] at hends hv
  exact ⟨body, rest, rfl, ⟨hu, hcode⟩, ⟨hv, hends⟩⟩

theorem balanced_slash {b : Brackets} {text : Str} (h : Closed b (code true) text)
    (ih : ∀ rest : Str, rest.length ≤ text.length → Closed b (code false) rest → Balanced b rest) :
    Balanced b ('/' :: text) := by
  by_cases hmark : ContinuesMark text
  · cases text with
    | nil => exact absurd hmark id
    | cons c text =>
      rcases hmark with rfl | rfl
      · have hpass : Passes b (code true) ['/'] lineComment :=
          .cons (sign_of_isMark b true rfl) (.nil b _)
        have htail := (hpass.closed_iff text).mp h
        obtain ⟨inner, rest, rfl, hinner⟩ := exists_lineEnd htail.ends
        have hrest := (passes_lineComment b hinner).closed_iff rest
        rw [List.append_assoc, List.singleton_append] at hrest
        exact .lineComment hinner (ih rest (by simp; omega) (hrest.mp htail))
      · have hpass : Passes b (code true) ['*'] (blockComment false) :=
          .cons (sign_of_isMark b true rfl) (.nil b _)
        have htail := (hpass.closed_iff text).mp h
        rcases exists_commentEnd htail.ends with ⟨hstar, _⟩ | ⟨inner, rest, rfl, hinner, _⟩
        · cases hstar
        · have hstar : false = true → ∀ rest, inner ≠ '/' :: rest :=
            fun h => absurd h Bool.false_ne_true
          have hrest := (passes_blockComment b hstar hinner).closed_iff rest
          rw [List.append_assoc, List.cons_append, List.singleton_append] at hrest
          exact .blockComment hinner (ih rest (by simp; omega) (hrest.mp htail))
  · exact .slash hmark (ih text (Nat.le_refl _) ((closed_code_slash hmark true).mp h))

/-- **A text whose walk is an excursion that ends in code is balanced.**  The induction is
on the length, since what follows a group, a literal or a comment is a text of its own. -/
theorem balanced_of_closed {b : Brackets} : ∀ (n : Nat) (text : Str), text.length ≤ n →
    Closed b (code false) text → Balanced b text := by
  intro n
  induction n with
  | zero =>
    intro text hn _
    rw [List.length_eq_zero_iff.mp (Nat.le_zero.mp hn)]
    exact .nil
  | succ n ih =>
    intro text hn h
    cases text with
    | nil => exact .nil
    | cons c text =>
      rw [List.length_cons] at hn
      by_cases hopen : c = b.opener
      · subst hopen
        obtain ⟨body, rest, rfl, hbody, hrest⟩ := h.split_group
        rw [List.length_append, List.length_cons] at hn
        exact .group (ih body (by omega) hbody) (ih rest (by omega) hrest)
      by_cases hclose : c = b.closer
      · -- the walk would go below its start
        have hfirst := h.walk.nonneg 1
        rw [signs, sign_code, if_neg hopen, if_pos hclose, List.take_succ_cons, List.sum_cons,
          List.take_zero, List.sum_nil] at hfirst
        omega
      have hsign : (code false).sign b c = 0 := by rw [sign_code, if_neg hopen, if_neg hclose]
      have hpass : Passes b (code false) [c] ((code false).next c) := .cons hsign (.nil b _)
      have htail : Closed b ((code false).next c) text := (hpass.closed_iff text).mp h
      by_cases hquote : c = '\x22' ∨ c = '\x27'
      · rw [next_quote hquote] at htail
        obtain ⟨inner, rest, rfl, hinner⟩ := exists_literalText htail.ends
        have hescape : c ≠ '\x5c' := by rcases hquote with rfl | rfl <;> decide
        have hrest := (passes_literal b hescape hinner).closed_iff rest
        rw [List.append_assoc, List.singleton_append] at hrest
        rw [List.length_append, List.length_cons] at hn
        exact .literal hquote hinner (ih rest (by omega) (hrest.mp htail))
      by_cases hslash : c = '/'
      · subst hslash
        have hnext : (code false).next '/' = code true := rfl
        rw [hnext] at htail
        exact balanced_slash htail (fun rest hlen => ih rest (by omega))
      · have hnext : (code false).next c = code false := by
          rw [next_code (fun h => absurd h Bool.false_ne_true) (not_or.mp hquote),
            beq_false_of_ne hslash]
        rw [hnext] at htail
        exact .code ⟨hopen, hclose⟩ hslash (not_or.mp hquote) (ih text (by omega) htail)

/-- **The grammar and the walk describe the same texts.** -/
theorem balanced_iff {b : Brackets} {text : Str} :
    Balanced b text ↔ Closed b (code false) text :=
  ⟨closed_of_balanced, balanced_of_closed text.length text (Nat.le_refl _)⟩

theorem signs_closer {b : Brackets} {s : Scan} {text : Str} (h : (s.run text).InCode)
    (rest : Str) : ∃ ws, s.signs b (text ++ b.closer :: rest) = s.signs b text ++ -1 :: ws := by
  refine ⟨((s.run text).next b.closer).signs b rest, ?_⟩
  rw [signs_append, signs, h.sign_eq, if_neg b.ne.symm, if_pos rfl]

theorem firstZero_of_closed {b : Brackets} {s : Scan} {text : Str} (h : Closed b s text)
    (pos : Nat) (rest : Str) :
    firstZero 1 pos (s.signs b (text ++ b.closer :: rest)) = some (pos + text.length) := by
  obtain ⟨ws, hws⟩ := signs_closer (b := b) h.ends rest
  rw [hws, ← length_signs b text s]
  exact (firstZero_eq_iff (signs_ge b text s)).mpr h.walk

/-- **The search finds a bracket only behind a text that is closed.** -/
theorem closed_of_firstZero {b : Brackets} {s : Scan} {text rest : Str} {pos : Nat}
    (h : firstZero 1 pos (s.signs b (text ++ b.closer :: rest)) = some (pos + text.length)) :
    Closed b s text := by
  by_cases hcode : (s.run text).InCode
  · obtain ⟨ws, hws⟩ := signs_closer (b := b) hcode rest
    rw [hws, ← length_signs b text s] at h
    exact ⟨(firstZero_eq_iff (signs_ge b text s)).mp h, hcode⟩
  · rw [signs_append, signs, sign_of_not_inCode hcode, ← length_signs b text s] at h
    exact absurd h (firstZero_ne_of_zero (by omega))

/-- **The scan is the search in the walk.** -/
theorem scanParen_eq_firstZero {text : Str} : ∀ {s : Scan} {depth : Int} {pos : Nat}, 1 ≤ depth →
    scanParen s depth pos text = firstZero depth pos (s.signs parens text) := by
  induction text with
  | nil => intro s depth pos _; rfl
  | cons c text ih =>
    intro s depth pos hd
    rw [scanParen, signs, firstZero, sign]
    by_cases hopen : s.isParen parens.opener c = true
    · have hopen' : s.isParen '(' c = true := hopen
      rw [if_pos hopen, if_pos hopen', if_neg (by omega)]
      exact ih (by omega)
    · have hopen' : ¬ s.isParen '(' c = true := hopen
      rw [if_neg hopen, if_neg hopen']
      by_cases hclose : s.isParen parens.closer c = true
      · have hclose' : s.isParen ')' c = true := hclose
        rw [if_pos hclose, if_pos hclose']
        by_cases hzero : depth - 1 = 0
        · rw [if_pos hzero, if_pos (by omega)]
        · rw [if_neg hzero, if_neg (by omega), if_neg (by omega)]
          exact ih (by omega)
      · have hclose' : ¬ s.isParen ')' c = true := hclose
        rw [if_neg hclose, if_neg hclose', if_neg (by omega), Int.add_zero]
        exact ih hd

end Scan

open Scan

instance decidableBalanced (b : Brackets) (text : Str) : Decidable (Balanced b text) :=
  decidable_of_iff _ balanced_iff.symm

/-- **A balanced text ends before one closing bracket only.** -/
theorem Balanced.unique {b : Brackets} {u v x y : Str} (hu : Balanced b u) (hv : Balanced b v)
    (h : u ++ b.closer :: x = v ++ b.closer :: y) : u = v ∧ x = y := by
  have hfirst := firstZero_of_closed (balanced_iff.mp hu) 0 x
  rw [h, firstZero_of_closed (balanced_iff.mp hv) 0 y] at hfirst
  have hlen := Option.some.inj hfirst
  obtain ⟨rfl, htail⟩ := List.append_inj h (by omega)
  exact ⟨rfl, (List.cons.inj htail).2⟩

/-- **The parentheses that the scan closes are those of balanced text.** -/
theorem closes_iff {raw : Str} : Closes raw ↔ Balanced parens raw := by
  constructor
  · intro h
    have hscan := h 0 []
    rw [scanParen_eq_firstZero (Int.le_refl 1)] at hscan
    exact balanced_iff.mpr (closed_of_firstZero (b := parens) hscan)
  · intro h pos rest
    rw [scanParen_eq_firstZero (Int.le_refl 1)]
    exact firstZero_of_closed (balanced_iff.mp h) pos rest

end InterSpec.Tools
