import InterSpec.Tools.Calls
import InterSpec.Tools.Functions

/-!
# The marked part of a replacement

The statement expression that replaces a call has the size first, and behind it a text
that depends on the two labels alone: the mark.  No later scan stops inside a mark.

* `siteMark`, `siteExpression_eq`: the mark of two labels.
* `siteMark_inner`: the scan for a closing parenthesis passes a mark, from every state.
* `siteMark_blocked`: no definition of a function begins inside a mark.
-/

namespace InterSpec.Tools

/-! ### The mark -/

/-- What stands between the begin label and the end label. -/
def siteBetween (endSymbol : Str) : Str :=
  "\x22 ::: \x22memory\x22); __interspec_ptr = INTERSPEC_SITE_ALLOC(__interspec_size); ".toList ++
    "__asm__ __volatile__(\x22".toList ++ ".globl ".toList ++ endSymbol ++ "\\n.type ".toList ++
    endSymbol ++ ",@function\\n".toList

/-- From the begin label to the end label, both included. -/
def siteInterval (beginSymbol endSymbol : Str) : Str :=
  beginSymbol ++ ':' :: (siteBetween endSymbol ++ (endSymbol ++ [':']))

def markHead (beginSymbol : Str) : Str :=
  "; uint32_t __interspec_ptr = 0; __asm__ __volatile__(\x22".toList ++ ".globl ".toList ++
    beginSymbol ++ "\\n.type ".toList ++ beginSymbol ++ ",@function\\n".toList

def markTail : Str :=
  "\x22 ::: \x22memory\x22); (void*)(uintptr_t)__interspec_ptr; \x7d".toList

/-- The replacement of a call from behind its size to before its last parenthesis. -/
def siteMark (beginSymbol endSymbol : Str) : Str :=
  markHead beginSymbol ++ (siteInterval beginSymbol endSymbol ++ markTail)

def sizeText : Str := "(\x7b uint32_t __interspec_size = (uint32_t)(".toList

/-- **The replacement is the size and the mark.** -/
theorem siteExpression_eq (beginSymbol endSymbol sizeExpr : Str) :
    siteExpression beginSymbol endSymbol sizeExpr =
      sizeText ++ (sizeExpr ++ ')' :: (siteMark beginSymbol endSymbol ++ [')'])) := by
  have hopen : "); uint32_t __interspec_ptr = 0; __asm__ __volatile__(\x22".toList =
      ')' :: "; uint32_t __interspec_ptr = 0; __asm__ __volatile__(\x22".toList := by
    rw [String.toList_ofList, String.toList_ofList]
  have hclose : "\x22 ::: \x22memory\x22); (void*)(uintptr_t)__interspec_ptr; \x7d)".toList =
      markTail ++ [')'] := by
    unfold markTail
    rw [String.toList_ofList, String.toList_ofList]
    rfl
  have hcolon : ":".toList = [':'] := rfl
  unfold siteExpression exportedLabelAsm siteMark siteInterval markHead siteBetween
  rw [hopen, hclose, hcolon]
  simp only [List.append_assoc, List.cons_append, List.nil_append]
  rfl

/-- The characters of a name that the generator puts into a label. -/
def IsName (name : Str) : Prop := ∀ c ∈ name, isIdentChar c = true

/-! ### The scan for the closing parenthesis -/

namespace Scan

/-- The states that the scan can be in. -/
def Valid : Scan → Prop
  | literal quote _ => quote = '\x22' ∨ quote = '\x27'
  | _ => True

theorem Valid.next {s : Scan} (h : s.Valid) (c : Char) : (s.next c).Valid := by
  cases s with
  | code slash =>
    rw [Scan.next]
    split
    · trivial
    · split
      · trivial
      · split
        · assumption
        · trivial
  | lineComment =>
    rw [Scan.next]
    split <;> trivial
  | blockComment star =>
    rw [Scan.next]
    split <;> trivial
  | literal quote escaped =>
    rw [Scan.next]
    split
    · exact h
    · split
      · exact h
      · split
        · trivial
        · exact h

/-- The state and the number of open parentheses after a text, when the text closes none
that it has not opened. -/
def inner : Scan → Nat → Str → Option (Scan × Nat)
  | s, k, [] => some (s, k)
  | s, k, c :: rest =>
    if s.isParen '(' c then inner (s.next c) (k + 1) rest
    else if s.isParen ')' c then
      match k with
      | 0 => none
      | k + 1 => inner (s.next c) k rest
    else inner (s.next c) k rest

theorem inner_cons (s : Scan) (k : Nat) (c : Char) (rest : Str) :
    s.inner k (c :: rest) = if s.isParen '(' c then (s.next c).inner (k + 1) rest
      else if s.isParen ')' c then (match k with
        | 0 => none
        | k + 1 => (s.next c).inner k rest)
      else (s.next c).inner k rest := by
  cases k <;> rfl

/-- **One character of a text that is passed**: a parenthesis that opens, one that closes, or
another character. -/
theorem inner_cons_eq_some {s : Scan} {k : Nat} {c : Char} {w : Str} {r : Scan × Nat}
    (h : s.inner k (c :: w) = some r) :
    (s.isParen '(' c = true ∧ (s.next c).inner (k + 1) w = some r) ∨
      (¬ s.isParen '(' c = true ∧ s.isParen ')' c = true ∧
        ∃ j, k = j + 1 ∧ (s.next c).inner j w = some r) ∨
      (¬ s.isParen '(' c = true ∧ ¬ s.isParen ')' c = true ∧ (s.next c).inner k w = some r) := by
  rw [inner_cons] at h
  by_cases hopen : s.isParen '(' c = true
  · rw [if_pos hopen] at h
    exact .inl ⟨hopen, h⟩
  · rw [if_neg hopen] at h
    by_cases hclose : s.isParen ')' c = true
    · rw [if_pos hclose] at h
      cases k with
      | zero => cases h
      | succ j => exact .inr (.inl ⟨hopen, hclose, j, rfl, h⟩)
    · rw [if_neg hclose] at h
      exact .inr (.inr ⟨hopen, hclose, h⟩)

theorem inner_append (u v : Str) : ∀ (s : Scan) (k : Nat),
    s.inner k (u ++ v) = (s.inner k u).bind (fun r => r.1.inner r.2 v) := by
  induction u with
  | nil => intro s k; rfl
  | cons c u ih =>
    intro s k
    rw [List.cons_append, inner_cons, inner_cons]
    by_cases hopen : s.isParen '(' c = true
    · rw [if_pos hopen, if_pos hopen, ih]
    · rw [if_neg hopen, if_neg hopen]
      by_cases hclose : s.isParen ')' c = true
      · rw [if_pos hclose, if_pos hclose]
        cases k with
        | zero => rfl
        | succ k => exact ih _ _
      · rw [if_neg hclose, if_neg hclose, ih]

/-- **A text that closes only what it opens is passed.** -/
theorem scanParen_inner {w : Str} (y : Str) {d : Int} (hd : 1 ≤ d) : ∀ {s s' : Scan} {k k' : Nat},
    s.inner k w = some (s', k') → ∀ pos : Nat,
      scanParen s (d + k) pos (w ++ y) = scanParen s' (d + k') (pos + w.length) y := by
  induction w with
  | nil => intro s s' k k' h pos; cases h; rfl
  | cons c w ih =>
    intro s s' k k' h pos
    rw [List.cons_append, scanParen, List.length_cons,
      show pos + (w.length + 1) = pos + 1 + w.length from by omega]
    rcases inner_cons_eq_some h with ⟨hopen, hw⟩ | ⟨hopen, hclose, j, rfl, hw⟩ | ⟨hopen, hclose, hw⟩
    · rw [if_pos hopen, show d + (k : Int) + 1 = d + ((k + 1 : Nat) : Int) from by omega]
      exact ih hw (pos + 1)
    · rw [if_neg hopen, if_pos hclose, if_neg (by omega), if_neg (by omega),
        show d + ((j + 1 : Nat) : Int) - 1 = d + (j : Int) from by omega]
      exact ih hw (pos + 1)
    · rw [if_neg hopen, if_neg hclose]
      exact ih hw (pos + 1)

/-- More parentheses are open when more were open before. -/
theorem inner_add (j : Nat) {w : Str} : ∀ {s s' : Scan} {k k' : Nat},
    s.inner k w = some (s', k') → s.inner (k + j) w = some (s', k' + j) := by
  induction w with
  | nil => intro s s' k k' h; cases h; rfl
  | cons c w ih =>
    intro s s' k k' h
    rw [inner_cons]
    rcases inner_cons_eq_some h with ⟨hopen, hw⟩ | ⟨hopen, hclose, i, rfl, hw⟩ | ⟨hopen, hclose, hw⟩
    · rw [if_pos hopen, Nat.add_right_comm]
      exact ih hw
    · rw [if_neg hopen, if_pos hclose, Nat.add_right_comm]
      exact ih hw
    · rw [if_neg hopen, if_neg hclose]
      exact ih hw

/-- The characters that mean something to the scan. -/
def special : Str := ['(', ')', '/', '*', '\x22', '\x27', '\x5c', '\n']

/-- The state after another character. -/
def settle : Scan → Scan
  | code _ => code false
  | lineComment => lineComment
  | blockComment _ => blockComment false
  | literal quote _ => literal quote false

theorem next_plain {s : Scan} (hs : s.Valid) {c : Char} (hc : c ∉ special) :
    s.next c = s.settle := by
  have hne : ∀ d ∈ special, c ≠ d := fun d hd h => hc (h ▸ hd)
  have hslash := hne '/' (by decide)
  have hstar := hne '*' (by decide)
  cases s with
  | code slash =>
    rw [next, if_neg (fun h => hslash h.2), if_neg (fun h => hstar h.2),
      if_neg (not_or.mpr ⟨hne _ (by decide), hne _ (by decide)⟩), beq_false_of_ne hslash, settle]
  | lineComment => rw [next, if_neg (hne _ (by decide)), settle]
  | blockComment star =>
    rw [next, if_neg (fun h => hslash h.2), beq_false_of_ne hstar, settle]
  | literal quote escaped =>
    have hquote : c ≠ quote := by
      rcases hs with rfl | rfl
      · exact hne _ (by decide)
      · exact hne _ (by decide)
    rw [next, if_neg (hne _ (by decide)), if_neg hquote, ite_self, settle]

theorem inner_plain {s : Scan} (hs : s.Valid) {c : Char} (hc : c ∉ special) (k : Nat) (w : Str) :
    s.inner k (c :: w) = s.settle.inner k w := by
  have hparen : ∀ d ∈ special, s.isParen d c = false := by
    intro d hd
    cases s with
    | code slash => exact beq_false_of_ne (fun h => hc (h ▸ hd))
    | lineComment => rfl
    | blockComment star => rfl
    | literal quote escaped => rfl
  rw [inner_cons, hparen '(' (by decide), hparen ')' (by decide), next_plain hs hc]
  rfl

/-- The states that such characters leave. -/
def settled : List Scan :=
  [code false, lineComment, blockComment false, literal '\x22' false, literal '\x27' false]

theorem settle_mem {s : Scan} (hs : s.Valid) : s.settle ∈ settled := by
  cases s with
  | code slash => exact List.mem_cons_self
  | lineComment => exact List.mem_cons_of_mem _ List.mem_cons_self
  | blockComment star =>
    exact List.mem_cons_of_mem _ (List.mem_cons_of_mem _ List.mem_cons_self)
  | literal quote escaped =>
    rcases hs with rfl | rfl
    · exact List.mem_of_getElem? (i := 3) rfl
    · exact List.mem_of_getElem? (i := 4) rfl

theorem settled_valid {s : Scan} (hs : s ∈ settled) : s.Valid ∧ s.settle = s := by
  simp only [settled, List.mem_cons, List.not_mem_nil, or_false] at hs
  rcases hs with rfl | rfl | rfl | rfl | rfl
  · exact ⟨trivial, rfl⟩
  · exact ⟨trivial, rfl⟩
  · exact ⟨trivial, rfl⟩
  · exact ⟨Or.inl rfl, rfl⟩
  · exact ⟨Or.inr rfl, rfl⟩

theorem inner_name {s : Scan} (hs : s ∈ settled) {w : Str} (hw : IsName w) (k : Nat) :
    s.inner k w = some (s, k) := by
  obtain ⟨hvalid, hsettle⟩ := settled_valid hs
  induction w with
  | nil => rfl
  | cons c w ih =>
    obtain ⟨hc, hw⟩ := List.forall_mem_cons.mp hw
    have hplain : c ∉ special := fun h => by
      have hno : special.all (fun c => !isIdentChar c) = true := by decide
      have h' := List.all_eq_true.mp hno c h
      rw [hc] at h'
      cases h'
    rw [inner_plain hvalid hplain, hsettle]
    exact ih hw

/-- The state between the quotes of a mark, and the parentheses open there.  The code of a
scan that came in a literal is the literal of one that did not. -/
def inAsm : Scan → Scan × Nat
  | code _ => (literal '\x22' false, 1)
  | literal quote escaped =>
    if quote = '\x22' then (code false, 0) else ((literal quote escaped).settle, 0)
  | s => (s.settle, 0)

theorem inAsm_mem : ∀ s ∈ settled, s.inAsm.1 ∈ settled ∧ s.inAsm.2 ∈ [0, 1] := by decide

theorem inner_markTexts : ∀ s ∈ settled,
    s.inner 0 "; uint32_t __interspec_ptr = 0; __asm__ __volatile__(\x22".toList = some s.inAsm ∧
    s.inAsm.1.inner s.inAsm.2
      ("\x22 ::: \x22memory\x22); __interspec_ptr = INTERSPEC_SITE_ALLOC(__interspec_size); ".toList ++
        "__asm__ __volatile__(\x22".toList) = some s.inAsm ∧
    s.inAsm.1.inner s.inAsm.2 markTail = some (s, 0) := by
  unfold markTail
  rw [String.toList_ofList, String.toList_ofList, String.toList_ofList, String.toList_ofList]
  decide

theorem inner_labelTexts : ∀ s ∈ settled, ∀ k ∈ [0, 1],
    s.inner k ".globl ".toList = some (s, k) ∧ s.inner k "\\n.type ".toList = some (s, k) ∧
    s.inner k ",@function\\n".toList = some (s, k) ∧ s.inner k [':'] = some (s, k) := by
  rw [String.toList_ofList, String.toList_ofList, String.toList_ofList]
  decide

theorem inner_of_append {s s' : Scan} {k k' : Nat} {u : Str} (h : s.inner k u = some (s', k'))
    (v : Str) : s.inner k (u ++ v) = s'.inner k' v := by
  rw [inner_append, h]
  rfl

theorem inner_label {s : Scan} (hs : s ∈ settled) {name : Str} (hname : IsName name) {k : Nat}
    (hk : k ∈ [0, 1]) (v : Str) :
    s.inner k (".globl ".toList ++ (name ++ ("\\n.type ".toList ++ (name ++
      (",@function\\n".toList ++ (name ++ ':' :: v)))))) = s.inner k v := by
  have hself := inner_name hs hname k
  obtain ⟨hglobl, htype, hfunction, hcolon⟩ := inner_labelTexts s hs k hk
  rw [inner_of_append hglobl, inner_of_append hself, inner_of_append htype, inner_of_append hself,
    inner_of_append hfunction, inner_of_append hself]
  exact inner_of_append hcolon v

/-- **The scan passes a mark**, and is then in the state in which it was before. -/
theorem siteMark_inner {s : Scan} (hs : s.Valid) {beginSymbol endSymbol : Str}
    (hb : IsName beginSymbol) (he : IsName endSymbol) (k : Nat) :
    s.inner k (siteMark beginSymbol endSymbol) = some (s.settle, k) := by
  have hmark : ∀ s ∈ settled, s.inner 0 (siteMark beginSymbol endSymbol) = some (s, 0) := by
    intro s hs
    obtain ⟨hfirst, hmiddle, hlast⟩ := inner_markTexts s hs
    obtain ⟨hasm, hopen⟩ := inAsm_mem s hs
    obtain ⟨s', j, hpair⟩ : ∃ s' j, s.inAsm = (s', j) := ⟨_, _, rfl⟩
    rw [hpair] at hfirst hmiddle hlast hasm hopen
    have hmiddle' := inner_of_append hmiddle
    unfold siteMark siteInterval markHead siteBetween
    simp only [List.append_assoc, List.cons_append, List.nil_append] at hmiddle' ⊢
    rw [inner_of_append hfirst, inner_label hasm hb hopen, hmiddle', inner_label hasm he hopen,
      hlast]
  obtain ⟨w, hw⟩ : ∃ w, siteMark beginSymbol endSymbol = ';' :: w := ⟨_, rfl⟩
  have hsettle := hmark s.settle (settle_mem hs)
  have hvalid := settled_valid (settle_mem hs)
  rw [hw, inner_plain hvalid.1 (by decide), hvalid.2, ← inner_plain hs (c := ';') (by decide),
    ← hw] at hsettle
  have hadd := inner_add k hsettle
  rwa [Nat.zero_add] at hadd

end Scan

/-! ### Definitions of functions -/

/-- The ASCII characters of the name are those of an identifier. -/
def PlainName (name : Str) : Prop := ∀ c ∈ name, c.toNat < 128 → isIdentChar c = true

/-- No definition of a function begins at the head of the text, whatever follows it. -/
def Blocked (text : Str) : Prop :=
  ∀ function head rest y, PlainName function → IsHead function head → text ++ y ≠ head ++ rest

/-- And none at any of its characters. -/
def AllBlocked (text : Str) : Prop := ∀ u v, text = u ++ v → v ≠ [] → Blocked v

theorem AllBlocked.nil : AllBlocked [] := by
  intro u v h hv
  exact absurd (List.append_eq_nil_iff.mp h.symm).2 hv

theorem AllBlocked.cons {c : Char} {text : Str} (hc : Blocked (c :: text))
    (h : AllBlocked text) : AllBlocked (c :: text) := by
  intro u v huv hv
  cases u with
  | nil =>
    rw [List.nil_append] at huv
    rwa [← huv]
  | cons d u => exact h u v (List.cons.inj huv).2 hv

theorem IsHead.tail {function head : Str} (hplain : PlainName function)
    (h : IsHead function head) {c : Char} {text : Str} (hhead : head = c :: text)
    (hc : c ≠ '(') : ∃ function', PlainName function' ∧ IsHead function' text := by
  obtain ⟨gap, args, gap', hgap, hargs, hgap', rfl⟩ := h
  cases function with
  | cons d function =>
    refine ⟨function, fun e he => hplain e (List.mem_cons_of_mem _ he), gap, args, gap', hgap,
      hargs, hgap', ?_⟩
    exact (List.cons.inj hhead).2.symm
  | nil =>
    cases gap with
    | cons d gap =>
      refine ⟨[], nofun, gap, args, gap', fun e he => hgap e (List.mem_cons_of_mem _ he), hargs,
        hgap', ?_⟩
      exact (List.cons.inj hhead).2.symm
    | nil => exact absurd (List.cons.inj hhead).1.symm hc

theorem Blocked.cons {c : Char} {text : Str} (hc : c ≠ '(') (h : Blocked text) :
    Blocked (c :: text) := by
  intro function head rest y hplain hhead heq
  cases hcons : head with
  | nil => exact hhead.ne_nil hcons
  | cons d tail =>
    rw [hcons] at heq
    obtain ⟨rfl, hrest⟩ := List.cons.inj heq
    obtain ⟨function', hplain', htail⟩ := hhead.tail hplain hcons hc
    exact h function' tail rest y hplain' htail hrest

/-- A definition begins with a character of its name, with white space, or with its argument
list. -/
theorem IsHead.first {function head : Str} (hplain : PlainName function)
    (h : IsHead function head) {c : Char} {text : Str} (hhead : head = c :: text) :
    (c.toNat < 128 → isIdentChar c = true) ∨ isSpace c = true ∨
      c = '(' ∧ ∃ args gap', (∀ d ∈ args, (d != ')') = true) ∧ (∀ d ∈ gap', isSpace d = true) ∧
        text = args ++ ')' :: (gap' ++ ['\x7b']) := by
  obtain ⟨gap, args, gap', hgap, hargs, hgap', rfl⟩ := h
  cases function with
  | cons d function =>
    obtain ⟨rfl, -⟩ := List.cons.inj hhead
    exact Or.inl (hplain _ List.mem_cons_self)
  | nil =>
    cases gap with
    | cons d gap =>
      obtain ⟨rfl, -⟩ := List.cons.inj hhead
      exact Or.inr (Or.inl (hgap _ List.mem_cons_self))
    | nil =>
      obtain ⟨rfl, rfl⟩ := List.cons.inj hhead
      exact Or.inr (Or.inr ⟨rfl, args, gap', hargs, hgap', rfl⟩)

/-- A definition does not begin with a brace. -/
theorem blocked_brace (text : Str) : Blocked ('\x7d' :: text) := by
  intro function head rest y hplain hhead heq
  cases hcons : head with
  | nil => exact hhead.ne_nil hcons
  | cons d tail =>
    rw [hcons] at heq
    obtain ⟨rfl, -⟩ := List.cons.inj heq
    rcases hhead.first hplain hcons with h | h | ⟨h, -⟩
    · exact absurd (h (by decide)) (by decide)
    · exact absurd h (by decide)
    · exact absurd h (by decide)

/-- Nor at a parenthesis whose list is followed by neither white space nor a brace. -/
theorem blocked_paren {w : Str} (hw : ∀ c ∈ w, (c != ')') = true) {d : Char}
    (hd : isSpace d = false) (hbrace : d ≠ '\x7b') (text : Str) :
    Blocked ('(' :: (w ++ ')' :: d :: text)) := by
  intro function head rest y hplain hhead heq
  cases hcons : head with
  | nil => exact hhead.ne_nil hcons
  | cons e tail =>
    rw [hcons] at heq
    obtain ⟨rfl, hrest⟩ := List.cons.inj heq
    rcases hhead.first hplain hcons with h | h | ⟨-, args, gap', hargs, hgap', rfl⟩
    · exact absurd (h (by decide)) (by decide)
    · exact absurd h (by decide)
    · -- the two lists end at the same parenthesis
      have hrest : w ++ (')' :: d :: (text ++ y)) = args ++ (')' :: (gap' ++ '\x7b' :: rest)) := by
        have h : w ++ ')' :: d :: text ++ y = args ++ ')' :: (gap' ++ ['\x7b']) ++ rest := hrest
        simpa only [List.append_assoc, List.cons_append, List.nil_append] using h
      have hdrop := congrArg (List.dropWhile (fun c => c != ')')) hrest
      rw [List.dropWhile_append_of_pos hw, List.dropWhile_append_of_pos hargs,
        List.dropWhile_cons_of_neg (by decide)] at hdrop
      have hdrop := hdrop.trans (List.dropWhile_cons_of_neg (by decide))
      have hbehind := (List.cons.inj hdrop).2
      cases gap' with
      | nil => exact hbrace (List.cons.inj hbehind).1
      | cons c gap' =>
        have hspace := hgap' c List.mem_cons_self
        rw [← (List.cons.inj hbehind).1, hd] at hspace
        cases hspace

def noParen (c : Char) : Bool := c != '(' && c != ')'

theorem AllBlocked.append {w text : Str} (hw : ∀ c ∈ w, noParen c = true) (h : AllBlocked text)
    (hne : text ≠ []) : AllBlocked (w ++ text) ∧ w ++ text ≠ [] := by
  induction w with
  | nil => exact ⟨h, hne⟩
  | cons c w ih =>
    obtain ⟨hc, hw⟩ := List.forall_mem_cons.mp hw
    obtain ⟨hall, hne'⟩ := ih hw
    have hopen : c ≠ '(' := bne_iff_ne.mp (Bool.and_eq_true_iff.mp hc).1
    exact ⟨AllBlocked.cons (Blocked.cons hopen (hall [] _ rfl hne')) hall, List.cons_ne_nil _ _⟩

theorem AllBlocked.paren {w : Str} (hw : ∀ c ∈ w, noParen c = true) {d : Char} {text : Str}
    (hd : isSpace d = false) (hbrace : d ≠ '\x7b') (h : AllBlocked (d :: text)) :
    AllBlocked ('(' :: (w ++ ')' :: d :: text)) := by
  have hbehind : AllBlocked (')' :: d :: text) :=
    AllBlocked.cons (Blocked.cons (by decide) (h [] _ rfl (List.cons_ne_nil _ _))) h
  refine AllBlocked.cons (blocked_paren (fun c hc => ?_) hd hbrace text)
    (hbehind.append hw (List.cons_ne_nil _ _)).1
  exact (Bool.and_eq_true_iff.mp (hw c hc)).2

/-- The assembler statement of a label. -/
def labelAsm (name : Str) : Str :=
  "\x22".toList ++ (".globl ".toList ++ (name ++ ("\\n.type ".toList ++ (name ++
    (",@function\\n".toList ++ (name ++ ':' :: "\x22 ::: \x22memory\x22".toList))))))

theorem noParen_labelAsm {name : Str} (hname : IsName name) :
    ∀ c ∈ labelAsm name, noParen c = true := by
  have hn : ∀ c ∈ name, noParen c = true := fun c hc => isIdentChar_rule (by decide) (hname c hc)
  have hlit : ∀ text : Str, text.all noParen = true → ∀ c ∈ text, noParen c = true :=
    fun _ => List.all_eq_true.mp
  unfold labelAsm
  simp only [List.forall_mem_append, List.forall_mem_cons]
  exact ⟨hlit _ (by decide), hlit _ (by decide), hn, hlit _ (by decide), hn, hlit _ (by decide),
    hn, by decide, hlit _ (by decide)⟩

theorem siteMark_parens (beginSymbol endSymbol : Str) : siteMark beginSymbol endSymbol =
    "; uint32_t __interspec_ptr = 0; __asm__ __volatile__".toList ++
      '(' :: (labelAsm beginSymbol ++ ')' :: ';' ::
    (" __interspec_ptr = INTERSPEC_SITE_ALLOC".toList ++
      '(' :: ("__interspec_size".toList ++ ')' :: ';' ::
    (" ".toList ++ ("__asm__ __volatile__".toList ++ '(' :: (labelAsm endSymbol ++ ')' :: ';' ::
    (" ".toList ++ '(' :: ("void*".toList ++ ')' ::
      '(' :: ("uintptr_t".toList ++ ')' :: '_' :: "_interspec_ptr; \x7d".toList))))))))) := by
  have h₁ : "; uint32_t __interspec_ptr = 0; __asm__ __volatile__(\x22".toList =
      "; uint32_t __interspec_ptr = 0; __asm__ __volatile__".toList ++ '(' :: "\x22".toList := by
    rw [String.toList_ofList, String.toList_ofList]
    rfl
  have h₂ :
      "\x22 ::: \x22memory\x22); __interspec_ptr = INTERSPEC_SITE_ALLOC(__interspec_size); ".toList =
      "\x22 ::: \x22memory\x22".toList ++ ')' :: ';' ::
        (" __interspec_ptr = INTERSPEC_SITE_ALLOC".toList ++
          '(' :: ("__interspec_size".toList ++ ')' :: ';' :: " ".toList)) := by
    rw [String.toList_ofList, String.toList_ofList, String.toList_ofList]
    rfl
  have h₃ : "__asm__ __volatile__(\x22".toList =
      "__asm__ __volatile__".toList ++ '(' :: "\x22".toList := by
    rw [String.toList_ofList, String.toList_ofList]
    rfl
  have h₄ : markTail = "\x22 ::: \x22memory\x22".toList ++ ')' :: ';' :: (" ".toList ++
      '(' :: ("void*".toList ++ ')' ::
        '(' :: ("uintptr_t".toList ++ ')' :: '_' :: "_interspec_ptr; \x7d".toList))) := by
    unfold markTail
    rw [String.toList_ofList, String.toList_ofList]
    rfl
  unfold siteMark siteInterval markHead siteBetween labelAsm
  rw [h₁, h₂, h₃, h₄]
  simp only [List.append_assoc, List.cons_append, List.nil_append]

/-- **No definition of a function begins inside a mark.** -/
theorem siteMark_blocked {beginSymbol endSymbol : Str} (hb : IsName beginSymbol)
    (he : IsName endSymbol) : AllBlocked (siteMark beginSymbol endSymbol) := by
  have hlit : ∀ text : Str, text.all noParen = true → ∀ c ∈ text, noParen c = true :=
    fun _ => List.all_eq_true.mp
  have hsemi : ∀ {text : Str}, AllBlocked text ∧ text ≠ [] →
      AllBlocked (';' :: text) ∧ ';' :: text ≠ [] := fun h =>
    ⟨AllBlocked.cons (Blocked.cons (by decide) (h.1 [] _ rfl h.2)) h.1, List.cons_ne_nil _ _⟩
  have hcall : ∀ (head : Str) {w : Str} {d : Char} {text : Str}, head.all noParen = true →
      (∀ c ∈ w, noParen c = true) → isSpace d = false → d ≠ '\x7b' →
      AllBlocked (d :: text) ∧ d :: text ≠ [] →
      AllBlocked (head ++ '(' :: (w ++ ')' :: d :: text)) ∧
        head ++ '(' :: (w ++ ')' :: d :: text) ≠ [] := fun _ _ _ _ hhead hw hd hbrace h =>
    (h.1.paren hw hd hbrace).append (hlit _ hhead) (List.cons_ne_nil _ _)
  have hend : AllBlocked ('_' :: "_interspec_ptr; \x7d".toList) ∧
      '_' :: "_interspec_ptr; \x7d".toList ≠ [] :=
    AllBlocked.append (w := "__interspec_ptr; ".toList) (hlit _ (by decide))
      (AllBlocked.cons (blocked_brace []) AllBlocked.nil) (List.cons_ne_nil _ _)
  have hcast := hcall [] (by decide) (hlit "uintptr_t".toList (by decide)) (by decide)
    (by decide) hend
  have hvoid := hcall " ".toList (by decide) (hlit "void*".toList (by decide))
    (by decide) (by decide) hcast
  have hasm := hcall "__asm__ __volatile__".toList (by decide) (noParen_labelAsm he)
    (by decide) (by decide) (hsemi hvoid)
  have hspace := hasm.1.append (hlit " ".toList (by decide)) hasm.2
  have halloc := hcall " __interspec_ptr = INTERSPEC_SITE_ALLOC".toList (by decide)
    (hlit "__interspec_size".toList (by decide)) (by decide) (by decide) (hsemi hspace)
  rw [siteMark_parens]
  exact (hcall _ (by decide) (noParen_labelAsm hb) (by decide) (by decide) (hsemi halloc)).1

end InterSpec.Tools
