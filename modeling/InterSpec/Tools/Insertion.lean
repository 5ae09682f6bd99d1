import InterSpec.Tools.Grammar
import InterSpec.Tools.Pieces
import InterSpec.Tools.Replacement
import InterSpec.Tools.Tokens

/-!
# The inserted size expression

Both generators cut the argument out of a call, strip it and paste it in front of generated
text on the same line.  The white space that is stripped may be the newline that ends a
comment, and the generated text is then part of the comment.

* `Wrapper`: the text around the argument, for each of the generators.
* `StaysClosed`: the argument is pasted into code and leaves the lexer in code.
* `stays_closed_iff`: this is so when the call begins in code and the stripped argument does
  not end in a line comment.
* `insertion_closed_iff`: the same of what the generators return.
-/

namespace InterSpec.Tools

open Scan Fallible Walk

/-! ### The wrapper -/

/-- A character that begins no comment and no literal and, but for a newline, ends none. -/
def isQuiet (c : Char) : Bool := c != '/' && c != '\x22' && c != '\x27'

/-- Generated text around an argument, from one parenthesis to another on each side. -/
structure Wrapper where
  before : Str
  behind : Str
  quiet : before.all isQuiet = true
  oneLine : '\n' ∉ before
  closed : ((code false).run behind).InCode

def Wrapper.head (w : Wrapper) : Str := '(' :: (w.before ++ ['('])

def Wrapper.tail (w : Wrapper) : Str := ')' :: (w.behind ++ [')'])

def Wrapper.around (w : Wrapper) (argument : Str) : Str := w.head ++ argument ++ w.tail

theorem run_of_inner {w : Str} : ∀ {s s' : Scan} {k k' : Nat}, s.inner k w = some (s', k') →
    s.run w = s' := by
  induction w with
  | nil => intro s s' k k' h; cases h; rfl
  | cons c w ih =>
    intro s s' k k' h
    rw [run_cons]
    rcases inner_cons_eq_some h with ⟨-, hw⟩ | ⟨-, -, _, -, hw⟩ | ⟨-, -, hw⟩
    · exact ih hw
    · exact ih hw
    · exact ih hw

/-- The replacement of the label based generator. -/
def siteWrapper (allocation : PolicyAllocation) (siteId : Nat) : Wrapper where
  before := "\x7b uint32_t __interspec_size = (uint32_t)".toList
  behind := siteMark (siteSymbols allocation siteId).1 (siteSymbols allocation siteId).2
  quiet := by decide
  oneLine := by decide
  closed := by
    have hnames := siteSymbols_isName allocation siteId
    rw [run_of_inner (siteMark_inner (s := code false) trivial hnames.1 hnames.2 0)]
    trivial

theorem siteWrapper_around (allocation : PolicyAllocation) (siteId : Nat) (argument : Str) :
    (siteWrapper allocation siteId).around argument =
      siteExpression (siteSymbols allocation siteId).1 (siteSymbols allocation siteId).2
        argument := by
  have hhead : '(' :: ("\x7b uint32_t __interspec_size = (uint32_t)".toList ++ ['(']) =
      sizeText := by
    decide
  rw [siteExpression_eq, ← hhead, Wrapper.around, List.append_assoc]
  rfl

/-- The replacement of the import based generator. -/
def importWrapper (namespaceName : Str) (localSiteId : Nat) : Wrapper where
  before := "void*)(uintptr_t)".toList ++ siteCName namespaceName localSiteId ++
    "((uint32_t)".toList
  behind := []
  quiet := by
    have hname : (siteCName namespaceName localSiteId).all isQuiet = true := by
      refine List.all_eq_true.mpr (fun c hc => ?_)
      exact isIdentChar_rule (p := isQuiet) (by decide) (isIdentChar_of_mem_siteCName hc)
    rw [List.all_append, List.all_append, hname]
    decide
  oneLine := by
    have hname : '\n' ∉ siteCName namespaceName localSiteId := fun h =>
      absurd (isIdentChar_of_mem_siteCName h) (by decide)
    rw [List.mem_append, List.mem_append, not_or, not_or]
    exact ⟨⟨by decide, hname⟩, by decide⟩
  closed := trivial

theorem importWrapper_around (namespaceName : Str) (localSiteId : Nat) (argument : Str) :
    (importWrapper namespaceName localSiteId).around argument =
      importCall namespaceName localSiteId argument := by
  have hfirst : "(void*)(uintptr_t)".toList = '(' :: "void*)(uintptr_t)".toList := by decide
  have hopen : "((uint32_t)(".toList = "((uint32_t)".toList ++ ['('] := by decide
  have hclose : "))".toList = [')', ')'] := by decide
  have hhead : (importWrapper namespaceName localSiteId).head =
      '(' :: ("void*)(uintptr_t)".toList ++ siteCName namespaceName localSiteId ++
        "((uint32_t)".toList ++ ['(']) := rfl
  have htail : (importWrapper namespaceName localSiteId).tail = [')', ')'] := rfl
  rw [Wrapper.around, hhead, htail]
  unfold importCall
  rw [hfirst, hopen, hclose]
  simp only [List.append_assoc, List.cons_append, List.nil_append]

/-! ### The lexer around an argument -/

/-- The argument is pasted into code; it leaves the lexer in code, with its parentheses
balanced; and the tokens of the whole text are those of the text before the call, of the
wrapper around those of the argument, and of the text after the call. -/
structure StaysClosed (w : Wrapper) (x argument y : Str) : Prop where
  starts : ((code false).run (x ++ w.head)).InCode
  closed : Closed parens (code false) argument
  tokens_eq : tokens (x ++ w.around argument ++ y) =
    tokens x ++ (tokens w.head ++ tokens argument ++ tokens w.tail) ++ tokens y

def EndsInLineComment (text : Str) : Prop := (code false).run text = .lineComment

instance decidableEndsInLineComment (text : Str) : Decidable (EndsInLineComment text) :=
  inferInstanceAs (Decidable (_ = _))

theorem run_code_of_quiet {text : Str} (h : ∀ c ∈ text, isQuiet c = true) :
    (code false).run text = code false := by
  induction text with
  | nil => rfl
  | cons c text ih =>
    rw [List.forall_mem_cons] at h
    obtain ⟨⟨h₁, h₂⟩, h₃⟩ : (c ≠ '/' ∧ c ≠ '\x22') ∧ c ≠ '\x27' := by
      simpa only [isQuiet, Bool.and_eq_true, bne_iff_ne] using h.1
    have hnext : (code false).next c = code false := by
      rw [next_code (fun h => absurd h Bool.false_ne_true) ⟨h₂, h₃⟩, beq_false_of_ne h₁]
    rw [run_cons, hnext]
    exact ih h.2

/-- **Quiet characters do not lead back into the code**, but a newline leads out of a line
comment. -/
theorem not_inCode_run {text : Str} : ∀ {s : Scan}, s.Valid → ¬ s.InCode →
    (∀ c ∈ text, isQuiet c = true) → (s = lineComment → '\n' ∉ text) → ¬ (s.run text).InCode := by
  induction text with
  | nil => intro s _ hs _ _; exact hs
  | cons c text ih =>
    intro s hvalid hs h hline
    rw [List.forall_mem_cons] at h
    obtain ⟨⟨h₁, h₂⟩, h₃⟩ : (c ≠ '/' ∧ c ≠ '\x22') ∧ c ≠ '\x27' := by
      simpa only [isQuiet, Bool.and_eq_true, bne_iff_ne] using h.1
    rw [run_cons]
    cases s with
    | code slash => exact absurd trivial hs
    | lineComment =>
      have hnot := hline rfl
      rw [List.mem_cons, not_or] at hnot
      have hnext : lineComment.next c = lineComment := if_neg (Ne.symm hnot.1)
      rw [hnext]
      exact ih trivial id h.2 (fun _ => hnot.2)
    | blockComment star =>
      have hnext : (blockComment star).next c = blockComment (c == '*') := if_neg (fun h => h₁ h.2)
      rw [hnext]
      exact ih trivial id h.2 (fun heq => by cases heq)
    | literal quote escaped =>
      have hquote : c ≠ quote := by
        rcases hvalid with rfl | rfl
        · exact h₂
        · exact h₃
      obtain ⟨e, he⟩ : ∃ e, (literal quote escaped).next c = literal quote e := by
        rw [next, if_neg hquote]
        split
        · exact ⟨_, rfl⟩
        · split
          · exact ⟨_, rfl⟩
          · exact ⟨_, rfl⟩
      rw [he]
      exact ih hvalid id h.2 (fun heq => by cases heq)

theorem valid_run (text : Str) : ∀ {s : Scan}, s.Valid → (s.run text).Valid := by
  induction text with
  | nil => intro s h; exact h
  | cons c text ih => intro s h; exact ih (h.next c)

/-- The lexer is in code behind the head exactly when it is in code before it. -/
theorem Wrapper.run_head (w : Wrapper) {s : Scan} (hs : s.Valid) :
    (s.run w.head).InCode ↔ s.InCode := by
  have hbefore : ∀ c ∈ w.before, isQuiet c = true := List.all_eq_true.mp w.quiet
  by_cases hcode : s.InCode
  · refine iff_of_true ?_ hcode
    have hopen : ∀ s : Scan, s.InCode → s.next '(' = code false := fun s hs => hs.next_plain rfl
    rw [Wrapper.head, run_cons, hopen s hcode, run_append, run_code_of_quiet hbefore, run_cons,
      hopen (code false) trivial]
    trivial
  · refine iff_of_false (not_inCode_run hs hcode ?_ (fun _ => ?_)) hcode
    · have hquiet : isQuiet '(' = true := rfl
      simp only [Wrapper.head, List.forall_mem_cons, List.forall_mem_append]
      exact ⟨hquiet, hbefore, hquiet, nofun⟩
    · have hline := w.oneLine
      simp only [Wrapper.head, List.mem_cons, List.mem_append, List.not_mem_nil, or_false, not_or]
      exact ⟨by decide, hline, by decide⟩

/-! ### The argument -/

theorem ne_of_isSpace {c d : Char} (h : isSpace c = true) (hd : isSpace d = false) : c ≠ d := by
  rintro rfl
  rw [h] at hd
  cases hd

theorem isQuiet_of_isSpace {c : Char} (h : isSpace c = true) : isQuiet c = true := by
  simp only [isQuiet, Bool.and_eq_true, bne_iff_ne]
  exact ⟨⟨ne_of_isSpace h (by decide), ne_of_isSpace h (by decide)⟩, ne_of_isSpace h (by decide)⟩

theorem signs_of_isSpace {text : Str} (h : ∀ c ∈ text, isSpace c = true) : ∀ s : Scan,
    ∀ w ∈ s.signs parens text, w = 0 := by
  induction text with
  | nil => intro s w hw; cases hw
  | cons c text ih =>
    intro s w hw
    rw [List.forall_mem_cons] at h
    rcases List.mem_cons.mp hw with rfl | hw
    · cases s with
      | code slash =>
        have hopen : c ≠ parens.opener := ne_of_isSpace h.1 (by decide)
        have hclose : c ≠ parens.closer := ne_of_isSpace h.1 (by decide)
        rw [sign_code, if_neg hopen, if_neg hclose]
      | lineComment => rfl
      | blockComment star => rfl
      | literal quote escaped => rfl
    · exact ih h.2 _ w hw

/-- **The argument stays closed when it is stripped, unless the newline that ends its last
comment is stripped with it.** -/
theorem closed_strip_iff {raw : Str} (h : Closed parens (code false) raw) :
    Closed parens (code false) (strip raw) ↔ ¬ EndsInLineComment (strip raw) := by
  obtain ⟨w, w', hraw, hw, hw'⟩ := strip_split raw
  have hpass : Passes parens (code false) w (code false) :=
    ⟨run_code_of_quiet (fun c hc => isQuiet_of_isSpace (hw c hc)), signs_of_isSpace hw _⟩
  rw [hraw] at h
  have hrest := (hpass.closed_iff _).mp h
  have hwalk := hrest.walk
  have hends := hrest.ends
  rw [signs_append, excursion_append_zeros (signs_of_isSpace hw' _)] at hwalk
  rw [run_append] at hends
  constructor
  · intro hclosed hline
    have hcode := hclosed.ends
    rw [hline] at hcode
    exact hcode
  · intro hline
    refine ⟨hwalk, ?_⟩
    by_contra hcode
    exact not_inCode_run (valid_run _ (s := code false) trivial) hcode
      (fun c hc => isQuiet_of_isSpace (hw' c hc)) (fun h => absurd h hline) hends

/-! ### The whole text -/

/-- **The tokens of a text with an argument pasted in.** -/
theorem tokens_around (w : Wrapper) {x argument : Str} (y : Str)
    (hx : ((code false).run x).InCode) (hargument : ((code false).run argument).InCode) :
    tokens (x ++ w.around argument ++ y) =
      tokens x ++ (tokens w.head ++ tokens argument ++ tokens w.tail) ++ tokens y := by
  have hopen : isParenChar '(' = true := rfl
  have hclose : isParenChar ')' = true := rfl
  have hfirst : (code false).next '(' = code false := rfl
  have hlast : (code false).next ')' = code false := rfl
  have hhead : ((code false).run ('(' :: w.before)).InCode := by
    rw [run_cons, hfirst, run_code_of_quiet (List.all_eq_true.mp w.quiet)]
    trivial
  have htail : ((code false).run (')' :: w.behind)).InCode := by
    rw [run_cons, hlast]
    exact w.closed
  have htext : x ++ w.around argument ++ y = x ++ '(' :: (w.before ++ '(' ::
      (argument ++ ')' :: (w.behind ++ ')' :: y))) := by
    simp only [Wrapper.around, Wrapper.head, Wrapper.tail, List.append_assoc, List.cons_append,
      List.nil_append]
  rw [htext, tokens_append_paren hx hopen, ← List.cons_append, tokens_paren_append hhead hopen,
    tokens_append_paren hargument hclose, ← List.cons_append, tokens_paren_append htail hclose,
    Wrapper.head, Wrapper.tail, List.cons_append, List.cons_append]
  simp only [List.append_assoc]

/-- **The inserted argument stays closed exactly when the call begins in code and the
stripped argument does not end in a line comment.** -/
theorem stays_closed_iff (w : Wrapper) {x raw : Str} (y : Str)
    (hraw : Closed parens (code false) raw) : StaysClosed w x (strip raw) y ↔
      ((code false).run x).InCode ∧ ¬ EndsInLineComment (strip raw) := by
  have hhead := w.run_head (valid_run x (s := code false) trivial)
  constructor
  · intro h
    have hstarts := h.starts
    rw [run_append, hhead] at hstarts
    exact ⟨hstarts, (closed_strip_iff hraw).mp h.closed⟩
  · rintro ⟨hx, hline⟩
    have hclosed := (closed_strip_iff hraw).mpr hline
    refine ⟨?_, hclosed, tokens_around w y hx hclosed.ends⟩
    rw [run_append, hhead]
    exact hx

/-! ### What the generators return -/

/-- The text `out` is `source` with the call behind `x` replaced by its argument in the
wrapper. -/
structure Inserted (w : Wrapper) (source out : Str) (x gap raw y : Str) : Prop where
  source_eq : source = x ++ callText gap raw ++ y
  space : ∀ c ∈ gap, isSpace c = true
  balanced : Balanced parens raw
  out_eq : out = x ++ w.around (strip raw) ++ y

theorem inserted_of_call (w : Wrapper) {source : Str} {start stop : Nat} {call : Nat × Nat × Str}
    (h : mallocCallExtent source start stop = .ok call) : ∃ x gap raw y, x.length = start ∧
      Inserted w source (source.take call.1 ++ w.around call.2.2 ++ source.drop call.2.1)
        x gap raw y := by
  obtain ⟨x, gap, raw, y, rfl, rfl, hgap, hraw⟩ := mallocCallExtent_split h
  obtain ⟨-, -, -, rfl⟩ := (mallocCallExtent_callText y hgap hraw).mp h
  have hbefore : (x ++ callText gap raw ++ y).take x.length = x := by
    rw [List.append_assoc, List.take_left]
  have hbehind : (x ++ callText gap raw ++ y).drop (x.length + (callText gap raw).length) = y := by
    rw [← List.length_append, List.drop_left]
  refine ⟨x, gap, raw, y, rfl, rfl, hgap, closes_iff.mp hraw, ?_⟩
  dsimp only
  rw [hbefore, hbehind]

/-- **When the inserted size expression stays closed.**  What either generator returns for
a site is the source with the call at the site replaced by its stripped argument in a
wrapper.  The argument is pasted into code, leaves the lexer in code with its parentheses
balanced, and the tokens are those before the call, those of the wrapper around those of
the argument, and those after the call, if and only if the call begins in code and the
stripped argument does not end in a line comment. -/
theorem insertion_closed_iff (isWord : Char → Bool) (source : Str) (allocation : PolicyAllocation)
    (site : SourceSpan) (siteId : Nat) (namespaceName : Str) :
    (∀ out, instrumentSite isWord source allocation site siteId = .ok out → ∃ x gap raw y,
      sourceOffset source site.startLine site.startColumn false = .ok x.length ∧
      Inserted (siteWrapper allocation siteId) source out x gap raw y ∧
      (StaysClosed (siteWrapper allocation siteId) x (strip raw) y ↔
        ((code false).run x).InCode ∧ ¬ EndsInLineComment (strip raw))) ∧
    (∀ out, instrumentWasmSite isWord source allocation site siteId namespaceName = .ok out →
      ∃ x gap raw y, sourceOffset source site.startLine site.startColumn false = .ok x.length ∧
      Inserted (importWrapper namespaceName siteId) source out x gap raw y ∧
      (StaysClosed (importWrapper namespaceName siteId) x (strip raw) y ↔
        ((code false).run x).InCode ∧ ¬ EndsInLineComment (strip raw))) := by
  refine ⟨fun out hout => ?_, fun out hout => ?_⟩
  · obtain ⟨anchor, hanchor, hout⟩ := bind_eq_ok.mp hout
    obtain ⟨_, -, hout⟩ := bind_eq_ok.mp hout
    obtain ⟨call, hcall, hout⟩ := bind_eq_ok.mp hout
    cases hout
    obtain ⟨_, -, -, -, hextent, -⟩ := selectedCall_eq_ok.mp hcall
    obtain ⟨x, gap, raw, y, hx, hinserted⟩ :=
      inserted_of_call (siteWrapper allocation siteId) hextent
    rw [siteWrapper_around] at hinserted
    refine ⟨x, gap, raw, y, ?_, hinserted,
      stays_closed_iff _ y (balanced_iff.mp hinserted.balanced)⟩
    rw [hx]
    exact (siteAnchor_eq_ok.mp hanchor).1
  · obtain ⟨anchor, call, hanchor, hcall, rfl⟩ := instrumentWasmSite_eq_ok.mp hout
    obtain ⟨_, -, -, -, hextent, -⟩ := selectedCall_eq_ok.mp hcall
    obtain ⟨x, gap, raw, y, hx, hinserted⟩ :=
      inserted_of_call (importWrapper namespaceName siteId) hextent
    rw [importWrapper_around] at hinserted
    refine ⟨x, gap, raw, y, ?_, hinserted,
      stays_closed_iff _ y (balanced_iff.mp hinserted.balanced)⟩
    rw [hx]
    exact (siteAnchor_eq_ok.mp hanchor).1

def plainSource : Str := "void f()\x7bp=malloc(n);\x7d".toList

def plainSite : SourceSpan := ⟨1, 12, 1, 17⟩

def plainAllocation : PolicyAllocation := ⟨['f'], ['T'], some plainSite⟩

/-- A site that the label based generator accepts, with an argument in plain code. -/
theorem insertion_closed_iff_plain : ∃ out gap raw y,
    instrumentSite asciiWord plainSource plainAllocation plainSite 1 = .ok out ∧
    Inserted (siteWrapper plainAllocation 1) plainSource out "void f()\x7bp=".toList gap raw y ∧
    strip raw = "n".toList ∧
    StaysClosed (siteWrapper plainAllocation 1) "void f()\x7bp=".toList "n".toList y := by
  obtain ⟨out, hout⟩ : ∃ out, instrumentSite asciiWord plainSource plainAllocation plainSite 1 =
      .ok out := ⟨_, rfl⟩
  obtain ⟨x, gap, raw, y, hoffset, hinserted, hiff⟩ :=
    (insertion_closed_iff asciiWord plainSource plainAllocation plainSite 1 []).1 out hout
  have hstart : sourceOffset plainSource 1 12 false = .ok 11 := rfl
  have hlen : x.length = 11 := Except.ok.inj (hoffset.symm.trans hstart)
  have hx : x = "void f()\x7bp=".toList := by
    have htake := congrArg (List.take 11) hinserted.source_eq
    rw [List.append_assoc, ← hlen, List.take_left, hlen] at htake
    exact htake.symm
  have hcall : mallocCallExtent (x ++ callText gap raw ++ y) x.length 17 =
      .ok (11, 20, "n".toList) := by
    rw [← hinserted.source_eq, hlen]
    rfl
  obtain ⟨-, -, -, hextent⟩ := (mallocCallExtent_callText y hinserted.space
    (closes_iff.mpr hinserted.balanced)).mp hcall
  have hraw : strip raw = "n".toList := (congrArg (fun call => call.2.2) hextent).symm
  rw [hraw] at hiff
  subst hx
  exact ⟨out, gap, raw, y, hout, hinserted, hraw, hiff.mpr ⟨by decide, by decide⟩⟩

/-- A call whose argument ends in a comment, and the site of its name. -/
def commentedSource : Str := "void f()\x7bp=malloc(n//c\n);\x7d".toList

def commentedSite : SourceSpan := ⟨1, 12, 1, 17⟩

def commentedAllocation : PolicyAllocation := ⟨['f'], ['T'], some commentedSite⟩

/-- **The generated text becomes part of the comment.**  Both generators accept the site;
the inserted argument leaves the lexer in the comment, and no token behind it is left. -/
theorem insertion_commented_out :
    (∃ out, instrumentSite asciiWord commentedSource commentedAllocation commentedSite 1 =
      .ok out ∧ out = "void f()\x7bp=".toList ++
        (siteWrapper commentedAllocation 1).around "n//c".toList ++ ";\x7d".toList ∧
      ¬ StaysClosed (siteWrapper commentedAllocation 1) "void f()\x7bp=".toList "n//c".toList
        ";\x7d".toList) ∧
    ∃ out, instrumentWasmSite asciiWord commentedSource commentedAllocation commentedSite 1
      "n".toList = .ok out ∧ tokens out = tokens ("void f()\x7bp=".toList ++
        (importWrapper "n".toList 1).head ++ "n".toList) := by
  refine ⟨⟨_, rfl, ?_, fun h => ?_⟩, _, rfl, ?_⟩
  · decide +kernel
  · exact absurd h.closed.ends (by decide)
  · decide +kernel

end InterSpec.Tools
