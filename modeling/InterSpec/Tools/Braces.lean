import InterSpec.Tools.Anchors
import InterSpec.Tools.Balanced
import InterSpec.Tools.Functions

/-!
# The extent of a function

`function_body` counts braces wherever they stand, and `malloc_call_extent` skips the
literals and the comments.  The two agree on a body when the braces that only the first one
sees are themselves balanced.

* `hiddenSigns`: the braces in literals and comments, as steps.
* `BracesAgree`: these lead back to where they started, and never below the depth of the
  code.
* `functionBody_exact_iff`: the extent is that of the body, and the sites that are accepted
  are those in it, exactly when the braces agree.
-/

namespace InterSpec.Tools

open Scan Walk Fallible

/-! ### The braces that the lexer skips -/

/-- The step of a character wherever it stands. -/
def plainSign (b : Brackets) (c : Char) : Int :=
  if c = b.opener then 1 else if c = b.closer then -1 else 0

/-- The step of a character in a literal or a comment. -/
def hiddenSign (b : Brackets) (s : Scan) (c : Char) : Int :=
  if s.InCode then 0 else plainSign b c

def hiddenSigns (b : Brackets) : Scan → Str → List Int
  | _, [] => []
  | s, c :: text => hiddenSign b s c :: hiddenSigns b (s.next c) text

theorem plainSign_eq (b : Brackets) (s : Scan) (c : Char) :
    plainSign b c = s.sign b c + hiddenSign b s c := by
  by_cases hs : s.InCode
  · rw [hiddenSign, if_pos hs, Int.add_zero, hs.sign_eq, plainSign]
  · rw [hiddenSign, if_neg hs, sign_of_not_inCode hs, Int.zero_add]

theorem length_hiddenSigns (b : Brackets) (text : Str) : ∀ s : Scan,
    (hiddenSigns b s text).length = text.length := by
  induction text with
  | nil => intro s; rfl
  | cons c text ih => intro s; rw [hiddenSigns, List.length_cons, List.length_cons, ih]

/-- **Every brace is one of the code or a hidden one.** -/
theorem take_sum_plain (b : Brackets) (text : Str) : ∀ (s : Scan) (n : Nat),
    ((text.map (plainSign b)).take n).sum =
      ((s.signs b text).take n).sum + ((hiddenSigns b s text).take n).sum := by
  induction text with
  | nil => intro s n; simp [signs, hiddenSigns]
  | cons c text ih =>
    intro s n
    cases n with
    | zero => simp
    | succ n =>
      rw [List.map_cons, signs, hiddenSigns, List.take_succ_cons, List.take_succ_cons,
        List.take_succ_cons, List.sum_cons, List.sum_cons, List.sum_cons, ih (s.next c) n,
        plainSign_eq b s c]
      omega

theorem plainSign_ge (b : Brackets) (c : Char) : -1 ≤ plainSign b c := by
  unfold plainSign
  split
  · omega
  · split <;> omega

theorem closingBrace_eq_firstZero {text : Str} : ∀ (depth : Nat) {pos : Nat},
    closingBrace (depth + 1) pos text =
      (firstZero (depth + 1) pos (text.map (plainSign braces))).map (· + 1) := by
  induction text with
  | nil => intro depth pos; rfl
  | cons c text ih =>
    intro depth pos
    rw [closingBrace, List.map_cons, firstZero]
    by_cases hopen : c = '\x7b'
    · have hsign : plainSign braces c = 1 := if_pos hopen
      rw [if_pos hopen, hsign, if_neg (by omega), ih]
      congr 2
    · by_cases hclose : c = '\x7d'
      · have hsign : plainSign braces c = -1 := by
          rw [plainSign, if_neg (show c ≠ braces.opener from hopen)]
          exact if_pos hclose
        rw [if_neg hopen, if_pos hclose, hsign]
        cases depth with
        | zero =>
          rw [if_pos (by omega)]
          cases text <;> rfl
        | succ depth =>
          rw [if_neg (by omega), ih]
          congr 2
          omega
      · have hsign : plainSign braces c = 0 := by
          rw [plainSign, if_neg (show c ≠ braces.opener from hopen)]
          exact if_neg hclose
        rw [if_neg hopen, if_neg hclose, hsign, if_neg (by omega), ih, Int.add_zero]

/-! ### The extent -/

/-- The literals and the comments of the body have as many opening braces as closing ones,
and up to no point of it do the closing ones exceed the opening ones by more than the depth
of the code there. -/
structure BracesAgree (body : Str) : Prop where
  total : (hiddenSigns braces (code false) body).sum = 0
  covered : ∀ n ≤ body.length, 0 ≤ (((code false).signs braces body).take n).sum +
    ((hiddenSigns braces (code false) body).take n).sum

instance decidableBracesAgree (body : Str) : Decidable (BracesAgree body) :=
  decidable_of_iff ((hiddenSigns braces (code false) body).sum = 0 ∧
      ∀ n ≤ body.length, 0 ≤ (((code false).signs braces body).take n).sum +
        ((hiddenSigns braces (code false) body).take n).sum)
    ⟨fun h => ⟨h.1, h.2⟩, fun h => ⟨h.total, h.covered⟩⟩

theorem sum_plain (b : Brackets) (s : Scan) (text : Str) : (text.map (plainSign b)).sum =
    (s.signs b text).sum + (hiddenSigns b s text).sum := by
  have h := take_sum_plain b text s text.length
  rwa [List.take_of_length_le (by rw [List.length_map]),
    List.take_of_length_le (by rw [length_signs]),
    List.take_of_length_le (by rw [length_hiddenSigns])] at h

/-- **For a body that is balanced as the lexer sees it, the plain count is balanced exactly
when the braces agree.** -/
theorem bracesAgree_iff {body : Str} (h : Balanced braces body) :
    BracesAgree body ↔ Excursion (body.map (plainSign braces)) := by
  have hsum := sum_plain braces (code false) body
  rw [(balanced_iff.mp h).walk.sum_eq, Int.zero_add] at hsum
  constructor
  · intro hagree
    refine ⟨fun n => ?_, by rw [hsum, hagree.total]⟩
    by_cases hn : n ≤ body.length
    · rw [take_sum_plain braces body (code false)]
      exact hagree.covered n hn
    · rw [List.take_of_length_le (by rw [List.length_map]; omega), hsum, hagree.total]
  · intro hplain
    refine ⟨by rw [← hsum, hplain.sum_eq], fun n _ => ?_⟩
    rw [← take_sum_plain]
    exact hplain.nonneg n

/-- **The brace that the source finds is the one behind the body exactly when the braces
agree.** -/
theorem closingBrace_eq_iff {body : Str} (h : Balanced braces body) (rest : Str) (pos : Nat) :
    closingBrace 1 pos (body ++ '\x7d' :: rest) = some (pos + body.length + 1) ↔
      BracesAgree body := by
  have hclose : plainSign braces '\x7d' = -1 := by decide
  have hlen : (body.map (plainSign braces)).length = body.length := List.length_map _
  have hge : ∀ w ∈ body.map (plainSign braces), -1 ≤ w := fun w hw => by
    obtain ⟨c, -, rfl⟩ := List.mem_map.mp hw
    exact plainSign_ge braces c
  have hfirst := @firstZero_eq_iff _ (rest.map (plainSign braces)) pos hge
  rw [closingBrace_eq_firstZero 0, List.map_append, List.map_cons, hclose, bracesAgree_iff h,
    ← hfirst, hlen, Option.map_eq_some_iff]
  constructor
  · rintro ⟨q, hq, heq⟩
    rw [show pos + body.length = q by omega]
    exact hq
  · intro hfound
    exact ⟨_, hfound, rfl⟩

theorem functionBody_eq_iff {isWord : Char → Bool} {source function body rest : Str}
    {found : Nat × Nat} (hmatch : functionMatch isWord source function = .ok found)
    (hsource : source.drop found.2 = body ++ '\x7d' :: rest) (hbody : Balanced braces body) :
    functionBody isWord source function = .ok (found.2, found.2 + body.length) ↔
      BracesAgree body := by
  rw [← closingBrace_eq_iff hbody rest found.2, functionBody_eq_ok]
  constructor
  · rintro ⟨found', e, hmatch', hclose, heq⟩
    rw [hmatch] at hmatch'
    cases hmatch'
    have hpos := closingBrace_gt Nat.one_ne_zero hclose
    have hend := congrArg Prod.snd heq
    dsimp only at hend
    rw [hsource] at hclose
    rw [hclose, show e = found.2 + body.length + 1 by omega]
  · intro hclose
    exact ⟨found, _, hmatch, by rw [hsource]; exact hclose, rfl⟩

/-- The site selects a call between the two offsets. -/
def SiteWithin (source : Str) (site : SourceSpan) (start stop : Nat) : Prop :=
  ∃ anchor call, siteAnchor source site = .ok anchor ∧
    mallocCallExtent source anchor.1 anchor.2 = .ok call ∧ start ≤ anchor.1 ∧ anchor.2 ≤ stop ∧
    call.2.1 ≤ stop

/-- A site is accepted when the extent of its function holds it. -/
theorem instrumentSite_isOk_iff {isWord : Char → Bool} {source : Str}
    {allocation : PolicyAllocation} {site : SourceSpan} {siteId : Nat} {body : Nat × Nat}
    (hbody : functionBody isWord source allocation.function = .ok body) :
    (∃ out, instrumentSite isWord source allocation site siteId = .ok out) ↔
      SiteWithin source site body.1 body.2 := by
  constructor
  · rintro ⟨out, hout⟩
    obtain ⟨anchor, hanchor, hout⟩ := bind_eq_ok.mp hout
    obtain ⟨_, -, hout⟩ := bind_eq_ok.mp hout
    obtain ⟨call, hcall, -⟩ := bind_eq_ok.mp hout
    obtain ⟨body', hbody', hstart, hstop, hextent, hend⟩ := selectedCall_eq_ok.mp hcall
    rw [hbody] at hbody'
    cases hbody'
    exact ⟨anchor, call, hanchor, hextent, hstart, hstop, hend⟩
  · rintro ⟨anchor, call, hanchor, hextent, hstart, hstop, hend⟩
    have hlt : anchor.1 < anchor.2 := by
      have hbounds := mallocCallExtent_bounds hextent
      omega
    have hcall : selectedCall isWord source allocation.function anchor = .ok call :=
      selectedCall_eq_ok.mpr ⟨body, hbody, hstart, hstop, hextent, hend⟩
    exact ⟨_, bind_eq_ok.mpr ⟨anchor, hanchor, bind_eq_ok.mpr ⟨(), ensure_eq_ok.mpr hlt,
      bind_eq_ok.mpr ⟨call, hcall, rfl⟩⟩⟩⟩

/-- **When the extent of a function follows the lexer.**  Let the definition that is found be
followed by a body whose braces are balanced when literals and comments are skipped.  The
extent is the span of that body, and a site of the function is accepted exactly when it
selects a call in the body, if and only if the braces in the literals and comments of the
body agree with those of its code. -/
theorem functionBody_exact_iff {isWord : Char → Bool} {source function body rest : Str}
    {found : Nat × Nat} (hmatch : functionMatch isWord source function = .ok found)
    (hsource : source.drop found.2 = body ++ '\x7d' :: rest) (hbody : Balanced braces body) :
    (functionBody isWord source function = .ok (found.2, found.2 + body.length) ∧
      ∀ (allocation : PolicyAllocation) (site : SourceSpan) (siteId : Nat),
        allocation.function = function →
        ((∃ out, instrumentSite isWord source allocation site siteId = .ok out) ↔
          SiteWithin source site found.2 (found.2 + body.length))) ↔ BracesAgree body := by
  rw [← functionBody_eq_iff hmatch hsource hbody]
  refine and_iff_left_of_imp (fun hextent allocation site siteId hfunction => ?_)
  subst hfunction
  exact instrumentSite_isOk_iff hextent

/-- Braces in a literal that agree. -/
theorem functionBody_exact_agreeing :
    functionBody asciiWord "void f()\x7bs=\x22\x7b\x7d\x22;p=malloc(4);\x7d".toList ['f'] =
      .ok (9, 28) :=
  ((@functionBody_exact_iff asciiWord "void f()\x7bs=\x22\x7b\x7d\x22;p=malloc(4);\x7d".toList ['f']
    "s=\x22\x7b\x7d\x22;p=malloc(4);".toList [] (5, 9) rfl (by decide) (by decide +kernel)).mpr
    (by decide +kernel)).1

/-- A closing brace in a literal of `f`, before a call. -/
def shortenedSource : Str := "void f()\x7bc='\x7d';p=malloc(4);\x7d".toList

/-- An opening brace in a literal of `f`, and a closing one in a literal of `g`. -/
def extendedSource : Str :=
  "void f()\x7bc='\x7b';\x7dvoid g()\x7bp=malloc(4);c='\x7d';\x7d".toList

/-- **Braces in literals move the end of a function.**  A call in the body of `f` is
refused, since a literal before it has a closing brace; and a call in `g` is accepted for
`f`, since a literal of `f` has an opening one. -/
theorem functionBody_follows_literals :
    (functionMatch asciiWord shortenedSource ['f'] = .ok (5, 9) ∧
      shortenedSource.drop 9 = "c='\x7d';p=malloc(4);".toList ++ ['\x7d'] ∧
      Balanced braces "c='\x7d';p=malloc(4);".toList ∧
      functionBody asciiWord shortenedSource ['f'] = .ok (9, 12) ∧
      instrumentSite asciiWord shortenedSource ⟨['f'], ['T'], none⟩ ⟨1, 18, 1, 26⟩ 1 =
        .error (.siteEscapes ['f'])) ∧
    functionMatch asciiWord extendedSource ['f'] = .ok (5, 9) ∧
      extendedSource.drop 9 = "c='\x7b';".toList ++ '\x7d' :: extendedSource.drop 16 ∧
      Balanced braces "c='\x7b';".toList ∧
      functionBody asciiWord extendedSource ['f'] = .ok (9, 43) ∧
      ∃ out, instrumentSite asciiWord extendedSource ⟨['f'], ['T'], none⟩ ⟨1, 28, 1, 36⟩ 1 =
        .ok out :=
  ⟨⟨rfl, by decide, by decide +kernel, rfl, rfl⟩, rfl, by decide, by decide +kernel, rfl, _, rfl⟩

end InterSpec.Tools
