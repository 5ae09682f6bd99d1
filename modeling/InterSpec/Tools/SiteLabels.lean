import InterSpec.Tools.SiteMark
import Mathlib.Data.List.Infix

/-!
# Site labels in a text

The labels that a text defines: the words that begin like the label of a site and have a
colon behind them.

* `siteLabels`, `labelsFrom`: the labels in the order in which they stand.
* `labelsFrom_separator`: a character that no label contains cuts the list in two.
* `labelsFrom_siteMark`: a mark defines its two labels and no other.
* `occurrences_siteBetween`: between them stands one invocation of the allocator.
-/

namespace InterSpec.Tools

/-! ### Labels -/

def labelPrefix : Str := "interspec_alloc_site_".toList

/-- The labels in a text that stands behind `word`.  A letter behind a backslash belongs to
the escape. -/
def labelsFrom : Bool → Str → Str → List Str
  | _, _, [] => []
  | escaped, word, c :: rest =>
    if isIdentChar c then labelsFrom false (if escaped then [] else word ++ [c]) rest
    else (if c = ':' ∧ labelPrefix.isPrefixOf word = true then [word] else []) ++
      labelsFrom (!escaped && c == '\x5c') [] rest

def siteLabels (text : Str) : List Str := labelsFrom false [] text

/-- No label contains the character, and none is changed by it. -/
def Separator (c : Char) : Prop := isIdentChar c = false ∧ c ≠ ':' ∧ c ≠ '\x5c'

instance decidableSeparator (c : Char) : Decidable (Separator c) :=
  inferInstanceAs (Decidable (_ ∧ _))

theorem separator_of_isSpace {c : Char} (hc : isSpace c = true) : Separator c := by
  refine ⟨?_, fun h => ?_, fun h => ?_⟩
  · by_contra hident
    have hno := isIdentChar_rule (p := fun c => !isSpace c) (by decide)
      (Bool.eq_true_of_not_eq_false hident)
    rw [hc] at hno
    cases hno
  · rw [h] at hc
    exact absurd hc (by decide)
  · rw [h] at hc
    exact absurd hc (by decide)

theorem labelsFrom_ident {c : Char} (hc : isIdentChar c = true) (escaped : Bool) (word rest : Str) :
    labelsFrom escaped word (c :: rest) =
      labelsFrom false (if escaped then [] else word ++ [c]) rest := by
  rw [labelsFrom, if_pos hc]

theorem labelsFrom_other {c : Char} (hc : isIdentChar c = false) (escaped : Bool)
    (word rest : Str) : labelsFrom escaped word (c :: rest) =
      (if c = ':' ∧ labelPrefix.isPrefixOf word = true then [word] else []) ++
        labelsFrom (!escaped && c == '\x5c') [] rest := by
  rw [labelsFrom, if_neg (by rw [hc]; exact nofun)]

/-- **The scan of a text goes on behind a part of it** from where it got to. -/
theorem labelsFrom_append (x : Str) : ∀ (escaped : Bool) (word : Str), ∃ escaped' word', ∀ y,
    labelsFrom escaped word (x ++ y) =
      labelsFrom escaped word x ++ labelsFrom escaped' word' y := by
  induction x with
  | nil => intro escaped word; exact ⟨escaped, word, fun y => rfl⟩
  | cons c x ih =>
    intro escaped word
    by_cases hc : isIdentChar c = true
    · obtain ⟨escaped', word', h⟩ := ih false (if escaped then [] else word ++ [c])
      refine ⟨escaped', word', fun y => ?_⟩
      rw [List.cons_append, labelsFrom_ident hc, labelsFrom_ident hc, h]
    · have hc := Bool.eq_false_of_not_eq_true hc
      obtain ⟨escaped', word', h⟩ := ih (!escaped && c == '\x5c') []
      refine ⟨escaped', word', fun y => ?_⟩
      rw [List.cons_append, labelsFrom_other hc, labelsFrom_other hc, h, List.append_assoc]

theorem labelsFrom_prefix (x y : Str) (escaped : Bool) (word : Str) :
    labelsFrom escaped word x <+: labelsFrom escaped word (x ++ y) := by
  obtain ⟨escaped', word', h⟩ := labelsFrom_append x escaped word
  exact ⟨labelsFrom escaped' word' y, (h y).symm⟩

theorem siteLabels_eq_nil_of_append {x y : Str} (h : siteLabels (x ++ y) = []) :
    siteLabels x = [] := by
  have hpre := labelsFrom_prefix x y false []
  rw [siteLabels] at h
  rw [h] at hpre
  exact List.prefix_nil.mp hpre

/-- **A separator cuts the labels in two.** -/
theorem labelsFrom_separator {d : Char} (hd : Separator d) (x y : Str) (escaped : Bool)
    (word : Str) : labelsFrom escaped word (x ++ d :: y) =
      labelsFrom escaped word x ++ labelsFrom false [] y := by
  obtain ⟨escaped', word', h⟩ := labelsFrom_append x escaped word
  rw [h, labelsFrom_other hd.1, if_neg (fun h => hd.2.1 h.1), beq_false_of_ne hd.2.2,
    Bool.and_false, List.nil_append]

theorem siteLabels_separator {d : Char} (hd : Separator d) (x y : Str) :
    siteLabels (x ++ d :: y) = siteLabels x ++ siteLabels y :=
  labelsFrom_separator hd x y false []

theorem labelsFrom_noColon {y : Str} (hy : ':' ∉ y) (x : Str) (escaped : Bool) (word : Str) :
    labelsFrom escaped word (x ++ y) = labelsFrom escaped word x := by
  have hnil : ∀ (escaped : Bool) (word : Str), labelsFrom escaped word y = [] := by
    induction y with
    | nil => intro escaped word; rfl
    | cons c y ih =>
      intro escaped word
      obtain ⟨hne, hy⟩ := not_or.mp (fun h => hy (List.mem_cons.mpr h))
      by_cases hc : isIdentChar c = true
      · rw [labelsFrom_ident hc, ih hy]
      · rw [labelsFrom_other (Bool.eq_false_of_not_eq_true hc), ih hy,
          if_neg (fun h => hne h.1.symm), List.append_nil]
  obtain ⟨escaped', word', h⟩ := labelsFrom_append x escaped word
  rw [h, hnil, List.append_nil]

/-- A text that ends with a separator and defines no label is passed. -/
theorem labelsFrom_text {x : Str} {d : Char} (hlast : x.getLast? = some d) (hd : Separator d)
    {escaped : Bool} {word : Str} (hx : labelsFrom escaped word x.dropLast = []) (y : Str) :
    labelsFrom escaped word (x ++ y) = labelsFrom false [] y := by
  have hsplit : x = x.dropLast ++ [d] := (List.dropLast_append_getLast? d hlast).symm
  rw [hsplit, List.append_assoc, List.singleton_append, labelsFrom_separator hd, hx,
    List.nil_append]

theorem labelsFrom_name {name : Str} (hname : IsName name) (y : Str) : ∀ word : Str,
    labelsFrom false word (name ++ y) = labelsFrom false (word ++ name) y := by
  induction name with
  | nil => intro word; rw [List.append_nil, List.nil_append]
  | cons c name ih =>
    intro word
    obtain ⟨hc, hname⟩ := List.forall_mem_cons.mp hname
    rw [List.cons_append, labelsFrom_ident hc, ih hname]
    simp

theorem IsName.not_mem {name : Str} (hname : IsName name) {c : Char}
    (hc : isIdentChar c = false) : c ∉ name := by
  intro hmem
  rw [hname c hmem] at hc
  cases hc

/-! ### The labels of a mark -/

/-- **The text that exports a label defines it.** -/
theorem labelsFrom_label {name : Str} (hname : IsName name)
    (hpre : labelPrefix.isPrefixOf name = true) (escaped : Bool) (word y : Str) :
    labelsFrom escaped word (".globl ".toList ++ (name ++ ("\\n.type ".toList ++ (name ++
      (",@function\\n".toList ++ (name ++ ':' :: y)))))) = name :: labelsFrom false [] y := by
  have hcolon : ':' ∉ name := hname.not_mem (by decide)
  have hglobl : ∀ z, labelsFrom escaped word (".globl ".toList ++ z) = labelsFrom false [] z :=
    labelsFrom_text (d := ' ') (by decide) (by decide)
      (labelsFrom_noColon (by decide) [] escaped word)
  have htype : ∀ z, labelsFrom false name ("\\n.type ".toList ++ z) = labelsFrom false [] z :=
    labelsFrom_text (d := ' ') (by decide) (by decide)
      (labelsFrom_noColon (by decide) [] false name)
  have hfunction : ∀ z, labelsFrom false name (",@function\\n".toList ++ z) =
    labelsFrom false [] z := fun _ => rfl
  rw [hglobl, labelsFrom_name hname, List.nil_append, htype, labelsFrom_name hname,
    List.nil_append, hfunction, labelsFrom_name hname, List.nil_append,
    labelsFrom_other (by decide), if_pos ⟨rfl, hpre⟩]
  rfl

/-- **A mark defines its two labels**, and what follows it stands for itself. -/
theorem labelsFrom_siteMark {beginSymbol endSymbol : Str} (hb : IsName beginSymbol)
    (he : IsName endSymbol) (hb' : labelPrefix.isPrefixOf beginSymbol = true)
    (he' : labelPrefix.isPrefixOf endSymbol = true) (escaped : Bool) (word y : Str) :
    labelsFrom escaped word (siteMark beginSymbol endSymbol ++ y) =
      [beginSymbol, endSymbol] ++ labelsFrom false [] y := by
  have hhead : ∀ z, labelsFrom escaped word
      ("; uint32_t __interspec_ptr = 0; __asm__ __volatile__(\x22".toList ++ z) =
      labelsFrom false [] z :=
    labelsFrom_text (d := '\x22') (by decide) (by decide)
      (labelsFrom_noColon (by decide) [] escaped word)
  have hmiddle : ∀ z, labelsFrom false []
      ("\x22 ::: \x22memory\x22); __interspec_ptr = INTERSPEC_SITE_ALLOC(__interspec_size); ".toList ++
        ("__asm__ __volatile__(\x22".toList ++ z)) = labelsFrom false [] z := by
    intro z
    rw [labelsFrom_text (d := ' ') (by decide) (by decide) (by decide),
      labelsFrom_text (d := '\x22') (by decide) (by decide) (by decide)]
  have htail : ∀ z, labelsFrom false [] (markTail ++ z) = labelsFrom false [] z :=
    labelsFrom_text (d := '\x7d') (by decide) (by decide) (by decide)
  unfold siteMark siteInterval markHead siteBetween
  simp only [List.append_assoc, List.cons_append, List.nil_append]
  rw [hhead, labelsFrom_label hb hb', hmiddle, labelsFrom_label he he', htail]

/-! ### What stands between the labels -/

/-- At how many places of a text the word stands. -/
def occurrences (word text : Str) : Nat := text.tails.countP (fun v => word.isPrefixOf v)

def allocatorCall : Str := "INTERSPEC_SITE_ALLOC(".toList

theorem occurrences_cons (word : Str) (c : Char) (text : Str) :
    occurrences word (c :: text) =
      occurrences word text + if word.isPrefixOf (c :: text) = true then 1 else 0 := by
  exact List.countP_cons

theorem occurrences_eq_zero {word text : Str} {c : Char} (h : c ∉ text) :
    occurrences (word ++ [c]) text = 0 := by
  refine List.countP_eq_zero.mpr (fun v hv hpre => h ?_)
  exact ((List.mem_tails _ _).mp hv).subset
    ((List.isPrefixOf_iff_prefix.mp hpre).subset (List.mem_append_right _ List.mem_cons_self))

/-- A text without the last character of the word adds no place. -/
theorem occurrences_append (word : Str) {y : Str} {c : Char} (hy : c ∉ y) (x : Str) :
    occurrences (word ++ [c]) (x ++ y) = occurrences (word ++ [c]) x := by
  have hpre : ∀ u, (word ++ [c]).isPrefixOf (u ++ y) = (word ++ [c]).isPrefixOf u := by
    intro u
    rw [Bool.eq_iff_iff, List.isPrefixOf_iff_prefix, List.isPrefixOf_iff_prefix]
    refine ⟨fun ⟨z, hz⟩ => ?_, fun h => h.trans (List.prefix_append u y)⟩
    rcases List.append_eq_append_iff.mp hz with ⟨v, hu, -⟩ | ⟨v, hword, hy'⟩
    · exact ⟨v, hu.symm⟩
    · -- the word would end in the text behind
      cases hv : v.getLast? with
      | none =>
        rw [List.getLast?_eq_none_iff.mp hv, List.append_nil] at hword
        exact ⟨[], by rw [List.append_nil, hword]⟩
      | some d =>
        have hlast := congrArg List.getLast? hword
        rw [List.getLast?_concat, List.getLast?_append, hv] at hlast
        cases hlast
        rw [hy'] at hy
        exact absurd (List.mem_append_left z (List.mem_of_getLast? hv)) hy
  induction x with
  | nil =>
    rw [List.nil_append, occurrences_eq_zero hy]
    exact (occurrences_eq_zero List.not_mem_nil).symm
  | cons d x ih =>
    rw [List.cons_append, occurrences_cons, occurrences_cons, ih, ← List.cons_append, hpre]

/-- **One invocation of the allocator** stands between the labels of a mark. -/
theorem occurrences_siteBetween {endSymbol : Str} (he : IsName endSymbol) :
    occurrences allocatorCall (siteBetween endSymbol) = 1 := by
  have hparen : '(' ∉ endSymbol := he.not_mem (by decide)
  have hlabel : '(' ∉ ".globl ".toList ++ (endSymbol ++ ("\\n.type ".toList ++ (endSymbol ++
      ",@function\\n".toList))) := by
    simp only [List.mem_append, not_or]
    exact ⟨by decide, hparen, by decide, hparen, by decide⟩
  have hword : allocatorCall = "INTERSPEC_SITE_ALLOC".toList ++ ['('] := by decide
  have happend := occurrences_append "INTERSPEC_SITE_ALLOC".toList hlabel
    ("\x22 ::: \x22memory\x22); __interspec_ptr = INTERSPEC_SITE_ALLOC(__interspec_size); ".toList ++
      "__asm__ __volatile__(\x22".toList)
  unfold siteBetween
  simp only [List.append_assoc] at happend ⊢
  rw [hword, happend, ← hword]
  decide

end InterSpec.Tools
