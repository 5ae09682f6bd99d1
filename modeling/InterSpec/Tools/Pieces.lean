import InterSpec.Tools.SiteLabels

/-!
# Texts with marks

A text of the loop over the sites as a list of characters and marks.

* `render`, `skeleton`, `marks`: the text, the text without its marks, and the sites.
* `siteLabels_render`: the labels of the text are those of the marks.
* `render_split`: an offset of the text is between two pieces, or inside a mark.
* `scanParen_render`: the scan for a closing parenthesis ends between two pieces.
-/

namespace InterSpec.Tools

/-! ### The labels of a site -/

theorem isName_label {stem suffix : Str} (hstem : IsName stem) (k : Nat)
    (hsuffix : suffix.all isIdentChar = true) :
    IsName (labelPrefix ++ stem ++ "_".toList ++ digits k ++ suffix) := by
  have hlit : ∀ text : Str, text.all isIdentChar = true → IsName text :=
    fun _ => List.all_eq_true.mp
  simp only [IsName, List.forall_mem_append]
  exact ⟨⟨⟨⟨hlit _ (by decide), hstem⟩, hlit _ (by decide)⟩, fun _ => isIdentChar_of_mem_digits⟩,
    hlit _ hsuffix⟩

theorem label_start (stem suffix : Str) (k : Nat) :
    labelPrefix.isPrefixOf (labelPrefix ++ stem ++ "_".toList ++ digits k ++ suffix) = true := by
  rw [List.append_assoc, List.append_assoc, List.append_assoc]
  exact List.isPrefixOf_iff_prefix.mpr (List.prefix_append _ _)

theorem siteSymbols_isName (allocation : PolicyAllocation) (siteId : Nat) :
    IsName (siteSymbols allocation siteId).1 ∧ IsName (siteSymbols allocation siteId).2 := by
  have hstem : IsName (symbol allocation.function) := fun _ => isIdentChar_of_mem_symbol
  exact ⟨isName_label hstem siteId (by decide), isName_label hstem siteId (by decide)⟩

theorem siteSymbols_start (allocation : PolicyAllocation) (siteId : Nat) :
    labelPrefix.isPrefixOf (siteSymbols allocation siteId).1 = true ∧
      labelPrefix.isPrefixOf (siteSymbols allocation siteId).2 = true :=
  ⟨label_start _ _ siteId, label_start _ _ siteId⟩

/-- The two labels of a site. -/
def PreciseSite.labels (p : PreciseSite) : List Str :=
  [(siteSymbols p.allocation p.siteId).1, (siteSymbols p.allocation p.siteId).2]

def PreciseSite.mark (p : PreciseSite) : Str :=
  siteMark (siteSymbols p.allocation p.siteId).1 (siteSymbols p.allocation p.siteId).2

theorem labelsFrom_mark (p : PreciseSite) (escaped : Bool) (word y : Str) :
    labelsFrom escaped word (p.mark ++ y) = p.labels ++ labelsFrom false [] y :=
  labelsFrom_siteMark (siteSymbols_isName _ _).1 (siteSymbols_isName _ _).2
    (siteSymbols_start _ _).1 (siteSymbols_start _ _).2 escaped word y

theorem mark_inner {s : Scan} (hs : s.Valid) (p : PreciseSite) (k : Nat) :
    s.inner k p.mark = some (s.settle, k) :=
  Scan.siteMark_inner hs (siteSymbols_isName _ _).1 (siteSymbols_isName _ _).2 k

theorem mark_blocked (p : PreciseSite) : AllBlocked p.mark :=
  siteMark_blocked (siteSymbols_isName _ _).1 (siteSymbols_isName _ _).2

theorem mark_ends (p : PreciseSite) : p.mark.head? = some ';' ∧ p.mark.getLast? = some '\x7d' := by
  have htail : markTail.getLast? = some '\x7d' := by decide
  refine ⟨rfl, ?_⟩
  rw [PreciseSite.mark, siteMark, List.getLast?_append, List.getLast?_append, htail]
  rfl

/-! ### Pieces -/

/-- A character of a text, or the mark of a site. -/
inductive Piece
  | char (c : Char)
  | mark (p : PreciseSite)
deriving DecidableEq, Repr

namespace Piece

def text : Piece → Str
  | char c => [c]
  | mark p => p.mark

/-- What stands for a piece in the text without the marks. -/
def letter : Piece → Char
  | char c => c
  | mark _ => ';'

def site? : Piece → Option PreciseSite
  | char _ => none
  | mark p => some p

@[simp] theorem text_char (c : Char) : (char c).text = [c] := rfl

@[simp] theorem text_mark (p : PreciseSite) : (mark p).text = p.mark := rfl

@[simp] theorem letter_char (c : Char) : (char c).letter = c := rfl

@[simp] theorem letter_mark (p : PreciseSite) : (mark p).letter = ';' := rfl

end Piece

def render (pieces : List Piece) : Str := pieces.flatMap Piece.text

def skeleton (pieces : List Piece) : Str := pieces.map Piece.letter

def marks (pieces : List Piece) : List PreciseSite := pieces.filterMap Piece.site?

/-- A text without marks. -/
def chars (text : Str) : List Piece := text.map Piece.char

@[simp] theorem render_append (T U : List Piece) : render (T ++ U) = render T ++ render U :=
  List.flatMap_append

@[simp] theorem render_cons (a : Piece) (T : List Piece) : render (a :: T) = a.text ++ render T :=
  List.flatMap_cons

@[simp] theorem render_nil : render [] = [] := rfl

@[simp] theorem skeleton_append (T U : List Piece) :
    skeleton (T ++ U) = skeleton T ++ skeleton U :=
  List.map_append

@[simp] theorem skeleton_cons (a : Piece) (T : List Piece) :
    skeleton (a :: T) = a.letter :: skeleton T := rfl

@[simp] theorem marks_append (T U : List Piece) : marks (T ++ U) = marks T ++ marks U :=
  List.filterMap_append

@[simp] theorem marks_char (c : Char) (T : List Piece) : marks (Piece.char c :: T) = marks T := rfl

@[simp] theorem marks_mark (p : PreciseSite) (T : List Piece) :
    marks (Piece.mark p :: T) = p :: marks T := rfl

@[simp] theorem chars_append (u v : Str) : chars (u ++ v) = chars u ++ chars v := List.map_append

@[simp] theorem render_chars (text : Str) : render (chars text) = text := by
  induction text with
  | nil => rfl
  | cons c text ih => exact congrArg (c :: ·) ih

@[simp] theorem skeleton_chars (text : Str) : skeleton (chars text) = text := by
  rw [skeleton, chars, List.map_map]
  exact List.map_id text

@[simp] theorem marks_chars (text : Str) : marks (chars text) = [] := by
  rw [marks, chars, List.filterMap_map]
  exact List.filterMap_eq_nil_iff.mpr (fun _ _ => rfl)

/-- **The labels are those of the marks**, when the text without the marks defines none. -/
theorem labelsFrom_render {T : List Piece} : ∀ {escaped : Bool} {word : Str},
    labelsFrom escaped word (skeleton T) = [] →
      labelsFrom escaped word (render T) = (marks T).flatMap PreciseSite.labels := by
  induction T with
  | nil => intro escaped word _; rfl
  | cons a T ih =>
    intro escaped word h
    rw [skeleton_cons] at h
    rw [render_cons]
    cases a with
    | char c =>
      rw [marks_char]
      show labelsFrom escaped word (c :: render T) = _
      by_cases hc : isIdentChar c = true
      · rw [labelsFrom_ident hc]
        exact ih ((labelsFrom_ident hc _ _ _).symm.trans h)
      · have hc := Bool.eq_false_of_not_eq_true hc
        have h := (labelsFrom_other hc _ _ _).symm.trans h
        rw [labelsFrom_other hc, (List.append_eq_nil_iff.mp h).1, List.nil_append]
        exact ih (List.append_eq_nil_iff.mp h).2
    | mark p =>
      rw [marks_mark, List.flatMap_cons]
      refine (labelsFrom_mark p escaped word (render T)).trans (congrArg _ (ih ?_))
      exact (labelsFrom_separator (d := ';') (by decide) [] (skeleton T) escaped word).symm.trans h

/-! ### Offsets -/

/-- **An offset is between two pieces, or inside a mark.** -/
theorem render_split {T : List Piece} : ∀ {u v : Str}, render T = u ++ v →
    (∃ U V, T = U ++ V ∧ render U = u ∧ render V = v) ∨
      ∃ U p V m m', T = U ++ Piece.mark p :: V ∧ p.mark = m ++ m' ∧ m ≠ [] ∧ m' ≠ [] ∧
        u = render U ++ m ∧ v = m' ++ render V := by
  induction T with
  | nil =>
    intro u v h
    obtain ⟨rfl, rfl⟩ := List.append_eq_nil_iff.mp h.symm
    exact Or.inl ⟨[], [], rfl, rfl, rfl⟩
  | cons a T ih =>
    intro u v h
    rw [render_cons] at h
    rcases List.append_eq_append_iff.mp h with ⟨u', rfl, hT⟩ | ⟨m', ha, rfl⟩
    · -- the offset is behind the first piece
      rcases ih hT with ⟨U, V, rfl, rfl, rfl⟩ | ⟨U, p, V, m, m', rfl, hp, hm, hm', rfl, rfl⟩
      · exact Or.inl ⟨a :: U, V, rfl, render_cons a U, rfl⟩
      · refine Or.inr ⟨a :: U, p, V, m, m', rfl, hp, hm, hm', ?_, rfl⟩
        rw [render_cons, List.append_assoc]
    · cases u with
      | nil => exact Or.inl ⟨[], a :: T, rfl, rfl, by rw [render_cons, ha]; rfl⟩
      | cons c u =>
        by_cases hm' : m' = []
        · refine Or.inl ⟨[a], T, rfl, ?_, by rw [hm']; rfl⟩
          rw [render_cons, ha, hm']
          simp
        · cases a with
          | char d =>
            have hlen := congrArg List.length ha
            have hpos := List.length_pos_of_ne_nil hm'
            rw [List.length_append, List.length_cons] at hlen
            have hone : (Piece.char d).text.length = 1 := rfl
            omega
          | mark p =>
            exact Or.inr ⟨[], p, T, c :: u, m', rfl, ha, List.cons_ne_nil _ _, hm', rfl, rfl⟩

/-- A text without a character that every mark has is without marks. -/
theorem eq_chars {c : Char} (hc : ∀ p : PreciseSite, c ∈ p.mark) {T : List Piece} {text : Str}
    (h : render T = text) (hno : c ∉ text) : T = chars text := by
  induction T generalizing text with
  | nil => rw [← h]; rfl
  | cons a T ih =>
    rw [← h, render_cons] at hno ⊢
    have hT := ih rfl (fun hmem => hno (List.mem_append_right _ hmem))
    cases a with
    | char d => exact congrArg (Piece.char d :: ·) hT
    | mark p => exact absurd (List.mem_append_left _ (hc p)) hno

/-- A part at the head, without the first character of a mark. -/
theorem render_head {T : List Piece} {u v : Str} (h : render T = u ++ v) (hu : ';' ∉ u) :
    ∃ V, T = chars u ++ V ∧ render V = v := by
  have hsemi : ∀ p : PreciseSite, ';' ∈ p.mark := fun p => List.mem_of_mem_head? (mark_ends p).1
  rcases render_split h with ⟨U, V, rfl, hU, hV⟩ | ⟨U, p, V, m, m', -, hp, hm, -, rfl, -⟩
  · exact ⟨V, by rw [← eq_chars hsemi hU hu], hV⟩
  · refine absurd (List.mem_append_right _ ?_) hu
    have hhead := (mark_ends p).1
    rw [hp, List.head?_append_of_ne_nil _ hm] at hhead
    exact List.mem_of_mem_head? hhead

/-- And one at the end, without the last. -/
theorem render_last {T : List Piece} {u v : Str} (h : render T = u ++ v) (hv : '\x7d' ∉ v) :
    ∃ U, T = U ++ chars v ∧ render U = u := by
  have hbrace : ∀ p : PreciseSite, '\x7d' ∈ p.mark := fun p => List.mem_of_getLast? (mark_ends p).2
  rcases render_split h with ⟨U, V, rfl, hU, hV⟩ | ⟨U, p, V, m, m', -, hp, -, hm', -, rfl⟩
  · exact ⟨U, by rw [← eq_chars hbrace hV hv], hU⟩
  · refine absurd (List.mem_append_left _ ?_) hv
    have hlast := (mark_ends p).2
    rw [hp, List.getLast?_append_of_ne_nil _ hm'] at hlast
    exact List.mem_of_getLast? hlast

/-- **The scan ends between two pieces.** -/
theorem scanParen_render {T : List Piece} : ∀ {s : Scan} {depth : Int} {pos q : Nat}, s.Valid →
    1 ≤ depth → scanParen s depth pos (render T) = some q →
      ∃ U V, T = U ++ Piece.char ')' :: V ∧ q = pos + (render U).length := by
  induction T with
  | nil => intro s depth pos q _ _ h; cases h
  | cons a T ih =>
    intro s depth pos q hs hdepth h
    -- the first piece is passed
    have hnext : ∀ {s' : Scan} {depth' : Int}, s'.Valid → 1 ≤ depth' →
        scanParen s' depth' (pos + a.text.length) (render T) = some q →
        ∃ U V, a :: T = U ++ Piece.char ')' :: V ∧ q = pos + (render U).length := by
      intro s' depth' hs' hdepth' h
      obtain ⟨U, V, rfl, rfl⟩ := ih hs' hdepth' h
      refine ⟨a :: U, V, rfl, ?_⟩
      rw [render_cons, List.length_append, Nat.add_assoc]
    rw [render_cons] at h
    cases a with
    | mark p =>
      have hinner := Scan.scanParen_inner (render T) hdepth (mark_inner hs p 0) pos
      have hvalid := (Scan.settled_valid (Scan.settle_mem hs)).1
      rw [Int.natCast_zero, Int.add_zero] at hinner
      exact hnext hvalid hdepth (hinner.symm.trans h)
    | char c =>
      have h : scanParen s depth pos (c :: render T) = some q := h
      rcases scanParen_cons_eq_some h with ⟨rfl, rfl, -⟩ | ⟨depth', hdepth', hq, -⟩
      · exact ⟨[], T, rfl, rfl⟩
      · exact hnext (hs.next c) (hdepth' hdepth) hq

end InterSpec.Tools
