import InterSpec.Tools.Anchors
import InterSpec.Tools.Labels
import InterSpec.Tools.Pieces
import Mathlib.Data.List.Dedup

/-!
# Intervals of the sites

The loop of `generate` over the precise sites, as a loop over texts with marks.  It goes
from the last position to the first, so what stands before the next site is the original
source; a nested call has its mark inside the size of the outer one, before the outer mark.

* `instrumentSite_split`: the call of a site, and the text in its place.
* `Marked`: the invariant of the loop, `Marked.step` one site, `marked_run` the loop.
* `Marked.noinline`: the functions with a site.
* `site_intervals`: the labels of an accepted policy.
-/

namespace InterSpec.Tools

open Fallible

/-! ### One site -/

/-- **The call that a site selects**, and what stands in its place. -/
theorem instrumentSite_split {isWord : Char → Bool} {source t : Str}
    {allocation : PolicyAllocation} {site : SourceSpan} {siteId : Nat}
    (h : instrumentSite isWord source allocation site siteId = .ok t) :
    ∃ x gap raw y, source = x ++ callText gap raw ++ y ∧
      sourceOffset source site.startLine site.startColumn false = .ok x.length ∧
      (∀ c ∈ gap, isSpace c = true) ∧ Closes raw ∧
      t = x ++ siteExpression (siteSymbols allocation siteId).1 (siteSymbols allocation siteId).2
        (strip raw) ++ y := by
  obtain ⟨anchor, hanchor, h⟩ := bind_eq_ok.mp h
  obtain ⟨_, -, h⟩ := bind_eq_ok.mp h
  obtain ⟨call, hcall, h⟩ := bind_eq_ok.mp h
  obtain ⟨_, -, -, -, hextent, -⟩ := selectedCall_eq_ok.mp hcall
  obtain ⟨x, gap, raw, y, rfl, hx, hgap, hraw⟩ := mallocCallExtent_split hextent
  rw [← hx] at hextent
  obtain ⟨-, -, -, rfl⟩ := (mallocCallExtent_callText y hgap hraw).mp hextent
  refine ⟨x, gap, raw, y, rfl, ?_, hgap, hraw, ?_⟩
  · rw [hx]
    exact (siteAnchor_eq_ok.mp hanchor).1
  · have hdrop : (x ++ callText gap raw ++ y).drop (x.length + (callText gap raw).length) = y :=
      List.drop_left' List.length_append
    rw [← Except.ok.inj h, hdrop, List.append_assoc x (callText gap raw), List.take_left]

/-! ### The invariant -/

/-- **The invariant of the loop**, after the sites `done`.  The text before the last of them
is the source, where the call began with its name. -/
structure Marked (source : Str) (done : List PreciseSite) (T : List Piece) : Prop where
  labels : siteLabels (skeleton T) = []
  marks : (marks T).Perm done
  start : done = [] → T = chars source
  last : ∀ q, done.getLast? = some q → ∃ x y T',
    sourceOffset source q.site.startLine q.site.startColumn false = .ok x.length ∧
      source = x ++ 'm' :: y ∧ T = chars x ++ Piece.char '(' :: T'

theorem Marked.nil {source : Str} (h : siteLabels source = []) :
    Marked source [] (chars source) where
  labels := by rwa [skeleton_chars]
  marks := by rw [marks_chars]
  start := fun _ => rfl
  last q hq := by cases hq

/-- The call of the next site begins in the part that is still the source. -/
theorem Marked.before {source : Str} {done : List PreciseSite} {T : List Piece}
    (h : Marked source done T) {p : PreciseSite} (hbefore : ∀ q ∈ done, NotBefore q p)
    {x gap raw y : Str} (ht : render T = x ++ callText gap raw ++ y)
    (hx : sourceOffset (render T) p.site.startLine p.site.startColumn false = .ok x.length) :
    ∃ z T₁, source = x ++ ("malloc".toList ++ z) ∧ T = chars x ++ T₁ ∧
      sourceOffset source p.site.startLine p.site.startColumn false = .ok x.length := by
  rw [List.append_assoc, callText_append] at ht
  cases hlast : done.getLast? with
  | none =>
    obtain rfl := h.start (List.getLast?_eq_none_iff.mp hlast)
    rw [render_chars] at ht hx
    exact ⟨_, _, ht, by rw [ht, chars_append], hx⟩
  | some q =>
    obtain ⟨x₀, y₀, T', hq, hsource, hT⟩ := h.last q hlast
    have hrender : render T = x₀ ++ '(' :: render T' := by
      rw [hT, render_append, render_chars, render_cons]
      rfl
    have hagree : AgreeTo x₀.length source (render T) :=
      ⟨x₀, 'm', y₀, '(', render T', hsource, hrender, rfl, by decide, by decide⟩
    have hle := sourceOffset_notBefore (hbefore q (List.mem_of_getLast? hlast)) hx
      (sourceOffset_agree hagree hq (Nat.le_refl _))
    -- the name does not reach to the parenthesis
    have hsplit : x ++ ("malloc".toList ++ (gap ++ '(' :: (raw ++ ')' :: y))) =
        x₀ ++ '(' :: render T' := ht.symm.trans hrender
    obtain ⟨z, rfl, hz⟩ := split_of_length_le hsplit hle
    have hname : ∃ z', z = "malloc".toList ++ z' := by
      rcases List.append_eq_append_iff.mp hz with ⟨z', h, -⟩ | ⟨w, hw, hw'⟩
      · exact ⟨z', h⟩
      · cases w with
        | nil => exact ⟨[], by rw [List.append_nil, hw, List.append_nil]⟩
        | cons c w =>
          obtain ⟨rfl, -⟩ := List.cons.inj hw'
          have hmem : '(' ∈ "malloc".toList := by
            rw [hw]
            exact List.mem_append_right _ List.mem_cons_self
          exact absurd hmem (by decide)
    obtain ⟨z', rfl⟩ := hname
    refine ⟨z' ++ 'm' :: y₀, chars ("malloc".toList ++ z') ++ Piece.char '(' :: T', ?_, ?_, ?_⟩
    · rw [hsource, List.append_assoc, List.append_assoc]
    · rw [hT, chars_append, List.append_assoc]
    · exact sourceOffset_agree hagree.symm hx hle

/-- **The pieces of a call.**  Its argument begins and ends between two of them. -/
theorem call_pieces {T : List Piece} {gap raw y : Str} (h : render T = callText gap raw ++ y)
    (hgap : ∀ c ∈ gap, isSpace c = true) (hraw : Closes raw) :
    ∃ w R w' Y, T = chars ("malloc".toList ++ (gap ++ '(' :: w)) ++
        (R ++ (chars w' ++ Piece.char ')' :: Y)) ∧ render R = strip raw ∧ render Y = y ∧
      (∀ c ∈ w, isSpace c = true) ∧ ∀ c ∈ w', isSpace c = true := by
  have hspace : ∀ {w : Str} {d : Char}, isSpace d = false → (∀ c ∈ w, isSpace c = true) →
      d ∉ w := fun hd hw hmem => Bool.noConfusion ((hw _ hmem).symm.trans hd)
  have hname : ';' ∉ "malloc".toList := by decide
  rw [callText_append] at h
  obtain ⟨T₂, rfl, hT₂⟩ := render_head (u := "malloc".toList ++ (gap ++ ['(']))
    (v := raw ++ ')' :: y) (by rw [h]; simp) (by
      simp only [List.mem_append, not_or]
      exact ⟨hname, hspace (by decide) hgap, by decide⟩)
  have hscan := hraw 0 y
  rw [← hT₂] at hscan
  obtain ⟨A, Y, rfl, hlen⟩ := scanParen_render (s := .code false) trivial (by decide) hscan
  rw [render_append, render_cons] at hT₂
  obtain ⟨hA, hY⟩ := List.append_inj hT₂ (by omega)
  obtain ⟨w, w', hsplit, hw, hw'⟩ := strip_split raw
  rw [hsplit] at hA
  obtain ⟨R', rfl, hR'⟩ := render_head hA (hspace (by decide) hw)
  obtain ⟨R, rfl, hR⟩ := render_last hR' (hspace (by decide) hw')
  refine ⟨w, R, w', Y, ?_, hR, (List.cons.inj hY).2, hw, hw'⟩
  simp only [chars_append, List.append_assoc]
  rfl

theorem siteLabels_spaces {w : Str} (hw : ∀ c ∈ w, isSpace c = true) (y : Str) :
    siteLabels (w ++ y) = siteLabels y := by
  induction w with
  | nil => rfl
  | cons c w ih =>
    obtain ⟨hc, hw⟩ := List.forall_mem_cons.mp hw
    rw [List.cons_append, ← ih hw]
    exact siteLabels_separator (separator_of_isSpace hc) [] (w ++ y)

/-- The text around a mark defines no label when the text around the call defined none. -/
theorem siteLabels_replaced {x gap w r w' y : Str} (hw : ∀ c ∈ w, isSpace c = true)
    (h : siteLabels (x ++ ("malloc".toList ++ (gap ++ '(' :: w) ++ (r ++ (w' ++ ')' :: y)))) = []) :
    siteLabels (x ++ (sizeText ++ (r ++ ')' :: ';' :: ')' :: y))) = [] := by
  have hopen : Separator '(' := by decide
  have hclose : Separator ')' := by decide
  have hsemi : Separator ';' := by decide
  obtain ⟨hx, hrest⟩ : siteLabels (x ++ ("malloc".toList ++ gap)) = [] ∧
      siteLabels (w ++ (r ++ (w' ++ ')' :: y))) = [] := by
    rw [← List.append_eq_nil_iff, ← siteLabels_separator hopen, ← h]
    simp only [List.append_assoc, List.cons_append]
  rw [siteLabels_spaces hw] at hrest
  obtain ⟨-, hy⟩ : siteLabels (r ++ w') = [] ∧ siteLabels y = [] := by
    rw [← List.append_eq_nil_iff, ← siteLabels_separator hclose, List.append_assoc, hrest]
  have hsize : sizeText =
      '(' :: ("\x7b uint32_t __interspec_size = (uint32_t)".toList ++ ['(']) := by
    decide
  have hmid : siteLabels "\x7b uint32_t __interspec_size = (uint32_t)".toList = [] := by decide
  have hparen := siteLabels_separator hclose [] y
  have hmark := siteLabels_separator hsemi [] (')' :: y)
  rw [List.nil_append] at hparen hmark
  rw [hsize, List.cons_append, siteLabels_separator hopen, siteLabels_eq_nil_of_append hx,
    List.append_assoc, List.singleton_append, siteLabels_separator hopen, hmid,
    siteLabels_separator hclose, siteLabels_eq_nil_of_append hrest, hmark, hparen, hy]
  rfl

/-- The call at the position of the site gives way to its size and the mark of the site. -/
def Replaces (source before after : Str) (p : PreciseSite) : Prop :=
  ∃ x gap raw y z, sourceOffset source p.site.startLine p.site.startColumn false = .ok x.length ∧
    source = x ++ ("malloc".toList ++ z) ∧ (∀ c ∈ gap, isSpace c = true) ∧ Closes raw ∧
    before = x ++ callText gap raw ++ y ∧
    after = x ++ (sizeText ++ (strip raw ++ ')' :: (p.mark ++ [')']))) ++ y

theorem Marked.step {source : Str} {done : List PreciseSite} {T : List Piece}
    (h : Marked source done T) {isWord : Char → Bool} {p : PreciseSite}
    (hbefore : ∀ q ∈ done, NotBefore q p) {t : Str}
    (hok : instrumentSite isWord (render T) p.allocation p.site p.siteId = .ok t) :
    (∃ T', t = render T' ∧ Marked source (done ++ [p]) T') ∧ Replaces source (render T) t p := by
  obtain ⟨x, gap, raw, y, ht, hx, hgap, hraw, rfl⟩ := instrumentSite_split hok
  obtain ⟨z, T₁, hsource, hT, hx⟩ := h.before hbefore ht hx
  rw [siteExpression_eq]
  refine ⟨?_, x, gap, raw, y, z, hx, hsource, hgap, hraw, ht, rfl⟩
  have hT₁ : render T₁ = callText gap raw ++ y := by
    rw [hT, render_append, render_chars, List.append_assoc] at ht
    exact List.append_cancel_left ht
  obtain ⟨w, R, w', Y, hpieces, hR, rfl, hw, -⟩ := call_pieces hT₁ hgap hraw
  rw [hpieces] at hT
  refine ⟨chars x ++ (chars sizeText ++ (R ++ Piece.char ')' :: Piece.mark p ::
    Piece.char ')' :: Y)), ?_, ?_, ?_, ?_, ?_⟩
  · simp only [render_append, render_chars, render_cons, hR, Piece.text_char, Piece.text_mark,
      List.append_assoc, List.cons_append, List.nil_append]
    rfl
  · have hlabels := h.labels
    rw [hT] at hlabels
    simp only [skeleton_append, skeleton_chars, skeleton_cons, Piece.letter_char,
      Piece.letter_mark] at hlabels ⊢
    exact siteLabels_replaced hw hlabels
  · have hmarks := h.marks
    rw [hT] at hmarks
    simp only [marks_append, marks_chars, marks_char, marks_mark, List.nil_append] at hmarks ⊢
    exact (List.perm_middle.trans (hmarks.cons p)).trans (List.perm_append_singleton p done).symm
  · intro hnil
    exact absurd (List.append_eq_nil_iff.mp hnil).2 (List.cons_ne_nil _ _)
  · intro q hq
    rw [List.getLast?_concat] at hq
    cases hq
    exact ⟨x, _, _, hx, hsource, rfl⟩

/-! ### The loop -/

/-- The loop of `generate` over the precise sites. -/
def instrumentSites (isWord : Char → Bool) (source : Str) (sites : List PreciseSite) :
    Except PolicyError Str :=
  fold (fun t p => instrumentSite isWord t p.allocation p.site p.siteId) source sites

/-- The step of the loop that replaces the call of a site. -/
def SiteReplaced (isWord : Char → Bool) (source : Str) (order : List PreciseSite)
    (p : PreciseSite) : Prop :=
  ∃ done rest before after, order = done ++ p :: rest ∧
    instrumentSites isWord source done = .ok before ∧
    instrumentSite isWord before p.allocation p.site p.siteId = .ok after ∧
    Replaces source before after p

/-- What the loop keeps: it has got to the text `s`, which is made of pieces, and it has
replaced each site it has been through. -/
structure LoopAt (isWord : Char → Bool) (source : Str) (order done : List PreciseSite) (s : Str) :
    Prop where
  run : instrumentSites isWord source done = .ok s
  pieces : ∃ T, s = render T ∧ Marked source done T
  replaced : ∀ q ∈ done, SiteReplaced isWord source order q

theorem LoopAt.nil {isWord : Char → Bool} {source : Str} (h : siteLabels source = [])
    (order : List PreciseSite) : LoopAt isWord source order [] source where
  run := rfl
  pieces := ⟨chars source, (render_chars source).symm, Marked.nil h⟩
  replaced _ hq := absurd hq List.not_mem_nil

theorem LoopAt.step {isWord : Char → Bool} {source s s' : Str} {sites done rest : List PreciseSite}
    {p : PreciseSite} (hwhole : rewriteOrder sites = done ++ p :: rest)
    (h : LoopAt isWord source (rewriteOrder sites) done s)
    (hs' : instrumentSite isWord s p.allocation p.site p.siteId = .ok s') :
    LoopAt isWord source (rewriteOrder sites) (done ++ [p]) s' := by
  obtain ⟨T, rfl, hT⟩ := h.pieces
  have horder := rewriteOrder_pairwise sites
  rw [hwhole] at horder
  obtain ⟨hnext, hreplaces⟩ := hT.step
    (fun q hq => (List.pairwise_append.mp horder).2.2 q hq p List.mem_cons_self) hs'
  have hp : SiteReplaced isWord source (rewriteOrder sites) p :=
    ⟨done, rest, _, s', hwhole, h.run, hs', hreplaces⟩
  refine ⟨?_, hnext, List.forall_mem_append.mpr ⟨h.replaced, List.forall_mem_singleton.mpr hp⟩⟩
  unfold instrumentSites
  exact fold_concat h.run hs'

theorem marked_run {isWord : Char → Bool} {source t : Str} {sites : List PreciseSite}
    (hsource : siteLabels source = [])
    (hok : instrumentSites isWord source (rewriteOrder sites) = .ok t) :
    (∃ T, t = render T ∧ Marked source (rewriteOrder sites) T) ∧
      ∀ p ∈ sites, SiteReplaced isWord source (rewriteOrder sites) p := by
  have h : LoopAt isWord source (rewriteOrder sites) (rewriteOrder sites) t :=
    fold_rule (fun _ _ _ _ _ hwhole h hs' => h.step hwhole hs') rfl
      (LoopAt.nil hsource (rewriteOrder sites)) hok
  exact ⟨h.pieces, fun p hp => h.replaced p ((rewriteOrder_perm sites).mem_iff.mpr hp)⟩

/-! ### The functions with a site -/

theorem markPreciseFunctionNoinline_split {isWord : Char → Bool} {source function t : Str}
    (h : markPreciseFunctionNoinline isWord source function = .ok t) :
    t = source ∨ ∃ u head rest, source = u ++ (head ++ rest) ∧ IsHead function head ∧
      t = u ++ (noinlineMarker ++ (head ++ rest)) := by
  obtain ⟨found, hfound, h⟩ := bind_eq_ok.mp h
  split at h
  · exact Or.inl (Except.ok.inj h).symm
  · obtain ⟨u, head, rest, rfl, hhead, ha, -, -⟩ :=
      searchDefinition_eq_some (functionMatch_eq_ok.mp hfound)
    rw [Nat.zero_add] at ha
    refine Or.inr ⟨u, head, rest, rfl, hhead, ?_⟩
    rw [← Except.ok.inj h, ha, List.take_left, List.drop_left, List.append_assoc]

/-- **A definition begins between two pieces**, and its name is followed by white space or by
its argument list. -/
theorem head_pieces {T : List Piece} {function head u rest : Str} (hplain : PlainName function)
    (hhead : IsHead function head) (h : render T = u ++ (head ++ rest)) :
    ∃ U d V, T = U ++ (chars function ++ Piece.char d :: V) ∧ Separator d ∧ render U = u := by
  rcases render_split h with ⟨U, V, rfl, hU, hV⟩ | ⟨U, p, V, m, m', -, hp, -, hm', -, heq⟩
  · obtain ⟨gap, args, gap', hgap, -, -, rfl⟩ := hhead
    have hsemi : ';' ∉ function := fun hmem => absurd (hplain _ hmem (by decide)) (by decide)
    obtain ⟨d, tail, hd, hdsep, hdne⟩ : ∃ d tail,
        gap ++ '(' :: (args ++ ')' :: (gap' ++ ['\x7b'])) = d :: tail ∧ Separator d ∧
          ';' ∉ [d] := by
      cases gap with
      | nil => exact ⟨'(', _, rfl, by decide, by decide⟩
      | cons c gap =>
        have hc := hgap c List.mem_cons_self
        refine ⟨c, _, rfl, separator_of_isSpace hc, fun hmem => ?_⟩
        rw [← List.mem_singleton.mp hmem] at hc
        exact absurd hc (by decide)
    rw [hd, List.append_assoc] at hV
    obtain ⟨V₁, rfl, hV₁⟩ := render_head hV hsemi
    obtain ⟨V₂, rfl, -⟩ := render_head (u := [d]) hV₁ hdne
    exact ⟨U, d, V₂, rfl, hdsep, hU⟩
  · exact absurd heq.symm (mark_blocked p m m' hp hm' function head rest (render V) hplain hhead)

/-- **The marker of a function adds no label**, when the name is plain. -/
theorem noinline_pieces {isWord : Char → Bool} {function t : Str} {T : List Piece}
    (hplain : PlainName function) (hlabels : siteLabels (skeleton T) = [])
    (h : markPreciseFunctionNoinline isWord (render T) function = .ok t) :
    ∃ T', t = render T' ∧ siteLabels (skeleton T') = [] ∧ marks T' = marks T := by
  rcases markPreciseFunctionNoinline_split h with rfl | ⟨u, head, rest, hsplit, hhead, rfl⟩
  · exact ⟨T, rfl, hlabels, rfl⟩
  · obtain ⟨U, d, V, rfl, hd, rfl⟩ := head_pieces hplain hhead hsplit
    have hbehind : render (chars function ++ Piece.char d :: V) = head ++ rest := by
      rw [render_append] at hsplit
      exact List.append_cancel_left hsplit
    refine ⟨U ++ (chars noinlineMarker ++ (chars function ++ Piece.char d :: V)), ?_, ?_, ?_⟩
    · rw [render_append, render_append, hbehind, render_chars]
    · have hcolon : ':' ∉ noinlineMarker ++ function := fun hmem =>
        (List.mem_append.mp hmem).elim (absurd · (by decide))
          (fun hmem => absurd (hplain _ hmem (by decide)) (by decide))
      simp only [skeleton_append, skeleton_chars, skeleton_cons, Piece.letter_char] at hlabels ⊢
      rw [← List.append_assoc, siteLabels_separator hd] at hlabels
      obtain ⟨hU, hV⟩ := List.append_eq_nil_iff.mp hlabels
      rw [← List.append_assoc noinlineMarker, ← List.append_assoc, siteLabels_separator hd, hV,
        List.append_nil]
      exact (labelsFrom_noColon hcolon _ _ _).trans (siteLabels_eq_nil_of_append hU)
    · simp only [marks_append, marks_chars, List.nil_append]

/-! ### Intervals -/

theorem marks_split {T : List Piece} {p : PreciseSite} (h : p ∈ marks T) :
    ∃ U V, T = U ++ Piece.mark p :: V := by
  obtain ⟨a, ha, hsite⟩ := List.mem_filterMap.mp h
  cases a with
  | char c => cases hsite
  | mark q =>
    obtain rfl : q = p := Option.some.inj hsite
    exact List.append_of_mem ha

/-- From the begin label of a row to its end label. -/
def SiteEntry.interval (row : SiteEntry) : Str := siteInterval row.beginSymbol row.endSymbol

/-- The intervals of two rows stand one behind the other. -/
def IntervalsApart (text : Str) (row row' : SiteEntry) : Prop :=
  ∃ u v w, text = u ++ (row.interval ++ (v ++ (row'.interval ++ w))) ∨
    text = u ++ (row'.interval ++ (v ++ (row.interval ++ w)))

def PreciseSite.entry (p : PreciseSite) : SiteEntry := siteEntry p.siteId p.allocation

theorem mark_eq (p : PreciseSite) : p.mark =
    markHead (siteSymbols p.allocation p.siteId).1 ++ (p.entry.interval ++ markTail) := rfl

theorem render_interval {T : List Piece} {p : PreciseSite} (h : p ∈ marks T) :
    ∃ u v, render T = u ++ p.entry.interval ++ v := by
  obtain ⟨U, V, rfl⟩ := marks_split h
  refine ⟨render U ++ markHead (siteSymbols p.allocation p.siteId).1, markTail ++ render V, ?_⟩
  rw [render_append, render_cons, Piece.text_mark, mark_eq]
  simp only [List.append_assoc]

/-- **The intervals of two sites do not overlap.** -/
theorem render_apart {T : List Piece} {p q : PreciseSite} (hp : p ∈ marks T) (hq : q ∈ marks T)
    (hne : p ≠ q) : IntervalsApart (render T) p.entry q.entry := by
  obtain ⟨U, V, rfl⟩ := marks_split hp
  rw [marks_append, marks_mark] at hq
  rcases List.mem_append.mp hq with hq | hq
  · obtain ⟨u, v, hU⟩ := render_interval hq
    refine ⟨u, v ++ markHead (siteSymbols p.allocation p.siteId).1, markTail ++ render V,
      Or.inr ?_⟩
    rw [render_append, render_cons, Piece.text_mark, mark_eq, hU]
    simp only [List.append_assoc]
  · have hq : q ∈ marks V := (List.mem_cons.mp hq).resolve_left (fun h => hne h.symm)
    obtain ⟨u, v, hV⟩ := render_interval hq
    refine ⟨render U ++ markHead (siteSymbols p.allocation p.siteId).1, markTail ++ u, v,
      Or.inl ?_⟩
    rw [render_append, render_cons, Piece.text_mark, mark_eq, hV]
    simp only [List.append_assoc]

theorem labels_eq_labelPair (p : PreciseSite) :
    p.labels = labelPair p.siteId (symbol p.allocation.function) := rfl

theorem nodup_labels {sites : List PreciseSite}
    (h : sites.Pairwise (fun p q => p.siteId < q.siteId)) :
    (sites.flatMap PreciseSite.labels).Nodup := by
  rw [List.nodup_flatMap]
  refine ⟨fun p _ => ?_, h.imp (fun hlt m hp hq => ?_)⟩
  · rw [labels_eq_labelPair, labelPair, List.nodup_cons, List.mem_singleton]
    exact ⟨label_begin_ne_end _ _ _ _, List.nodup_singleton _⟩
  · rw [labels_eq_labelPair] at hp hq
    have heq := (mem_labelPair hp hq).1
    omega

/-- **What `generate` does to a source**, when every allocation has a site. -/
theorem generate_pieces {isWord : Char → Bool} {policy : Policy} {source : Str}
    {out : Str × UHeader × THeader} (gen : Generated isWord policy source out)
    (hsites : ∀ a ∈ policy.allocations, a.site.isSome = true)
    (hnames : ∀ a ∈ policy.allocations, PlainName a.function) (hnone : siteLabels source = []) :
    out.2.2.sites = (preciseSites 1 policy.allocations).map PreciseSite.entry ∧
    (∃ T, out.1 = render T ∧ siteLabels (skeleton T) = [] ∧
      (marks T).Perm (preciseSites 1 policy.allocations)) ∧
    ∀ p ∈ preciseSites 1 policy.allocations,
      SiteReplaced isWord source (rewriteOrder (preciseSites 1 policy.allocations)) p := by
  obtain ⟨replaced, marked, hreplaced, hmarked, hfinal⟩ := gen.text
  obtain ⟨⟨T, rfl, hT⟩, hall⟩ := marked_run hnone hreplaced
  refine ⟨congrArg THeader.sites gen.tHeader, ?_, hall⟩
  have hlegacy : policy.allocations.filter (fun a => a.site.isNone) = [] := by
    refine List.filter_eq_nil_iff.mpr (fun a ha hnone => ?_)
    have hsome := hsites a ha
    rw [Option.isNone_iff_eq_none.mp hnone] at hsome
    cases hsome
  rw [hlegacy] at hfinal
  cases hfinal
  have hplain : ∀ f ∈ preciseFunctions (preciseSites 1 policy.allocations), PlainName f := by
    intro f hf
    obtain ⟨p, hp, rfl⟩ := List.mem_map.mp
      (List.mem_dedup.mp ((List.perm_insertionSort _ _).mem_iff.mp hf))
    obtain ⟨i, hi⟩ := List.getElem?_of_mem hp
    exact hnames _ (List.mem_of_getElem? (preciseSites_getElem? hsites hi).2.1)
  have hstep : ∀ done f rest s s', preciseFunctions (preciseSites 1 policy.allocations) =
      done ++ f :: rest → (∃ T', s = render T' ∧ siteLabels (skeleton T') = [] ∧
        (marks T').Perm (preciseSites 1 policy.allocations)) →
      markPreciseFunctionNoinline isWord s f = .ok s' →
      ∃ T', s' = render T' ∧ siteLabels (skeleton T') = [] ∧
        (marks T').Perm (preciseSites 1 policy.allocations) := by
    rintro done f rest _ s' hwhole ⟨T', rfl, hlabels, hperm⟩ hs'
    have hf : f ∈ preciseFunctions (preciseSites 1 policy.allocations) := by
      rw [hwhole]
      exact List.mem_append_right _ List.mem_cons_self
    obtain ⟨T'', rfl, hlabels', hmarks⟩ := noinline_pieces (hplain f hf) hlabels hs'
    exact ⟨T'', rfl, hlabels', by rwa [hmarks]⟩
  exact fold_rule (P := fun _ s => ∃ T', s = render T' ∧ siteLabels (skeleton T') = [] ∧
    (marks T').Perm (preciseSites 1 policy.allocations)) hstep (List.nil_append _).symm
    ⟨T, rfl, hT.labels, hT.marks.trans (rewriteOrder_perm _)⟩ hmarked

/-- **The intervals of the sites are disjoint.**  The source defines no label of a site, every
allocation has a site, and the ASCII characters of the function names are letters, digits and
underscores.  Then the labels of the table are defined once each and no other is, the two of a
row one behind the other; between them stands one invocation of the allocator and nothing
that depends on the size; the intervals of two rows do not overlap; and row `i` is that of
allocation `i`, its interval in what replaces the call at the position of that allocation. -/
theorem site_intervals {isWord : Char → Bool} {policy : Policy} {source : Str}
    {out : Str × UHeader × THeader} (hout : generate isWord policy source = .ok out)
    (hsites : ∀ a ∈ policy.allocations, a.site.isSome = true)
    (hnames : ∀ a ∈ policy.allocations, PlainName a.function) (hnone : siteLabels source = []) :
    (siteLabels out.1).Nodup ∧
    (∃ rows : List SiteEntry, rows.Perm out.2.2.sites ∧
      siteLabels out.1 = rows.flatMap (fun row => [row.beginSymbol, row.endSymbol])) ∧
    (∀ row ∈ out.2.2.sites, (∃ u v, out.1 = u ++ row.interval ++ v) ∧
      occurrences allocatorCall (siteBetween row.endSymbol) = 1) ∧
    out.2.2.sites.Pairwise (IntervalsApart out.1) ∧
    ∀ (i : Nat) (row : SiteEntry), out.2.2.sites[i]? = some row →
      ∃ a site, policy.allocations[i]? = some a ∧ a.site = some site ∧
        row = siteEntry (i + 1) a ∧
        SiteReplaced isWord source (rewriteOrder (preciseSites 1 policy.allocations))
          ⟨i + 1, a, site⟩ := by
  obtain ⟨htable, ⟨T, htext, hskeleton, hmarks⟩, hall⟩ :=
    generate_pieces (generate_ok hout) hsites hnames hnone
  have hlabels : siteLabels out.1 = (marks T).flatMap PreciseSite.labels := by
    rw [htext]
    exact labelsFrom_render hskeleton
  rw [htable]
  refine ⟨?_, ⟨(marks T).map PreciseSite.entry, hmarks.map _, ?_⟩, ?_, ?_, ?_⟩
  · rw [hlabels]
    exact (hmarks.flatMap_right _).nodup_iff.mpr (nodup_labels preciseSites_pairwise)
  · rw [hlabels, List.flatMap_map]
    rfl
  · intro row hrow
    obtain ⟨p, hp, rfl⟩ := List.mem_map.mp hrow
    rw [htext]
    exact ⟨render_interval (hmarks.mem_iff.mpr hp),
      occurrences_siteBetween (siteSymbols_isName _ _).2⟩
  · rw [List.pairwise_map, htext]
    refine List.Pairwise.imp_of_mem (fun hp hq hlt => ?_) preciseSites_pairwise
    refine render_apart (hmarks.mem_iff.mpr hp) (hmarks.mem_iff.mpr hq) (fun heq => ?_)
    rw [heq] at hlt
    exact Nat.lt_irrefl _ hlt
  · intro i row hrow
    rw [List.getElem?_map] at hrow
    obtain ⟨p, hp, rfl⟩ := Option.map_eq_some_iff.mp hrow
    obtain ⟨hid, ha, hsite⟩ := preciseSites_getElem? hsites hp
    rw [Nat.add_comm] at hid
    refine ⟨p.allocation, p.site, ha, hsite, ?_, ?_⟩
    · rw [PreciseSite.entry, hid]
    · have hp' := hall p (List.mem_of_getElem? hp)
      rwa [show p = ⟨i + 1, p.allocation, p.site⟩ from by rw [← hid]] at hp'

/-- A call in the size of another. -/
def nestedSource : Str :=
  "char* f(int n)\x7b\n  return malloc(".toList ++ "\n    malloc(8) + n);\n\x7d\n".toList

def nestedPolicy : Policy where
  types := ["node".toList]
  allocations := [⟨"f".toList, "node".toList, some ⟨2, 10, 2, 15⟩⟩,
    ⟨"f".toList, "node".toList, some ⟨3, 5, 3, 13⟩⟩]
  uses := []

theorem site_intervals_nested : ∃ out, generate asciiWord nestedPolicy nestedSource = .ok out ∧
    (siteLabels out.1).Nodup ∧ out.2.2.sites.Pairwise (IntervalsApart out.1) := by
  obtain ⟨out, hout⟩ : ∃ out, generate asciiWord nestedPolicy nestedSource = .ok out := by
    have hrun : (generate asciiWord nestedPolicy nestedSource).isOk = true := by decide +kernel
    cases hout : generate asciiWord nestedPolicy nestedSource with
    | error e =>
      rw [hout] at hrun
      cases hrun
    | ok out => exact ⟨out, rfl⟩
  have hplain : PlainName "f".toList := by
    intro c hc _
    rw [List.mem_singleton.mp hc]
    rfl
  have hall : ∀ a ∈ nestedPolicy.allocations, a.site.isSome = true ∧ PlainName a.function := by
    intro a ha
    rcases List.mem_pair.mp ha with rfl | rfl
    · exact ⟨rfl, hplain⟩
    · exact ⟨rfl, hplain⟩
  obtain ⟨hnodup, -, -, hapart, -⟩ := site_intervals hout (fun a ha => (hall a ha).1)
    (fun a ha => (hall a ha).2) (by decide)
  exact ⟨out, hout, hnodup, hapart⟩

/-- A name that is the text behind the end label of a mark. -/
def oddName : Str :=
  ":\x22 ::: \x22memory\x22); (void*)(uintptr_t)__interspec_ptr; \x7d)".toList

def oddSource : Str :=
  "g()\x7b malloc(8)(x)\x7b \x7d \x7d\na".toList ++ oddName ++ "(x)\x7b malloc(8); \x7d".toList

def oddPolicy : Policy where
  types := ["node".toList]
  allocations := [⟨"g".toList, "node".toList, some ⟨1, 6, 1, 11⟩⟩,
    ⟨oddName, "node".toList, some ⟨2, 62, 2, 67⟩⟩]
  uses := []

/-- **A label that is not defined.**  The marker of the second function is put between the
end label of the first site and its colon. -/
theorem end_label_lost : siteLabels oddSource = [] ∧
    (∀ a ∈ oddPolicy.allocations, a.site.isSome = true) ∧
    ∃ out, generate asciiWord oddPolicy oddSource = .ok out ∧
      ∃ row ∈ out.2.2.sites, row.endSymbol ∉ siteLabels out.1 := by
  have hrun : (generate asciiWord oddPolicy oddSource).toOption.any (fun out =>
      out.2.2.sites.any (fun row => decide (row.endSymbol ∉ siteLabels out.1))) = true := by
    decide +kernel
  refine ⟨by decide +kernel, by decide, ?_⟩
  cases hout : generate asciiWord oddPolicy oddSource with
  | error e =>
    rw [hout] at hrun
    cases hrun
  | ok out =>
    rw [hout] at hrun
    obtain ⟨row, hrow, hlost⟩ := List.any_eq_true.mp hrun
    exact ⟨out, rfl, row, hrow, of_decide_eq_true hlost⟩

end InterSpec.Tools
