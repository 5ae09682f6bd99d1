import InterSpec.Tools.Balanced

/-!
# The calls that are accepted

`malloc_call_extent` is a scanner with five modes and one character of lookahead.  What it
accepts is a grammar: the name, white space, and balanced text between two parentheses.

* `IsCall`: the grammar.
* `mallocCallExtent_exact`: acceptance, the result, that it is the only one, and how far the
  scanner looks.
-/

namespace InterSpec.Tools

/-- The text begins with the call with the white space `gap` and the argument list `body`. -/
structure IsCall (gap body rest text : Str) : Prop where
  text_eq : text = callText gap body ++ rest
  space : ∀ c ∈ gap, isSpace c = true
  balanced : Balanced parens body
  not_blank : ∃ c ∈ body, isSpace c = false

theorem strip_eq_nil {s : Str} : strip s = [] ↔ ∀ c ∈ s, isSpace c = true := by
  constructor
  · intro h
    obtain ⟨w, w', hs, hw, hw'⟩ := strip_split s
    rw [h, List.nil_append] at hs
    rw [hs]
    intro c hc
    rcases List.mem_append.mp hc with hc | hc
    · exact hw c hc
    · exact hw' c hc
  · intro h
    rw [strip, List.dropWhile_eq_nil_iff.mpr h]
    rfl

theorem strip_ne_nil {s : Str} : strip s ≠ [] ↔ ∃ c ∈ s, isSpace c = false := by
  rw [ne_eq, strip_eq_nil]
  simp

/-- **A text begins with a call in one way only.** -/
theorem IsCall.unique {gap body rest gap' body' rest' text : Str} (h : IsCall gap body rest text)
    (h' : IsCall gap' body' rest' text) : gap = gap' ∧ body = body' ∧ rest = rest' := by
  have htext := h.text_eq.symm.trans h'.text_eq
  rw [callText_append, callText_append] at htext
  have hgap := List.append_cancel_left htext
  have hfirst : gap = gap' := by
    rw [← takeWhile_gap h.space (body ++ ')' :: rest), hgap, takeWhile_gap h'.space]
  subst hfirst
  obtain ⟨hbody, hrest⟩ := h.balanced.unique (b := parens) h'.balanced
    (List.cons.inj (List.append_cancel_left hgap)).2
  exact ⟨rfl, hbody, hrest⟩

/-- The call is selected by the span up to `stop`, and this is the result. -/
structure Selected (source : Str) (start stop : Nat) (gap body : Str) (call : Nat × Nat × Str) :
    Prop where
  result : call = (start, start + (callText gap body).length, strip body)
  behind : stop ≤ call.2.1 ∨ ∀ c ∈ slice source call.2.1 stop, isSpace c = true

theorem slice_of_le {s : Str} {start stop : Nat} (h : stop ≤ start) : slice s start stop = [] := by
  rw [slice, List.drop_eq_nil_of_le (by rw [List.length_take]; omega)]

theorem mallocCallExtent_eq_ok {source : Str} {start stop : Nat} {call : Nat × Nat × Str} :
    mallocCallExtent source start stop = .ok call ↔ start + 6 ≤ stop ∧ ∃ gap body rest,
      IsCall gap body rest (source.drop start) ∧ Selected source start stop gap body call := by
  have hname : "malloc".toList.length = 6 := rfl
  constructor
  · intro h
    obtain ⟨x, gap, body, rest, rfl, rfl, hgap, hbody⟩ := mallocCallExtent_split h
    obtain ⟨hstop, hne, hbehind, rfl⟩ := (mallocCallExtent_callText rest hgap hbody).mp h
    refine ⟨hstop, gap, body, rest, ⟨?_, hgap, closes_iff.mp hbody, strip_ne_nil.mp hne⟩, rfl,
      .inr (strip_eq_nil.mp hbehind)⟩
    rw [List.append_assoc, List.drop_left]
  · rintro ⟨hstop, gap, body, rest, hcall, hselected⟩
    -- the anchor lies in the text, since a call begins there
    have hlt : start < source.length := by
      by_contra hle
      have htext := hcall.text_eq
      rw [List.drop_eq_nil_of_le (by omega), callText_append] at htext
      exact absurd htext nofun
    have hlen : (source.take start).length = start := by rw [List.length_take]; omega
    have hsource : source = source.take start ++ callText gap body ++ rest := by
      rw [List.append_assoc, ← hcall.text_eq, List.take_append_drop]
    have hcalled := @mallocCallExtent_callText (source.take start) gap body rest stop call
      hcall.space (closes_iff.mpr hcall.balanced)
    rw [← hsource, hlen] at hcalled
    refine hcalled.mpr ⟨by rw [hname]; exact hstop, strip_ne_nil.mpr hcall.not_blank, ?_,
      hselected.result⟩
    have hbehind := hselected.behind
    rw [hselected.result] at hbehind
    rcases hbehind with hle | hspace
    · rw [slice_of_le hle]
      rfl
    · exact strip_eq_nil.mpr hspace

/-- **The scanner accepts its grammar.**  For an anchor `[start, stop)` it succeeds exactly
when the anchor covers the name, the text at it begins with a call, whose argument list is
balanced and not blank, and nothing but white space lies between the call and the end of
the anchor; the result is the start, the end and the stripped argument of that call.  The
text begins with a call in one way only.  What lies behind both the call and the anchor does
not matter. -/
theorem mallocCallExtent_exact (source : Str) (start stop : Nat) :
    (∀ call, mallocCallExtent source start stop = .ok call ↔ start + 6 ≤ stop ∧
      ∃ gap body rest, IsCall gap body rest (source.drop start) ∧
        Selected source start stop gap body call) ∧
    (∀ gap body rest gap' body' rest', IsCall gap body rest (source.drop start) →
      IsCall gap' body' rest' (source.drop start) → gap = gap' ∧ body = body' ∧ rest = rest') ∧
    (∀ call, mallocCallExtent source start stop = .ok call → ∀ other : Str,
      other.take (max stop call.2.1) = source.take (max stop call.2.1) →
      mallocCallExtent other start stop = .ok call) := by
  refine ⟨fun call => mallocCallExtent_eq_ok, fun _ _ _ _ _ _ h h' => h.unique h',
    fun call hcall other hother => ?_⟩
  obtain ⟨hstop, gap, body, rest, his, hselected⟩ := mallocCallExtent_eq_ok.mp hcall
  have htake : ∀ n, n ≤ max stop call.2.1 → other.take n = source.take n := fun n hn => by
    rw [← Nat.min_eq_left hn, ← List.take_take, hother, List.take_take]
  have hend : call.2.1 = start + (callText gap body).length := by rw [hselected.result]
  refine mallocCallExtent_eq_ok.mpr ⟨hstop, gap, body, other.drop call.2.1,
    ⟨?_, his.space, his.balanced, his.not_blank⟩, hselected.result, ?_⟩
  · -- up to the end of the call the two texts agree
    have hagree : (other.drop start).take (callText gap body).length =
        (source.drop start).take (callText gap body).length := by
      rw [List.take_drop, List.take_drop, ← hend, htake _ (Nat.le_max_right _ _)]
    have hhead : (other.drop start).take (callText gap body).length = callText gap body := by
      rw [hagree, his.text_eq, List.take_left]
    conv_lhs => rw [← List.take_append_drop (callText gap body).length (other.drop start)]
    rw [hhead, List.drop_drop, hend]
  · refine hselected.behind.imp id (fun hspace => ?_)
    rw [slice, htake _ (Nat.le_max_left _ _)]
    exact hspace

end InterSpec.Tools
