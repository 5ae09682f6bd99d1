import InterSpec.Tools.Calls
import InterSpec.Tools.Functions

/-!
# Sites in a text

Where a site is, which call it selects, and in which order the sites are rewritten.

* `rewriteOrder_pairwise`: no site starts before one that is rewritten later.
* `siteAnchor_agree`, `mallocCallExtent_agree`, `selectedCall_agree`: an anchor and a call
  are settled by the text up to their ends, and by the braces behind it.
* `siteAnchor_le`: the order of positions is the order of offsets.
-/

namespace InterSpec.Tools

open Fallible

/-! ### The order of rewriting -/

instance totalNotBefore : Std.Total NotBefore where
  total x y := by
    unfold NotBefore
    omega

instance transNotBefore : IsTrans PreciseSite NotBefore where
  trans x y z hxy hyz := by
    unfold NotBefore at *
    omega

theorem rewriteOrder_perm (sites : List PreciseSite) : (rewriteOrder sites).Perm sites :=
  List.perm_insertionSort NotBefore sites

theorem rewriteOrder_pairwise (sites : List PreciseSite) :
    (rewriteOrder sites).Pairwise NotBefore :=
  List.pairwise_insertionSort NotBefore sites

/-! ### Numbers -/

theorem le_siteId {l : List PolicyAllocation} : ∀ {k : Nat}, ∀ p ∈ preciseSites k l,
    k ≤ p.siteId := by
  induction l with
  | nil => intro k; exact nofun
  | cons a l ih =>
    intro k p hp
    rw [preciseSites] at hp
    split at hp
    · rcases List.mem_cons.mp hp with rfl | hp
      · exact Nat.le_refl k
      · exact Nat.le_of_succ_le (ih p hp)
    · exact ih p hp

theorem preciseSites_pairwise {l : List PolicyAllocation} : ∀ {k : Nat},
    (preciseSites k l).Pairwise (fun p q => p.siteId < q.siteId) := by
  induction l with
  | nil => intro k; exact List.Pairwise.nil
  | cons a l ih =>
    intro k
    rw [preciseSites]
    split
    · exact List.pairwise_cons.mpr ⟨fun p hp => le_siteId p hp, ih⟩
    · exact ih

/-- When every allocation has a site, they stand where their allocations do. -/
theorem preciseSites_getElem? {l : List PolicyAllocation} : ∀ {k : Nat},
    (∀ a ∈ l, a.site.isSome = true) → ∀ {i : Nat} {p : PreciseSite},
      (preciseSites k l)[i]? = some p →
        p.siteId = k + i ∧ l[i]? = some p.allocation ∧ p.allocation.site = some p.site := by
  induction l with
  | nil => intro k _ i p h; cases h
  | cons a l ih =>
    intro k hsome i p h
    obtain ⟨ha, hl⟩ := List.forall_mem_cons.mp hsome
    rw [preciseSites] at h
    obtain ⟨site, hsite⟩ := Option.isSome_iff_exists.mp ha
    rw [hsite] at h
    cases i with
    | zero =>
      cases h
      exact ⟨rfl, rfl, hsite⟩
    | succ i =>
      obtain ⟨hid, hget, hsome⟩ := ih hl h
      exact ⟨by omega, hget, hsome⟩

/-! ### Anchors -/

theorem siteAnchor_eq_ok {source : Str} {site : SourceSpan} {anchor : Nat × Nat} :
    siteAnchor source site = .ok anchor ↔
      sourceOffset source site.startLine site.startColumn false = .ok anchor.1 ∧
      sourceOffset source site.endLine site.endColumn true = .ok anchor.2 := by
  unfold siteAnchor
  rw [bind_eq_ok]
  constructor
  · rintro ⟨a, ha, h⟩
    obtain ⟨b, hb, h⟩ := bind_eq_ok.mp h
    cases h
    exact ⟨ha, hb⟩
  · rintro ⟨ha, hb⟩
    exact ⟨anchor.1, ha, bind_eq_ok.mpr ⟨anchor.2, hb, rfl⟩⟩

theorem siteAnchor_agree {n : Nat} {s t : Str} (h : AgreeTo n s t) {site : SourceSpan}
    {anchor : Nat × Nat} (hok : siteAnchor s site = .ok anchor) (hstart : anchor.1 ≤ n)
    (hend : anchor.2 ≤ n) : siteAnchor t site = .ok anchor := by
  obtain ⟨h₁, h₂⟩ := siteAnchor_eq_ok.mp hok
  exact siteAnchor_eq_ok.mpr ⟨sourceOffset_agree h h₁ hstart, sourceOffset_agree h h₂ hend⟩

theorem sourceOffset_notBefore {source : Str} {p q : PreciseSite} (h : NotBefore q p) {a b : Nat}
    (ha : sourceOffset source p.site.startLine p.site.startColumn false = .ok a)
    (hb : sourceOffset source q.site.startLine q.site.startColumn false = .ok b) : a ≤ b :=
  sourceOffset_le ha hb h

/-! ### Calls -/

theorem AgreeTo.take {n : Nat} {s t : Str} (h : AgreeTo n s t) : s.take n = t.take n := by
  obtain ⟨x, c, y, c', y', rfl, rfl, hn, -⟩ := h
  rw [List.take_left' hn, List.take_left' hn]

theorem AgreeTo.slice {n : Nat} {s t : Str} (h : AgreeTo n s t) (a : Nat) {b : Nat} (hb : b ≤ n) :
    slice s a b = slice t a b := by
  have htake : s.take b = t.take b := by
    rw [← Nat.min_eq_left hb, ← List.take_take, ← List.take_take, h.take]
  rw [InterSpec.Tools.slice, InterSpec.Tools.slice, htake]

/-- **A call is settled by the text up to its end** and the end of the span. -/
theorem mallocCallExtent_agree {n : Nat} {s t : Str} (h : AgreeTo n s t) {a e : Nat}
    {call : Nat × Nat × Str} (hok : mallocCallExtent s a e = .ok call) (hcall : call.2.1 ≤ n)
    (he : e ≤ n) : mallocCallExtent t a e = .ok call := by
  obtain ⟨x, gap, raw, y, rfl, rfl, hgap, hraw⟩ := mallocCallExtent_split hok
  obtain ⟨hname, hempty, hspan, rfl⟩ := (mallocCallExtent_callText y hgap hraw).mp hok
  have hslice := h.slice (x.length + (callText gap raw).length) he
  obtain ⟨u, c, v, c', v', hs, rfl, hn, -⟩ := h
  obtain ⟨z, hz, -⟩ := split_of_length_le hs (by rw [List.length_append, hn]; exact hcall)
  rw [hz, List.append_assoc _ z] at hslice ⊢
  rw [hslice] at hspan
  exact (mallocCallExtent_callText _ hgap hraw).mpr ⟨hname, hempty, hspan, rfl⟩

theorem mallocCallExtent_bounds {source : Str} {a e : Nat} {call : Nat × Nat × Str}
    (h : mallocCallExtent source a e = .ok call) :
    call.1 = a ∧ a < e ∧ a < call.2.1 ∧ call.2.1 ≤ source.length := by
  obtain ⟨x, gap, raw, y, rfl, rfl, hgap, hraw⟩ := mallocCallExtent_split h
  obtain ⟨hname, hempty, hspan, rfl⟩ := (mallocCallExtent_callText y hgap hraw).mp h
  have hpos : 0 < "malloc".toList.length := by decide
  have hlen := length_callText gap raw
  refine ⟨rfl, by omega, ?_, ?_⟩
  · show x.length < x.length + (callText gap raw).length
    omega
  · show x.length + (callText gap raw).length ≤ _
    rw [List.length_append, List.length_append]
    omega

theorem selectedCall_eq_ok {isWord : Char → Bool} {source function : Str} {anchor : Nat × Nat}
    {call : Nat × Nat × Str} : selectedCall isWord source function anchor = .ok call ↔
      ∃ body, functionBody isWord source function = .ok body ∧ body.1 ≤ anchor.1 ∧
        anchor.2 ≤ body.2 ∧ mallocCallExtent source anchor.1 anchor.2 = .ok call ∧
        call.2.1 ≤ body.2 := by
  unfold selectedCall
  rw [bind_eq_ok]
  refine exists_congr (fun body => and_congr_right (fun _ => ?_))
  constructor
  · intro h
    obtain ⟨_, hspan, h⟩ := bind_eq_ok.mp h
    obtain ⟨c, hc, h⟩ := bind_eq_ok.mp h
    obtain ⟨_, hend, h⟩ := bind_eq_ok.mp h
    cases h
    exact ⟨(ensure_eq_ok.mp hspan).1, (ensure_eq_ok.mp hspan).2, hc, ensure_eq_ok.mp hend⟩
  · rintro ⟨h₁, h₂, hc, hend⟩
    exact bind_eq_ok.mpr ⟨(), ensure_eq_ok.mpr ⟨h₁, h₂⟩, bind_eq_ok.mpr ⟨call, hc,
      bind_eq_ok.mpr ⟨(), ensure_eq_ok.mpr hend, rfl⟩⟩⟩

/-- **Whether a site is accepted** is settled by the text up to the end of its call and its
span, and by the braces behind that. -/
theorem selectedCall_agree {isWord : Char → Bool} {n : Nat} {s t function : Str}
    (h : AgreeTo n s t) (hbraces : s.filter isBrace = t.filter isBrace) {anchor : Nat × Nat}
    {call : Nat × Nat × Str} (hok : selectedCall isWord s function anchor = .ok call)
    (hcall : call.2.1 ≤ n) (hend : anchor.2 ≤ n) :
    selectedCall isWord t function anchor = .ok call := by
  obtain ⟨body, hbody, hstart, hspan, hextent, hlast⟩ := selectedCall_eq_ok.mp hok
  have hbounds := mallocCallExtent_bounds hextent
  obtain ⟨body', hbody', hfirst, hmax⟩ := functionBody_agree (m := max anchor.2 call.2.1) h hbraces
    hbody (by omega) (by omega) (by omega)
  exact selectedCall_eq_ok.mpr ⟨body', hbody', by omega, by omega,
    mallocCallExtent_agree h hextent hcall hend, by omega⟩

end InterSpec.Tools
