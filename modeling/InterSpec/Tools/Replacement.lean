import InterSpec.Data.Splice
import InterSpec.Tools.Accepted
import InterSpec.Tools.Anchors
import Mathlib.Logic.Equiv.Basic

/-!
# Instrumentation as one replacement

The import based generator rewrites its sites one after another, each in the text that
the one before has left.  When the calls do not overlap, this is the replacement of all
calls of the original source at once.

* `siteCall`, `siteEdits`: the calls in the original source, and what replaces them.
* `Rewritten`: the invariant of the loop.  Only text behind the sites that are still to
  be rewritten has changed, and its braces are those of the source.
* `Rewritten.step`, `rewritten_run`: one site, and the loop.
-/

namespace InterSpec.Tools

open Fallible Splice

/-! ### Calls in the original source -/

/-- The call at a site, wherever it is. -/
def siteCall (source : Str) (site : SourceSpan) : Except PolicyError (Nat × Nat × Str) := do
  let anchor ← siteAnchor source site
  mallocCallExtent source anchor.1 anchor.2

theorem siteCall_eq_ok {source : Str} {site : SourceSpan} {call : Nat × Nat × Str} :
    siteCall source site = .ok call ↔ ∃ anchor, siteAnchor source site = .ok anchor ∧
      mallocCallExtent source anchor.1 anchor.2 = .ok call :=
  bind_eq_ok

/-- The call of the import of a site. -/
def importCall (namespaceName : Str) (localSiteId : Nat) (argument : Str) : Str :=
  "(void*)(uintptr_t)".toList ++ siteCName namespaceName localSiteId ++
    "((uint32_t)(".toList ++ argument ++ "))".toList

def callEdit (namespaceName : Str) (localSiteId : Nat) (call : Nat × Nat × Str) : Edit Char where
  start := call.1
  stop := call.2.1
  new := importCall namespaceName localSiteId call.2.2

/-- Every call of the original source that a site selects, with its import call. -/
def siteEdits (source namespaceName : Str) (sites : List PreciseSite) : List (Edit Char) :=
  sites.filterMap (fun p => (siteCall source p.site).toOption.map
    (callEdit namespaceName p.siteId))

/-- The calls of two sites do not overlap. -/
def CallsApart (source : Str) (p q : PreciseSite) : Prop :=
  ∀ c d, siteCall source p.site = .ok c → siteCall source q.site = .ok d →
    c.2.1 ≤ d.1 ∨ d.2.1 ≤ c.1

/-- `instrument_site` accepts the site on the text. -/
def SiteAccepted (isWord : Char → Bool) (source namespaceName : Str) (p : PreciseSite) : Prop :=
  ∃ t, instrumentWasmSite isWord source p.allocation p.site p.siteId namespaceName = .ok t

theorem CallsApart.symm {source : Str} {p q : PreciseSite} (h : CallsApart source p q) :
    CallsApart source q p :=
  fun c d hc hd => (h d c hd hc).symm

theorem siteCall_bounds {source : Str} {site : SourceSpan} {call : Nat × Nat × Str}
    (h : siteCall source site = .ok call) : call.1 < call.2.1 ∧ call.2.1 ≤ source.length := by
  obtain ⟨anchor, -, hc⟩ := siteCall_eq_ok.mp h
  have hbounds := mallocCallExtent_bounds hc
  omega

theorem mem_siteEdits {source namespaceName : Str} {sites : List PreciseSite} {e : Edit Char}
    (h : e ∈ siteEdits source namespaceName sites) : ∃ p ∈ sites, ∃ call,
      siteCall source p.site = .ok call ∧ e = callEdit namespaceName p.siteId call := by
  obtain ⟨p, hp, he⟩ := List.mem_filterMap.mp h
  cases hc : siteCall source p.site with
  | error _ => rw [hc] at he; cases he
  | ok call =>
    rw [hc] at he
    exact ⟨p, hp, call, hc, (Option.some.inj he).symm⟩

theorem siteEdits_cons {source namespaceName : Str} {p : PreciseSite} {sites : List PreciseSite}
    {call : Nat × Nat × Str} (h : siteCall source p.site = .ok call) :
    siteEdits source namespaceName (p :: sites) =
      callEdit namespaceName p.siteId call :: siteEdits source namespaceName sites := by
  rw [siteEdits, List.filterMap_cons, h]
  rfl

theorem instrumentWasmSite_eq_ok {isWord : Char → Bool} {source namespaceName t : Str}
    {allocation : PolicyAllocation} {site : SourceSpan} {localSiteId : Nat} :
    instrumentWasmSite isWord source allocation site localSiteId namespaceName = .ok t ↔
      ∃ anchor call, siteAnchor source site = .ok anchor ∧
        selectedCall isWord source allocation.function anchor = .ok call ∧
        t = (callEdit namespaceName localSiteId call).apply source := by
  unfold instrumentWasmSite
  rw [bind_eq_ok]
  refine exists_congr (fun anchor => ?_)
  rw [bind_eq_ok]
  constructor
  · rintro ⟨ha, call, hcall, h⟩
    exact ⟨call, ha, hcall, (Except.ok.inj h).symm⟩
  · rintro ⟨call, ha, hcall, rfl⟩
    exact ⟨ha, call, hcall, rfl⟩

theorem SiteAccepted.call {isWord : Char → Bool} {source namespaceName : Str} {p : PreciseSite}
    (h : SiteAccepted isWord source namespaceName p) :
    ∃ call, siteCall source p.site = .ok call := by
  obtain ⟨t, ht⟩ := h
  obtain ⟨anchor, call, hanchor, hcall, -⟩ := instrumentWasmSite_eq_ok.mp ht
  obtain ⟨_, -, -, -, hextent, -⟩ := selectedCall_eq_ok.mp hcall
  exact ⟨call, siteCall_eq_ok.mpr ⟨anchor, hanchor, hextent⟩⟩

theorem CallsApart.le {source : Str} {p q : PreciseSite} (h : CallsApart source q p)
    (horder : NotBefore q p) {c d : Nat × Nat × Str} (hc : siteCall source p.site = .ok c)
    (hd : siteCall source q.site = .ok d) : c.2.1 ≤ d.1 := by
  obtain ⟨a, ha, hca⟩ := siteCall_eq_ok.mp hc
  obtain ⟨b, hb, hdb⟩ := siteCall_eq_ok.mp hd
  have hca := mallocCallExtent_bounds hca
  have hdb := mallocCallExtent_bounds hdb
  have hle := sourceOffset_notBefore horder (siteAnchor_eq_ok.mp ha).1 (siteAnchor_eq_ok.mp hb).1
  rcases h d c hd hc with hlt | hlt
  · omega
  · exact hlt

/-! ### Braces -/

theorem filter_isBrace_of_isIdentChar {text : Str} (h : ∀ c ∈ text, isIdentChar c = true) :
    text.filter isBrace = [] := by
  rw [List.filter_eq_nil_iff]
  intro c hc
  have hno := isIdentChar_rule (p := fun c => !isBrace c) (by decide) (h c hc)
  rwa [Bool.not_eq_true', ← Bool.not_eq_true] at hno

theorem filter_isBrace_of_isSpace {text : Str} (h : ∀ c ∈ text, isSpace c = true) :
    text.filter isBrace = [] := by
  rw [List.filter_eq_nil_iff]
  rintro c hc hbrace
  rcases Bool.or_eq_true_iff.mp hbrace with hopen | hclose
  · rw [eq_of_beq hopen] at hc
    exact absurd (h _ hc) (by decide)
  · rw [eq_of_beq hclose] at hc
    exact absurd (h _ hc) (by decide)

theorem filter_isBrace_strip (text : Str) : (strip text).filter isBrace = text.filter isBrace := by
  obtain ⟨w, w', hsplit, hw, hw'⟩ := strip_split text
  conv_rhs => rw [hsplit]
  rw [List.filter_append, List.filter_append, filter_isBrace_of_isSpace hw,
    filter_isBrace_of_isSpace hw', List.nil_append, List.append_nil]

theorem isIdentChar_of_mem_siteCName {namespaceName : Str} {localSiteId : Nat} {c : Char}
    (h : c ∈ siteCName namespaceName localSiteId) : isIdentChar c = true := by
  have hlower : ∀ d, isIdentChar d = true → isIdentChar d.toLower = true :=
    fun d => isIdentChar_rule (p := fun d => isIdentChar d.toLower) (by decide)
  have hhead : "interspec_wasm_alloc_".toList.all isIdentChar = true := by decide
  have hmiddle : "_site_".toList.all isIdentChar = true := by decide
  unfold siteCName at h
  rcases List.mem_append.mp h with h | h
  · rcases List.mem_append.mp h with h | h
    · rcases List.mem_append.mp h with h | h
      · exact List.all_eq_true.mp hhead c h
      · obtain ⟨d, hd, rfl⟩ := List.mem_map.mp h
        exact hlower d (isIdentChar_of_mem_symbol hd)
    · exact List.all_eq_true.mp hmiddle c h
  · exact isIdentChar_of_mem_digits h

/-- **An import call has the braces of the call that it replaces.** -/
theorem filter_isBrace_importCall (namespaceName : Str) (localSiteId : Nat) {gap : Str}
    (hgap : ∀ c ∈ gap, isSpace c = true) (raw : Str) :
    (importCall namespaceName localSiteId (strip raw)).filter isBrace =
      (callText gap raw).filter isBrace := by
  have hcast : "(void*)(uintptr_t)".toList.filter isBrace = [] := by decide
  have hopen : "((uint32_t)(".toList.filter isBrace = [] := by decide
  have hclose : "))".toList.filter isBrace = [] := by decide
  have hname : "malloc".toList.filter isBrace = [] := by decide
  have hparen : [')'].filter isBrace = [] := by decide
  have himport : (importCall namespaceName localSiteId (strip raw)).filter isBrace =
      raw.filter isBrace := by
    unfold importCall
    rw [List.filter_append, List.filter_append, List.filter_append, List.filter_append, hcast,
      filter_isBrace_of_isIdentChar (fun _ => isIdentChar_of_mem_siteCName), hopen, hclose,
      filter_isBrace_strip, List.append_nil]
    rfl
  have hcall : (callText gap raw).filter isBrace = raw.filter isBrace := by
    unfold callText
    rw [List.filter_append, List.filter_append, List.filter_append, hname,
      filter_isBrace_of_isSpace hgap, List.filter_cons_of_neg (by decide), hparen,
      List.append_nil]
    rfl
  rw [himport, hcall]

/-! ### One site -/

/-- **The invariant of the loop**, after the sites `done`. -/
structure Rewritten (source namespaceName : Str) (done : List PreciseSite) (t : Str) : Prop where
  patched : t = patched (siteEdits source namespaceName done.reverse) source
  braces : source.filter isBrace = t.filter isBrace
  agree : ∀ q, done.getLast? = some q → ∃ call x y y', siteCall source q.site = .ok call ∧
    x.length = call.1 ∧ source = x ++ 'm' :: y ∧ t = x ++ '(' :: y'

theorem patched_nil (l : Str) : Splice.patched [] l = l :=
  patchedFrom_eq_self nofun

theorem Rewritten.start (source namespaceName : Str) :
    Rewritten source namespaceName [] source where
  patched := (patched_nil source).symm
  braces := rfl
  agree q hq := by cases hq

/-- A span ends before a character behind its call that is not white space. -/
theorem span_le {source : Str} {a e : Nat} {call : Nat × Nat × Str}
    (h : mallocCallExtent source a e = .ok call) {x y : Str} {c : Char} (hc : isSpace c = false)
    (hsource : source = x ++ c :: y) (hle : call.2.1 ≤ x.length) : e ≤ x.length := by
  obtain ⟨u, gap, raw, v, hsplit, rfl, hgap, hraw⟩ := mallocCallExtent_split h
  rw [hsplit] at h
  obtain ⟨-, -, hspan, rfl⟩ := (mallocCallExtent_callText v hgap hraw).mp h
  rw [← hsplit] at hspan
  have hle : u.length + (callText gap raw).length ≤ x.length := hle
  by_contra hlt
  obtain ⟨w, w', hstrip, hw, hw'⟩ := strip_split
    (slice source (u.length + (callText gap raw).length) e)
  rw [hspan, List.nil_append] at hstrip
  have hmem : c ∈ slice source (u.length + (callText gap raw).length) e := by
    refine List.mem_of_getElem? (i := x.length - (u.length + (callText gap raw).length)) ?_
    rw [slice, List.getElem?_drop, List.getElem?_take_of_lt (by omega), hsource,
      List.getElem?_append_right (by omega),
      show u.length + (callText gap raw).length +
        (x.length - (u.length + (callText gap raw).length)) - x.length = 0 from by omega]
    rfl
  rw [hstrip] at hmem
  rcases List.mem_append.mp hmem with hmem | hmem
  · exact Bool.noConfusion ((hw c hmem).symm.trans hc)
  · exact Bool.noConfusion ((hw' c hmem).symm.trans hc)

/-- A call before everything that has been rewritten is where it was, in the text that is
left. -/
theorem Rewritten.agreeTo {source namespaceName : Str} {done : List PreciseSite} {t : Str}
    (h : Rewritten source namespaceName done t) {anchor : Nat × Nat} {call : Nat × Nat × Str}
    (hcall : mallocCallExtent source anchor.1 anchor.2 = .ok call)
    (hbefore : ∀ q ∈ done, ∀ d, siteCall source q.site = .ok d → call.2.1 ≤ d.1) :
    t = source ∨ ∃ n, AgreeTo n source t ∧ anchor.1 ≤ n ∧ anchor.2 ≤ n ∧ call.2.1 ≤ n := by
  cases hlast : done.getLast? with
  | none =>
    rw [List.getLast?_eq_none_iff.mp hlast] at h
    exact Or.inl (h.patched.trans (patched_nil source))
  | some q =>
    obtain ⟨d, x, y, y', hd, hx, hsource, ht⟩ := h.agree q hlast
    have hle := hbefore q (List.mem_of_getLast? hlast) d hd
    have hbounds := mallocCallExtent_bounds hcall
    refine Or.inr ⟨d.1, ⟨x, 'm', y, '(', y', hsource, ht, hx, by decide, by decide⟩, by omega, ?_,
      hle⟩
    rw [← hx] at hle ⊢
    exact span_le hcall (by decide) hsource hle

theorem callEdit_apply (namespaceName : Str) (localSiteId : Nat) (x gap raw y : Str)
    (argument : Str) :
    (callEdit namespaceName localSiteId
      (x.length, x.length + (callText gap raw).length, argument)).apply
        (x ++ callText gap raw ++ y) = x ++ importCall namespaceName localSiteId argument ++ y := by
  have hdrop : (x ++ callText gap raw ++ y).drop (x.length + (callText gap raw).length) = y :=
    List.drop_left' (List.length_append)
  show (x ++ callText gap raw ++ y).take x.length ++
    importCall namespaceName localSiteId argument ++
    (x ++ callText gap raw ++ y).drop (x.length + (callText gap raw).length) = _
  rw [hdrop, List.append_assoc x, List.take_left]

/-- **One site.**  It is accepted in the text that is left exactly when it is in the source,
and what it replaces is its call in the source. -/
theorem Rewritten.step {source namespaceName : Str} {done : List PreciseSite} {t : Str}
    (h : Rewritten source namespaceName done t) (isWord : Char → Bool) {p : PreciseSite}
    {call : Nat × Nat × Str} (hcall : siteCall source p.site = .ok call)
    (hbefore : ∀ q ∈ done, ∀ d, siteCall source q.site = .ok d → call.2.1 ≤ d.1) :
    (SiteAccepted isWord t namespaceName p ↔ SiteAccepted isWord source namespaceName p) ∧
    ∀ t', instrumentWasmSite isWord t p.allocation p.site p.siteId namespaceName = .ok t' →
      Rewritten source namespaceName (done ++ [p]) t' := by
  obtain ⟨anchor, hanchor, hextent⟩ := siteCall_eq_ok.mp hcall
  have hbounds := mallocCallExtent_bounds hextent
  obtain ⟨hanchor', hextent', hselected, htake⟩ : siteAnchor t p.site = .ok anchor ∧
      mallocCallExtent t anchor.1 anchor.2 = .ok call ∧
      (selectedCall isWord t p.allocation.function anchor = .ok call ↔
        selectedCall isWord source p.allocation.function anchor = .ok call) ∧
      t.take call.1 = source.take call.1 := by
    rcases h.agreeTo hextent hbefore with rfl | ⟨n, hagree, hstart, hend, hle⟩
    · exact ⟨hanchor, hextent, Iff.rfl, rfl⟩
    · refine ⟨siteAnchor_agree hagree hanchor hstart hend,
        mallocCallExtent_agree hagree hextent hle hend,
        ⟨fun hok => selectedCall_agree hagree.symm h.braces.symm hok hle hend,
          fun hok => selectedCall_agree hagree h.braces hok hle hend⟩, ?_⟩
      have hslice := hagree.slice 0 (show call.1 ≤ n by omega)
      exact hslice.symm
  -- the call that is replaced is the one in the source
  have hunique : ∀ t', instrumentWasmSite isWord t p.allocation p.site p.siteId namespaceName =
      .ok t' ↔ selectedCall isWord t p.allocation.function anchor = .ok call ∧
        t' = (callEdit namespaceName p.siteId call).apply t := by
    intro t'
    rw [instrumentWasmSite_eq_ok]
    constructor
    · rintro ⟨anchor', call', ha, hc, rfl⟩
      obtain rfl : anchor = anchor' := Except.ok.inj (hanchor'.symm.trans ha)
      obtain ⟨_, _, _, _, hc', _⟩ := selectedCall_eq_ok.mp hc
      obtain rfl : call = call' := Except.ok.inj (hextent'.symm.trans hc')
      exact ⟨hc, rfl⟩
    · rintro ⟨hc, rfl⟩
      exact ⟨anchor, call, hanchor', hc, rfl⟩
  refine ⟨?_, fun t' ht' => ?_⟩
  · constructor
    · rintro ⟨t', ht'⟩
      exact ⟨_, instrumentWasmSite_eq_ok.mpr
        ⟨anchor, call, hanchor, hselected.mp ((hunique t').mp ht').1, rfl⟩⟩
    · rintro ⟨t', ht'⟩
      obtain ⟨anchor', call', ha, hc, -⟩ := instrumentWasmSite_eq_ok.mp ht'
      obtain rfl : anchor = anchor' := Except.ok.inj (hanchor.symm.trans ha)
      obtain ⟨_, _, _, _, hc', _⟩ := selectedCall_eq_ok.mp hc
      obtain rfl : call = call' := Except.ok.inj (hextent.symm.trans hc')
      exact ⟨_, (hunique _).mpr ⟨hselected.mpr hc, rfl⟩⟩
  · obtain ⟨-, rfl⟩ := (hunique t').mp ht'
    refine ⟨?_, ?_, fun q hq => ?_⟩
    · rw [List.reverse_append, List.reverse_singleton, List.singleton_append, siteEdits_cons hcall,
        h.patched]
      refine Edit.apply_patched ?_ hbounds.2.2.2 (fun e he => ?_)
      · show call.1 < call.2.1
        omega
      · obtain ⟨q, hq, d, hd, rfl⟩ := mem_siteEdits he
        exact hbefore q (List.mem_reverse.mp hq) d hd
    · rw [h.braces]
      obtain ⟨x, gap, raw, y, ht, hx, hgap, hraw⟩ := mallocCallExtent_split hextent'
      rw [ht, ← hx] at hextent'
      obtain ⟨-, -, -, rfl⟩ := (mallocCallExtent_callText y hgap hraw).mp hextent'
      rw [ht, callEdit_apply]
      simp only [List.filter_append, filter_isBrace_importCall namespaceName p.siteId hgap]
    · rw [List.getLast?_concat] at hq
      obtain rfl := Option.some.inj hq
      obtain ⟨x, gap, raw, y, hs, hx, hgap, hraw⟩ := mallocCallExtent_split hextent
      rw [← hbounds.1] at hx
      have hhead : source = x ++ 'm' :: ("alloc".toList ++ (gap ++ '(' :: (raw ++ ')' :: y))) := by
        rw [hs, List.append_assoc, callText_append]
        rfl
      have hx' : t.take call.1 = x := by
        rw [htake, hhead, List.take_left' hx]
      obtain ⟨z, hz⟩ : ∃ z, importCall namespaceName p.siteId call.2.2 = '(' :: z := ⟨_, rfl⟩
      refine ⟨call, x, _, z ++ t.drop call.2.1, hcall, hx, hhead, ?_⟩
      show t.take call.1 ++ importCall namespaceName p.siteId call.2.2 ++ t.drop call.2.1 = _
      rw [hx', hz, List.append_assoc]
      rfl

/-! ### The loop -/

section Loop

variable {isWord : Char → Bool} {source namespaceName : Str} {sites : List PreciseSite}

/-- The loop of `generate_wasm_boundary`. -/
def instrumentWasm (isWord : Char → Bool) (source namespaceName : Str)
    (sites : List PreciseSite) : Except PolicyError Str :=
  fold (fun t p => instrumentWasmSite isWord t p.allocation p.site p.siteId namespaceName) source
    (rewriteOrder sites)

theorem rewriteOrder_before (hapart : sites.Pairwise (CallsApart source))
    {done rest : List PreciseSite} {p : PreciseSite} (h : rewriteOrder sites = done ++ p :: rest)
    {call : Nat × Nat × Str} (hcall : siteCall source p.site = .ok call) :
    ∀ q ∈ done, ∀ d, siteCall source q.site = .ok d → call.2.1 ≤ d.1 := by
  intro q hq d hd
  have horder := rewriteOrder_pairwise sites
  have hapart := (rewriteOrder_perm sites).symm.pairwise hapart (fun h => h.symm)
  rw [h] at horder hapart
  exact ((List.pairwise_append.mp hapart).2.2 q hq p List.mem_cons_self).le
    ((List.pairwise_append.mp horder).2.2 q hq p List.mem_cons_self) hcall hd

theorem rewriteOrder_mem {done rest : List PreciseSite} {p : PreciseSite}
    (h : rewriteOrder sites = done ++ p :: rest) : p ∈ sites := by
  refine (rewriteOrder_perm sites).mem_iff.mp ?_
  rw [h]
  exact List.mem_append_right _ List.mem_cons_self

/-- **The loop succeeds when every site alone is accepted** on the original source. -/
theorem instrumentWasm_total (hapart : sites.Pairwise (CallsApart source))
    (haccepted : ∀ p ∈ sites, SiteAccepted isWord source namespaceName p) :
    ∃ out, instrumentWasm isWord source namespaceName sites = .ok out := by
  have hstep : ∀ done p rest t, rewriteOrder sites = done ++ p :: rest →
      Rewritten source namespaceName done t →
      ∃ t', instrumentWasmSite isWord t p.allocation p.site p.siteId namespaceName = .ok t' ∧
        Rewritten source namespaceName (done ++ [p]) t' := by
    intro done p rest t hwhole ht
    have hp := haccepted p (rewriteOrder_mem hwhole)
    obtain ⟨call, hcall⟩ := hp.call
    obtain ⟨hiff, hnext⟩ := ht.step isWord hcall (rewriteOrder_before hapart hwhole hcall)
    obtain ⟨t', ht'⟩ := hiff.mpr hp
    exact ⟨t', ht', hnext t' ht'⟩
  obtain ⟨out, hout, -⟩ := fold_total hstep rfl (Rewritten.start source namespaceName)
  exact ⟨out, hout⟩

/-- **What the loop leaves**, when every site has a call in the original source. -/
theorem instrumentWasm_rewritten (hapart : sites.Pairwise (CallsApart source))
    (hcalls : ∀ p ∈ sites, ∃ call, siteCall source p.site = .ok call) {out : Str}
    (h : instrumentWasm isWord source namespaceName sites = .ok out) :
    Rewritten source namespaceName (rewriteOrder sites) out ∧
      ∀ p ∈ sites, SiteAccepted isWord source namespaceName p := by
  have hstep : ∀ done p rest t t', rewriteOrder sites = done ++ p :: rest →
      (Rewritten source namespaceName done t ∧
        ∀ q ∈ done, SiteAccepted isWord source namespaceName q) →
      instrumentWasmSite isWord t p.allocation p.site p.siteId namespaceName = .ok t' →
      Rewritten source namespaceName (done ++ [p]) t' ∧
        ∀ q ∈ done ++ [p], SiteAccepted isWord source namespaceName q := by
    rintro done p rest t t' hwhole ⟨ht, hdone⟩ ht'
    obtain ⟨call, hcall⟩ := hcalls p (rewriteOrder_mem hwhole)
    obtain ⟨hiff, hnext⟩ := ht.step isWord hcall (rewriteOrder_before hapart hwhole hcall)
    have hp : SiteAccepted isWord source namespaceName p := hiff.mp ⟨t', ht'⟩
    exact ⟨hnext t' ht', List.forall_mem_append.mpr ⟨hdone, List.forall_mem_singleton.mpr hp⟩⟩
  have hnone : ∀ q ∈ [], SiteAccepted isWord source namespaceName q :=
    fun q hq => absurd hq List.not_mem_nil
  have hrun := fold_rule hstep rfl ⟨Rewritten.start source namespaceName, hnone⟩ h
  exact ⟨hrun.1, fun p hp => hrun.2 p ((rewriteOrder_perm sites).mem_iff.mpr hp)⟩

theorem siteEdits_perm {sites' : List PreciseSite} (h : sites.Perm sites') :
    (siteEdits source namespaceName sites).Perm (siteEdits source namespaceName sites') :=
  h.filterMap _

theorem nodup_siteEdits : ∀ {sites : List PreciseSite}, sites.Pairwise (CallsApart source) →
    ((siteEdits source namespaceName sites).map Edit.start).Nodup := by
  intro sites
  induction sites with
  | nil => intro _; exact List.nodup_nil
  | cons p sites ih =>
    intro hapart
    obtain ⟨hp, hsites⟩ := List.pairwise_cons.mp hapart
    cases hc : siteCall source p.site with
    | error e =>
      rw [siteEdits, List.filterMap_cons, hc]
      exact ih hsites
    | ok c =>
      rw [siteEdits_cons hc, List.map_cons, List.nodup_cons]
      refine ⟨fun hmem => ?_, ih hsites⟩
      obtain ⟨e, he, hstart⟩ := List.mem_map.mp hmem
      obtain ⟨q, hq, d, hd, rfl⟩ := mem_siteEdits he
      have hstart : d.1 = c.1 := hstart
      have hc' := siteCall_bounds hc
      have hd' := siteCall_bounds hd
      rcases hp q hq c d hc hd with h | h <;> omega

theorem instrumentWasm_eq_patched (hapart : sites.Pairwise (CallsApart source))
    (hcalls : ∀ p ∈ sites, ∃ call, siteCall source p.site = .ok call) {out : Str}
    (h : instrumentWasm isWord source namespaceName sites = .ok out) :
    out = patched (siteEdits source namespaceName sites) source := by
  have hout := (instrumentWasm_rewritten hapart hcalls h).1.patched
  rw [hout]
  refine (patched_perm (siteEdits_perm ?_) (nodup_siteEdits hapart) source).symm
  exact (rewriteOrder_perm sites).symm.trans (List.reverse_perm _).symm

end Loop

/-! ### Numbers of sites -/

def renumber (σ : Nat → Nat) (p : PreciseSite) : PreciseSite := { p with siteId := σ p.siteId }

theorem renumber_id (sites : List PreciseSite) : sites.map (renumber id) = sites :=
  List.map_id sites

/-- **Another order of the allocations gives the same sites other numbers.** -/
theorem preciseSites_perm {l l' : List PolicyAllocation} (h : l.Perm l') : ∀ k,
    ∃ σ, ((preciseSites k l).map (renumber σ)).Perm (preciseSites k l') := by
  induction h with
  | nil => intro k; exact ⟨id, List.Perm.nil⟩
  | @cons a l l' _ ih =>
    intro k
    unfold preciseSites
    cases a.site with
    | none => exact ih k
    | some site =>
      obtain ⟨σ, hσ⟩ := ih (k + 1)
      refine ⟨fun i => if i = k then k else σ i, ?_⟩
      have hmap : (preciseSites (k + 1) l).map (renumber (fun i => if i = k then k else σ i)) =
          (preciseSites (k + 1) l).map (renumber σ) := by
        refine List.map_congr_left (fun p hp => ?_)
        have hle := le_siteId p hp
        rw [renumber, if_neg (by omega), renumber]
      rw [List.map_cons, hmap, renumber, if_pos rfl]
      exact hσ.cons _
  | swap a b l =>
    intro k
    cases ha : a.site with
    | none =>
      refine ⟨id, ?_⟩
      rw [renumber_id]
      simp only [preciseSites, ha]
      exact List.Perm.refl _
    | some site =>
      cases hb : b.site with
      | none =>
        refine ⟨id, ?_⟩
        rw [renumber_id]
        simp only [preciseSites, ha, hb]
        exact List.Perm.refl _
      | some site' =>
        -- the two numbers change places
        refine ⟨Equiv.swap k (k + 1), ?_⟩
        simp only [preciseSites, ha, hb, List.map_cons]
        have hmap : (preciseSites (k + 1 + 1) l).map (renumber (Equiv.swap k (k + 1))) =
            preciseSites (k + 1 + 1) l := by
          refine (List.map_congr_left (fun p hp => ?_)).trans (renumber_id _)
          have hle := le_siteId p hp
          rw [renumber, Equiv.swap_apply_of_ne_of_ne (by omega) (by omega)]
          rfl
        rw [hmap, renumber, renumber, Equiv.swap_apply_left, Equiv.swap_apply_right]
        exact List.Perm.swap _ _ _
  | trans _ _ ih₁ ih₂ =>
    intro k
    obtain ⟨σ, hσ⟩ := ih₁ k
    obtain ⟨τ, hτ⟩ := ih₂ k
    have h := (hσ.map (renumber τ)).trans hτ
    rw [List.map_map] at h
    exact ⟨τ ∘ σ, h⟩

/-! ### The generator -/

/-- What `generate_wasm_boundary` checks besides the source. -/
def WasmInputs (policy : Policy) (namespaceName : Str) (boundary : Boundary) (siteIdBase : Int) :
    Prop :=
  ∃ types records tHeader, composeTypes policy.types boundary.types = .ok types ∧
    (∀ a ∈ policy.allocations, a.type ∈ types) ∧
    (∀ helper ∈ boundary.helperSites, helper.type ∈ types) ∧
    siteRecords { policy with types := types } boundary namespaceName siteIdBase = .ok records ∧
    generateWasmTHeader { policy with types := types } records.1 records.2 namespaceName
      siteIdBase = .ok tHeader

/-- **The generator succeeds when its inputs pass and its loop succeeds.** -/
theorem generateWasmBoundary_iff {isWord : Char → Bool} {policy : Policy}
    {source namespaceName : Str} {boundary : Boundary} {siteIdBase : Int} {text : Str} :
    (∃ out, generateWasmBoundary isWord policy source namespaceName boundary siteIdBase = .ok out ∧
      out.instrumented = text) ↔
      WasmInputs policy namespaceName boundary siteIdBase ∧
      instrumentWasm isWord source namespaceName (preciseSites 1 policy.allocations) =
        .ok text := by
  unfold instrumentWasm
  rw [← foldlM_eq_fold]
  constructor
  · rintro ⟨out, h, rfl⟩
    obtain ⟨types, records, htypes, hknown, hknown', hrecords, hinstrumented, hheader, -, -⟩ :=
      generateWasmBoundary_eq_ok.mp h
    exact ⟨⟨types, records, out.tHeader, htypes, hknown, hknown', hrecords, hheader⟩, hinstrumented⟩
  · rintro ⟨⟨types, records, tHeader, htypes, hknown, hknown', hrecords, hheader⟩, h⟩
    exact ⟨⟨text, _, tHeader, _⟩, generateWasmBoundary_eq_ok.mpr ⟨types, records, htypes, hknown,
      hknown', hrecords, h, hheader, rfl, rfl⟩, rfl⟩

theorem siteRecord_total {namespaceName : Str} {siteIdBase : Int} {localSiteId : Nat}
    (h : SiteFits namespaceName siteIdBase localSiteId) (type : Str) (helperName : Option Str) :
    ∃ r, siteRecord namespaceName siteIdBase localSiteId type helperName = .ok r := by
  obtain ⟨hbase, hpos, hmax, hempty⟩ := h
  refine ⟨_, bind_eq_ok.mpr ⟨siteIdBase + localSiteId, bind_eq_ok.mpr ⟨(), ensure_eq_ok.mpr ?_,
    bind_eq_ok.mpr ⟨(), ensure_eq_ok.mpr ?_, rfl⟩⟩, bind_eq_ok.mpr ⟨_, bind_eq_ok.mpr ⟨_,
    bind_eq_ok.mpr ⟨(), ensure_eq_ok.mpr hempty, rfl⟩, rfl⟩, rfl⟩⟩⟩ <;> omega

/-- The records do not depend on which allocation has which number. -/
theorem siteRecords_total {policy : Policy} {boundary : Boundary} {namespaceName : Str}
    {siteIdBase : Int} {r : List SiteRecord × Nat}
    (h : siteRecords policy boundary namespaceName siteIdBase = .ok r)
    {allocations : List PolicyAllocation} (hperm : allocations.Perm policy.allocations) :
    ∃ r', siteRecords { policy with allocations := allocations } boundary namespaceName
      siteIdBase = .ok r' := by
  obtain ⟨-, -, hprecise, hfits⟩ := siteRecords_eq_ok h
  obtain ⟨precise, hlist, h⟩ := bind_eq_ok.mp h
  obtain ⟨helpers, hhelpers, -⟩ := bind_eq_ok.mp h
  obtain ⟨precise', hlist'⟩ := numbered_total (f := fun localSiteId (a : PolicyAllocation) => do
    ensure (a.site.isSome = true) PolicyError.noPreciseSite
    siteRecord namespaceName siteIdBase localSiteId a.type none) (l := allocations) (k := 1)
    (fun i a hi => by
      have hlt : i < allocations.length := (List.getElem?_eq_some_iff.mp hi).1
      obtain ⟨r, hr⟩ := siteRecord_total (hfits i (by
        rw [declaredTypes, List.length_append, List.length_map, ← hperm.length_eq]
        omega)) a.type none
      rw [Nat.add_comm i 1] at hr
      exact ⟨r, bind_eq_ok.mpr ⟨(), ensure_eq_ok.mpr
        (hprecise a (hperm.mem_iff.mp (List.mem_of_getElem? hi))), hr⟩⟩)
  have hlen : precise'.length = precise.length := by
    rw [(numbered_eq_ok hlist).1, (numbered_eq_ok hlist').1, hperm.length_eq]
  refine ⟨(precise' ++ helpers, precise'.length), bind_eq_ok.mpr ⟨precise', hlist',
    bind_eq_ok.mpr ⟨helpers, ?_, rfl⟩⟩⟩
  rw [hlen]
  exact hhelpers

theorem WasmInputs.perm {policy : Policy} {namespaceName : Str} {boundary : Boundary}
    {siteIdBase : Int} (h : WasmInputs policy namespaceName boundary siteIdBase)
    {allocations : List PolicyAllocation} (hperm : allocations.Perm policy.allocations) :
    WasmInputs { policy with allocations := allocations } namespaceName boundary siteIdBase := by
  obtain ⟨types, records, tHeader, htypes, hknown, hknown', hrecords, hheader⟩ := h
  obtain ⟨records', hrecords'⟩ := siteRecords_total hrecords hperm
  obtain ⟨_, hhashes, hheader⟩ := bind_eq_ok.mp hheader
  obtain ⟨uses, huses, -⟩ := bind_eq_ok.mp hheader
  exact ⟨types, records', _, htypes, fun a ha => hknown a (hperm.mem_iff.mp ha), hknown',
    hrecords', bind_eq_ok.mpr ⟨(), hhashes, bind_eq_ok.mpr ⟨uses, huses, rfl⟩⟩⟩

/-- **Instrumentation is simultaneous replacement.**  Let the calls that the sites select in
the original source not overlap.  When every site alone is accepted on the source, the
generator succeeds.  When every site has a call in the source, it succeeds only then, the
instrumented text is the source with every call replaced by the import call of its own site
on its own argument, and another order of the allocations only gives the sites other
numbers. -/
theorem instrumentation_is_replacement {isWord : Char → Bool} {policy : Policy}
    {source namespaceName : Str} {boundary : Boundary} {siteIdBase : Int}
    (hapart : (preciseSites 1 policy.allocations).Pairwise (CallsApart source)) :
    (WasmInputs policy namespaceName boundary siteIdBase →
      (∀ p ∈ preciseSites 1 policy.allocations, SiteAccepted isWord source namespaceName p) →
      ∃ out, generateWasmBoundary isWord policy source namespaceName boundary siteIdBase =
        .ok out) ∧
    ((∀ p ∈ preciseSites 1 policy.allocations, ∃ call, siteCall source p.site = .ok call) →
      ∀ out, generateWasmBoundary isWord policy source namespaceName boundary siteIdBase =
        .ok out →
        WasmInputs policy namespaceName boundary siteIdBase ∧
        (∀ p ∈ preciseSites 1 policy.allocations, SiteAccepted isWord source namespaceName p) ∧
        out.instrumented =
          patched (siteEdits source namespaceName (preciseSites 1 policy.allocations)) source ∧
        ∀ allocations : List PolicyAllocation, allocations.Perm policy.allocations →
          ∃ out' σ, generateWasmBoundary isWord { policy with allocations := allocations } source
              namespaceName boundary siteIdBase = .ok out' ∧
            ((preciseSites 1 policy.allocations).map (renumber σ)).Perm
              (preciseSites 1 allocations) ∧
            out'.instrumented = patched (siteEdits source namespaceName
              ((preciseSites 1 policy.allocations).map (renumber σ))) source) := by
  refine ⟨fun hinputs haccepted => ?_, fun hcalls out hout => ?_⟩
  · obtain ⟨text, htext⟩ := instrumentWasm_total hapart haccepted
    obtain ⟨out, hout, -⟩ := generateWasmBoundary_iff.mpr ⟨hinputs, htext⟩
    exact ⟨out, hout⟩
  · obtain ⟨hinputs, hloop⟩ := generateWasmBoundary_iff.mp ⟨out, hout, rfl⟩
    obtain ⟨-, haccepted⟩ := instrumentWasm_rewritten hapart hcalls hloop
    refine ⟨hinputs, haccepted, instrumentWasm_eq_patched hapart hcalls hloop,
      fun allocations hperm => ?_⟩
    obtain ⟨σ, hσ⟩ := preciseSites_perm hperm.symm 1
    -- numbers play no role in where the calls are
    have hapart' : ((preciseSites 1 policy.allocations).map (renumber σ)).Pairwise
        (CallsApart source) := List.pairwise_map.mpr hapart
    have hapart'' := hσ.pairwise hapart' (fun h => h.symm)
    have hcalls' : ∀ p ∈ preciseSites 1 allocations,
        ∃ call, siteCall source p.site = .ok call := by
      intro p hp
      obtain ⟨q, hq, rfl⟩ := List.mem_map.mp (hσ.mem_iff.mpr hp)
      exact hcalls q hq
    have haccepted' : ∀ p ∈ preciseSites 1 allocations,
        SiteAccepted isWord source namespaceName p := by
      intro p hp
      obtain ⟨q, hq, rfl⟩ := List.mem_map.mp (hσ.mem_iff.mpr hp)
      obtain ⟨t, ht⟩ := haccepted q hq
      obtain ⟨anchor, call, hanchor, hcall, -⟩ := instrumentWasmSite_eq_ok.mp ht
      exact ⟨_, instrumentWasmSite_eq_ok.mpr ⟨anchor, call, hanchor, hcall, rfl⟩⟩
    obtain ⟨text, htext⟩ := instrumentWasm_total hapart'' haccepted'
    obtain ⟨out', hout', rfl⟩ := generateWasmBoundary_iff.mpr ⟨hinputs.perm hperm, htext⟩
    refine ⟨out', σ, hout', hσ, ?_⟩
    rw [instrumentWasm_eq_patched hapart'' hcalls' htext]
    exact (patched_perm (siteEdits_perm hσ) (nodup_siteEdits hapart') source).symm

/-- Two calls in one function, one of them over two lines. -/
def pairSource : Str := "void f()\x7b a(malloc(8)); b(malloc (\n 16 )); \x7d".toList

def pairPolicy : Policy where
  types := ["node".toList]
  allocations := [⟨"f".toList, "node".toList, some ⟨1, 27, 1, 32⟩⟩,
    ⟨"f".toList, "node".toList, some ⟨1, 13, 1, 18⟩⟩]
  uses := []

set_option maxRecDepth 4000 in
theorem instrumentation_is_replacement_pair : ∃ out,
    generateWasmBoundary asciiWord pairPolicy pairSource "app".toList ⟨[], []⟩ 0 = .ok out ∧
    out.instrumented = patched (siteEdits pairSource "app".toList
      (preciseSites 1 pairPolicy.allocations)) pairSource := by
  obtain ⟨out, hout⟩ : ∃ out, generateWasmBoundary asciiWord pairPolicy pairSource "app".toList
      ⟨[], []⟩ 0 = .ok out := ⟨_, rfl⟩
  have hfirst : siteCall pairSource ⟨1, 27, 1, 32⟩ = .ok (26, 40, "16".toList) := rfl
  have hsecond : siteCall pairSource ⟨1, 13, 1, 18⟩ = .ok (12, 21, "8".toList) := rfl
  have hapart : (preciseSites 1 pairPolicy.allocations).Pairwise (CallsApart pairSource) := by
    refine List.pairwise_pair.mpr (fun c d hc hd => Or.inr ?_)
    cases hfirst.symm.trans hc
    cases hsecond.symm.trans hd
    decide
  refine ⟨out, hout, ((instrumentation_is_replacement hapart).2 (fun p hp => ?_) out hout).2.2.1⟩
  rcases List.mem_pair.mp hp with rfl | rfl
  · exact ⟨_, hfirst⟩
  · exact ⟨_, hsecond⟩

/-- The first site is followed by no argument list. -/
def shadowedSource : Str := "void f()\x7bmalloc malloc(8);\x7d".toList

def shadowedPolicy : Policy where
  types := ["node".toList]
  allocations := [⟨"f".toList, "node".toList, some ⟨1, 10, 1, 15⟩⟩,
    ⟨"f".toList, "node".toList, some ⟨1, 17, 1, 25⟩⟩]
  uses := []

set_option maxRecDepth 4000 in
/-- **A site that is not accepted on the source.**  What replaces the call behind it begins
with a parenthesis, and then it is accepted. -/
theorem accepted_after_rewriting :
    (preciseSites 1 shadowedPolicy.allocations).Pairwise
      (fun p q => p.site ≠ q.site ∧ CallsApart shadowedSource p q) ∧
    (∃ out, generateWasmBoundary asciiWord shadowedPolicy shadowedSource "app".toList ⟨[], []⟩ 0 =
      .ok out) ∧
    ¬ ∀ p ∈ preciseSites 1 shadowedPolicy.allocations,
      SiteAccepted asciiWord shadowedSource "app".toList p := by
  have hfirst : siteCall shadowedSource ⟨1, 10, 1, 15⟩ = .error .noArgumentList := rfl
  refine ⟨List.pairwise_pair.mpr ⟨by decide, fun c d hc _ => ?_⟩, ⟨_, rfl⟩, fun h => ?_⟩
  · exact nomatch hfirst.symm.trans hc
  · obtain ⟨call, hcall⟩ := (h _ List.mem_cons_self).call
    exact nomatch hfirst.symm.trans hcall

end InterSpec.Tools
