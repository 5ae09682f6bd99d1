import Mathlib.Data.List.Basic

/-!
# Fallible loops

Loops whose body may raise, as functions into `Except`, and the rule that says
when each of them succeeds; and the same for `List.mapM` into `Option`.

* `Fallible.bind_eq_ok`: a sequence succeeds when both halves do.
* `Fallible.ensure`: a guard.
* `Fallible.forEach`: a loop of checks.
* `Fallible.fold`: a loop with a state, with its invariant rules `Fallible.fold_rule` and
  `Fallible.fold_total`, and `Fallible.fold_relation` for its two ends.
* `Fallible.Yields`: what code returns, and which errors it may raise, with the rules for
  sequences, guards and loops.
* `Fallible.numbered`: a loop that builds one result for each item from the item
  and its number.
* `Fallible.numberedFresh`: the same loop, which also raises on a repeated key.
* `Fallible.mapM_eq_some`: `mapM` succeeds with the results of its items in order.
-/

namespace Fallible

variable {ε α β : Type}

theorem bind_eq_ok {x : Except ε α} {f : α → Except ε β} {b : β} :
    (x >>= f) = .ok b ↔ ∃ a, x = .ok a ∧ f a = .ok b := by
  cases x with
  | error e => exact ⟨fun h => (nomatch h), fun ⟨_, h, _⟩ => (nomatch h)⟩
  | ok a => exact ⟨fun h => ⟨a, rfl, h⟩, fun ⟨_, ha, h⟩ => by cases ha; exact h⟩

theorem toOption_eq_some {x : Except ε α} {a : α} : x.toOption = some a ↔ x = .ok a := by
  cases x with
  | error e => exact iff_of_false nofun nofun
  | ok b => exact ⟨fun h => congrArg _ (Option.some.inj h), fun h => by cases h; rfl⟩

/-- Raise `e` unless `c`. -/
def ensure (c : Prop) [Decidable c] (e : ε) : Except ε Unit := if c then .ok () else .error e

theorem ensure_eq_ok {c : Prop} [Decidable c] {e : ε} {u : Unit} : ensure c e = .ok u ↔ c := by
  unfold ensure
  by_cases h : c
  · rw [if_pos h]
    exact iff_of_true rfl h
  · rw [if_neg h]
    exact iff_of_false nofun h

def forEach (f : α → Except ε Unit) : List α → Except ε Unit
  | [] => .ok ()
  | a :: l => do
    f a
    forEach f l

theorem forEach_eq_ok {f : α → Except ε Unit} {l : List α} {u : Unit} :
    forEach f l = .ok u ↔ ∀ a ∈ l, f a = .ok () := by
  induction l with
  | nil => exact iff_of_true rfl nofun
  | cons a l ih =>
    rw [forEach, bind_eq_ok, List.forall_mem_cons]
    exact ⟨fun ⟨_, ha, hl⟩ => ⟨ha, ih.mp hl⟩, fun ⟨ha, hl⟩ => ⟨(), ha, ih.mpr hl⟩⟩

/-- A loop that changes a state and may raise. -/
def fold {σ : Type} (f : σ → α → Except ε σ) : σ → List α → Except ε σ
  | s, [] => .ok s
  | s, a :: l => do
    let s' ← f s a
    fold f s' l

theorem foldlM_eq_fold {σ : Type} (f : σ → α → Except ε σ) (l : List α) :
    ∀ s, l.foldlM f s = fold f s l := by
  induction l with
  | nil => intro s; rfl
  | cons a l ih =>
    intro s
    rw [List.foldlM_cons, fold]
    exact congrArg _ (funext ih)

theorem fold_concat {σ : Type} {f : σ → α → Except ε σ} {a : α} {l : List α} : ∀ {s t u : σ},
    fold f s l = .ok t → f t a = .ok u → fold f s (l ++ [a]) = .ok u := by
  induction l with
  | nil =>
    intro s t u hl ha
    cases hl
    exact bind_eq_ok.mpr ⟨u, ha, rfl⟩
  | cons b l ih =>
    intro s t u hl ha
    obtain ⟨s', hb, hl⟩ := bind_eq_ok.mp hl
    exact bind_eq_ok.mpr ⟨s', hb, ih hl ha⟩

/-- **The rule for such a loop.**  `P done s` is the invariant, with the items that the
loop has been through. -/
theorem fold_rule {σ : Type} {f : σ → α → Except ε σ} {P : List α → σ → Prop} {whole : List α}
    (hstep : ∀ done a rest s s', whole = done ++ a :: rest → P done s → f s a = .ok s' →
      P (done ++ [a]) s') : ∀ {l done : List α} {s s' : σ}, whole = done ++ l → P done s →
      fold f s l = .ok s' → P whole s' := by
  intro l
  induction l with
  | nil =>
    intro done s s' hwhole h hok
    cases hok
    rwa [hwhole, List.append_nil]
  | cons a l ih =>
    intro done s s' hwhole h hok
    obtain ⟨t, ht, hok⟩ := bind_eq_ok.mp hok
    exact ih (by rw [hwhole, List.append_assoc]; rfl) (hstep done a l s t hwhole h ht) hok

/-- A preorder that each pass keeps relates the two ends of the loop. -/
theorem fold_relation {σ : Type} {f : σ → α → Except ε σ} {R : σ → σ → Prop}
    (hrefl : ∀ s, R s s) (htrans : ∀ s t u, R s t → R t u → R s u)
    (hstep : ∀ s a s', f s a = .ok s' → R s s') : ∀ {l : List α} {s s' : σ},
    fold f s l = .ok s' → R s s' := by
  intro l
  induction l with
  | nil =>
    intro s s' h
    cases h
    exact hrefl s
  | cons a l ih =>
    intro s s' h
    obtain ⟨t, ht, h⟩ := bind_eq_ok.mp h
    exact htrans s t s' (hstep s a t ht) (ih h)

/-- The rule for a loop whose body does not raise where the invariant holds. -/
theorem fold_total {σ : Type} {f : σ → α → Except ε σ} {P : List α → σ → Prop} {whole : List α}
    (hstep : ∀ done a rest s, whole = done ++ a :: rest → P done s →
      ∃ s', f s a = .ok s' ∧ P (done ++ [a]) s') : ∀ {l done : List α} {s : σ},
    whole = done ++ l → P done s → ∃ s', fold f s l = .ok s' ∧ P whole s' := by
  intro l
  induction l with
  | nil =>
    intro done s hwhole h
    exact ⟨s, rfl, by rwa [hwhole, List.append_nil]⟩
  | cons a l ih =>
    intro done s hwhole h
    obtain ⟨t, ht, hP⟩ := hstep done a l s hwhole h
    obtain ⟨s', hok, hend⟩ := ih (by rw [hwhole, List.append_assoc]; rfl) hP
    exact ⟨s', bind_eq_ok.mpr ⟨t, ht, hok⟩, hend⟩

/-- Two loops whose bodies go from related states to related states, and raise alike. -/
theorem fold_map {σ τ : Type} {f : σ → α → Except ε σ} {g : τ → α → Except ε τ} {h : σ → τ}
    {P : σ → Prop} (hstep : ∀ s a, P s → (f s a).map h = g (h s) a ∧
      ∀ s', f s a = .ok s' → P s') : ∀ {l : List α} {s : σ}, P s →
    (fold f s l).map h = fold g (h s) l ∧ ∀ s', fold f s l = .ok s' → P s' := by
  intro l
  induction l with
  | nil =>
    intro s hs
    exact ⟨rfl, fun s' h => by cases h; exact hs⟩
  | cons a l ih =>
    intro s hs
    obtain ⟨hmap, hkeep⟩ := hstep s a hs
    rw [fold, fold, ← hmap]
    cases hf : f s a with
    | error e => exact ⟨rfl, fun _ h => nomatch h⟩
    | ok s' => exact ih (hkeep s' hf)

/-! ### Returned values and allowed errors -/

/-- The code returns a value with `Q`, or raises one of the errors `E`. -/
def Yields (E : ε → Prop) (Q : α → Prop) : Except ε α → Prop
  | .ok a => Q a
  | .error e => E e

namespace Yields

variable {E E' : ε → Prop} {Q : α → Prop} {R : β → Prop}

theorem ok {x : Except ε α} {a : α} (h : Yields E Q x) (hx : x = .ok a) : Q a := by
  rw [hx] at h
  exact h

theorem error {x : Except ε α} {e : ε} (h : Yields E Q x) (hx : x = .error e) : E e := by
  rw [hx] at h
  exact h

theorem mono {P : α → Prop} (hE : ∀ e, E e → E' e) (hQ : ∀ a, Q a → P a) {x : Except ε α}
    (h : Yields E Q x) : Yields E' P x := by
  cases x with
  | error e => exact hE e h
  | ok a => exact hQ a h

theorem of_error {x : Except ε α} (h : ∀ e, x = .error e → E e) : Yields E (fun _ => True) x := by
  cases x with
  | error e => exact h e rfl
  | ok a => trivial

theorem bind {x : Except ε α} {f : α → Except ε β} (h : Yields E Q x)
    (hf : ∀ a, x = .ok a → Q a → Yields E R (f a)) : Yields E R (x >>= f) := by
  cases x with
  | error e => exact h
  | ok a => exact hf a rfl h

theorem ensure {c : Prop} [Decidable c] {e : ε} (h : c) :
    Yields E (fun _ => True) (Fallible.ensure c e) := by
  rw [Fallible.ensure, if_pos h]
  trivial

theorem guard {c : Prop} [Decidable c] {e : ε} (h : ¬ c → E e) :
    Yields E (fun _ => c) (Fallible.ensure c e) := by
  unfold Fallible.ensure
  by_cases hc : c
  · rw [if_pos hc]
    exact hc
  · rw [if_neg hc]
    exact h hc

/-- The rule for a loop.  `P done s` is the invariant. -/
theorem fold {σ : Type} {f : σ → α → Except ε σ} {P : List α → σ → Prop} {whole : List α}
    (hstep : ∀ done a rest s, whole = done ++ a :: rest → P done s →
      Yields E (P (done ++ [a])) (f s a)) : ∀ {l done : List α} {s : σ},
    whole = done ++ l → P done s → Yields E (P whole) (Fallible.fold f s l) := by
  intro l
  induction l with
  | nil =>
    intro done s hwhole h
    rwa [hwhole, List.append_nil]
  | cons a l ih =>
    intro done s hwhole h
    exact (hstep done a l s hwhole h).bind fun s' _ hs' =>
      ih (by rw [hwhole, List.append_assoc]; rfl) hs'

end Yields

/-- The results for the items of `l`, numbered from `k`. -/
def numbered (f : Nat → α → Except ε β) : Nat → List α → Except ε (List β)
  | _, [] => .ok []
  | k, a :: l => do
    let b ← f k a
    let bs ← numbered f (k + 1) l
    return b :: bs

theorem numbered_cons_eq_ok {f : Nat → α → Except ε β} {k : Nat} {a : α} {l : List α}
    {bs : List β} : numbered f k (a :: l) = .ok bs ↔
      ∃ b bs', f k a = .ok b ∧ numbered f (k + 1) l = .ok bs' ∧ bs = b :: bs' := by
  rw [numbered, bind_eq_ok]
  constructor
  · rintro ⟨b, hb, h⟩
    obtain ⟨bs', hbs, h⟩ := bind_eq_ok.mp h
    cases h
    exact ⟨b, bs', hb, hbs, rfl⟩
  · rintro ⟨b, bs', hb, hbs, rfl⟩
    exact ⟨b, hb, bind_eq_ok.mpr ⟨bs', hbs, rfl⟩⟩

/-- **A numbered loop succeeds with the results of its items in order.** -/
theorem numbered_eq_ok {f : Nat → α → Except ε β} {l : List α} : ∀ {k : Nat} {bs : List β},
    numbered f k l = .ok bs →
      bs.length = l.length ∧ ∀ (i : Nat) (a : α), l[i]? = some a →
        ∃ b, bs[i]? = some b ∧ f (k + i) a = .ok b := by
  induction l with
  | nil =>
    intro k bs h
    cases h
    exact ⟨rfl, nofun⟩
  | cons x l ih =>
    intro k bs h
    obtain ⟨b, bs', hb, hbs, rfl⟩ := numbered_cons_eq_ok.mp h
    obtain ⟨hlen, hall⟩ := ih hbs
    refine ⟨by rw [List.length_cons, List.length_cons, hlen], fun i a hi => ?_⟩
    cases i with
    | zero =>
      cases hi
      exact ⟨b, rfl, hb⟩
    | succ i =>
      obtain ⟨b', hget, hf⟩ := hall i a hi
      exact ⟨b', hget, by rwa [show k + (i + 1) = k + 1 + i from by omega]⟩

theorem numbered_total {f : Nat → α → Except ε β} {l : List α} : ∀ {k : Nat},
    (∀ (i : Nat) (a : α), l[i]? = some a → ∃ b, f (k + i) a = .ok b) →
      ∃ bs, numbered f k l = .ok bs := by
  induction l with
  | nil => intro k _; exact ⟨[], rfl⟩
  | cons a l ih =>
    intro k h
    obtain ⟨b, hb⟩ := h 0 a rfl
    obtain ⟨bs, hbs⟩ := ih (k := k + 1) (fun i a' hi => by
      obtain ⟨b', hb'⟩ := h (i + 1) a' hi
      exact ⟨b', by rwa [show k + 1 + i = k + (i + 1) from by omega]⟩)
    exact ⟨b :: bs, numbered_cons_eq_ok.mpr ⟨b, bs, hb, hbs, rfl⟩⟩

/-- When the body maps item `a` with number `k` to `g k a`, the results are those. -/
theorem numbered_eq_mapIdx {f : Nat → α → Except ε β} {g : Nat → α → β}
    (hfg : ∀ k a b, f k a = .ok b → b = g k a) {l : List α} : ∀ {k : Nat} {bs : List β},
    numbered f k l = .ok bs → bs = l.mapIdx (fun i a => g (k + i) a) := by
  induction l with
  | nil =>
    intro k bs h
    cases h
    rfl
  | cons x l ih =>
    intro k bs h
    obtain ⟨b, bs', hb, hbs, rfl⟩ := numbered_cons_eq_ok.mp h
    rw [List.mapIdx_cons, hfg k x b hb, ih hbs]
    congr 1
    apply List.ext_getElem?
    intro i
    rw [List.getElem?_mapIdx, List.getElem?_mapIdx, show k + 1 + i = k + (i + 1) from by omega]

theorem map_mapIdx {γ : Type} (g : β → γ) (f : Nat → α → β) (l : List α) :
    (l.mapIdx f).map g = l.mapIdx (fun i a => g (f i a)) := by
  apply List.ext_getElem?
  intro i
  rw [List.getElem?_map, List.getElem?_mapIdx, List.getElem?_mapIdx, Option.map_map]
  rfl

theorem mapIdx_map {γ : Type} (g : α → β) (f : Nat → β → γ) (l : List α) :
    (l.map g).mapIdx f = l.mapIdx (fun i a => f i (g a)) := by
  apply List.ext_getElem?
  intro i
  rw [List.getElem?_mapIdx, List.getElem?_mapIdx, List.getElem?_map, Option.map_map]
  rfl

theorem mapIdx_eq_map (g : α → β) (l : List α) : l.mapIdx (fun _ a => g a) = l.map g := by
  apply List.ext_getElem?
  intro i
  rw [List.getElem?_mapIdx, List.getElem?_map]

theorem filterMap_mapIdx {γ : Type} {f : Nat → α → β} {g : β → Option γ} {f' : Nat → α → γ}
    (h : ∀ i a, g (f i a) = some (f' i a)) (l : List α) :
    (l.mapIdx f).filterMap g = l.mapIdx f' := by
  induction l generalizing f f' with
  | nil => rfl
  | cons a l ih =>
    rw [List.mapIdx_cons, List.mapIdx_cons, List.filterMap_cons, h]
    exact congrArg _ (ih (fun i b => h (i + 1) b))

theorem numbered_eq_map {f : Nat → α → Except ε β} {g : α → β}
    (hfg : ∀ k a b, f k a = .ok b → b = g a) {l : List α} {k : Nat} {bs : List β}
    (h : numbered f k l = .ok bs) : bs = l.map g := by
  rw [numbered_eq_mapIdx hfg h]
  apply List.ext_getElem?
  intro i
  rw [List.getElem?_mapIdx, List.getElem?_map]

theorem numbered_map {γ : Type} (f : Nat → α → Except ε β) (g : γ → α) (l : List γ) :
    ∀ k, numbered f k (l.map g) = numbered (fun i c => f i (g c)) k l := by
  induction l with
  | nil => intro k; rfl
  | cons c l ih =>
    intro k
    rw [List.map_cons, numbered, ih, numbered]

/-- `numbered`, raising `dup` on the key of an item that was `seen` before. -/
def numberedFresh {κ : Type} [DecidableEq κ] (key : α → κ) (dup : κ → ε)
    (f : Nat → α → Except ε β) : List κ → Nat → List α → Except ε (List β)
  | _, _, [] => .ok []
  | seen, k, a :: l => do
    ensure (key a ∉ seen) (dup (key a))
    let b ← f k a
    let bs ← numberedFresh key dup f (key a :: seen) (k + 1) l
    return b :: bs

theorem numberedFresh_eq_ok {κ : Type} [DecidableEq κ] {key : α → κ} {dup : κ → ε}
    {f : Nat → α → Except ε β} {l : List α} : ∀ {seen : List κ} {k : Nat} {bs : List β},
    numberedFresh key dup f seen k l = .ok bs →
      numbered f k l = .ok bs ∧ (l.map key).Nodup ∧ ∀ a ∈ l, key a ∉ seen := by
  induction l with
  | nil =>
    intro seen k bs h
    exact ⟨h, List.nodup_nil, nofun⟩
  | cons x l ih =>
    intro seen k bs h
    obtain ⟨_, hx, h⟩ := bind_eq_ok.mp h
    obtain ⟨b, hb, h⟩ := bind_eq_ok.mp h
    obtain ⟨bs', hbs, h⟩ := bind_eq_ok.mp h
    cases h
    obtain ⟨hnum, hnodup, hseen⟩ := ih hbs
    refine ⟨numbered_cons_eq_ok.mpr ⟨b, bs', hb, hnum, rfl⟩, ?_, ?_⟩
    · rw [List.map_cons, List.nodup_cons]
      refine ⟨fun hmem => ?_, hnodup⟩
      obtain ⟨a, ha, hkey⟩ := List.mem_map.mp hmem
      exact hseen a ha (hkey ▸ List.mem_cons_self)
    · intro a ha
      rcases List.mem_cons.mp ha with rfl | ha
      · exact ensure_eq_ok.mp hx
      · exact fun hmem => hseen a ha (List.mem_cons_of_mem _ hmem)

/-- **When the body can only give `g a`, the results are the image of the list.** -/
theorem mapM_eq_some {f : α → Option β} {g : α → β} : ∀ {l : List α} {bs : List β},
    l.mapM f = some bs → (∀ a ∈ l, ∀ b, f a = some b → b = g a) → bs = l.map g := by
  intro l
  induction l with
  | nil =>
    intro bs h _
    rw [List.mapM_nil] at h
    cases h
    rfl
  | cons a l ih =>
    intro bs h hg
    rw [List.mapM_cons] at h
    obtain ⟨b, hb, h⟩ := Option.bind_eq_some_iff.mp h
    obtain ⟨bs', hbs, h⟩ := Option.bind_eq_some_iff.mp h
    cases h
    rw [List.map_cons, hg a List.mem_cons_self b hb,
      ih hbs (fun a' ha' => hg a' (List.mem_cons_of_mem _ ha'))]

theorem mapM_forall {f : α → Option β} : ∀ {l : List α} {bs : List β},
    l.mapM f = some bs → ∀ a ∈ l, ∃ b, f a = some b := by
  intro l
  induction l with
  | nil => intro bs _; exact nofun
  | cons a l ih =>
    intro bs h
    rw [List.mapM_cons] at h
    obtain ⟨b, hb, h⟩ := Option.bind_eq_some_iff.mp h
    obtain ⟨bs', hbs, h⟩ := Option.bind_eq_some_iff.mp h
    exact List.forall_mem_cons.mpr ⟨⟨b, hb⟩, ih hbs⟩

theorem mapM_getElem? {f : α → Option β} : ∀ {l : List α} {bs : List β}, l.mapM f = some bs →
    ∀ {k : Nat} {b : β}, bs[k]? = some b → ∃ a, l[k]? = some a ∧ f a = some b := by
  intro l
  induction l with
  | nil =>
    intro bs h k b hk
    rw [List.mapM_nil] at h
    cases h
    cases hk
  | cons x l ih =>
    intro bs h k b hk
    rw [List.mapM_cons] at h
    obtain ⟨y, hy, h⟩ := Option.bind_eq_some_iff.mp h
    obtain ⟨ys, hys, h⟩ := Option.bind_eq_some_iff.mp h
    cases h
    cases k with
    | zero =>
      cases hk
      exact ⟨x, rfl, hy⟩
    | succ k => exact ih hys hk

end Fallible
