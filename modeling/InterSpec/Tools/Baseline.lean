import InterSpec.Data.Overlap
import InterSpec.Tools.Bridges
import Mathlib.Data.List.Nodup

/-!
# The baseline bridge

`tools/build_p9a_rlbox_only_bridge.py` makes the bridge without the typed heap from the bridge
with it, by three replacements of whole blocks.

* `P9a.Block`, `P9a.replaceOnce`, `P9a.transform`: the blocks and the chain.
* `P9a.Independent`: replacing one block does not show in the search for another one.
* `replaceOnce_comm`: two replacements can be exchanged.
* `baseline_exact`: when the chain succeeds, in every order, and what is left of the blocks.
-/

namespace InterSpec.Tools

open Fallible Overlap

namespace P9a

/-- A block of the bridge and what it becomes. -/
structure Block where
  old : Str
  new : Str
  label : Str
  old_ne : old ≠ []
  new_ne : new ≠ []

def Block.pattern (b : Block) : Regex Char := .plain b.old b.old_ne

/-- The error names the block by `{label} block`. -/
def replaceOnce (text : Str) (b : Block) : Except BridgeError Str :=
  Tools.replaceOnce text b.pattern b.new (b.label ++ " block".toList)

/-- The constructor without the typed arena. -/
def engineConstructor : Block where
  old := joined [
    "  Engine() \x7b\n",
    "    if (!sandbox_.create_sandbox(GLUE_LIB_NACL_PATH, NACL_LIBC_PATH))\n",
    "      throw std::runtime_error(\"failed to create RLBox NaCl sandbox\");\n",
    "\n",
    "    constexpr uint32_t kArenaSize = 16u * 1024u * 1024u;\n",
    "    const uint32_t arena_base =\n",
    "      sandbox_.get_sandbox_impl()->reserve_typed_arena(kArenaSize);\n",
    "    if (!arena_base) throw std::runtime_error(\"failed to reserve typed arena\");\n",
    "\n",
    "    policy_runtime_ =\n",
    "      std::make_unique<interspec::PolicyRuntime>(arena_base, kArenaSize);\n",
    "    auto* impl = sandbox_.get_sandbox_impl();\n",
    "    if (!policy_runtime_->initialize_from_sandbox(\n",
    "          *impl,\n",
    "          [](interspec::Runtime& runtime) \x7b\n",
    "            return interspec::rsync_popt_generated::register_types(runtime);\n",
    "          \x7d,\n",
    "          [](interspec::Runtime& runtime, auto resolve) \x7b\n",
    "            return interspec::rsync_popt_generated::register_allocation_policy(\n",
    "              runtime, resolve);\n",
    "          \x7d))\n",
    "      throw std::runtime_error(\"failed to initialize InterSpec allocation policy\");\n",
    "\n",
    "    sandbox_.sandbox_storage = this;\n",
    "    alloc_cb_ = sandbox_.register_callback(p4c_allocate);\n",
    "    release_cb_ = sandbox_.register_callback(p4c_release);\n",
    "    size_cb_ = sandbox_.register_callback(p4c_size);\n",
    "    realloc_cb_ = sandbox_.register_callback(p4c_reallocate);\n",
    "    const uint32_t alloc_slot = sandbox_.get_sandbox_impl()->callback_slot_for_key(\n",
    "      reinterpret_cast<const void*>(p4c_allocate));\n",
    "    if (alloc_slot == std::numeric_limits<uint32_t>::max())\n",
    "      throw std::runtime_error(\"failed to resolve allocator callback slot\");\n",
    "    sandbox_.invoke_sandbox_function(interspec_popt_init_lifetime,\n",
    "                                     alloc_slot,\n",
    "                                     release_cb_,\n",
    "                                     size_cb_,\n",
    "                                     realloc_cb_);\n",
    "  \x7d\n"]
  new := joined [
    "  Engine() \x7b\n",
    "    if (!sandbox_.create_sandbox(GLUE_LIB_NACL_PATH, NACL_LIBC_PATH))\n",
    "      throw std::runtime_error(\"failed to create RLBox NaCl sandbox\");\n",
    "\n",
    "    /*\n",
    "     * P9a RLBox-only baseline: do not reserve the InterSpec typed arena, create\n",
    "     * PolicyRuntime, register allocation provenance, or install lifetime\n",
    "     * callbacks. The sandbox and host-side API bridge remain unchanged.\n",
    "     */\n",
    "    sandbox_.sandbox_storage = this;\n",
    "  \x7d\n"]
  label := "Engine constructor".toList
  old_ne := joined_ne_nil rfl
  new_ne := joined_ne_nil rfl

/-- The copy into the ordinary heap of the sandbox. -/
def copyToU : Block where
  old := joined [
    "  UCharPtr copy_to_u(const char* src) \x7b\n",
    "    if (!src) return UCharPtr(nullptr);\n",
    "\n",
    "    const size_t bytes = std::strlen(src) + 1;\n",
    "    if (bytes > std::numeric_limits<uint32_t>::max())\n",
    "      throw std::runtime_error(\"popt string exceeds sandbox ABI\");\n",
    "\n",
    "    auto temporary = sandbox_.malloc_in_sandbox<char>(static_cast<uint32_t>(bytes));\n",
    "    if (temporary.UNSAFE_unverified() == nullptr)\n",
    "      throw std::bad_alloc();\n",
    "    std::memcpy(temporary.UNSAFE_unverified(), src, bytes);\n",
    "\n",
    "    auto typed =\n",
    "      sandbox_.invoke_sandbox_function(interspec_p4c_typed_copy, temporary);\n",
    "    sandbox_.free_in_sandbox(temporary);\n",
    "    if (typed.UNSAFE_unverified() == nullptr) throw std::bad_alloc();\n",
    "    return typed;\n",
    "  \x7d\n"]
  new := joined [
    "  UCharPtr copy_to_u(const char* src) \x7b\n",
    "    if (!src) return UCharPtr(nullptr);\n",
    "\n",
    "    const size_t bytes = std::strlen(src) + 1;\n",
    "    if (bytes > std::numeric_limits<uint32_t>::max())\n",
    "      throw std::runtime_error(\"popt string exceeds sandbox ABI\");\n",
    "\n",
    "    /* RLBox-only marshalling uses the sandbox's ordinary allocator. */\n",
    "    auto copy = sandbox_.malloc_in_sandbox<char>(static_cast<uint32_t>(bytes));\n",
    "    if (copy.UNSAFE_unverified() == nullptr) throw std::bad_alloc();\n",
    "    std::memcpy(copy.UNSAFE_unverified(), src, bytes);\n",
    "    return copy;\n",
    "  \x7d\n"]
  label := "copy_to_u".toList
  old_ne := joined_ne_nil rfl
  new_ne := joined_ne_nil rfl

/-- The copy out without the check. -/
def copyChecked : Block where
  old := joined [
    "#ifdef INTERSPEC_P8_MEASURE_NO_VALIDATION\n",
    "    /*\n",
    "     * Measurement-only baseline. The sandbox, marshalling, typed allocation,\n",
    "     * provenance, and workload remain identical; only the final Extended-SP3\n",
    "     * acceptance check is bypassed. This build is never used by correctness\n",
    "     * tests and deliberately trusts the known-valid benchmark workload.\n",
    "     */\n",
    "    const size_t bytes = std::strlen(raw) + 1;\n",
    "#else\n"]
  new := joined [
    "#ifdef INTERSPEC_P9A_RLBOX_ONLY\n",
    "    /*\n",
    "     * P9a RLBox-only baseline. InterSpec typed allocation/provenance is absent\n",
    "     * from both T and U. The benchmark uses known-valid data and keeps the\n",
    "     * established copy behavior while omitting the Extended-SP3 acceptance\n",
    "     * check.\n",
    "     */\n",
    "    const size_t bytes = std::strlen(raw) + 1;\n",
    "#elif defined(INTERSPEC_P8_MEASURE_NO_VALIDATION)\n",
    "    /*\n",
    "     * Measurement-only baseline. The sandbox, marshalling, typed allocation,\n",
    "     * provenance, and workload remain identical; only the final Extended-SP3\n",
    "     * acceptance check is bypassed. This build is never used by correctness\n",
    "     * tests and deliberately trusts the known-valid benchmark workload.\n",
    "     */\n",
    "    const size_t bytes = std::strlen(raw) + 1;\n",
    "#else\n"]
  label := "copy_checked baseline".toList
  old_ne := joined_ne_nil rfl
  new_ne := joined_ne_nil rfl

def blocks : List Block := [engineConstructor, copyToU, copyChecked]

def transform (text : Str) : Except BridgeError Str := fold replaceOnce text blocks

/-! ### One replacement -/

theorem replaceOnce_eq_ok {text out : Str} {b : Block} : replaceOnce text b = .ok out ↔
    b.pattern.count text = 1 ∧ ∃ before behind, b.pattern.find text = some (before, behind) ∧
      out = before ++ b.new ++ behind := by
  simp only [replaceOnce, Tools.replaceOnce, bind_eq_ok]
  constructor
  · rintro ⟨_, hcount, hout⟩
    have hcount := ensure_eq_ok.mp hcount
    have hsome := Regex.count_pos_iff.mp (show 0 < b.pattern.count text by omega)
    obtain ⟨⟨before, behind⟩, hfind⟩ := Option.isSome_iff_exists.mp hsome
    rw [Regex.subn_one_of_some _ hfind] at hout
    exact ⟨hcount, before, behind, hfind, (Except.ok.inj hout).symm⟩
  · rintro ⟨hcount, before, behind, hfind, rfl⟩
    refine ⟨(), ensure_eq_ok.mpr hcount, ?_⟩
    rw [Regex.subn_one_of_some _ hfind]
    rfl

theorem replaceOnce_of_count {text : Str} {b : Block} (h : b.pattern.count text ≠ 1) :
    replaceOnce text b =
      .error (.notExactlyOne (b.label ++ " block".toList) (b.pattern.count text)) := by
  rw [replaceOnce, Tools.replaceOnce, ensure, if_neg h]
  rfl

/-- Replacing `b` does not show in the search for `c`. -/
structure Independent (b c : Block) : Prop where
  old : Apart c.old b.old
  new : Apart c.old b.new

/-- **Another block occurs as often as before.** -/
theorem Independent.count {b c : Block} (h : Independent b c) {text out : Str}
    (hok : replaceOnce text b = .ok out) : c.pattern.count out = c.pattern.count text := by
  obtain ⟨_, before, behind, hfind, rfl⟩ := replaceOnce_eq_ok.mp hok
  rw [Regex.eq_of_find_plain hfind, Block.pattern, h.new.count_around b.new_ne,
    h.old.count_around b.old_ne]

theorem count_after {b : Block} (h : Apart b.old b.new) {text out : Str}
    (hok : replaceOnce text b = .ok out) : b.pattern.count out = 0 ∧ b.new <:+: out := by
  obtain ⟨hcount, before, behind, hfind, rfl⟩ := replaceOnce_eq_ok.mp hok
  refine ⟨?_, before, behind, rfl⟩
  rw [Regex.count_of_some hfind] at hcount
  have hbehind : b.pattern.count behind = 0 := by omega
  -- an occurrence in what is before would have been found
  have hbefore : b.pattern.find before = none := by
    cases hfound : b.pattern.find before with
    | none => rfl
    | some found =>
      obtain ⟨x, u⟩ := found
      have hx := Regex.eq_of_find_plain hfound
      obtain ⟨htext, hleast⟩ := Regex.find_plain_eq_some_iff.mp hfind
      have hle := hleast x (u ++ b.old ++ behind) (by rw [htext, hx]; simp)
      have hpos := List.length_pos_iff.mpr b.old_ne
      rw [hx] at hle
      simp only [List.length_append] at hle
      omega
  rw [Block.pattern, h.count_around b.new_ne]
  rw [Block.pattern] at hbehind hbefore
  rw [Regex.count_of_none hbefore, hbehind]

/-- **Two replacements can be exchanged.** -/
theorem replaceOnce_comm {b c : Block} (hbc : Independent b c) (hcb : Independent c b)
    {text mid out : Str} (hb : replaceOnce text b = .ok mid) (hc : replaceOnce mid c = .ok out) :
    ∃ mid', replaceOnce text c = .ok mid' ∧ replaceOnce mid' b = .ok out := by
  have hcount := hbc.count hb
  obtain ⟨hone, p, q, hp, rfl⟩ := replaceOnce_eq_ok.mp hb
  obtain ⟨htwo, x', u', hx', rfl⟩ := replaceOnce_eq_ok.mp hc
  rw [hcount] at htwo
  have htext := Regex.eq_of_find_plain hp
  rw [Block.pattern, hbc.new.find_around b.new_ne] at hx'
  have hfind : (Regex.plain c.old c.old_ne).find (p ++ b.old ++ q) = _ :=
    hbc.old.find_around b.old_ne
  rw [← htext] at hfind
  cases hbefore : (Regex.plain c.old c.old_ne).find p with
  | some found =>
    -- `c` is before `b`
    obtain ⟨x, u⟩ := found
    rw [hbefore] at hx' hfind
    obtain ⟨rfl, rfl⟩ := Prod.mk.inj (Option.some.inj hx')
    have hpx := Regex.eq_of_find_plain hbefore
    have hmid := replaceOnce_eq_ok.mpr ⟨htwo, x, _, hfind, rfl⟩
    refine ⟨_, hmid, replaceOnce_eq_ok.mpr ⟨(hcb.count hmid).trans hone, x ++ c.new ++ u, q, ?_,
      by simp only [List.append_assoc]⟩⟩
    have hold : (Regex.plain b.old b.old_ne).find (x ++ c.old ++ (u ++ b.old ++ q)) = _ :=
      hcb.old.find_around c.old_ne
    have hsplit : text = x ++ c.old ++ (u ++ b.old ++ q) := by
      rw [htext, hpx]
      simp only [List.append_assoc]
    rw [← hsplit, show (Regex.plain b.old b.old_ne).find text = some (p, q) from hp] at hold
    rw [Block.pattern, hcb.new.find_around c.new_ne]
    cases hfirst : (Regex.plain b.old b.old_ne).find x with
    | some found =>
      rw [hfirst] at hold
      obtain ⟨rfl, _⟩ := Prod.mk.inj (Option.some.inj hold)
      have hxp := congrArg List.length (Regex.eq_of_find_plain hfirst)
      have hlen := congrArg List.length hpx
      have hpos := List.length_pos_iff.mpr b.old_ne
      simp only [List.length_append] at hxp hlen
      omega
    | none =>
      rw [hfirst] at hold
      obtain ⟨⟨v, w⟩, hvw, heq⟩ := Option.map_eq_some_iff.mp hold.symm
      obtain ⟨hv, rfl⟩ := Prod.mk.inj heq
      rw [hpx] at hv
      obtain rfl : v = u := List.append_cancel_left hv
      dsimp only
      rw [hvw]
      rfl
  | none =>
    -- `c` is behind `b`
    rw [hbefore] at hx' hfind
    obtain ⟨⟨x, u⟩, hxu, heq⟩ := Option.map_eq_some_iff.mp hx'
    obtain ⟨rfl, rfl⟩ := Prod.mk.inj heq
    dsimp only at hfind
    rw [hxu, Option.map_some] at hfind
    have hqx := Regex.eq_of_find_plain hxu
    have hmid := replaceOnce_eq_ok.mpr ⟨htwo, _, _, hfind, rfl⟩
    refine ⟨_, hmid, replaceOnce_eq_ok.mpr ⟨(hcb.count hmid).trans hone, p, x ++ c.new ++ u, ?_,
      by simp only [List.append_assoc]⟩⟩
    have hold : (Regex.plain b.old b.old_ne).find (p ++ b.old ++ x ++ c.old ++ u) = _ :=
      hcb.old.find_around c.old_ne
    have hsplit : text = p ++ b.old ++ x ++ c.old ++ u := by
      rw [htext, hqx]
      simp only [List.append_assoc]
    rw [← hsplit, show (Regex.plain b.old b.old_ne).find text = some (p, q) from hp] at hold
    rw [Block.pattern, hcb.new.find_around c.new_ne]
    cases hfirst : (Regex.plain b.old b.old_ne).find (p ++ b.old ++ x) with
    | some found =>
      rw [hfirst] at hold
      obtain ⟨rfl, hw⟩ := Prod.mk.inj (Option.some.inj hold)
      have hfound := Regex.eq_of_find_plain hfirst
      obtain rfl : x = found.2 := List.append_cancel_left hfound
      rfl
    | none =>
      have hsome : ((Regex.plain b.old b.old_ne).find (p ++ b.old ++ x)).isSome :=
        Regex.find_plain_isSome_iff.mpr ⟨p, x, rfl⟩
      rw [hfirst] at hsome
      cases hsome

/-! ### The chain -/

/-- The blocks do not show in the searches for each other. -/
structure Untangled (bs : List Block) : Prop where
  others : ∀ b ∈ bs, ∀ c ∈ bs, b ≠ c → Independent b c
  itself : ∀ b ∈ bs, Apart b.old b.new
  nodup : bs.Nodup

theorem Untangled.tail {b : Block} {bs : List Block} (h : Untangled (b :: bs)) : Untangled bs where
  others c hc d hd := h.others c (List.mem_cons_of_mem b hc) d (List.mem_cons_of_mem b hd)
  itself c hc := h.itself c (List.mem_cons_of_mem b hc)
  nodup := (List.nodup_cons.mp h.nodup).2

theorem Untangled.head {b : Block} {bs : List Block} (h : Untangled (b :: bs)) :
    ∀ c ∈ bs, Independent b c := fun c hc =>
  h.others b List.mem_cons_self c (List.mem_cons_of_mem b hc) fun he =>
    (List.nodup_cons.mp h.nodup).1 (he ▸ hc)

theorem Untangled.perm {bs cs : List Block} (h : Untangled bs) (hperm : bs.Perm cs) :
    Untangled cs where
  others b hb c hc := h.others b (hperm.mem_iff.mpr hb) c (hperm.mem_iff.mpr hc)
  itself b hb := h.itself b (hperm.mem_iff.mpr hb)
  nodup := hperm.nodup_iff.mp h.nodup

theorem fold_cons_of_ok {b : Block} {bs : List Block} {text mid : Str}
    (h : replaceOnce text b = .ok mid) :
    fold replaceOnce text (b :: bs) = fold replaceOnce mid bs := by
  rw [fold, h]
  rfl

theorem fold_cons_of_error {b : Block} {bs : List Block} {text : Str} {e : BridgeError}
    (h : replaceOnce text b = .error e) : fold replaceOnce text (b :: bs) = .error e := by
  rw [fold, h]
  rfl

theorem replaceOnce_isOk_of_count {text : Str} {b : Block} (h : b.pattern.count text = 1) :
    ∃ out, replaceOnce text b = .ok out := by
  have hsome := Regex.count_pos_iff.mp (show 0 < b.pattern.count text by omega)
  obtain ⟨⟨before, behind⟩, hfind⟩ := Option.isSome_iff_exists.mp hsome
  exact ⟨_, replaceOnce_eq_ok.mpr ⟨h, before, behind, hfind, rfl⟩⟩

/-- **The chain fails at the first block that is not once in the source**, and says how often
it is there. -/
theorem fold_error {bs : List Block} (h : Untangled bs) {text : Str} :
    (∃ out, fold replaceOnce text bs = .ok out) ∧ (∀ b ∈ bs, b.pattern.count text = 1) ∨
    ∃ done b rest, bs = done ++ b :: rest ∧ (∀ c ∈ done, c.pattern.count text = 1) ∧
      b.pattern.count text ≠ 1 ∧ fold replaceOnce text bs =
        .error (.notExactlyOne (b.label ++ " block".toList) (b.pattern.count text)) := by
  induction bs generalizing text with
  | nil => exact .inl ⟨⟨text, rfl⟩, fun b hb => absurd hb List.not_mem_nil⟩
  | cons b bs ih =>
    by_cases hone : b.pattern.count text = 1
    · obtain ⟨mid, hmid⟩ := replaceOnce_isOk_of_count hone
      have hsame : ∀ c ∈ bs, c.pattern.count mid = c.pattern.count text :=
        fun c hc => (h.head c hc).count hmid
      rw [fold_cons_of_ok hmid]
      rcases @ih h.tail mid with ⟨hok, hall⟩ | ⟨done, c, rest, rfl, hdone, hc, herror⟩
      · refine .inl ⟨hok, List.forall_mem_cons.mpr ⟨hone, fun c hc => ?_⟩⟩
        rw [← hsame c hc]
        exact hall c hc
      · have hmem : c ∈ done ++ c :: rest := List.mem_append_right _ List.mem_cons_self
        rw [hsame c hmem] at hc herror
        refine .inr ⟨b :: done, c, rest, rfl, List.forall_mem_cons.mpr ⟨hone, fun d hd => ?_⟩, hc,
          herror⟩
        rw [← hsame d (List.mem_append_left _ hd)]
        exact hdone d hd
    · exact .inr ⟨[], b, bs, rfl, fun c hc => absurd hc List.not_mem_nil, hone,
        fold_cons_of_error (replaceOnce_of_count hone)⟩

/-- **The order of the replacements does not matter.** -/
theorem fold_perm {bs cs : List Block} (hperm : bs.Perm cs) (h : Untangled bs) :
    ∀ {text out : Str}, fold replaceOnce text bs = .ok out →
      fold replaceOnce text cs = .ok out := by
  induction hperm with
  | nil => exact fun hok => hok
  | cons b _ ih =>
    intro text out hok
    obtain ⟨mid, hmid, hok⟩ := bind_eq_ok.mp hok
    exact bind_eq_ok.mpr ⟨mid, hmid, ih h.tail hok⟩
  | swap b c bs =>
    intro text out hok
    obtain ⟨first, hfirst, hok⟩ := bind_eq_ok.mp hok
    obtain ⟨second, hsecond, hok⟩ := bind_eq_ok.mp hok
    have hne : c ≠ b := fun he => (List.nodup_cons.mp h.nodup).1 (he ▸ List.mem_cons_self)
    have hb : b ∈ c :: b :: bs := List.mem_cons_of_mem c List.mem_cons_self
    obtain ⟨mid, hmid, hlast⟩ := replaceOnce_comm (h.others c List.mem_cons_self b hb hne)
      (h.others b hb c List.mem_cons_self hne.symm) hfirst hsecond
    exact bind_eq_ok.mpr ⟨mid, hmid, bind_eq_ok.mpr ⟨second, hlast, hok⟩⟩
  | trans hbs _ ih1 ih2 => exact fun hok => ih2 (h.perm hbs) (ih1 h hok)

/-- What is counted of a block outside of the chain. -/
theorem count_fold {bs : List Block} {c : Block} (hc : ∀ b ∈ bs, Independent b c) :
    ∀ {text out : Str}, fold replaceOnce text bs = .ok out →
      c.pattern.count out = c.pattern.count text := by
  induction bs with
  | nil =>
    intro text out hok
    rw [Except.ok.inj hok]
  | cons b bs ih =>
    intro text out hok
    obtain ⟨hb, hbs⟩ := List.forall_mem_cons.mp hc
    obtain ⟨mid, hmid, hok⟩ := bind_eq_ok.mp hok
    rw [ih hbs hok, hb.count hmid]

/-- **No block of the chain is left.** -/
theorem count_fold_eq_zero {bs : List Block} (h : Untangled bs) :
    ∀ {text out : Str}, fold replaceOnce text bs = .ok out → ∀ b ∈ bs, b.pattern.count out = 0 := by
  induction bs with
  | nil => exact fun _ b hb => absurd hb List.not_mem_nil
  | cons b bs ih =>
    intro text out hok
    obtain ⟨mid, hmid, hok⟩ := bind_eq_ok.mp hok
    refine List.forall_mem_cons.mpr ⟨?_, ih h.tail hok⟩
    have hothers : ∀ c ∈ bs, Independent c b := fun c hc =>
      h.others c (List.mem_cons_of_mem b hc) b List.mem_cons_self fun he =>
        (List.nodup_cons.mp h.nodup).1 (he ▸ hc)
    rw [count_fold hothers hok]
    exact (count_after (h.itself b List.mem_cons_self) hmid).1

/-- **What is apart from the replaced blocks stays.** -/
theorem infix_fold {bs : List Block} {keep : Str} (hkeep : ∀ b ∈ bs, Apart keep b.old) :
    ∀ {text out : Str}, fold replaceOnce text bs = .ok out → keep <:+: text → keep <:+: out := by
  induction bs with
  | nil =>
    intro text out hok hin
    rwa [← Except.ok.inj hok]
  | cons b bs ih =>
    intro text out hok hin
    obtain ⟨hb, hbs⟩ := List.forall_mem_cons.mp hkeep
    obtain ⟨mid, hmid, hok⟩ := bind_eq_ok.mp hok
    obtain ⟨_, before, behind, hfind, rfl⟩ := replaceOnce_eq_ok.mp hmid
    rw [Regex.eq_of_find_plain hfind] at hin
    exact ih hbs hok (hb.infix_replace b.old_ne hin)

/-- **Every block has become what replaces it.** -/
theorem new_infix_fold {bs : List Block} (h : Untangled bs) :
    ∀ {text out : Str}, fold replaceOnce text bs = .ok out → ∀ b ∈ bs, b.new <:+: out := by
  induction bs with
  | nil => exact fun _ b hb => absurd hb List.not_mem_nil
  | cons b bs ih =>
    intro text out hok
    obtain ⟨mid, hmid, hok⟩ := bind_eq_ok.mp hok
    refine List.forall_mem_cons.mpr ⟨?_, ih h.tail hok⟩
    have hin := (count_after (h.itself b List.mem_cons_self) hmid).2
    exact infix_fold (fun c hc => (h.head c hc).new.symm) hok hin

/-! ### The three blocks -/

theorem Independent.of_clash {b c : Block} (hold : (clash c.old b.old || clash b.old c.old) = false)
    (hnew : (clash c.old b.new || clash b.new c.old) = false) : Independent b c :=
  ⟨.of_clash hold, .of_clash hnew⟩

theorem blocks_others : ∀ b ∈ blocks, ∀ c ∈ blocks, b ≠ c → Independent b c := by
  simp only [blocks, List.forall_mem_cons, List.not_mem_nil, false_imp_iff, implies_true, and_true,
    ne_eq, not_true_eq_false, true_and]
  and_intros
  all_goals
    intro _
    apply Independent.of_clash
    all_goals
      simp only [engineConstructor, copyToU, copyChecked, joined, List.flatMap_cons,
        List.flatMap_nil]
      repeat rw [String.toList_ofList]
      decide +kernel

theorem blocks_itself : ∀ b ∈ blocks, Apart b.old b.new := by
  simp only [blocks, List.forall_mem_cons, List.not_mem_nil, false_imp_iff, implies_true, and_true]
  and_intros
  all_goals
    apply Apart.of_clash
    simp only [engineConstructor, copyToU, copyChecked, joined, List.flatMap_cons,
      List.flatMap_nil]
    repeat rw [String.toList_ofList]
    decide +kernel

theorem blocks_nodup : blocks.Nodup := by
  refine List.Nodup.of_map Block.label ?_
  simp only [blocks, engineConstructor, copyToU, copyChecked, List.map_cons, List.map_nil]
  repeat rw [String.toList_ofList]
  decide +kernel

theorem untangled : Untangled blocks := ⟨blocks_others, blocks_itself, blocks_nodup⟩

/-- The chain ran on `text` and made `out`. -/
structure Made (text out : Str) : Prop where
  once : ∀ b ∈ blocks, b.pattern.count text = 1
  gone : ∀ b ∈ blocks, b.pattern.count out = 0
  there : ∀ b ∈ blocks, b.new <:+: out
  frame : ∀ keep, (∀ b ∈ blocks, Apart keep b.old) → keep <:+: text → keep <:+: out
  order : ∀ bs, blocks.Perm bs → fold replaceOnce text bs = .ok out
  again : transform out = .error (.notExactlyOne "Engine constructor block".toList 0)

/-- The chain stopped at `b`, which is there `b.pattern.count text` times. -/
structure Stopped (text : Str) (e : BridgeError) (before : List Block) (b : Block) : Prop where
  first : before ++ [b] <+: blocks
  once : ∀ c ∈ before, c.pattern.count text = 1
  notOnce : b.pattern.count text ≠ 1
  error : e = .notExactlyOne (b.label ++ " block".toList) (b.pattern.count text)

end P9a

open P9a in
/-- **The baseline is made of a bridge that has every block once**, in any order, and of no
other one, and the error counts in the bridge as it was given. -/
theorem baseline_exact (text : Str) :
    (∃ out, transform text = .ok out ∧ Made text out) ∨
      ∃ e before b, transform text = .error e ∧ Stopped text e before b := by
  rcases @fold_error blocks untangled text with
    ⟨⟨out, hok⟩, honce⟩ | ⟨before, b, rest, hsplit, hbefore, hb, herror⟩
  · have hgone := count_fold_eq_zero untangled hok
    refine .inl ⟨out, hok, honce, hgone, new_infix_fold untangled hok,
      fun keep hkeep => infix_fold hkeep hok, fun bs hperm => fold_perm hperm untangled hok, ?_⟩
    have hzero := hgone engineConstructor List.mem_cons_self
    have hne : engineConstructor.pattern.count out ≠ 1 := by omega
    rw [transform, blocks, fold_cons_of_error (replaceOnce_of_count hne), hzero]
    rw [show engineConstructor.label ++ " block".toList = "Engine constructor block".toList from
      (String.toList_append).symm]
  · refine .inr ⟨_, before, b, herror, ⟨rest, ?_⟩, hbefore, hb, rfl⟩
    rw [hsplit, List.append_assoc]
    rfl

end InterSpec.Tools
