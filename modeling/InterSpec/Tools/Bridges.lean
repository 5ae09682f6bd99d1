import InterSpec.Data.Fallible
import InterSpec.Data.Regex
import InterSpec.Tools.Text

/-!
# The wasm bridge builders

`tools/build_p9b_wasm2c_bridge.py` and `tools/build_p11_wasm2c_rlbox_only_bridge.py` rewrite
a bridge by a chain of replacements, each made in the text that the one before it left.

* `replaceOnce`, `regexOnce`: the replacement of a plain text and of a pattern.
* `P9b.transform`, `P11.transform`: the two chains.
* `replaceOnce_isOk_iff`: a plain text is replaced when it occurs exactly once.
* `regexOnce_isOk_iff`: a pattern is replaced when it occurs at all, since the search is
  stopped behind the first match.
* `regexOnce_leaves_second`: what is left behind where a pattern occurs twice.
* `refusesAmbiguity_iff`: the chains refuse an ambiguous anchor exactly when there is none.
* `transform_twoEngines`: a bridge with two constructors, of which one is rewritten.
-/

namespace InterSpec.Tools

open Fallible

/-! ### Texts -/

/-- Adjacent string literals. -/
def joined (literals : List String) : Str := literals.flatMap String.toList

theorem joined_ne_nil {literal : String} {literals : List String} {c : Char} {cs : Str}
    (h : literal = String.ofList (c :: cs)) : joined (literal :: literals) ≠ [] := by
  rw [joined, List.flatMap_cons, h, String.toList_ofList]
  exact List.cons_ne_nil _ _

/-- A replacement for `re.subn`, which reads a backslash as an escape. -/
structure Template where
  text : Str
  literal : '\\' ∉ text := by
    try simp only [joined, List.flatMap_cons, List.flatMap_nil, List.mem_append, not_or]
    and_intros
    all_goals
      try rw [String.toList_ofList]
      decide

/-! ### Replacements -/

/-- The `ValueError`s of the two builders. -/
inductive BridgeError
  | notExactlyOne (label : Str) (found : Nat)
  | activeSetup (marker : Str)
  | typedCopy
deriving DecidableEq, Repr

namespace BridgeError

def message : BridgeError → Str
  | notExactlyOne label found =>
    "expected exactly one ".toList ++ label ++ ", found ".toList ++ digits found
  | activeSetup marker => "RLBox-only bridge still contains active setup marker: ".toList ++ marker
  | typedCopy => "RLBox-only copy_to_u still uses the typed-copy path".toList

end BridgeError

def replaceOnce (text : Str) (old : Regex Char) (new label : Str) : Except BridgeError Str := do
  let count := old.count text
  ensure (count = 1) (.notExactlyOne label count)
  return (old.subn new 1 text).1

/-- `re.subn` gets `count=1`, so `count` is what was replaced and not what is there. -/
def regexOnce (text : Str) (pattern : Regex Char) (replacement : Template) (label : Str) :
    Except BridgeError Str := do
  let (result, count) := pattern.subn replacement.text 1 text
  ensure (count = 1) (.notExactlyOne label count)
  return result

inductive Step
  | replaceOnce (old : Regex Char) (new label : Str)
  | regexOnce (pattern : Regex Char) (replacement : Template) (label : Str)
  | replaceAll (old : Regex Char) (new : Str)
  | refuse (marker : Regex Char) (error : BridgeError)

def Step.apply (text : Str) : Step → Except BridgeError Str
  | .replaceOnce old new label => Tools.replaceOnce text old new label
  | .regexOnce pattern replacement label => Tools.regexOnce text pattern replacement label
  | .replaceAll old new => .ok (old.subn new text.length text).1
  | .refuse marker error => do
    ensure (¬ (marker.find text).isSome) error
    return text

/-! ### The two chains -/

/-- The constructor of `Engine`, up to the next method. -/
def enginePattern : Regex Char where
  head := joined ["  Engine() \x7b"]
  head_ne := joined_ne_nil rfl
  tail := [.lazyAny] ++ Regex.text (joined ["\n", "  \x7d\n", "\n", "  Sandbox& sandbox()"])

namespace P9b

def sandboxHeaders : Step :=
  .replaceOnce
    (.plain (joined ["#include \"rlbox.hpp\"\n", "#include \"rlbox_nacl_sandbox.hpp\""])
      (joined_ne_nil rfl))
    (joined [
      "#define RLBOX_USE_STATIC_CALLS() rlbox_wasm2c_sandbox_lookup_symbol\n",
      "#define RLBOX_WASM2C_MODULE_NAME glue__lib__wasm2c\n",
      "#include \"glue_lib_wasm2c.h\"\n",
      "#include \"rlbox.hpp\"\n",
      "#include \"rlbox_wasm2c_sandbox.hpp\""])
    "sandbox headers".toList

def wasmPolicyHeader : Step :=
  .replaceOnce (.plain (joined ["#include \"interspec_popt_t_policy.h\""]) (joined_ne_nil rfl))
    (joined ["#include \"interspec_t_policy.h\""])
    "wasm policy header".toList

def sandboxType : Step :=
  .replaceOnce
    (.plain (joined ["using SandboxType = rlbox::rlbox_nacl_sandbox;"]) (joined_ne_nil rfl))
    (joined ["using SandboxType = rlbox::rlbox_wasm2c_sandbox;"])
    "sandbox type".toList

def lifetimeTypedefs : Step :=
  .regexOnce {
    head := joined ["using p4c_release_fn ="]
    head_ne := joined_ne_nil rfl
    tail := [.lazyAny] ++
      Regex.text (joined ["using p4c_realloc_fn = uint32_t (*)(uint32_t, uint32_t);\n", "\n"]) }
    { text := [] }
    "NaCl lifetime typedefs".toList

def lifetimeDeclaration : Step :=
  .regexOnce {
    head := joined ["void interspec_popt_init_lifetime(uint32_t,\n"]
    head_ne := joined_ne_nil rfl
    tail := [.many isSpace] ++ Regex.text (joined ["p4c_release_fn,\n"]) ++ [.many isSpace] ++
      Regex.text (joined ["p4c_size_fn,\n"]) ++ [.many isSpace] ++
      Regex.text (joined ["p4c_realloc_fn);\n"]) }
    { text := [] }
    "NaCl lifetime declaration".toList

def callbackDeclarations : Step :=
  .regexOnce {
    head := joined [
      "class Engine;\n",
      "Engine& engine_from(Sandbox& sandbox);\n",
      "\n",
      "static U32 p4c_allocate"]
    head_ne := joined_ne_nil rfl
    tail := [.lazyAny] ++
      Regex.text (joined ["static U32 p4c_reallocate(Sandbox& sandbox, U32 ptr, U32 size);\n"]) }
    { text := joined [
      "class Engine;\n",
      "static uint32_t p9b_allocate(void*, uint32_t, uint32_t);\n",
      "static uint32_t p9b_release(void*, uint32_t);\n",
      "static uint32_t p9b_size(void*, uint32_t);\n",
      "static uint32_t p9b_reallocate(void*, uint32_t, uint32_t);\n"] }
    "NaCl callback declarations".toList

def engineConstructor : Step :=
  .regexOnce enginePattern
    { text := joined [
      "  Engine() \x7b\n",
      "    if (!sandbox_.create_sandbox())\n",
      "      throw std::runtime_error(\"failed to create RLBox wasm2c sandbox\");\n",
      "\n",
      "    constexpr uint32_t kArenaSize = 16u * 1024u * 1024u;\n",
      "    const uint32_t arena_base =\n",
      "      sandbox_.get_sandbox_impl()->reserve_typed_arena(kArenaSize);\n",
      "    if (!arena_base) throw std::runtime_error(\"failed to reserve typed arena\");\n",
      "\n",
      "    policy_runtime_ =\n",
      "      std::make_unique<interspec::PolicyRuntime>(arena_base, kArenaSize);\n",
      "    auto& runtime = policy_runtime_->runtime();\n",
      "    if (!interspec::rsync_popt_generated::register_types(runtime) ||\n",
      "        !interspec::rsync_popt_generated::register_wasm_allocation_policy(runtime))\n",
      "      throw std::runtime_error(",
      "\"failed to initialize wasm InterSpec allocation policy\");\n",
      "\n",
      "    sandbox_.sandbox_storage = this;\n",
      "    sandbox_.get_sandbox_impl()->set_interspec_runtime(\n",
      "      this, p9b_allocate, p9b_release, p9b_size, p9b_reallocate);\n",
      "  \x7d\n",
      "\n",
      "  Sandbox& sandbox()"] }
    "Engine constructor".toList

def allocationDispatch : Step :=
  .regexOnce {
    head := joined ["  uintptr_t allocate_for_callback_pc(uint32_t size) \x7b"]
    head_ne := joined_ne_nil rfl
    tail := [.lazyAny] ++ Regex.text (joined ["\n", "  \x7d\n"]) }
    { text := joined [
      "  uintptr_t allocate_for_site(uint32_t site_id, uint32_t size) \x7b\n",
      "    return runtime().allocate_from_site(size, site_id);\n",
      "  \x7d\n"] }
    "allocation dispatch method".toList

def callbackMembers : Step :=
  .regexOnce {
    head := joined [" private:\n", "  using AllocCallback ="]
    head_ne := joined_ne_nil rfl
    tail := [.lazyAny] ++ Regex.text (joined ["  ReallocCallback realloc_cb_;\n"]) }
    { text := joined [
      " private:\n",
      "  Sandbox sandbox_;\n",
      "  std::unique_ptr<interspec::PolicyRuntime> policy_runtime_;\n"] }
    "NaCl callback members".toList

/-- The members are not declared twice. -/
def mergedMembers : Step :=
  .replaceAll
    (.plain (joined [
      "  Sandbox sandbox_;\n",
      "  std::unique_ptr<interspec::PolicyRuntime> policy_runtime_;\n",
      "  Sandbox sandbox_;\n",
      "  std::unique_ptr<interspec::PolicyRuntime> policy_runtime_;\n"]) (joined_ne_nil rfl))
    (joined [
      "  Sandbox sandbox_;\n",
      "  std::unique_ptr<interspec::PolicyRuntime> policy_runtime_;\n"])

def callbackImplementations : Step :=
  .regexOnce {
    head := joined ["Engine& engine_from(Sandbox& sandbox) \x7b"]
    head_ne := joined_ne_nil rfl
    tail := [.lazyAny] ++
      Regex.text (joined ["\n", "\x7d\n", "\n", "static U32 p4c_allocate"]) ++ [.lazyAny] ++
      Regex.text (joined ["\n", "\x7d\n", "\n", "enum class SlotKind"]) }
    { text := joined [
      "static uint32_t p9b_allocate(void* context, uint32_t site_id, uint32_t size) \x7b\n",
      "  auto* value = static_cast<Engine*>(context);\n",
      "  return value ? static_cast<uint32_t>(value->allocate_for_site(site_id, size)) : 0u;\n",
      "\x7d\n",
      "\n",
      "static uint32_t p9b_release(void* context, uint32_t ptr) \x7b\n",
      "  auto* value = static_cast<Engine*>(context);\n",
      "  return value && value->runtime().release(ptr) ? 1u : 0u;\n",
      "\x7d\n",
      "\n",
      "static uint32_t p9b_size(void* context, uint32_t ptr) \x7b\n",
      "  auto* value = static_cast<Engine*>(context);\n",
      "  if (!value) return 0u;\n",
      "  size_t size = 0;\n",
      "  if (!value->runtime().allocation_size(ptr, size) ||\n",
      "      size > std::numeric_limits<uint32_t>::max())\n",
      "    return 0u;\n",
      "  return static_cast<uint32_t>(size);\n",
      "\x7d\n",
      "\n",
      "static uint32_t p9b_reallocate(void* context, uint32_t ptr, uint32_t size) \x7b\n",
      "  auto* value = static_cast<Engine*>(context);\n",
      "  return value ? static_cast<uint32_t>(value->runtime().reallocate(ptr, size)) : 0u;\n",
      "\x7d\n",
      "\n",
      "enum class SlotKind"] }
    "NaCl callback implementations".toList

def steps : List Step :=
  [sandboxHeaders, wasmPolicyHeader, sandboxType, lifetimeTypedefs, lifetimeDeclaration,
    callbackDeclarations, engineConstructor, allocationDispatch, callbackMembers, mergedMembers,
    callbackImplementations]

def transform (text : Str) : Except BridgeError Str := fold Step.apply text steps

end P9b

namespace P11

/-- `RLBOX_ONLY_CONSTRUCTOR`, and the next method. -/
def engineReplacement : Template where
  text := joined [
    "  Engine() \x7b\n",
    "    if (!sandbox_.create_sandbox())\n",
    "      throw std::runtime_error(\"failed to create RLBox wasm2c sandbox\");\n",
    "\n",
    "    /*\n",
    "     * P11 RLBox-only runtime-path baseline. Do not reserve the InterSpec typed\n",
    "     * arena, instantiate PolicyRuntime, register allocation-site provenance,\n",
    "     * or install InterSpec allocation/lifetime callbacks.\n",
    "     */\n",
    "    sandbox_.sandbox_storage = this;\n",
    "  \x7d\n",
    "\n",
    "  Sandbox& sandbox()"]

def engineConstructor : Step :=
  .regexOnce enginePattern engineReplacement "wasm Engine constructor".toList

/-- The method `copy_to_u`, up to the next one. -/
def copyPattern : Regex Char where
  head := joined ["  UCharPtr copy_to_u(const char* src) \x7b"]
  head_ne := joined_ne_nil rfl
  tail := [.lazyAny] ++ Regex.text (joined ["\n", "  \x7d\n", "\n", "  char* copy_checked"])

/-- `RLBOX_ONLY_COPY_TO_U`, and the next method. -/
def copyReplacement : Template where
  text := joined [
    "  UCharPtr copy_to_u(const char* src) \x7b\n",
    "    if (!src) return UCharPtr(nullptr);\n",
    "\n",
    "    const size_t bytes = std::strlen(src) + 1;\n",
    "    if (bytes > std::numeric_limits<uint32_t>::max())\n",
    "      throw std::runtime_error(\"popt string exceeds sandbox ABI\");\n",
    "\n",
    "    /* P11 RLBox-only marshalling uses the ordinary sandbox allocator. */\n",
    "    auto copy = sandbox_.malloc_in_sandbox<char>(static_cast<uint32_t>(bytes));\n",
    "    if (copy.UNSAFE_unverified() == nullptr) throw std::bad_alloc();\n",
    "    std::memcpy(copy.UNSAFE_unverified(), src, bytes);\n",
    "    return copy;\n",
    "  \x7d\n",
    "\n",
    "  char* copy_checked"]

def copyToU : Step := .regexOnce copyPattern copyReplacement "copy_to_u".toList

def reserveTypedArena : Step :=
  .refuse (.plain (joined ["reserve_typed_arena"]) (joined_ne_nil rfl))
    (.activeSetup "reserve_typed_arena".toList)

def setInterspecRuntime : Step :=
  .refuse (.plain (joined ["set_interspec_runtime"]) (joined_ne_nil rfl))
    (.activeSetup "set_interspec_runtime".toList)

def registerWasmAllocationPolicy : Step :=
  .refuse (.plain (joined ["register_wasm_allocation_policy"]) (joined_ne_nil rfl))
    (.activeSetup "register_wasm_allocation_policy".toList)

def typedCopyCall : Step :=
  .refuse
    (.plain (joined ["sandbox_.invoke_sandbox_function(interspec_p4c_typed_copy"])
      (joined_ne_nil rfl))
    .typedCopy

def steps : List Step :=
  [engineConstructor, copyToU, reserveTypedArena, setInterspecRuntime,
    registerWasmAllocationPolicy, typedCopyCall]

def transform (text : Str) : Except BridgeError Str := fold Step.apply text steps

end P11

/-! ### One replacement -/

/-- **A plain text is replaced when it occurs exactly once.** -/
theorem replaceOnce_isOk_iff {text : Str} {old : Regex Char} {new label : Str} :
    (∃ out, replaceOnce text old new label = .ok out) ↔ old.count text = 1 := by
  simp only [replaceOnce, bind_eq_ok]
  constructor
  · rintro ⟨_, _, hcount, _⟩
    exact ensure_eq_ok.mp hcount
  · exact fun hcount => ⟨_, (), ensure_eq_ok.mpr hcount, rfl⟩

theorem regexOnce_of_some {text before rest : Str} {pattern : Regex Char}
    (replacement : Template) (label : Str) (h : pattern.find text = some (before, rest)) :
    regexOnce text pattern replacement label = .ok (before ++ replacement.text ++ rest) := by
  rw [regexOnce, Regex.subn_one_of_some _ h]
  rfl

theorem regexOnce_of_none {text : Str} {pattern : Regex Char} (replacement : Template)
    (label : Str) (h : pattern.find text = none) :
    regexOnce text pattern replacement label = .error (.notExactlyOne label 0) := by
  rw [regexOnce, Regex.subn_one_of_none _ h]
  rfl

/-- **A pattern is replaced when it occurs at all.** -/
theorem regexOnce_isOk_iff {text : Str} {pattern : Regex Char} {replacement : Template}
    {label : Str} :
    (∃ out, regexOnce text pattern replacement label = .ok out) ↔ 0 < pattern.count text := by
  rw [Regex.count_pos_iff]
  cases h : pattern.find text with
  | none =>
    rw [regexOnce_of_none replacement label h]
    exact iff_of_false nofun Bool.false_ne_true
  | some found => exact iff_of_true ⟨_, regexOnce_of_some replacement label h⟩ rfl

/-- **Where the pattern occurs twice, the second occurrence stays in the result.** -/
theorem regexOnce_leaves_second {text out : Str} {pattern : Regex Char}
    {replacement : Template} {label : Str} (h : regexOnce text pattern replacement label = .ok out)
    (hcount : 2 ≤ pattern.count text) : ∃ before between second after,
      out = before ++ replacement.text ++ (between ++ second ++ after) ∧
      Regex.Matches pattern.items second := by
  cases hfind : pattern.find text with
  | none =>
    rw [Regex.count_of_none hfind] at hcount
    exact absurd hcount (by decide)
  | some found =>
    obtain ⟨before, rest⟩ := found
    rw [regexOnce_of_some replacement label hfind] at h
    rw [Regex.count_of_some hfind] at hcount
    have hrest : (pattern.find rest).isSome := Regex.count_pos_iff.mp (by omega)
    obtain ⟨between, second, after, rfl, hsecond⟩ := Regex.find_isSome_iff.mp hrest
    exact ⟨before, between, second, after, (Except.ok.inj h).symm, hsecond⟩

/-! ### A chain of replacements -/

/-- The steps that a run comes to, each with the text that it sees. -/
def reached : List Step → Str → List (Step × Str)
  | [], _ => []
  | step :: steps, text => (step, text) ::
    match step.apply text with
    | .ok next => reached steps next
    | .error _ => []

theorem apply_of_reached {steps : List Step} : ∀ {text out : Str},
    fold Step.apply text steps = .ok out → ∀ entry ∈ reached steps text,
      ∃ next, entry.1.apply entry.2 = .ok next := by
  induction steps with
  | nil => exact fun _ _ h => absurd h List.not_mem_nil
  | cons step steps ih =>
    intro text out h entry hentry
    obtain ⟨next, hnext, h⟩ := bind_eq_ok.mp h
    rw [reached, hnext] at hentry
    rcases List.mem_cons.mp hentry with rfl | hentry
    · exact ⟨next, hnext⟩
    · exact ih h entry hentry

/-- **An ambiguous anchor is refused**: every replacement succeeds only for exactly one
occurrence in the text that it sees, and a result has no second occurrence left in it. -/
structure RefusesAmbiguity (steps : List Step) (text : Str) : Prop where
  plain : ∀ old new label seen, (Step.replaceOnce old new label, seen) ∈ reached steps text →
    ((∃ out, replaceOnce seen old new label = .ok out) ↔ old.count seen = 1)
  regex : ∀ pattern replacement label seen,
    (Step.regexOnce pattern replacement label, seen) ∈ reached steps text →
      ((∃ out, regexOnce seen pattern replacement label = .ok out) ↔ pattern.count seen = 1)
  returned : ∀ out, fold Step.apply text steps = .ok out →
    ∀ pattern replacement label seen,
      (Step.regexOnce pattern replacement label, seen) ∈ reached steps text →
        pattern.count seen = 1

/-- No pattern occurs twice in the text that its step sees. -/
def Unambiguous (steps : List Step) (text : Str) : Prop :=
  ∀ pattern replacement label seen,
    (Step.regexOnce pattern replacement label, seen) ∈ reached steps text → pattern.count seen ≤ 1

theorem refusesAmbiguity_iff_unambiguous (steps : List Step) (text : Str) :
    RefusesAmbiguity steps text ↔ Unambiguous steps text := by
  constructor
  · intro h pattern replacement label seen hseen
    by_contra hcount
    have hok : ∃ out, regexOnce seen pattern replacement label = .ok out :=
      regexOnce_isOk_iff.mpr (by omega)
    have hone := (h.regex pattern replacement label seen hseen).mp hok
    omega
  · intro h
    have hregex : ∀ pattern replacement label seen,
        (Step.regexOnce pattern replacement label, seen) ∈ reached steps text →
          ((∃ out, regexOnce seen pattern replacement label = .ok out) ↔
            pattern.count seen = 1) := by
      intro pattern replacement label seen hseen
      have hle := h pattern replacement label seen hseen
      rw [regexOnce_isOk_iff]
      omega
    refine ⟨fun _ _ _ _ _ => replaceOnce_isOk_iff, hregex, ?_⟩
    intro out hrun pattern replacement label seen hseen
    exact (hregex pattern replacement label seen hseen).mp (apply_of_reached hrun _ hseen)

/-- **The two chains refuse an ambiguous anchor exactly when no step sees one.** -/
theorem refusesAmbiguity_iff (text : Str) :
    (RefusesAmbiguity P9b.steps text ↔ Unambiguous P9b.steps text) ∧
    (RefusesAmbiguity P11.steps text ↔ Unambiguous P11.steps text) :=
  ⟨refusesAmbiguity_iff_unambiguous P9b.steps text,
    refusesAmbiguity_iff_unambiguous P11.steps text⟩

/-! ### Two constructors -/

/-- A constructor that the pattern matches, and the next method. -/
def engineText : Str := joined ["  Engine() \x7b\n", "  \x7d\n", "\n", "  Sandbox& sandbox()"]

def copyText : Str :=
  joined ["  UCharPtr copy_to_u(const char* src) \x7b\n", "  \x7d\n", "\n", "  char* copy_checked"]

def twoEngines : Str := engineText ++ (engineText ++ copyText)

/-- The first constructor is replaced and the second one is not. -/
def halfRewritten : Str :=
  P11.engineReplacement.text ++ engineText ++ P11.copyReplacement.text

theorem find_first_engine : enginePattern.find twoEngines = some ([], engineText ++ copyText) := by
  simp only [twoEngines, Regex.find, Regex.items, enginePattern, engineText, copyText, joined,
    List.flatMap_cons, List.flatMap_nil]
  repeat rw [String.toList_ofList]
  decide +kernel

theorem find_second_engine :
    enginePattern.find (engineText ++ copyText) = some ([], copyText) := by
  simp only [Regex.find, Regex.items, enginePattern, engineText, copyText, joined,
    List.flatMap_cons, List.flatMap_nil]
  repeat rw [String.toList_ofList]
  decide +kernel

theorem find_copy :
    P11.copyPattern.find (P11.engineReplacement.text ++ (engineText ++ copyText)) =
      some (P11.engineReplacement.text ++ engineText, []) := by
  simp only [Regex.find, Regex.items, P11.copyPattern, P11.engineReplacement, engineText,
    copyText, joined, List.flatMap_cons, List.flatMap_nil]
  repeat rw [String.toList_ofList]
  decide +kernel

theorem refuse_of_none {text : Str} {marker : List String} {h : joined marker ≠ []}
    {error : BridgeError} (hsearch : Regex.search (Regex.text (joined marker) ++ []) text = none) :
    Step.apply text (.refuse (.plain (joined marker) h) error) = .ok text := by
  have hfind : (Regex.plain (joined marker) h).find text = none := hsearch
  refine bind_eq_ok.mpr ⟨(), ensure_eq_ok.mpr ?_, rfl⟩
  rw [hfind]
  exact Bool.false_ne_true

/-- The setup of the other bridge is not there. -/
theorem refuse_halfRewritten {step : Step} (hstep : step ∈ P11.steps.drop 2) :
    step.apply halfRewritten = .ok halfRewritten := by
  revert step
  simp only [P11.steps, List.drop_succ_cons, List.drop_zero, List.forall_mem_cons,
    P11.reserveTypedArena, P11.setInterspecRuntime, P11.registerWasmAllocationPolicy,
    P11.typedCopyCall]
  refine ⟨?_, ?_, ?_, ?_, fun _ h => absurd h List.not_mem_nil⟩
  all_goals
    apply refuse_of_none
    simp only [halfRewritten, P11.engineReplacement, engineText, P11.copyReplacement, joined,
      List.flatMap_cons, List.flatMap_nil]
    repeat rw [String.toList_ofList]
    decide +kernel

theorem fold_unchanged {steps : List Step} {text : Str}
    (h : ∀ step ∈ steps, step.apply text = .ok text) : fold Step.apply text steps = .ok text := by
  induction steps with
  | nil => rfl
  | cons step steps ih =>
    obtain ⟨hstep, hsteps⟩ := List.forall_mem_cons.mp h
    exact bind_eq_ok.mpr ⟨text, hstep, ih hsteps⟩

theorem P11.steps_eq : P11.steps = P11.engineConstructor :: P11.copyToU :: P11.steps.drop 2 := rfl

/-- **The bridge with the second constructor left in it is returned.** -/
theorem transform_twoEngines : P11.transform twoEngines = .ok halfRewritten := by
  have hengine : P11.engineConstructor.apply twoEngines =
      .ok (P11.engineReplacement.text ++ (engineText ++ copyText)) := by
    rw [P11.engineConstructor, Step.apply, regexOnce_of_some _ _ find_first_engine,
      List.nil_append]
  have hcopy : P11.copyToU.apply (P11.engineReplacement.text ++ (engineText ++ copyText)) =
      .ok halfRewritten := by
    rw [P11.copyToU, Step.apply, regexOnce_of_some _ _ find_copy, List.append_nil, halfRewritten]
  have hmarkers := fold_unchanged (fun step hstep => refuse_halfRewritten hstep)
  rw [P11.transform, P11.steps_eq, fold, bind_eq_ok]
  refine ⟨_, hengine, ?_⟩
  rw [fold, bind_eq_ok]
  exact ⟨_, hcopy, hmarkers⟩

theorem not_refusesAmbiguity : P11.transform twoEngines = .ok halfRewritten ∧
    ¬ RefusesAmbiguity P11.steps twoEngines := by
  refine ⟨transform_twoEngines, fun h => ?_⟩
  have hreached : (P11.engineConstructor, twoEngines) ∈ reached P11.steps twoEngines := by
    rw [P11.steps_eq, reached]
    exact List.mem_cons_self
  rw [P11.engineConstructor] at hreached
  have hcount := h.returned halfRewritten transform_twoEngines _ _ _ _ hreached
  rw [Regex.count_of_some find_first_engine, Regex.count_of_some find_second_engine] at hcount
  omega

end InterSpec.Tools
