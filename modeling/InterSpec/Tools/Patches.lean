import InterSpec.Data.Overlap
import InterSpec.Tools.Bridges
import Mathlib.Logic.Function.Basic

/-!
# The backend patches

`backends/rlbox_nacl/apply_backend.py` and `backends/rlbox_wasm2c/apply_backend.py` patch the
checkouts of the two backends in place.  A patch that is there already is passed over, and a
run that raises leaves behind what it has written.  The texts of the files are what
`read_text` gives.

* `Patch.replace`, `Backend.apply`: `replace` and `apply_backend`.
* `Nacl.backend`, `Wasm2c.backend`: the two checkouts with their patches.
* `Stable`: no patch can break into the text of one before it.
* `Backend.apply_apply`: a second run does what the first one did, and raises where it raised.
* `Backend.apply_repaired`: a run can be resumed after files were repaired by hand.
* `apply_backend_settles`: both backends have all of this.
-/

namespace InterSpec.Tools

open Fallible Overlap

/-! ### Patches -/

/-- A text that is replaced by another one in a file of `φ`. -/
structure Patch (φ : Type) where
  file : φ
  old : Str
  new : Str
  old_ne : old ≠ []
  new_ne : new ≠ []

/-- The files that can be read. -/
abbrev Files (φ : Type) := φ → Option Str

/-- What a run raises, about a repository of `ρ` or a file of `φ`. -/
inductive BackendError (ρ φ : Type)
  | git (repo : ρ)
  | unsupportedCheckout (repo : ρ) (expected actual : Str)
  | notFound (file : φ)
  | contextNotFound (file : φ)
deriving DecidableEq

section Run

variable {ρ φ : Type}

/-- The texts of the `RuntimeError`s. -/
def BackendError.message (repoPath : ρ → Str) (filePath : φ → Str) :
    BackendError ρ φ → Option Str
  | unsupportedCheckout repo expected actual =>
    some ("unsupported checkout at ".toList ++ repoPath repo ++ ": expected ".toList ++ expected ++
      ", got ".toList ++ actual)
  | contextNotFound file => some ("backend patch context not found in ".toList ++ filePath file)
  | _ => none

/-- `require_head`; `heads` is what `git rev-parse HEAD` prints. -/
def requireHead (heads : ρ → Option Str) (head : ρ × Str) : Except (BackendError ρ φ) Unit :=
  match heads head.1 with
  | none => .error (.git head.1)
  | some output =>
    let actual := strip output
    ensure (actual = head.2) (.unsupportedCheckout head.1 head.2 actual)

variable [DecidableEq φ]

def Patch.replace (p : Patch φ) (files : Files φ) : Except (BackendError ρ φ) (Files φ) :=
  match files p.file with
  | none => .error (.notFound p.file)
  | some text =>
    if ((Regex.plain p.new p.new_ne).find text).isSome then .ok files
    else if ¬ ((Regex.plain p.old p.old_ne).find text).isSome then
      .error (.contextNotFound p.file)
    else
      .ok (Function.update files p.file
        (some ((Regex.plain p.old p.old_ne).subn p.new 1 text).1))

/-- The patches one after the other; the files stay as they are where one raises. -/
def applyPatches : List (Patch φ) → Files φ → Files φ × Except (BackendError ρ φ) Unit
  | [], files => (files, .ok ())
  | p :: ps, files =>
    match p.replace files with
    | .error e => (files, .error e)
    | .ok files => applyPatches ps files

/-- The checkouts that are patched, at the commits of `manifest.json`. -/
structure Backend (ρ φ : Type) where
  heads : List (ρ × Str)
  patches : List (Patch φ)

/-- `apply_backend`. -/
def Backend.apply (b : Backend ρ φ) (heads : ρ → Option Str) (files : Files φ) :
    Files φ × Except (BackendError ρ φ) Unit :=
  match forEach (requireHead heads) b.heads with
  | .error e => (files, .error e)
  | .ok _ => applyPatches b.patches files

end Run

/-! ### The NaCl backend -/

namespace Nacl

inductive Repo
  | root
  | native
deriving DecidableEq, Repr

inductive File
  | backend
  | selLdr
  | dynHeader
  | dynSource
  | syscallCommon
  | sysMemory
deriving DecidableEq, Repr

def Repo.path (root : Str) : Repo → Str
  | .root => root
  | .native => root ++ "/nacl_rlbox/native_client".toList

def File.path (root : Str) : File → Str
  | .backend => root ++ "/include/rlbox_nacl_sandbox.hpp".toList
  | .selLdr => Repo.native.path root ++ "/src/trusted/service_runtime/sel_ldr.h".toList
  | .dynHeader => Repo.native.path root ++ "/src/trusted/dyn_ldr/dyn_ldr_lib.h".toList
  | .dynSource => Repo.native.path root ++ "/src/trusted/dyn_ldr/dyn_ldr_lib.c".toList
  | .syscallCommon =>
    Repo.native.path root ++ "/src/trusted/service_runtime/nacl_syscall_common.c".toList
  | .sysMemory => Repo.native.path root ++ "/src/trusted/service_runtime/sys_memory.c".toList

def cstringHeader : Patch File where
  file := .backend
  old := joined [
    "#include <cstdint>\n",
    "#include <iostream>"]
  new := joined [
    "#include <cstdint>\n",
    "#include <cstring>\n",
    "#include <iostream>"]
  old_ne := joined_ne_nil rfl
  new_ne := joined_ne_nil rfl

def usingMemcpy : Patch File where
  file := .backend
  old := joined [
    "namespace rlbox \x7b\n",
    "\n",
    "namespace detail \x7b"]
  new := joined [
    "namespace rlbox \x7b\n",
    "\n",
    "using std::memcpy;\n",
    "\n",
    "namespace detail \x7b"]
  old_ne := joined_ne_nil rfl
  new_ne := joined_ne_nil rfl

def sandboxMethods : Patch File where
  file := .backend
  old := joined [
    "  using T_PointerType = uint32_t;\n",
    "  using T_ShortType = short;\n",
    "\n",
    "private:"]
  new := joined [
    "  using T_PointerType = uint32_t;\n",
    "  using T_ShortType = short;\n",
    "\n",
    "  T_PointerType reserve_typed_arena(size_t size)\n",
    "  \x7b\n",
    "    return static_cast<T_PointerType>(reserveTypedArena(sandbox, size));\n",
    "  \x7d\n",
    "\n",
    "  T_PointerType sandbox_address(const void* ptr) const\n",
    "  \x7b\n",
    "    return static_cast<T_PointerType>(\n",
    "      getSandboxedAddress(sandbox, reinterpret_cast<uintptr_t>(ptr)));\n",
    "  \x7d\n",
    "\n",
    "  uintptr_t callback_program_counter() const\n",
    "  \x7b\n",
    "    /* P7a authorizes the instruction that returns from this syscall. */\n",
    "    return getCallbackNewProgramCounter(sandbox);\n",
    "  \x7d\n",
    "\n",
    "  uintptr_t callback_new_program_counter() const\n",
    "  \x7b\n",
    "    return getCallbackNewProgramCounter(sandbox);\n",
    "  \x7d\n",
    "\n",
    "  uint32_t callback_slot_for_key(const void* key) const\n",
    "  \x7b\n",
    "    RLBOX_ACQUIRE_SHARED_GUARD(lock, callback_mutex);\n",
    "    for (uint32_t i = 0; i < MAX_CALLBACKS; ++i) \x7b\n",
    "      if (callback_unique_keys[i] == key) return i;\n",
    "    \x7d\n",
    "    return std::numeric_limits<uint32_t>::max();\n",
    "  \x7d\n",
    "\n",
    "  uintptr_t lookup_symbol_address(const char* name)\n",
    "  \x7b\n",
    "    return reinterpret_cast<uintptr_t>(impl_lookup_symbol(name));\n",
    "  \x7d\n",
    "\n",
    "private:"]
  old_ne := joined_ne_nil rfl
  new_ne := joined_ne_nil rfl

def arenaFields : Patch File where
  file := .selLdr
  old := joined [
    "  uintptr_t                 break_addr;   /* user addr */\n",
    "  /* data_end <= break_addr is an invariant */"]
  new := joined [
    "  uintptr_t                 break_addr;   /* user addr */\n",
    "  /* data_end <= break_addr is an invariant */\n",
    "\n",
    "  /* T-managed arena that remains readable/writable by U. */\n",
    "  uintptr_t                 typed_arena_start;\n",
    "  size_t                    typed_arena_size;"]
  old_ne := joined_ne_nil rfl
  new_ne := joined_ne_nil rfl

def counterFields : Patch File where
  file := .dynHeader
  old := joined [
    "\tsize_t callbackParamsAlreadyRead;\n"]
  new := joined [
    "\tsize_t callbackParamsAlreadyRead;\n",
    "\t/* Trusted NaCl execution state captured at callback syscall entry. */\n",
    "\tuintptr_t callbackProgramCounter;\n",
    "\tuintptr_t callbackNewProgramCounter;\n"]
  old_ne := joined_ne_nil rfl
  new_ne := joined_ne_nil rfl

def prototypes : Patch File where
  file := .dynHeader
  old := joined [
    "unsigned long getSandboxMemoryBase(NaClSandbox* sandbox);\n",
    "\n",
    "void* mallocInSandbox"]
  new := joined [
    "unsigned long getSandboxMemoryBase(NaClSandbox* sandbox);\n",
    "uintptr_t reserveTypedArena(NaClSandbox* sandbox, size_t size);\n",
    "uintptr_t getCallbackProgramCounter(NaClSandbox* sandbox);\n",
    "uintptr_t getCallbackNewProgramCounter(NaClSandbox* sandbox);\n",
    "\n",
    "void* mallocInSandbox"]
  old_ne := joined_ne_nil rfl
  new_ne := joined_ne_nil rfl

def clearCounters : Patch File where
  file := .dynSource
  old := joined [
    "  threadData->callbackParamsAlreadyRead = 0;\n"]
  new := joined [
    "  threadData->callbackParamsAlreadyRead = 0;\n",
    "  threadData->callbackProgramCounter = 0;\n",
    "  threadData->callbackNewProgramCounter = 0;\n"]
  old_ne := joined_ne_nil rfl
  new_ne := joined_ne_nil rfl

def reserveArena : Patch File where
  file := .dynSource
  old := joined [
    "unsigned long getSandboxMemoryBase(NaClSandbox* sandbox)\n",
    "\x7b\n",
    "  return sandbox->nap->mem_start;\n",
    "\x7d\n",
    "\n",
    "/********************** \"Function call stub\" helpers *****************************/"]
  new := joined [
    "unsigned long getSandboxMemoryBase(NaClSandbox* sandbox)\n",
    "\x7b\n",
    "  return sandbox->nap->mem_start;\n",
    "\x7d\n",
    "\n",
    "uintptr_t reserveTypedArena(NaClSandbox* sandbox, size_t size)\n",
    "\x7b\n",
    "  if (size == 0 || sandbox->nap->typed_arena_size != 0) return 0;\n",
    "\n",
    "  size = NaClRoundAllocPage(size);\n",
    "  uintptr_t addr = (uintptr_t) NaClSysMmapIntern(\n",
    "    sandbox->nap,\n",
    "    (void *) sandbox->nap->data_start,\n",
    "    size,\n",
    "    NACL_ABI_PROT_READ | NACL_ABI_PROT_WRITE,\n",
    "    NACL_ABI_MAP_ANONYMOUS | NACL_ABI_MAP_PRIVATE,\n",
    "    -1,\n",
    "    0);\n",
    "\n",
    "  if ((void *) addr == NACL_ABI_MAP_FAILED || NaClPtrIsNegErrno(&addr)) return 0;\n",
    "\n",
    "  sandbox->nap->typed_arena_start = addr;\n",
    "  sandbox->nap->typed_arena_size = size;\n",
    "  return addr;\n",
    "\x7d\n",
    "\n",
    "/********************** \"Function call stub\" helpers *****************************/"]
  old_ne := joined_ne_nil rfl
  new_ne := joined_ne_nil rfl

def counterGetters : Patch File where
  file := .dynSource
  old := joined [
    "NaClSandbox_Thread* callbackParamsBegin(NaClSandbox* sandbox)\n"]
  new := joined [
    "uintptr_t getCallbackProgramCounter(NaClSandbox* sandbox)\n",
    "\x7b\n",
    "  NaClSandbox_Thread* threadData = getThreadData(sandbox);\n",
    "  return threadData ? threadData->callbackProgramCounter : 0;\n",
    "\x7d\n",
    "\n",
    "uintptr_t getCallbackNewProgramCounter(NaClSandbox* sandbox)\n",
    "\x7b\n",
    "  NaClSandbox_Thread* threadData = getThreadData(sandbox);\n",
    "  return threadData ? threadData->callbackNewProgramCounter : 0;\n",
    "\x7d\n",
    "\n",
    "NaClSandbox_Thread* callbackParamsBegin(NaClSandbox* sandbox)\n"]
  old_ne := joined_ne_nil rfl
  new_ne := joined_ne_nil rfl

def dynLdrHeader : Patch File where
  file := .syscallCommon
  old := joined [
    "#include \"native_client/src/trusted/dyn_ldr/datastructures/ds_stack.h\"\n"]
  new := joined [
    "#include \"native_client/src/trusted/dyn_ldr/datastructures/ds_stack.h\"\n",
    "#include \"native_client/src/trusted/dyn_ldr/dyn_ldr_lib.h\"\n"]
  old_ne := joined_ne_nil rfl
  new_ne := joined_ne_nil rfl

def captureCounters : Patch File where
  file := .syscallCommon
  old := joined [
    "  if(callbackSlotNumber < CALLBACK_SLOTS_AVAILABLE && ",
    "natp->nap->callbackSlot[callbackSlotNumber] != 0)\n",
    "  \x7b\n",
    "    typedef void (*RegPtrPtrFunc)(uintptr_t, void*, uint64_t*);"]
  new := joined [
    "  if(callbackSlotNumber < CALLBACK_SLOTS_AVAILABLE && ",
    "natp->nap->callbackSlot[callbackSlotNumber] != 0)\n",
    "  \x7b\n",
    "    typedef void (*RegPtrPtrFunc)(uintptr_t, void*, uint64_t*);\n",
    "    NaClSandbox_Thread* interspecThreadData =\n",
    "      (NaClSandbox_Thread*) natp->custom_app_state;\n",
    "    if (interspecThreadData != NULL) \x7b\n",
    "      interspecThreadData->callbackProgramCounter = natp->user.prog_ctr;\n",
    "      interspecThreadData->callbackNewProgramCounter = natp->user.new_prog_ctr;\n",
    "    \x7d"]
  old_ne := joined_ne_nil rfl
  new_ne := joined_ne_nil rfl

def overlapGuard : Patch File where
  file := .sysMemory
  old := joined [
    "static INLINE size_t  size_min(size_t a, size_t b) \x7b\n",
    "  return (a < b) ? a : b;\n",
    "\x7d\n"]
  new := joined [
    "static INLINE size_t  size_min(size_t a, size_t b) \x7b\n",
    "  return (a < b) ? a : b;\n",
    "\x7d\n",
    "\n",
    "static int TypedArenaOverlaps(struct NaClApp *nap,\n",
    "                              uintptr_t start, size_t length) \x7b\n",
    "  if (nap->typed_arena_size == 0 || length == 0) return 0;\n",
    "\n",
    "  uintptr_t end = start + length;\n",
    "  if (end < start) return 1;\n",
    "  end = NaClRoundAllocPage(end);\n",
    "  if (end < start) return 1;\n",
    "\n",
    "  const uintptr_t arena_end =\n",
    "      nap->typed_arena_start + nap->typed_arena_size;\n",
    "  return start < arena_end && nap->typed_arena_start < end;\n",
    "\x7d\n"]
  old_ne := joined_ne_nil rfl
  new_ne := joined_ne_nil rfl

def guardMmap : Patch File where
  file := .sysMemory
  old := joined [
    "                    uint32_t              offp) \x7b\n",
    "  struct NaClApp  *nap = natp->nap;\n",
    "  nacl_abi_off_t  offset;"]
  new := joined [
    "                    uint32_t              offp) \x7b\n",
    "  struct NaClApp  *nap = natp->nap;\n",
    "  nacl_abi_off_t  offset;\n",
    "\n",
    "  if ((flags & NACL_ABI_MAP_FIXED) &&\n",
    "      TypedArenaOverlaps(nap, start, length)) \x7b\n",
    "    return -NACL_ABI_EINVAL;\n",
    "  \x7d"]
  old_ne := joined_ne_nil rfl
  new_ne := joined_ne_nil rfl

def guardMunmap : Patch File where
  file := .sysMemory
  old := joined [
    "int32_t NaClSysMunmap(struct NaClAppThread  *natp,\n",
    "                      uint32_t              start,\n",
    "                      uint32_t              length) \x7b\n",
    "  struct NaClApp *nap = natp->nap;"]
  new := joined [
    "int32_t NaClSysMunmap(struct NaClAppThread  *natp,\n",
    "                      uint32_t              start,\n",
    "                      uint32_t              length) \x7b\n",
    "  struct NaClApp *nap = natp->nap;\n",
    "\n",
    "  if (TypedArenaOverlaps(nap, start, length)) return -NACL_ABI_EINVAL;"]
  old_ne := joined_ne_nil rfl
  new_ne := joined_ne_nil rfl

def guardMprotect : Patch File where
  file := .sysMemory
  old := joined [
    "int32_t NaClSysMprotect(struct NaClAppThread  *natp,\n",
    "                        uint32_t              start,\n",
    "                        size_t                length,\n",
    "                        int                   prot) \x7b\n",
    "  struct NaClApp  *nap = natp->nap;"]
  new := joined [
    "int32_t NaClSysMprotect(struct NaClAppThread  *natp,\n",
    "                        uint32_t              start,\n",
    "                        size_t                length,\n",
    "                        int                   prot) \x7b\n",
    "  struct NaClApp  *nap = natp->nap;\n",
    "\n",
    "  if (TypedArenaOverlaps(nap, start, length)) return -NACL_ABI_EINVAL;"]
  old_ne := joined_ne_nil rfl
  new_ne := joined_ne_nil rfl

def backend : Backend Repo File where
  heads := [
    (.root, "0dd15342c86c0625c7c2ed7762a13feb524252d7".toList),
    (.native, "f274515ab22441ea6b4e937e519ace851fac308f".toList)]
  patches := [
    cstringHeader, usingMemcpy, sandboxMethods, arenaFields, counterFields, prototypes,
    clearCounters, reserveArena, counterGetters, dynLdrHeader, captureCounters, overlapGuard,
    guardMmap, guardMunmap, guardMprotect]

end Nacl

/-! ### The Wasm2c backend -/

namespace Wasm2c

inductive Repo
  | root
deriving DecidableEq, Repr

inductive File
  | cmake
  | memHeader
  | backend
deriving DecidableEq, Repr

def Repo.path (root : Str) : Repo → Str
  | .root => root

def File.path (root : Str) : File → Str
  | .cmake => root ++ "/CMakeLists.txt".toList
  | .memHeader => root ++ "/include/wasm2c_rt_mem.h".toList
  | .backend => root ++ "/include/rlbox_wasm2c_sandbox.hpp".toList

def rlboxCommit : String := "b0157dc84f86ffbe4549e32ed5cbdfad79c17f43"

def wabtCommit : String := "974221b1ef82f6393d004e5da6116f2ad3e44005"

def pinRlbox : Patch File where
  file := .cmake
  old := joined [
    "FetchContent_Declare(\n",
    "  rlbox\n",
    "  GIT_REPOSITORY https://github.com/PLSysSec/rlbox.git\n",
    "  GIT_TAG main)"]
  new := joined [
    "FetchContent_Declare(\n",
    "  rlbox\n",
    "  GIT_REPOSITORY https://github.com/PLSysSec/rlbox.git\n",
    "  GIT_TAG ",
    rlboxCommit,
    ")"]
  old_ne := joined_ne_nil rfl
  new_ne := joined_ne_nil rfl

def pinWabt : Patch File where
  file := .cmake
  old := joined [
    "FetchContent_Declare(\n",
    "  wasm2c_compiler\n",
    "  GIT_REPOSITORY https://github.com/WebAssembly/wabt/\n",
    "  GIT_TAG main)"]
  new := joined [
    "FetchContent_Declare(\n",
    "  wasm2c_compiler\n",
    "  GIT_REPOSITORY https://github.com/WebAssembly/wabt/\n",
    "  GIT_TAG ",
    wabtCommit,
    ")"]
  old_ne := joined_ne_nil rfl
  new_ne := joined_ne_nil rfl

def runtimeCallbacks : Patch File where
  file := .memHeader
  old := joined [
    "  typedef struct w2c_env\n",
    "  \x7b\n",
    "    wasm_rt_memory_t* sandbox_memory_info;\n",
    "    wasm_rt_funcref_table_t* sandbox_callback_table;\n",
    "  \x7d w2c_env;"]
  new := joined [
    "  typedef uint32_t (*interspec_wasm_alloc_fn)(void*, uint32_t, uint32_t);\n",
    "  typedef uint32_t (*interspec_wasm_release_fn)(void*, uint32_t);\n",
    "  typedef uint32_t (*interspec_wasm_size_fn)(void*, uint32_t);\n",
    "  typedef uint32_t (*interspec_wasm_reallocate_fn)(void*, uint32_t, uint32_t);\n",
    "\n",
    "  typedef struct w2c_env\n",
    "  \x7b\n",
    "    wasm_rt_memory_t* sandbox_memory_info;\n",
    "    wasm_rt_funcref_table_t* sandbox_callback_table;\n",
    "    void* interspec_context;\n",
    "    interspec_wasm_alloc_fn interspec_allocate;\n",
    "    interspec_wasm_release_fn interspec_release;\n",
    "    interspec_wasm_size_fn interspec_size;\n",
    "    interspec_wasm_reallocate_fn interspec_reallocate;\n",
    "  \x7d w2c_env;"]
  old_ne := joined_ne_nil rfl
  new_ne := joined_ne_nil rfl

def sandboxMethods : Patch File where
  file := .backend
  old := joined [
    "  using T_PointerType = uint32_t;\n",
    "  using T_ShortType = int16_t;\n",
    "\n",
    "private:"]
  new := joined [
    "  using T_PointerType = uint32_t;\n",
    "  using T_ShortType = int16_t;\n",
    "\n",
    "  T_PointerType reserve_typed_arena(size_t size)\n",
    "  \x7b\n",
    "    return impl_malloc_in_sandbox(size);\n",
    "  \x7d\n",
    "\n",
    "  T_PointerType sandbox_address(const void* ptr) const\n",
    "  \x7b\n",
    "    return impl_get_sandboxed_pointer<void*>(ptr);\n",
    "  \x7d\n",
    "\n",
    "  void set_interspec_runtime(void* context,\n",
    "                             ::interspec_wasm_alloc_fn allocate,\n",
    "                             ::interspec_wasm_release_fn release,\n",
    "                             ::interspec_wasm_size_fn size,\n",
    "                             ::interspec_wasm_reallocate_fn reallocate)\n",
    "  \x7b\n",
    "    sandbox_memory_env.interspec_context = context;\n",
    "    sandbox_memory_env.interspec_allocate = allocate;\n",
    "    sandbox_memory_env.interspec_release = release;\n",
    "    sandbox_memory_env.interspec_size = size;\n",
    "    sandbox_memory_env.interspec_reallocate = reallocate;\n",
    "  \x7d\n",
    "\n",
    "private:"]
  old_ne := joined_ne_nil rfl
  new_ne := joined_ne_nil rfl

def backend : Backend Repo File where
  heads := [(.root, "c4f18c48cea47421617f72ba5edc95c68aa85671".toList)]
  patches := [pinRlbox, pinWabt, runtimeCallbacks, sandboxMethods]

end Wasm2c

/-! ### One patch -/

section Replace

variable {ρ φ : Type}

/-- The checkout is at the commit. -/
def AtHead (heads : ρ → Option Str) (head : ρ × Str) : Prop :=
  ∃ output, heads head.1 = some output ∧ strip output = head.2

theorem requireHead_eq_ok {heads : ρ → Option Str} {head : ρ × Str} :
    (requireHead heads head : Except (BackendError ρ φ) Unit) = .ok () ↔ AtHead heads head := by
  rw [requireHead, AtHead]
  cases houtput : heads head.1 with
  | none => exact iff_of_false nofun nofun
  | some output =>
    refine ensure_eq_ok.trans ⟨fun h => ⟨output, rfl, h⟩, ?_⟩
    rintro ⟨output', heq, h⟩
    obtain rfl := Option.some.inj heq
    exact h

variable [DecidableEq φ]

/-- The new text is in the file. -/
def Patch.Present (p : Patch φ) (files : Files φ) : Prop :=
  ∃ text, files p.file = some text ∧ p.new <:+: text

theorem Patch.replace_of_present {p : Patch φ} {files : Files φ} (h : p.Present files) :
    p.replace files = (.ok files : Except (BackendError ρ φ) (Files φ)) := by
  obtain ⟨text, htext, hnew⟩ := h
  rw [Patch.replace, htext]
  exact if_pos (Regex.find_plain_isSome_iff.mpr hnew)

theorem Patch.replace_eq_ok {p : Patch φ} {files files' : Files φ}
    (h : p.replace files = (.ok files' : Except (BackendError ρ φ) (Files φ))) :
    (p.Present files ∧ files' = files) ∨ ∃ before behind,
      files p.file = some (before ++ p.old ++ behind) ∧
      files' = Function.update files p.file (some (before ++ p.new ++ behind)) := by
  rw [Patch.replace] at h
  cases htext : files p.file with
  | none =>
    rw [htext] at h
    cases h
  | some text =>
    rw [htext] at h
    dsimp only at h
    by_cases hnew : ((Regex.plain p.new p.new_ne).find text).isSome
    · rw [if_pos hnew] at h
      exact .inl ⟨⟨text, htext, Regex.find_plain_isSome_iff.mp hnew⟩, (Except.ok.inj h).symm⟩
    · rw [if_neg hnew] at h
      by_cases hold : ((Regex.plain p.old p.old_ne).find text).isSome
      · rw [if_neg (not_not.mpr hold)] at h
        obtain ⟨⟨before, behind⟩, hfound⟩ := Option.isSome_iff_exists.mp hold
        rw [Regex.subn_one_of_some _ hfound] at h
        exact .inr ⟨before, behind, congrArg some (Regex.eq_of_find_plain hfound),
          (Except.ok.inj h).symm⟩
      · rw [if_pos hold] at h
        cases h

theorem Patch.present_of_ok {p : Patch φ} {files files' : Files φ}
    (h : p.replace files = (.ok files' : Except (BackendError ρ φ) (Files φ))) :
    p.Present files' := by
  rcases p.replace_eq_ok h with ⟨hp, rfl⟩ | ⟨before, behind, _, rfl⟩
  · exact hp
  · exact ⟨_, Function.update_self _ _ _, before, behind, rfl⟩

/-- A patch of another file, or one whose old text is apart, keeps a new text. -/
theorem Patch.present_kept {p q : Patch φ} {files files' : Files φ}
    (h : p.replace files = (.ok files' : Except (BackendError ρ φ) (Files φ)))
    (hq : q.Present files) (hapart : q.file = p.file → Apart q.new p.old) :
    q.Present files' := by
  rcases p.replace_eq_ok h with ⟨_, rfl⟩ | ⟨before, behind, hold, rfl⟩
  · exact hq
  · obtain ⟨text, htext, hnew⟩ := hq
    by_cases hfile : q.file = p.file
    · rw [hfile, hold] at htext
      obtain rfl := Option.some.inj htext
      refine ⟨before ++ p.new ++ behind, ?_, ?_⟩
      · rw [hfile]
        exact Function.update_self _ _ _
      · exact (hapart hfile).infix_replace p.old_ne hnew
    · exact ⟨text, (Function.update_of_ne hfile _ _).trans htext, hnew⟩

end Replace

/-! ### A run of patches -/

/-- No patch can break into the new text of one before it. -/
def Stable {φ : Type} (patches : List (Patch φ)) : Prop :=
  patches.Pairwise (fun q p => q.file = p.file → Apart q.new p.old)

section Apply

variable {ρ φ : Type} [DecidableEq φ]

theorem applyPatches_of_ok {p : Patch φ} {ps : List (Patch φ)} {files files' : Files φ}
    (h : p.replace files = (.ok files' : Except (BackendError ρ φ) (Files φ))) :
    applyPatches (ρ := ρ) (p :: ps) files = applyPatches ps files' := by
  rw [applyPatches, h]

theorem applyPatches_of_error {p : Patch φ} {ps : List (Patch φ)} {files : Files φ}
    {e : BackendError ρ φ} (h : p.replace files = .error e) :
    applyPatches (p :: ps) files = (files, .error e) := by
  rw [applyPatches, h]

theorem applyPatches_kept {ps : List (Patch φ)} {q : Patch φ}
    (hstable : ∀ p ∈ ps, q.file = p.file → Apart q.new p.old) : ∀ {files : Files φ},
      q.Present files → q.Present (applyPatches (ρ := ρ) ps files).1 := by
  induction ps with
  | nil => exact fun h => h
  | cons p ps ih =>
    intro files hq
    obtain ⟨hp, hps⟩ := List.forall_mem_cons.mp hstable
    cases hok : p.replace (ρ := ρ) files with
    | error e =>
      rw [applyPatches_of_error hok]
      exact hq
    | ok files' =>
      rw [applyPatches_of_ok hok]
      exact ih hps (p.present_kept hok hq hp)

/-- **What one patch of a stable run leaves behind.** -/
theorem applyPatches_present {p : Patch φ} {ps : List (Patch φ)} (hstable : Stable (p :: ps))
    {files files' : Files φ} (hok : p.replace (ρ := ρ) files = .ok files') :
    p.Present (applyPatches (ρ := ρ) ps files').1 :=
  applyPatches_kept (List.pairwise_cons.mp hstable).1 (p.present_of_ok hok)

/-- **A second run does what the first one did.** -/
theorem applyPatches_twice {ps : List (Patch φ)} (hstable : Stable ps) (files : Files φ) :
    applyPatches (ρ := ρ) ps (applyPatches (ρ := ρ) ps files).1 = applyPatches ps files := by
  induction ps generalizing files with
  | nil => rfl
  | cons p ps ih =>
    cases hok : p.replace (ρ := ρ) files with
    | error e => rw [applyPatches_of_error hok, applyPatches_of_error hok]
    | ok files' =>
      have hp := applyPatches_present hstable hok
      rw [applyPatches_of_ok hok, applyPatches_of_ok (p.replace_of_present hp)]
      exact ih (List.pairwise_cons.mp hstable).2 files'

theorem applyPatches_ok {ps : List (Patch φ)} (hstable : Stable ps) {files : Files φ}
    (hok : (applyPatches (ρ := ρ) ps files).2 = .ok ()) :
    ∀ p ∈ ps, p.Present (applyPatches (ρ := ρ) ps files).1 := by
  induction ps generalizing files with
  | nil => exact fun p hp => absurd hp List.not_mem_nil
  | cons p ps ih =>
    cases hp : p.replace (ρ := ρ) files with
    | error e =>
      rw [applyPatches_of_error hp] at hok
      cases hok
    | ok files' =>
      have hpresent := applyPatches_present hstable hp
      rw [applyPatches_of_ok hp] at hok ⊢
      exact List.forall_mem_cons.mpr ⟨hpresent, ih (List.pairwise_cons.mp hstable).2 hok⟩

theorem applyPatches_of_present {ps : List (Patch φ)} {files : Files φ}
    (h : ∀ p ∈ ps, p.Present files) : applyPatches (ρ := ρ) ps files = (files, .ok ()) := by
  induction ps with
  | nil => rfl
  | cons p ps ih =>
    obtain ⟨hp, hps⟩ := List.forall_mem_cons.mp h
    rw [applyPatches_of_ok (p.replace_of_present hp), ih hps]

theorem applyPatches_frame {ps : List (Patch φ)} {file : φ} (h : ∀ p ∈ ps, p.file ≠ file) :
    ∀ files : Files φ, (applyPatches (ρ := ρ) ps files).1 file = files file := by
  induction ps with
  | nil => exact fun _ => rfl
  | cons p ps ih =>
    intro files
    obtain ⟨hp, hps⟩ := List.forall_mem_cons.mp h
    cases hok : p.replace (ρ := ρ) files with
    | error e => rw [applyPatches_of_error hok]
    | ok files' =>
      rw [applyPatches_of_ok hok, ih hps]
      rcases p.replace_eq_ok hok with ⟨_, rfl⟩ | ⟨before, behind, _, rfl⟩
      · rfl
      · exact Function.update_of_ne (Ne.symm hp) _ _

/-! ### Repairs -/

/-- The files with those of `byHand` replaced by hand. -/
def repaired (byHand : φ → Prop) [DecidablePred byHand] (texts files : Files φ) : Files φ :=
  fun file => if byHand file then texts file else files file

/-- **A patch reads and writes its own file only.** -/
theorem Patch.replace_local (p : Patch φ) (files : Files φ) :
    (∃ e : BackendError ρ φ, ∀ files' : Files φ, files' p.file = files p.file →
      p.replace files' = .error e) ∨
    ∃ text, ∀ files' : Files φ, files' p.file = files p.file →
      p.replace (ρ := ρ) files' = .ok (Function.update files' p.file text) := by
  cases htext : files p.file with
  | none =>
    refine .inl ⟨.notFound p.file, fun files' hsame => ?_⟩
    rw [Patch.replace, hsame]
  | some text =>
    by_cases hnew : ((Regex.plain p.new p.new_ne).find text).isSome
    · refine .inr ⟨some text, fun files' hsame => ?_⟩
      rw [← hsame, Function.update_eq_self, Patch.replace, hsame]
      exact if_pos hnew
    · by_cases hold : ((Regex.plain p.old p.old_ne).find text).isSome
      · refine .inr ⟨some ((Regex.plain p.old p.old_ne).subn p.new 1 text).1,
          fun files' hsame => ?_⟩
        rw [Patch.replace, hsame]
        exact (if_neg hnew).trans (if_neg (not_not.mpr hold))
      · refine .inl ⟨.contextNotFound p.file, fun files' hsame => ?_⟩
        rw [Patch.replace, hsame]
        exact (if_neg hnew).trans (if_pos hold)

section Repaired

variable {byHand : φ → Prop} [DecidablePred byHand] {texts files : Files φ} {file : φ}
  {text : Option Str}

theorem repaired_update_of_mem (h : byHand file) :
    Function.update (repaired byHand texts files) file text =
      repaired byHand (Function.update texts file text) files := by
  funext g
  by_cases hg : g = file
  · subst hg
    rw [Function.update_self, repaired, if_pos h, Function.update_self]
  · rw [Function.update_of_ne hg, repaired, repaired, Function.update_of_ne hg]

theorem repaired_update_of_not_mem (h : ¬ byHand file) :
    Function.update (repaired byHand texts files) file text =
      repaired byHand texts (Function.update files file text) := by
  funext g
  by_cases hg : g = file
  · subst hg
    rw [Function.update_self, repaired, if_neg h, Function.update_self]
  · rw [Function.update_of_ne hg, repaired, repaired, Function.update_of_ne hg]

/-- What was in a repaired file does not matter. -/
theorem repaired_of_mem (h : byHand file) :
    repaired byHand texts (Function.update files file text) = repaired byHand texts files := by
  funext g
  by_cases hg : g = file
  · subst hg
    rw [repaired, repaired, if_pos h, if_pos h]
  · rw [repaired, repaired, Function.update_of_ne hg]

end Repaired

/-- **A run over repaired files goes on where it had raised**: the patches of the other files
may be there already or not. -/
theorem applyPatches_repaired {ps : List (Patch φ)} (hstable : Stable ps) (byHand : φ → Prop)
    [DecidablePred byHand] (texts files res : Files φ) :
    applyPatches (ρ := ρ) ps (repaired byHand texts (applyPatches (ρ := ρ) ps files).1) =
        (res, .ok ()) ↔
      applyPatches (ρ := ρ) ps (repaired byHand texts files) = (res, .ok ()) := by
  induction ps generalizing texts files with
  | nil => rfl
  | cons p ps ih =>
    have hps := (List.pairwise_cons.mp hstable).2
    cases hok : p.replace (ρ := ρ) files with
    | error e => rw [applyPatches_of_error hok]
    | ok files' =>
      have hpresent := applyPatches_present hstable hok
      rw [applyPatches_of_ok hok]
      generalize hr : (applyPatches (ρ := ρ) ps files').1 = r at hpresent
      by_cases hmem : byHand p.file
      · -- the file was repaired, so both runs find the same text
        have hsame : ∀ files, repaired byHand texts files p.file = texts p.file :=
          fun files => if_pos hmem
        rcases p.replace_local (ρ := ρ) texts with ⟨e, he⟩ | ⟨text, ht⟩
        · rw [applyPatches_of_error (he _ (hsame r)), applyPatches_of_error (he _ (hsame files))]
          exact iff_of_false nofun nofun
        · rw [applyPatches_of_ok (ht _ (hsame r)), applyPatches_of_ok (ht _ (hsame files)),
            repaired_update_of_mem hmem, repaired_update_of_mem hmem, ← hr, ih hps]
          rcases p.replace_eq_ok hok with ⟨_, rfl⟩ | ⟨before, behind, _, rfl⟩
          · rfl
          · rw [repaired_of_mem hmem]
      · -- the file was not, so the patch is there or is made now
        have hthere : p.Present (repaired byHand texts r) := by
          obtain ⟨text, htext, hnew⟩ := hpresent
          exact ⟨text, (if_neg hmem).trans htext, hnew⟩
        have hmade : p.replace (ρ := ρ) (repaired byHand texts files) =
            .ok (repaired byHand texts files') := by
          rcases p.replace_local (ρ := ρ) files with ⟨e, he⟩ | ⟨text, ht⟩
          · exact nomatch hok.symm.trans (he files rfl)
          · rw [ht _ (if_neg hmem), repaired_update_of_not_mem hmem]
            have hfiles := Except.ok.inj (hok.symm.trans (ht files rfl))
            rw [hfiles]
        rw [applyPatches_of_ok (p.replace_of_present hthere), applyPatches_of_ok hmade, ← hr,
          ih hps]

/-! ### A backend -/

variable {b : Backend ρ φ} {heads : ρ → Option Str}

theorem Backend.apply_of_heads (h : ∀ head ∈ b.heads, AtHead heads head) (files : Files φ) :
    b.apply heads files = applyPatches b.patches files := by
  have hall : forEach (requireHead (φ := φ) heads) b.heads = .ok () :=
    forEach_eq_ok.mpr fun head hhead => requireHead_eq_ok.mpr (h head hhead)
  rw [Backend.apply, hall]

theorem Backend.apply_of_not_heads (h : ¬ ∀ head ∈ b.heads, AtHead heads head) :
    ∃ e, ∀ files : Files φ, b.apply heads files = (files, .error e) := by
  cases hall : forEach (requireHead (φ := φ) heads) b.heads with
  | error e => exact ⟨e, fun files => by rw [Backend.apply, hall]⟩
  | ok u =>
    exact absurd (fun head hhead => requireHead_eq_ok.mp (forEach_eq_ok.mp hall head hhead)) h

/-- **What a maintainer can rely on.**  Running the script twice is running it once, also when
it raises; a run that does not raise has made every patch; it changes nothing exactly when the
checkouts are at their commits and every patch is there; with another checkout it writes
nothing; and after repairs by hand it goes on as if it were run on the repaired originals. -/
structure Settles (b : Backend ρ φ) : Prop where
  twice : ∀ heads files, b.apply heads (b.apply heads files).1 = b.apply heads files
  complete : ∀ heads files, (b.apply heads files).2 = .ok () →
    ∀ p ∈ b.patches, p.Present (b.apply heads files).1
  fixed : ∀ heads files, b.apply heads files = (files, .ok ()) ↔
    (∀ head ∈ b.heads, AtHead heads head) ∧ ∀ p ∈ b.patches, p.Present files
  refused : ∀ heads, ¬ (∀ head ∈ b.heads, AtHead heads head) →
    ∃ e, ∀ files, b.apply heads files = (files, .error e)
  frame : ∀ heads files file, (∀ p ∈ b.patches, p.file ≠ file) →
    (b.apply heads files).1 file = files file
  resumed : ∀ heads (byHand : φ → Prop) [DecidablePred byHand] texts files res,
    b.apply heads (repaired byHand texts (b.apply heads files).1) = (res, .ok ()) ↔
      b.apply heads (repaired byHand texts files) = (res, .ok ())

theorem Settles.of_stable (hstable : Stable b.patches) : Settles b where
  twice heads files := by
    by_cases hheads : ∀ head ∈ b.heads, AtHead heads head
    · simp only [Backend.apply_of_heads hheads]
      exact applyPatches_twice hstable files
    · obtain ⟨e, he⟩ := Backend.apply_of_not_heads hheads
      simp only [he]
  complete heads files hok := by
    by_cases hheads : ∀ head ∈ b.heads, AtHead heads head
    · rw [Backend.apply_of_heads hheads] at hok ⊢
      exact applyPatches_ok hstable hok
    · obtain ⟨e, he⟩ := Backend.apply_of_not_heads hheads
      rw [he] at hok
      cases hok
  fixed heads files := by
    by_cases hheads : ∀ head ∈ b.heads, AtHead heads head
    · rw [Backend.apply_of_heads hheads]
      constructor
      · intro h
        have hpresent := applyPatches_ok hstable (congrArg Prod.snd h)
        rw [h] at hpresent
        exact ⟨hheads, hpresent⟩
      · exact fun h => applyPatches_of_present h.2
    · obtain ⟨e, he⟩ := Backend.apply_of_not_heads hheads
      rw [he]
      exact iff_of_false nofun (fun h => hheads h.1)
  refused _ h := Backend.apply_of_not_heads h
  frame heads files file h := by
    by_cases hheads : ∀ head ∈ b.heads, AtHead heads head
    · rw [Backend.apply_of_heads hheads]
      exact applyPatches_frame h files
    · obtain ⟨e, he⟩ := Backend.apply_of_not_heads hheads
      rw [he]
  resumed heads byHand _ texts files res := by
    by_cases hheads : ∀ head ∈ b.heads, AtHead heads head
    · simp only [Backend.apply_of_heads hheads]
      exact applyPatches_repaired hstable byHand texts files res
    · obtain ⟨e, he⟩ := Backend.apply_of_not_heads hheads
      rw [he files, he]

end Apply

/-! ### The two backends -/

theorem Nacl.stable : Stable Nacl.backend.patches := by
  simp only [Stable, Nacl.backend, List.pairwise_cons, List.forall_mem_cons, List.not_mem_nil,
    false_imp_iff, implies_true, and_true, List.Pairwise.nil]
  and_intros
  all_goals
    first
    | intro h
      cases h
      done
    | intro _
      apply Apart.of_clash
      simp only [cstringHeader, usingMemcpy, sandboxMethods, counterFields, prototypes,
        clearCounters, reserveArena, counterGetters, dynLdrHeader, captureCounters, overlapGuard,
        guardMmap, guardMunmap, guardMprotect, joined, List.flatMap_cons, List.flatMap_nil]
      repeat rw [String.toList_ofList]
      decide +kernel

theorem Wasm2c.stable : Stable Wasm2c.backend.patches := by
  simp only [Stable, Wasm2c.backend, List.pairwise_cons, List.forall_mem_cons, List.not_mem_nil,
    false_imp_iff, implies_true, and_true, List.Pairwise.nil]
  and_intros
  all_goals
    first
    | intro h
      cases h
      done
    | intro _
      apply Apart.of_clash
      simp only [pinRlbox, pinWabt, rlboxCommit, wabtCommit, joined, List.flatMap_cons,
        List.flatMap_nil]
      repeat rw [String.toList_ofList]
      decide +kernel

/-- **Both scripts can be run again, and resumed.** -/
theorem apply_backend_settles : Settles Nacl.backend ∧ Settles Wasm2c.backend :=
  ⟨.of_stable Nacl.stable, .of_stable Wasm2c.stable⟩

end InterSpec.Tools
