import InterSpec.Bridge.Strings
import InterSpec.Data.Dict

/-!
# The shadow option table

`make_context` and `sync_slots` of `integration/rsync_popt/p4c_bridge.cpp`, with the table
functions of `p4c_bridge_untrusted.c`.  The destinations of the host's options get slots in
the sandbox, the parser works on the slots, and `syncSlots` copies them back.

The parser itself and its header are outside: the constants of `popt.h`, the order in which
the hash map is traversed, the answers of the sandbox's allocator and `poptGetContext` are
the fields of `Surroundings`.  A destination of the host is a cell of its own: the address
decides which, so destinations at different addresses do not overlap.

* `Table`, `tableNew` .. `slotGetString`: the untrusted side.
* `assignSlots`, `initializeSlots`, `wireOptions`: the three loops of `makeContext`.
* `syncSlots`: the fourth, on the way back.
-/

namespace InterSpec.Bridge

open InterSpec.Runtime Fallible

/-- The bytes of a C string, without the terminator. -/
abbrev CString := { s : List UInt8 // (0 : UInt8) ∉ s }

/-- The string at the beginning of the bytes. -/
def CString.ofBytes (bytes : List UInt8) : CString :=
  ⟨bytes.takeWhile (fun b => b != 0), fun h => by simpa using List.mem_takeWhile_imp h⟩

/-! ### Options of the host -/

/-- The constants of `popt.h`. -/
structure PoptHeader where
  argMask : UInt32
  argNone : UInt32
  argString : UInt32
  argInt : UInt32
  argVal : UInt32

/-- `struct poptOption`; `arg` is the address of the destination, 0 for none. -/
structure PoptOption where
  longName : Option CString
  shortName : UInt8
  argInfo : UInt32
  arg : UInt64
  val : Int32
  descrip : Option CString
  argDescrip : Option CString

inductive SlotKind
  | integer
  | string
deriving DecidableEq, Repr

def optionSlotKind (header : PoptHeader) (option : PoptOption) : Except BridgeError SlotKind :=
  let type := option.argInfo &&& header.argMask
  if type = header.argString then .ok .string
  else if type = header.argNone ∨ type = header.argInt ∨ type = header.argVal then .ok .integer
  else .error .unsupportedType

/-- The entry that ends a table. -/
def PoptOption.Terminator (option : PoptOption) : Prop :=
  option.longName = none ∧ option.shortName = 0 ∧ option.arg = 0

instance PoptOption.decidableTerminator (option : PoptOption) : Decidable option.Terminator :=
  inferInstanceAs (Decidable (_ ∧ _ ∧ _))

/-- The loop of `option_count`, with the passes left before `count` is `UINT32_MAX`. -/
def optionCountFrom (options : Nat → PoptOption) (count : Nat) : Nat → Except BridgeError Nat
  | 0 => .error .optionTableTooLarge
  | passes + 1 =>
    if (options count).Terminator then .ok (count + 1)
    else optionCountFrom options (count + 1) passes

/-- The table is the memory from its first entry on. -/
def optionCount : Option (Nat → PoptOption) → Except BridgeError Nat
  | none => .error .nullOptionTable
  | some options => optionCountFrom options 0 (2 ^ 32 - 1)

/-- The destinations of the host, as integers and as pointers to strings. -/
structure Trusted where
  ints : UInt64 → Int32
  strings : UInt64 → Option CString

def Trusted.setInt (t : Trusted) (a : UInt64) (value : Int32) : Trusted :=
  { t with ints := fun b => if b = a then value else t.ints b }

def Trusted.setString (t : Trusted) (a : UInt64) (value : Option CString) : Trusted :=
  { t with strings := fun b => if b = a then value else t.strings b }

/-! ### The table of the sandbox -/

/-- `struct interspec_p4c_slot`; the union is one word. -/
structure Slot where
  kind : UInt32
  value : UInt32
deriving DecidableEq, Repr

def slotInt : UInt32 := 1
def slotString : UInt32 := 2

/-- An option of the sandbox; `arg` points to the value of a slot. -/
structure UOption where
  longName : UInt32
  shortName : UInt8
  argInfo : UInt32
  arg : Option UInt32
  val : Int32
  descrip : UInt32
  argDescrip : UInt32
deriving DecidableEq, Repr

structure Table where
  optionCount : UInt32
  slotCount : UInt32
  options : List UOption
  slots : List Slot
deriving DecidableEq, Repr

/-- `interspec_p4c_table_new`; memory from `calloc` is zero. -/
def tableNew (allocated : Bool) (optionCount slotCount : UInt32) : Option Table :=
  if allocated then
    some {
      optionCount := optionCount
      slotCount := slotCount
      options := List.replicate optionCount.toNat ⟨0, 0, 0, none, 0, 0, 0⟩
      slots := List.replicate (if slotCount ≠ 0 then slotCount.toNat else 1) ⟨0, 0⟩ }
  else none

/-- `interspec_p4c_slot_set_int` and `interspec_p4c_slot_set_string`. -/
def slotSet (table : Table) (index : UInt32) (slot : Slot) : Option Table :=
  if table.slotCount ≤ index then none
  else some { table with slots := table.slots.set index.toNat slot }

def slotSetInt (table : Table) (index : UInt32) (value : Int32) : Option Table :=
  slotSet table index ⟨slotInt, value.toUInt32⟩

def slotSetString (table : Table) (index value : UInt32) : Option Table :=
  slotSet table index ⟨slotString, value⟩

/-- The pointer that `interspec_p4c_option_set` stores; `none` where it returns 0. -/
def optionArg (table : Table) (slotIndex : UInt32) : Option (Option UInt32) :=
  if slotIndex = UInt32.ofNat (2 ^ 32 - 1) then some none
  else if table.slotCount ≤ slotIndex then none
  else
    match table.slots[slotIndex.toNat]? with
    | some slot =>
      if slot.kind = slotInt ∨ slot.kind = slotString then some (some slotIndex) else none
    | none => none

def optionSet (table : Table) (index shortName argInfo slotIndex : UInt32) (value : Int32) :
    Option Table :=
  if table.optionCount ≤ index then none
  else
    match optionArg table slotIndex with
    | none => none
    | some arg =>
      some { table with options := table.options.modify index.toNat (fun option =>
        { option with
          shortName := shortName.toUInt8
          argInfo := argInfo
          val := value
          arg := arg }) }

def optionSetStrings (table : Table) (index longName description argDescription : UInt32) :
    Option Table :=
  if table.optionCount ≤ index then none
  else
    some { table with options := table.options.modify index.toNat (fun option =>
      { option with
        longName := longName
        descrip := description
        argDescrip := argDescription }) }

def slotGetInt (table : Table) (index : UInt32) : Int32 :=
  if table.slotCount ≤ index then 0
  else
    match table.slots[index.toNat]? with
    | some slot => if slot.kind = slotInt then slot.value.toInt32 else 0
    | none => 0

def slotGetString (table : Table) (index : UInt32) : UInt32 :=
  if table.slotCount ≤ index then 0
  else
    match table.slots[index.toNat]? with
    | some slot => if slot.kind = slotString then slot.value else 0
    | none => 0

/-- `struct interspec_p4c_argv`. -/
structure UArgv where
  argc : UInt32
  argv : List UInt32
deriving DecidableEq, Repr

def argvNew (allocated : Bool) (argc : UInt32) : Option UArgv :=
  if allocated then some ⟨argc, List.replicate (argc.toNat + 1) 0⟩ else none

def argvSet (box : UArgv) (index value : UInt32) : Option UArgv :=
  if box.argc ≤ index then none else some { box with argv := box.argv.set index.toNat value }

/-! ### `make_context` -/

/-- What the two sides call and do not define. -/
structure Surroundings where
  header : PoptHeader
  /-- The order of `for (const auto& entry : slot_by_address)`. -/
  enumerate : List (UInt64 × UInt32) → List (UInt64 × UInt32)
  sandboxCall : Engine → CString → SandboxCall
  tableAllocated : Bool
  argvAllocated : Bool
  /-- `poptGetContext` on the name, the arguments, the options and the flags. -/
  getContext : Engine → UInt32 → UArgv → Table → UInt32 → Engine × UInt32

section MakeContext

variable (env : Surroundings)

/-- `copy_to_u` of a string or of a null pointer. -/
def copyString (e : Engine) : Option CString → Except BridgeError (Engine × UInt32)
  | none => .ok (e, 0)
  | some src =>
    let copied := copyToU (env.sandboxCall e src) e (some src.val)
    match copied.2 with
    | .error err => .error err
    | .ok ptr => .ok (copied.1, ptr.getD 0)

/-- The two containers of the first loop. -/
structure Assigned where
  slotByAddress : List (UInt64 × UInt32)
  kinds : List SlotKind
deriving DecidableEq, Repr

def assignSlot (assigned : Assigned) (option : PoptOption) : Except BridgeError Assigned :=
  if option.arg = 0 then .ok assigned
  else do
    let kind ← optionSlotKind env.header option
    match Dict.lookup option.arg assigned.slotByAddress with
    | none =>
      .ok ⟨assigned.slotByAddress ++ [(option.arg, UInt32.ofNat assigned.kinds.length)],
        assigned.kinds ++ [kind]⟩
    | some index =>
      if assigned.kinds[index.toNat]? ≠ some kind then .error .incompatibleTypes else .ok assigned

def assignSlots (options : List PoptOption) : Except BridgeError Assigned :=
  fold (assignSlot env) ⟨[], []⟩ options

structure SlotBinding where
  trustedAddress : UInt64
  kind : SlotKind
  index : UInt32
deriving DecidableEq, Repr

/-- The entry of the hash map with its kind. -/
def Assigned.binding (assigned : Assigned) (entry : UInt64 × UInt32) : SlotBinding :=
  ⟨entry.1, assigned.kinds.getD entry.2.toNat .integer, entry.2⟩

def initializeSlot (trusted : Trusted) (state : Engine × Table) (binding : SlotBinding) :
    Except BridgeError (Engine × Table) :=
  match binding.kind with
  | .integer =>
    match slotSetInt state.2 binding.index (trusted.ints binding.trustedAddress) with
    | none => .error .initializeIntSlot
    | some table => .ok (state.1, table)
  | .string => do
    let copied ← copyString env state.1 (trusted.strings binding.trustedAddress)
    match slotSetString state.2 binding.index copied.2 with
    | none => .error .initializeStringSlot
    | some table => .ok (copied.1, table)

def initializeSlots (trusted : Trusted) (state : Engine × Table) (bindings : List SlotBinding) :
    Except BridgeError (Engine × Table) :=
  fold (initializeSlot env trusted) state bindings

def slotOf (slotByAddress : List (UInt64 × UInt32)) (arg : UInt64) : Except BridgeError UInt32 :=
  if arg = 0 then .ok (UInt32.ofNat (2 ^ 32 - 1))
  else
    match Dict.lookup arg slotByAddress with
    | none => .error .outOfRange
    | some slot => .ok slot

def wireOption (slotByAddress : List (UInt64 × UInt32)) (options : Nat → PoptOption)
    (state : Engine × Table) (i : Nat) : Except BridgeError (Engine × Table) := do
  let option := options i
  let slot ← slotOf slotByAddress option.arg
  match optionSet state.2 (UInt32.ofNat i) option.shortName.toUInt32 option.argInfo slot
      option.val with
  | none => .error .copyOption
  | some table => do
    let longName ← copyString env state.1 option.longName
    let description ← copyString env longName.1 option.descrip
    let argDescription ← copyString env description.1 option.argDescrip
    match optionSetStrings table (UInt32.ofNat i) longName.2 description.2 argDescription.2 with
    | none => .error .copyOptionStrings
    | some table => .ok (argDescription.1, table)

def wireOptions (slotByAddress : List (UInt64 × UInt32)) (options : Nat → PoptOption)
    (state : Engine × Table) (count : Nat) : Except BridgeError (Engine × Table) :=
  fold (wireOption env slotByAddress options) state (List.range count)

def copyArgument (argv : Nat → Option CString) (state : Engine × UArgv) (i : Nat) :
    Except BridgeError (Engine × UArgv) := do
  let copied ← copyString env state.1 (argv i)
  match argvSet state.2 (UInt32.ofNat i) copied.2 with
  | none => .error .copyArgv
  | some box => .ok (copied.1, box)

structure TrustedContext where
  untrustedContext : UInt32
  untrustedTable : Table
  untrustedArgv : UArgv
  slots : List SlotBinding

/-- An allocation of the sandbox that may have failed. -/
def orBadAlloc {α : Type} : Option α → Except BridgeError α
  | none => .error .badAlloc
  | some a => .ok a

/-- `make_context`.  When it raises the process is aborted, so no state is returned. -/
def makeContext (e : Engine) (trusted : Trusted) (name : Option CString) (argc : Int32)
    (argv : Option (Nat → Option CString)) (options : Option (Nat → PoptOption))
    (flags : UInt32) : Except BridgeError (Engine × Option TrustedContext) := do
  ensure (¬ (argc < 0 ∨ 0 < argc ∧ argv.isNone)) .invalidArgv
  let count ← optionCount options
  let option := options.getD (fun _ => ⟨none, 0, 0, 0, 0, none, none⟩)
  let assigned ← assignSlots env ((List.range count).map option)
  let table ← orBadAlloc (tableNew env.tableAllocated (UInt32.ofNat count)
    (UInt32.ofNat assigned.kinds.length))
  let slots := (env.enumerate assigned.slotByAddress).map assigned.binding
  let initialized ← initializeSlots env trusted (e, table) slots
  let wired ← wireOptions env assigned.slotByAddress option initialized count
  let box ← orBadAlloc (argvNew env.argvAllocated argc.toUInt32)
  let copied ← fold (copyArgument env (argv.getD (fun _ => none))) (wired.1, box)
    (List.range argc.toNatClampNeg)
  let copiedName ← copyString env copied.1 name
  let context := env.getContext copiedName.1 copiedName.2 copied.2 wired.2 flags
  if context.2 = 0 then .ok (context.1, none)
  else .ok (context.1, some ⟨context.2, wired.2, copied.2, slots⟩)

end MakeContext

/-! ### `sync_slots` -/

def syncSlot (table : Table) (state : Engine × Trusted) (binding : SlotBinding) :
    Except BridgeError (Engine × Trusted) :=
  match binding.kind with
  | .integer =>
    .ok (state.1, state.2.setInt binding.trustedAddress (slotGetInt table binding.index))
  | .string =>
    let value := slotGetString table binding.index
    let copied := copyChecked state.1 (if value = 0 then none else some value.toUInt64)
    match copied.result with
    | .error err => .error err
    | .ok copy =>
      .ok (copied.engine,
        state.2.setString binding.trustedAddress (copy.map CString.ofBytes))

def syncSlots (context : TrustedContext) (e : Engine) (trusted : Trusted) :
    Except BridgeError (Engine × Trusted) :=
  fold (syncSlot context.untrustedTable) (e, trusted) context.slots

end InterSpec.Bridge
