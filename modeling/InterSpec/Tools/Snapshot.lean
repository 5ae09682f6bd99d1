import InterSpec.Data.Sorting
import InterSpec.Tools.Generate
import Mathlib.Data.Prod.Lex

/-!
# Policy snapshots

`tools/codeql_policy_to_json.py` makes the policy of the rows of a query result.
The rows come in the order in which the query engine gives them, and the policy is
checked in and compared line by line with a new one.

* `int`: `int(text)` in base ten; `decimal` is the value of a Unicode decimal digit.
* `codeqlPolicyToJson`: the policy of a list of rows.
* `codeqlPolicyToJson_collected`, `codeqlPolicyToJson_total`: it is made of the entries
  of the rows, and there is one when all of them convert.
* `orderIndependent_iff`: the order of the rows does not matter exactly when the sort
  keys separate the entries.
-/

namespace InterSpec.Tools

open Fallible

/-! ### Numbers in a text -/

inductive ConversionError
  | invalidLiteral (text : Str)
  | tooManyDigits (count : Nat)
deriving DecidableEq, Repr

namespace ConversionError

/-- The text of the `ValueError`; `repr` is Python's, which quotes a string. -/
def message (repr : Str → Str) : ConversionError → Str
  | invalidLiteral text =>
    "invalid literal for int() with base 10: ".toList ++ (repr text).take 200
  | tooManyDigits count =>
    "Exceeds the limit (4300 digits) for integer string conversion: value has ".toList ++
      digits count ++ " digits; use sys.set_int_max_str_digits() to increase the limit".toList

end ConversionError

/-- `int` does not skip the four ASCII separators, although `str.isspace` holds of them. -/
def isNumberSpace (c : Char) : Bool := isSpace c && !decide (28 ≤ c.toNat ∧ c.toNat ≤ 31)

/-- The digits at the head of a text, with single underscores between them, and what follows;
`digit` says that one was read last. -/
def readDigits (decimal : Char → Option Nat) : Bool → Str → Option (List Nat × Str)
  | digit, [] => if digit then some ([], []) else none
  | digit, '_' :: rest => if digit then readDigits decimal false rest else none
  | digit, c :: rest =>
    match decimal c with
    | none => if digit then some ([], c :: rest) else none
    | some value => (readDigits decimal true rest).map fun read => (value :: read.1, read.2)

def readSign : Str → Int × Str
  | '-' :: rest => (-1, rest)
  | '+' :: rest => (1, rest)
  | text => (1, text)

def maxStrDigits : Nat := 4300

def int (decimal : Char → Option Nat) (text : Str) : Except ConversionError Int :=
  let signed := readSign ((text.dropWhile isNumberSpace).rdropWhile isNumberSpace)
  match readDigits decimal false signed.2 with
  | none => .error (.invalidLiteral text)
  | some (values, rest) => do
    -- the digits are counted before anything behind them is looked at
    ensure (values.length ≤ maxStrDigits) (.tooManyDigits values.length)
    ensure (rest = []) (.invalidLiteral text)
    return signed.1 * (values.foldl (fun n value => 10 * n + value) 0 : Nat)

/-- The value of an ASCII digit. -/
def asciiDecimal (c : Char) : Option Nat := if c.isDigit then some (c.toNat - 48) else none

example : int asciiDecimal "-1_024\n".toList = .ok (-1024) := by decide

example : int asciiDecimal "12_".toList = .error (.invalidLiteral "12_".toList) := by decide

/-! ### Rows -/

inductive RowKind
  | allocation
  | use
  | dynamicUse
deriving DecidableEq, Repr

theorem RowKind.eq_use {kind : RowKind} (ha : kind ≠ .allocation) (hd : kind ≠ .dynamicUse) :
    kind = .use := by
  cases kind with
  | allocation => exact absurd rfl ha
  | use => rfl
  | dynamicUse => exact absurd rfl hd

def rowKind (field : Str) : Option RowKind :=
  if field = "allocation".toList then some .allocation
  else if field = "use".toList then some .use
  else if field = "dynamic_use".toList then some .dynamicUse
  else none

/-- `location` is `row[6:10]` where the row has ten fields. -/
structure ResultRow where
  kind : RowKind
  name : Str
  typeName : Str
  functionName : Str
  offset : Str
  size : Str
  location : Option (Str × Str × Str × Str)
deriving DecidableEq, Repr

def rowLocation : List Str → Option (Str × Str × Str × Str)
  | startLine :: startColumn :: endLine :: endColumn :: _ =>
    some (startLine, startColumn, endLine, endColumn)
  | _ => none

/-- The rows that are not skipped. -/
def resultRow : List Str → Option ResultRow
  | kind :: name :: typeName :: functionName :: offset :: size :: rest =>
    (rowKind kind).map (fun kind =>
      ⟨kind, name, typeName, functionName, offset, size, rowLocation rest⟩)
  | _ => none

variable (decimal : Char → Option Nat)

def rowSite (row : ResultRow) : Except ConversionError (Option SourceSpan) :=
  match row.location with
  | none => .ok none
  | some (startLine, startColumn, endLine, endColumn) => do
    let startLine ← int decimal startLine
    let startColumn ← int decimal startColumn
    let endLine ← int decimal endLine
    let endColumn ← int decimal endColumn
    return if min (min startLine startColumn) (min endLine endColumn) > 0 then
      some ⟨startLine, startColumn, endLine, endColumn⟩ else none

def rowAllocation (row : ResultRow) : Except ConversionError PolicyAllocation := do
  let site ← rowSite decimal row
  return ⟨row.functionName, row.typeName, site⟩

def rowUse (row : ResultRow) : Except ConversionError PolicyUse := do
  let offset ← int decimal row.offset
  if row.kind = .dynamicUse then
    return ⟨row.name, row.typeName, offset, none, true⟩
  else
    let bytes ← int decimal row.size
    return ⟨row.name, row.typeName, offset, some bytes, false⟩

/-! ### The policy -/

/-- The body of the loop over the rows, with `types`, `allocations` and `uses`. -/
def collectRow (found : Policy) (fields : List Str) : Except ConversionError Policy :=
  match resultRow fields with
  | none => .ok found
  | some row =>
    let types := found.types.insert row.typeName
    if row.kind = .allocation then do
      let allocation ← rowAllocation decimal row
      return ⟨types, found.allocations ++ [allocation], found.uses⟩
    else do
      let use ← rowUse decimal row
      return ⟨types, found.allocations, found.uses ++ [use]⟩

/-- `site.get("start_line", 0), site.get("start_column", 0)`. -/
def siteStart : Option SourceSpan → Int × Int
  | none => (0, 0)
  | some site => (site.startLine, site.startColumn)

/-- Tuples are compared from the left. -/
def allocationKey (allocation : PolicyAllocation) : Str ×ₗ Str ×ₗ Int ×ₗ Int :=
  toLex (allocation.function, toLex (allocation.type, toLex (siteStart allocation.site)))

def sortedPolicy (found : Policy) : Policy where
  types := found.types.insertionSort (· ≤ ·)
  allocations := Sorting.sortBy allocationKey found.allocations
  uses := Sorting.sortBy PolicyUse.name found.uses

def codeqlPolicyToJson (rows : List (List Str)) : Except ConversionError Policy := do
  let found ← fold (collectRow decimal) ⟨[], [], []⟩ rows
  return sortedPolicy found

/-! ### What is collected -/

/-- The numbers that the program reads in the row are numbers. -/
def Converts (row : ResultRow) : Prop :=
  match row.kind with
  | .allocation => ∃ site, rowSite decimal row = .ok site
  | .use => (∃ offset, int decimal row.offset = .ok offset) ∧
      ∃ size, int decimal row.size = .ok size
  | .dynamicUse => ∃ offset, int decimal row.offset = .ok offset

/-- The entry of an allocation row. -/
def allocationOf (fields : List Str) : Option PolicyAllocation :=
  (resultRow fields).bind (fun row =>
    if row.kind = .allocation then (rowAllocation decimal row).toOption else none)

/-- The entry of a use row. -/
def useOf (fields : List Str) : Option PolicyUse :=
  (resultRow fields).bind (fun row =>
    if row.kind = .allocation then none else (rowUse decimal row).toOption)

theorem allocationOf_eq_some {fields : List Str} {allocation : PolicyAllocation} :
    allocationOf decimal fields = some allocation ↔ ∃ row, resultRow fields = some row ∧
      row.kind = .allocation ∧ rowAllocation decimal row = .ok allocation := by
  rw [allocationOf, Option.bind_eq_some_iff]
  refine exists_congr (fun row => and_congr_right (fun _ => ?_))
  by_cases hkind : row.kind = .allocation
  · rw [if_pos hkind, toOption_eq_some]
    exact (and_iff_right hkind).symm
  · rw [if_neg hkind]
    exact iff_of_false nofun (fun h => hkind h.1)

theorem useOf_eq_some {fields : List Str} {use : PolicyUse} :
    useOf decimal fields = some use ↔ ∃ row, resultRow fields = some row ∧
      row.kind ≠ .allocation ∧ rowUse decimal row = .ok use := by
  rw [useOf, Option.bind_eq_some_iff]
  refine exists_congr (fun row => and_congr_right (fun _ => ?_))
  by_cases hkind : row.kind = .allocation
  · rw [if_pos hkind]
    exact iff_of_false nofun (fun h => h.1 hkind)
  · rw [if_neg hkind, toOption_eq_some]
    exact (and_iff_right hkind).symm

theorem rowAllocation_eq_ok {row : ResultRow} {allocation : PolicyAllocation} :
    rowAllocation decimal row = .ok allocation ↔ ∃ site, rowSite decimal row = .ok site ∧
      allocation = ⟨row.functionName, row.typeName, site⟩ := by
  rw [rowAllocation, bind_eq_ok]
  refine exists_congr (fun site => and_congr_right (fun _ => ?_))
  exact ⟨fun h => by cases h; rfl, fun h => by rw [h]; rfl⟩

theorem rowUse_eq_ok {row : ResultRow} {use : PolicyUse} :
    rowUse decimal row = .ok use ↔ ∃ offset, int decimal row.offset = .ok offset ∧
      ((row.kind = .dynamicUse ∧ use = ⟨row.name, row.typeName, offset, none, true⟩) ∨
        (row.kind ≠ .dynamicUse ∧ ∃ size, int decimal row.size = .ok size ∧
          use = ⟨row.name, row.typeName, offset, some size, false⟩)) := by
  rw [rowUse, bind_eq_ok]
  refine exists_congr (fun offset => and_congr_right (fun _ => ?_))
  by_cases hkind : row.kind = .dynamicUse
  · rw [if_pos hkind]
    constructor
    · intro h
      cases h
      exact .inl ⟨hkind, rfl⟩
    · rintro (⟨_, rfl⟩ | ⟨hne, _⟩)
      · rfl
      · exact absurd hkind hne
  · rw [if_neg hkind, bind_eq_ok]
    constructor
    · rintro ⟨size, hsize, h⟩
      cases h
      exact .inr ⟨hkind, size, hsize, rfl⟩
    · rintro (⟨he, _⟩ | ⟨_, size, hsize, rfl⟩)
      · exact absurd he hkind
      · exact ⟨size, hsize, rfl⟩

theorem rowUse_name {row : ResultRow} {use : PolicyUse} (h : rowUse decimal row = .ok use) :
    use.name = row.name := by
  obtain ⟨offset, _, ⟨_, rfl⟩ | ⟨_, size, _, rfl⟩⟩ := (rowUse_eq_ok decimal).mp h
  · rfl
  · rfl

/-- Two use rows with one entry agree in what the program reads of them. -/
theorem rowUse_determines {r s : ResultRow} {use : PolicyUse} (hr : r.kind ≠ .allocation)
    (hs : s.kind ≠ .allocation) (hru : rowUse decimal r = .ok use)
    (hsu : rowUse decimal s = .ok use) : r.kind = s.kind ∧ r.typeName = s.typeName ∧
      int decimal r.offset = int decimal s.offset ∧
      (r.kind = .use → int decimal r.size = int decimal s.size) := by
  obtain ⟨offset, hro, ⟨hrd, rfl⟩ | ⟨hrd, size, hrz, rfl⟩⟩ := (rowUse_eq_ok decimal).mp hru
  · obtain ⟨_, hso, ⟨hsd, he⟩ | ⟨_, _, _, he⟩⟩ := (rowUse_eq_ok decimal).mp hsu
    · injection he with _ htype hoffset
      rw [hrd, hsd, hro, hso, htype, hoffset]
      exact ⟨rfl, rfl, rfl, nofun⟩
    · exact Bool.noConfusion (congrArg PolicyUse.dynamicBytes he)
  · obtain ⟨_, hso, ⟨_, he⟩ | ⟨hsd, size', hsz, he⟩⟩ := (rowUse_eq_ok decimal).mp hsu
    · exact Bool.noConfusion (congrArg PolicyUse.dynamicBytes he)
    · injection he with _ htype hoffset hsize
      rw [RowKind.eq_use hr hrd, RowKind.eq_use hs hsd, hro, hso, hrz, hsz, htype, hoffset,
        Option.some.inj hsize]
      exact ⟨rfl, rfl, rfl, fun _ => rfl⟩

theorem converts_allocation {row : ResultRow} (hkind : row.kind = .allocation) :
    Converts decimal row ↔ ∃ allocation, rowAllocation decimal row = .ok allocation := by
  simp only [Converts, hkind, rowAllocation_eq_ok]
  exact ⟨fun ⟨site, hsite⟩ => ⟨_, site, hsite, rfl⟩, fun ⟨_, site, hsite, _⟩ => ⟨site, hsite⟩⟩

theorem converts_use {row : ResultRow} (hkind : row.kind ≠ .allocation) :
    Converts decimal row ↔ ∃ use, rowUse decimal row = .ok use := by
  simp only [rowUse_eq_ok]
  by_cases hdynamic : row.kind = .dynamicUse
  · simp only [Converts, hdynamic]
    constructor
    · rintro ⟨offset, hoffset⟩
      exact ⟨_, offset, hoffset, .inl ⟨trivial, rfl⟩⟩
    · rintro ⟨_, offset, hoffset, _⟩
      exact ⟨offset, hoffset⟩
  · simp only [Converts, RowKind.eq_use hkind hdynamic]
    constructor
    · rintro ⟨⟨offset, hoffset⟩, size, hsize⟩
      exact ⟨_, offset, hoffset, .inr ⟨nofun, size, hsize, rfl⟩⟩
    · rintro ⟨_, offset, hoffset, ⟨hd, _⟩ | ⟨_, size, hsize, _⟩⟩
      · cases hd
      · exact ⟨⟨offset, hoffset⟩, size, hsize⟩

/-- What the loop has found in the rows that it has been through. -/
structure Collected (done : List (List Str)) (found : Policy) : Prop where
  nodup : found.types.Nodup
  mem_types : ∀ t, t ∈ found.types ↔ ∃ fields ∈ done, ∃ row, resultRow fields = some row ∧
    row.typeName = t
  allocations : found.allocations = done.filterMap (allocationOf decimal)
  uses : found.uses = done.filterMap (useOf decimal)
  converts : ∀ fields ∈ done, ∀ row, resultRow fields = some row → Converts decimal row

theorem collected_nil : Collected decimal [] ⟨[], [], []⟩ where
  nodup := List.nodup_nil
  mem_types _ := iff_of_false List.not_mem_nil (fun ⟨_, h, _⟩ => List.not_mem_nil h)
  allocations := rfl
  uses := rfl
  converts _ h := absurd h List.not_mem_nil

theorem collectRow_eq_ok {found found' : Policy} {fields : List Str} {row : ResultRow}
    (hrow : resultRow fields = some row) :
    collectRow decimal found fields = .ok found' ↔ Converts decimal row ∧
      found' = ⟨found.types.insert row.typeName,
        found.allocations ++ (allocationOf decimal fields).toList,
        found.uses ++ (useOf decimal fields).toList⟩ := by
  rw [collectRow, hrow, allocationOf, useOf, hrow]
  show (if row.kind = .allocation then _ else _) = _ ↔ _
  by_cases hkind : row.kind = .allocation
  · simp only [if_pos hkind, Option.bind_some, Option.toList_none, List.append_nil]
    rw [bind_eq_ok, converts_allocation decimal hkind]
    constructor
    · rintro ⟨allocation, ha, h⟩
      cases h
      rw [ha]
      exact ⟨⟨allocation, rfl⟩, rfl⟩
    · rintro ⟨⟨allocation, ha⟩, rfl⟩
      rw [ha]
      exact ⟨allocation, rfl, rfl⟩
  · simp only [if_neg hkind, Option.bind_some, Option.toList_none, List.append_nil]
    rw [bind_eq_ok, converts_use decimal hkind]
    constructor
    · rintro ⟨use, hu, h⟩
      cases h
      rw [hu]
      exact ⟨⟨use, rfl⟩, rfl⟩
    · rintro ⟨⟨use, hu⟩, rfl⟩
      rw [hu]
      exact ⟨use, rfl, rfl⟩

theorem entries_of_skipped {fields : List Str} (hrow : resultRow fields = none) :
    allocationOf decimal fields = none ∧ useOf decimal fields = none := by
  rw [allocationOf, useOf, hrow]
  exact ⟨rfl, rfl⟩

theorem filterMap_concat {α β : Type} (f : α → Option β) (l : List α) (a : α) :
    (l ++ [a]).filterMap f = l.filterMap f ++ (f a).toList := by
  rw [List.filterMap_append]
  cases h : f a with
  | none => simp [h]
  | some b => simp [h]

theorem exists_mem_concat {α : Type} {l : List α} {a : α} {p : α → Prop} :
    (∃ x ∈ l ++ [a], p x) ↔ (∃ x ∈ l, p x) ∨ p a := by
  simp [or_and_right, exists_or]

/-- **The loop keeps the account of the rows.** -/
theorem Collected.collectRow {done : List (List Str)} {found found' : Policy}
    {fields : List Str} (h : Collected decimal done found)
    (hok : collectRow decimal found fields = .ok found') :
    Collected decimal (done ++ [fields]) found' := by
  cases hrow : resultRow fields with
  | none =>
    rw [InterSpec.Tools.collectRow, hrow] at hok
    cases hok
    obtain ⟨halloc, huse⟩ := entries_of_skipped decimal hrow
    refine ⟨h.nodup, fun t => ?_, ?_, ?_, ?_⟩
    · rw [h.mem_types, exists_mem_concat, hrow]
      exact ⟨.inl, fun hmem => hmem.resolve_right (fun ⟨_, hr, _⟩ => nomatch hr)⟩
    · rw [filterMap_concat, halloc, h.allocations]
      exact (List.append_nil _).symm
    · rw [filterMap_concat, huse, h.uses]
      exact (List.append_nil _).symm
    · rw [List.forall_mem_append, List.forall_mem_singleton, hrow]
      exact ⟨h.converts, nofun⟩
  | some row =>
    obtain ⟨hconverts, rfl⟩ := (collectRow_eq_ok decimal hrow).mp hok
    refine ⟨h.nodup.insert, fun t => ?_, ?_, ?_, ?_⟩
    · rw [List.mem_insert_iff, h.mem_types, exists_mem_concat, hrow, or_comm]
      refine or_congr_right ⟨fun ht => ⟨row, rfl, ht.symm⟩, ?_⟩
      rintro ⟨_, hr, rfl⟩
      cases hr
      rfl
    · rw [filterMap_concat, h.allocations]
    · rw [filterMap_concat, h.uses]
    · rw [List.forall_mem_append, List.forall_mem_singleton, hrow]
      exact ⟨h.converts, fun r hr => by cases hr; exact hconverts⟩

/-- **The policy of the rows is made of their entries.** -/
theorem codeqlPolicyToJson_collected {rows : List (List Str)} {policy : Policy}
    (h : codeqlPolicyToJson decimal rows = .ok policy) :
    ∃ found, Collected decimal rows found ∧ policy = sortedPolicy found := by
  obtain ⟨found, hfold, h⟩ := bind_eq_ok.mp h
  cases h
  exact ⟨found, fold_rule (fun _ _ _ _ _ _ hd hok => hd.collectRow decimal hok)
    (List.nil_append rows).symm (collected_nil decimal) hfold, rfl⟩

/-- **There is a policy when all rows convert.** -/
theorem codeqlPolicyToJson_total {rows : List (List Str)}
    (h : ∀ row ∈ rows.filterMap resultRow, Converts decimal row) :
    ∃ found, Collected decimal rows found ∧
      codeqlPolicyToJson decimal rows = .ok (sortedPolicy found) := by
  have hstep : ∀ done fields rest found, rows = done ++ fields :: rest →
      Collected decimal done found → ∃ found', collectRow decimal found fields = .ok found' ∧
        Collected decimal (done ++ [fields]) found' := by
    intro done fields rest found hrows hd
    have hmem : fields ∈ rows := by
      rw [hrows]
      exact List.mem_append_right _ List.mem_cons_self
    have hok : ∃ found', collectRow decimal found fields = .ok found' := by
      cases hrow : resultRow fields with
      | none => exact ⟨found, by rw [collectRow, hrow]⟩
      | some row =>
        have hconverts := h row (List.mem_filterMap.mpr ⟨fields, hmem, hrow⟩)
        exact ⟨_, (collectRow_eq_ok decimal hrow).mpr ⟨hconverts, rfl⟩⟩
    obtain ⟨found', hok⟩ := hok
    exact ⟨found', hok, hd.collectRow decimal hok⟩
  obtain ⟨found, hfold, hfound⟩ :=
    fold_total hstep (List.nil_append rows).symm (collected_nil decimal)
  exact ⟨found, hfound, bind_eq_ok.mpr ⟨found, hfold, rfl⟩⟩

theorem codeqlPolicyToJson_total_of_perm {rows rows' : List (List Str)}
    (h : ∀ row ∈ rows.filterMap resultRow, Converts decimal row) (hperm : rows'.Perm rows) :
    ∃ found, Collected decimal rows' found ∧
      codeqlPolicyToJson decimal rows' = .ok (sortedPolicy found) :=
  codeqlPolicyToJson_total decimal (fun row hrow =>
    h row ((hperm.filterMap resultRow).mem_iff.mp hrow))

/-- **In every order there is a policy exactly when all rows convert.** -/
theorem codeqlPolicyToJson_isOk_iff {rows rows' : List (List Str)} (hperm : rows'.Perm rows) :
    (∃ policy, codeqlPolicyToJson decimal rows' = .ok policy) ↔
      ∀ row ∈ rows.filterMap resultRow, Converts decimal row := by
  constructor
  · rintro ⟨policy, hpolicy⟩ row hrow
    obtain ⟨found, hfound, _⟩ := codeqlPolicyToJson_collected decimal hpolicy
    obtain ⟨fields, hfields, hrow⟩ := List.mem_filterMap.mp hrow
    exact hfound.converts fields (hperm.mem_iff.mpr hfields) row hrow
  · intro hconverts
    obtain ⟨found, _, hok⟩ := codeqlPolicyToJson_total_of_perm decimal hconverts hperm
    exact ⟨_, hok⟩

/-! ### The order of the rows -/

/-- **Rows that are not told apart by the sort keys have one entry.** -/
structure KeysSeparate (rows : List (List Str)) : Prop where
  allocations : ∀ r ∈ rows.filterMap resultRow, ∀ s ∈ rows.filterMap resultRow,
    r.kind = .allocation → s.kind = .allocation →
    r.functionName = s.functionName → r.typeName = s.typeName →
    (rowSite decimal r).map siteStart = (rowSite decimal s).map siteStart →
      rowSite decimal r = rowSite decimal s
  uses : ∀ r ∈ rows.filterMap resultRow, ∀ s ∈ rows.filterMap resultRow,
    r.kind ≠ .allocation → s.kind ≠ .allocation → r.name = s.name →
      r.kind = s.kind ∧ r.typeName = s.typeName ∧
      int decimal r.offset = int decimal s.offset ∧
      (r.kind = .use → int decimal r.size = int decimal s.size)

/-- Every order of the rows gives the same policy, and so the same generated code. -/
def OrderIndependent (isWord : Char → Bool) (rows : List (List Str)) : Prop :=
  ∀ rows' : List (List Str), rows'.Perm rows →
    (codeqlPolicyToJson decimal rows').toOption = (codeqlPolicyToJson decimal rows).toOption ∧
    ∀ source, (codeqlPolicyToJson decimal rows').toOption.map
        (fun policy => generate isWord policy source) =
      (codeqlPolicyToJson decimal rows).toOption.map
        (fun policy => generate isWord policy source)

theorem Collected.sortedPolicy_eq {rows rows' : List (List Str)} {found found' : Policy}
    (h : Collected decimal rows found) (h' : Collected decimal rows' found')
    (hperm : rows'.Perm rows)
    (halloc : ∀ a ∈ rows.filterMap (allocationOf decimal),
      ∀ b ∈ rows.filterMap (allocationOf decimal), allocationKey a = allocationKey b → a = b)
    (huse : ∀ a ∈ rows.filterMap (useOf decimal), ∀ b ∈ rows.filterMap (useOf decimal),
      a.name = b.name → a = b) : sortedPolicy found' = sortedPolicy found := by
  have htypes : ∀ t, t ∈ found'.types ↔ t ∈ found.types := by
    intro t
    rw [h.mem_types, h'.mem_types]
    exact exists_congr (fun fields => and_congr_left (fun _ => hperm.mem_iff))
  unfold sortedPolicy
  rw [Sorting.sorted_eq_of_mem_iff h'.nodup h.nodup htypes, h.allocations, h'.allocations,
    h.uses, h'.uses, Sorting.sortBy_eq_of_perm halloc (hperm.filterMap _),
    Sorting.sortBy_eq_of_perm huse (hperm.filterMap _)]

theorem mem_allocations {rows : List (List Str)} {a : PolicyAllocation} :
    a ∈ rows.filterMap (allocationOf decimal) ↔ ∃ row ∈ rows.filterMap resultRow,
      row.kind = .allocation ∧ rowAllocation decimal row = .ok a := by
  simp only [List.mem_filterMap, allocationOf_eq_some]
  constructor
  · rintro ⟨fields, hmem, row, hrow, h⟩
    exact ⟨row, ⟨fields, hmem, hrow⟩, h⟩
  · rintro ⟨row, ⟨fields, hmem, hrow⟩, h⟩
    exact ⟨fields, hmem, row, hrow, h⟩

theorem mem_uses {rows : List (List Str)} {a : PolicyUse} :
    a ∈ rows.filterMap (useOf decimal) ↔ ∃ row ∈ rows.filterMap resultRow,
      row.kind ≠ .allocation ∧ rowUse decimal row = .ok a := by
  simp only [List.mem_filterMap, useOf_eq_some]
  constructor
  · rintro ⟨fields, hmem, row, hrow, h⟩
    exact ⟨row, ⟨fields, hmem, hrow⟩, h⟩
  · rintro ⟨row, ⟨fields, hmem, hrow⟩, h⟩
    exact ⟨fields, hmem, row, hrow, h⟩

theorem allocationKey_eq_iff {a b : PolicyAllocation} : allocationKey a = allocationKey b ↔
    a.function = b.function ∧ a.type = b.type ∧ siteStart a.site = siteStart b.site := by
  simp [allocationKey]

theorem KeysSeparate.allocation_eq {rows : List (List Str)} (h : KeysSeparate decimal rows)
    {a b : PolicyAllocation} (ha : a ∈ rows.filterMap (allocationOf decimal))
    (hb : b ∈ rows.filterMap (allocationOf decimal)) (hkey : allocationKey a = allocationKey b) :
    a = b := by
  obtain ⟨r, hr, hrk, hra⟩ := (mem_allocations decimal).mp ha
  obtain ⟨s, hs, hsk, hsb⟩ := (mem_allocations decimal).mp hb
  obtain ⟨siteA, hsiteA, rfl⟩ := (rowAllocation_eq_ok decimal).mp hra
  obtain ⟨siteB, hsiteB, rfl⟩ := (rowAllocation_eq_ok decimal).mp hsb
  obtain ⟨hfunction, htype, hstart⟩ := allocationKey_eq_iff.mp hkey
  have hsite := h.allocations r hr s hs hrk hsk hfunction htype
    (by rw [hsiteA, hsiteB]; exact congrArg Except.ok hstart)
  rw [hsiteA, hsiteB] at hsite
  cases hsite
  exact congrArg₂ (fun f t => PolicyAllocation.mk f t siteA) hfunction htype

theorem KeysSeparate.use_eq {rows : List (List Str)} (h : KeysSeparate decimal rows)
    {a b : PolicyUse} (ha : a ∈ rows.filterMap (useOf decimal))
    (hb : b ∈ rows.filterMap (useOf decimal)) (hname : a.name = b.name) : a = b := by
  obtain ⟨r, hr, hrk, hra⟩ := (mem_uses decimal).mp ha
  obtain ⟨s, hs, hsk, hsb⟩ := (mem_uses decimal).mp hb
  rw [rowUse_name decimal hra, rowUse_name decimal hsb] at hname
  obtain ⟨hkind, htype, hoffset, hsize⟩ := h.uses r hr s hs hrk hsk hname
  have heq : rowUse decimal r = rowUse decimal s := by
    rw [rowUse, rowUse, hname, hkind, htype, hoffset]
    by_cases hdynamic : s.kind = .dynamicUse
    · simp only [if_pos hdynamic]
    · rw [hsize (RowKind.eq_use hrk (fun hr => hdynamic (hkind ▸ hr)))]
  rw [heq, hsb] at hra
  exact (Except.ok.inj hra).symm

theorem KeysSeparate.toOption_eq {rows rows' : List (List Str)}
    (h : (∀ row ∈ rows.filterMap resultRow, Converts decimal row) → KeysSeparate decimal rows)
    (hperm : rows'.Perm rows) :
    (codeqlPolicyToJson decimal rows').toOption = (codeqlPolicyToJson decimal rows).toOption := by
  cases hrun : codeqlPolicyToJson decimal rows with
  | error e =>
    cases hrun' : codeqlPolicyToJson decimal rows' with
    | error e' => rfl
    | ok p' =>
      have hconverts := (codeqlPolicyToJson_isOk_iff decimal hperm).mp ⟨p', hrun'⟩
      obtain ⟨p, hp⟩ := (codeqlPolicyToJson_isOk_iff decimal (List.Perm.refl rows)).mpr hconverts
      rw [hrun] at hp
      cases hp
  | ok p =>
    have hconverts := (codeqlPolicyToJson_isOk_iff decimal (List.Perm.refl rows)).mp ⟨p, hrun⟩
    obtain ⟨p', hrun'⟩ := (codeqlPolicyToJson_isOk_iff decimal hperm).mpr hconverts
    obtain ⟨found, hfound, rfl⟩ := codeqlPolicyToJson_collected decimal hrun
    obtain ⟨found', hfound', rfl⟩ := codeqlPolicyToJson_collected decimal hrun'
    rw [hrun', hfound.sortedPolicy_eq decimal hfound' hperm
      (fun a ha b hb => (h hconverts).allocation_eq decimal ha hb)
      (fun a ha b hb => (h hconverts).use_eq decimal ha hb)]

theorem exists_perm_cons_cons {α : Type} [DecidableEq α] {l : List α} {x y : α} (hx : x ∈ l)
    (hy : y ∈ l) (hne : x ≠ y) : ∃ rest, (x :: y :: rest).Perm l := by
  have hy' : y ∈ l.erase x := (List.mem_erase_of_ne hne.symm).mpr hy
  have hrest := (List.perm_cons_erase hy').symm
  exact ⟨_, (hrest.cons x).trans (List.perm_cons_erase hx).symm⟩

/-- Where every order gives the same policy, two rows can change places in front. -/
theorem OrderIndependent.swap {isWord : Char → Bool} {rows : List (List Str)}
    (h : OrderIndependent decimal isWord rows)
    (hconverts : ∀ row ∈ rows.filterMap resultRow, Converts decimal row)
    {x y : List Str} (hx : x ∈ rows) (hy : y ∈ rows) (hne : x ≠ y) : ∃ rest : List (List Str),
      Sorting.sortBy allocationKey ((x :: y :: rest).filterMap (allocationOf decimal)) =
        Sorting.sortBy allocationKey ((y :: x :: rest).filterMap (allocationOf decimal)) ∧
      Sorting.sortBy PolicyUse.name ((x :: y :: rest).filterMap (useOf decimal)) =
        Sorting.sortBy PolicyUse.name ((y :: x :: rest).filterMap (useOf decimal)) := by
  obtain ⟨rest, hperm⟩ := exists_perm_cons_cons hx hy hne
  have hperm' : (y :: x :: rest).Perm rows := (List.Perm.swap x y rest).trans hperm
  obtain ⟨found, hfound, hrun⟩ := codeqlPolicyToJson_total_of_perm decimal hconverts hperm
  obtain ⟨found', hfound', hrun'⟩ := codeqlPolicyToJson_total_of_perm decimal hconverts hperm'
  have heq := (h _ hperm).1.trans (h _ hperm').1.symm
  rw [hrun, hrun'] at heq
  have hpolicy : sortedPolicy found = sortedPolicy found' := Option.some.inj heq
  refine ⟨rest, ?_, ?_⟩
  · rw [← hfound.allocations, ← hfound'.allocations]
    exact congrArg Policy.allocations hpolicy
  · rw [← hfound.uses, ← hfound'.uses]
    exact congrArg Policy.uses hpolicy

theorem OrderIndependent.allocation_eq {isWord : Char → Bool} {rows : List (List Str)}
    (h : OrderIndependent decimal isWord rows)
    (hconverts : ∀ row ∈ rows.filterMap resultRow, Converts decimal row)
    {a b : PolicyAllocation} (ha : a ∈ rows.filterMap (allocationOf decimal))
    (hb : b ∈ rows.filterMap (allocationOf decimal)) (hkey : allocationKey a = allocationKey b) :
    a = b := by
  obtain ⟨x, hx, hxa⟩ := List.mem_filterMap.mp ha
  obtain ⟨y, hy, hyb⟩ := List.mem_filterMap.mp hb
  by_cases hxy : x = y
  · rw [← hxy, hxa] at hyb
    exact Option.some.inj hyb
  · obtain ⟨rest, hswap, _⟩ := h.swap decimal hconverts hx hy hxy
    exact Sorting.eq_of_filterMap_swap hxa hyb hkey hswap

theorem OrderIndependent.use_eq {isWord : Char → Bool} {rows : List (List Str)}
    (h : OrderIndependent decimal isWord rows)
    (hconverts : ∀ row ∈ rows.filterMap resultRow, Converts decimal row)
    {a b : PolicyUse} (ha : a ∈ rows.filterMap (useOf decimal))
    (hb : b ∈ rows.filterMap (useOf decimal)) (hname : a.name = b.name) : a = b := by
  obtain ⟨x, hx, hxa⟩ := List.mem_filterMap.mp ha
  obtain ⟨y, hy, hyb⟩ := List.mem_filterMap.mp hb
  by_cases hxy : x = y
  · rw [← hxy, hxa] at hyb
    exact Option.some.inj hyb
  · obtain ⟨rest, _, hswap⟩ := h.swap decimal hconverts hx hy hxy
    exact Sorting.eq_of_filterMap_swap hxa hyb hname hswap

/-- **Where every order gives the same policy, the sort keys separate the entries.** -/
theorem OrderIndependent.keysSeparate {isWord : Char → Bool} {rows : List (List Str)}
    (h : OrderIndependent decimal isWord rows)
    (hconverts : ∀ row ∈ rows.filterMap resultRow, Converts decimal row) :
    KeysSeparate decimal rows where
  allocations := by
    intro r hr s hs hrk hsk hfunction htype hstart
    obtain ⟨a, ha⟩ := (converts_allocation decimal hrk).mp (hconverts r hr)
    obtain ⟨b, hb⟩ := (converts_allocation decimal hsk).mp (hconverts s hs)
    have hra := (mem_allocations decimal).mpr ⟨r, hr, hrk, ha⟩
    have hsb := (mem_allocations decimal).mpr ⟨s, hs, hsk, hb⟩
    obtain ⟨siteA, hsiteA, rfl⟩ := (rowAllocation_eq_ok decimal).mp ha
    obtain ⟨siteB, hsiteB, rfl⟩ := (rowAllocation_eq_ok decimal).mp hb
    rw [hsiteA, hsiteB] at hstart
    have hstart : siteStart siteA = siteStart siteB := Except.ok.inj hstart
    have heq := h.allocation_eq decimal hconverts hra hsb
      (allocationKey_eq_iff.mpr ⟨hfunction, htype, hstart⟩)
    rw [hsiteA, hsiteB]
    exact congrArg Except.ok (congrArg PolicyAllocation.site heq)
  uses := by
    intro r hr s hs hrk hsk hname
    obtain ⟨a, ha⟩ := (converts_use decimal hrk).mp (hconverts r hr)
    obtain ⟨b, hb⟩ := (converts_use decimal hsk).mp (hconverts s hs)
    have heq := h.use_eq decimal hconverts ((mem_uses decimal).mpr ⟨r, hr, hrk, ha⟩)
      ((mem_uses decimal).mpr ⟨s, hs, hsk, hb⟩)
      (by rw [rowUse_name decimal ha, rowUse_name decimal hb, hname])
    rw [← heq] at hb
    exact rowUse_determines decimal hrk hsk ha hb

/-- **Every order of the rows gives the same policy exactly when a row does not convert or
the sort keys separate the entries.** -/
theorem orderIndependent_iff (isWord : Char → Bool) (rows : List (List Str)) :
    OrderIndependent decimal isWord rows ↔
      ((∀ row ∈ rows.filterMap resultRow, Converts decimal row) → KeysSeparate decimal rows) := by
  constructor
  · exact fun h hconverts => h.keysSeparate decimal hconverts
  · intro h rows' hperm
    have heq := KeysSeparate.toOption_eq decimal h hperm
    exact ⟨heq, fun source => by rw [heq]⟩

/-- Two fields of two types that are named alike. -/
def upperUse : List Str :=
  ["use".toList, "item_next".toList, "Item".toList, "f".toList, "0".toList, "8".toList]

def lowerUse : List Str :=
  ["use".toList, "item_next".toList, "item".toList, "g".toList, "4".toList, "2".toList]

theorem upper_first_policy : codeqlPolicyToJson asciiDecimal [upperUse, lowerUse] =
    .ok ⟨["Item".toList, "item".toList], [],
      [⟨"item_next".toList, "Item".toList, 0, some 8, false⟩,
        ⟨"item_next".toList, "item".toList, 4, some 2, false⟩]⟩ := by
  decide

theorem lower_first_policy : codeqlPolicyToJson asciiDecimal [lowerUse, upperUse] =
    .ok ⟨["Item".toList, "item".toList], [],
      [⟨"item_next".toList, "item".toList, 4, some 2, false⟩,
        ⟨"item_next".toList, "Item".toList, 0, some 8, false⟩]⟩ := by
  decide

/-- **The order of two uses of one name is seen in the policy.** -/
theorem not_orderIndependent :
    ¬ OrderIndependent asciiDecimal asciiWord [upperUse, lowerUse] := by
  intro h
  have heq := (h [lowerUse, upperUse] (List.Perm.swap _ _ _)).1
  rw [upper_first_policy, lower_first_policy] at heq
  have huses := congrArg (Option.map Policy.uses) heq
  revert huses
  decide

end InterSpec.Tools
