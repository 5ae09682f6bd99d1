import Mathlib.Algebra.Group.Int.Defs
import Mathlib.Algebra.GroupWithZero.Nat
import Mathlib.Data.Char
import Mathlib.Data.List.DropRight
import Mathlib.Data.List.Lex

/-!
# Text

The string functions that `tools/generate_policy.py` uses, and its name
manglings.  A `str` is a list of characters.

* `isSpace`, `strip`, `splitLines`: `str.isspace`, `str.strip` and
  `str.splitlines(keepends=True)`, which break at every Unicode line boundary.
* `hashType`, `macroName`, `symbol`, `cpp`: the type hash and the three ways to
  make an identifier of a name.
* `digits_injective`, `cpp_eq_self`: numbers and plain names can be read back.
-/

namespace InterSpec.Tools

abbrev Str := List Char

instance lawfulBEqStr : LawfulBEq Str := inferInstance

/-! ### Strings -/

def isSpace (c : Char) : Bool :=
  let n := c.toNat
  decide ((9 ≤ n ∧ n ≤ 13) ∨ (28 ≤ n ∧ n ≤ 32) ∨ n = 0x85 ∨ n = 0xa0 ∨ n = 0x1680 ∨
    (0x2000 ≤ n ∧ n ≤ 0x200a) ∨ n = 0x2028 ∨ n = 0x2029 ∨ n = 0x202f ∨ n = 0x205f ∨ n = 0x3000)

def strip (s : Str) : Str := (s.dropWhile isSpace).rdropWhile isSpace

/-- The line boundaries of `str.splitlines`, `\r\n` apart. -/
def isLineBreak (c : Char) : Bool :=
  let n := c.toNat
  decide ((10 ≤ n ∧ n ≤ 13) ∨ (28 ≤ n ∧ n ≤ 30) ∨ n = 0x85 ∨ n = 0x2028 ∨ n = 0x2029)

/-- The lines of the text, each with its line break; `line` is the part of the
current one read so far. -/
def splitLinesFrom (line : Str) : Str → List Str
  | [] => if line = [] then [] else [line]
  | '\r' :: '\n' :: rest => (line ++ ['\r', '\n']) :: splitLinesFrom [] rest
  | c :: rest =>
    if isLineBreak c then (line ++ [c]) :: splitLinesFrom [] rest
    else splitLinesFrom (line ++ [c]) rest

def splitLines (s : Str) : List Str := splitLinesFrom [] s

/-- `source[start:end]` for offsets that are not negative. -/
def slice (s : Str) (start stop : Nat) : Str := (s.take stop).drop start

/-- The decimal digits of a number. -/
def digits (n : Nat) : Str := Nat.toDigits 10 n

theorem digits_injective {m n : Nat} (h : digits m = digits n) : m = n := by
  have hval := congrArg (fun ds => Nat.ofDigitChars 10 ds 0) h
  simpa only [digits, Nat.ofDigitChars_ten_toDigits] using hval

/-! ### Names -/

theorem toNat_lt_of_isAlphanum {c : Char} (hc : c.isAlphanum = true) : c.toNat < 128 := by
  have hlt : ∀ d : Char, c.val ≤ d.val → d.toNat < 128 → c.toNat < 128 := fun d hle hd =>
    Nat.lt_of_le_of_lt (UInt32.le_iff_toNat_le.mp hle) hd
  rcases Bool.or_eq_true_iff.mp hc with halpha | hdigit
  · rcases Bool.or_eq_true_iff.mp halpha with hupper | hlower
    · exact hlt 'Z' (of_decide_eq_true hupper).2 (by decide)
    · exact hlt 'z' (of_decide_eq_true (Bool.and_eq_true_iff.mp hlower).2) (by decide)
  · exact hlt '9' (of_decide_eq_true (Bool.and_eq_true_iff.mp hdigit).2) (by decide)

def hashType (name : Str) : UInt64 :=
  (name.flatMap String.utf8EncodeChar).foldl (fun value byte => 129 * value + byte.toUInt64) 0

def macroName (name : Str) : Str :=
  (name.map (fun c => if c.isAlphanum then c else '_')).map Char.toUpper

def symbol (name : Str) : Str :=
  name.map (fun c => if c.isAlphanum || c == '_' then c else '_')

/-- `part[:1].upper() + part[1:]`. -/
def capitalised (part : Str) : Str := (part.take 1).map Char.toUpper ++ part.drop 1

def cpp (name : Str) : Str :=
  ((name.splitOnP (fun c => !c.isAlphanum)).filter (fun part => !part.isEmpty)).flatMap capitalised

/-- A name of letters and digits that starts with a capital is kept. -/
theorem cpp_eq_self {c : Char} {rest : Str} (hc : c.isAlphanum = true) (hup : c.toUpper = c)
    (hrest : ∀ d ∈ rest, d.isAlphanum = true) : cpp (c :: rest) = c :: rest := by
  have hsplit : (c :: rest).splitOnP (fun c => !c.isAlphanum) = [c :: rest] := by
    apply List.splitOnP_eq_singleton
    intro d hd
    rcases List.mem_cons.mp hd with rfl | hd
    · rw [hc]; rfl
    · rw [hrest d hd]; rfl
  rw [cpp, hsplit]
  show (c.toUpper :: rest) ++ [] = c :: rest
  rw [hup, List.append_nil]

end InterSpec.Tools
