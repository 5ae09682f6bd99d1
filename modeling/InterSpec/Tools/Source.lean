import InterSpec.Data.Fallible
import InterSpec.Tools.Policy
import Mathlib.Data.List.Sort

/-!
# Rewriting the source

The part of `tools/generate_policy.py` that finds functions and `malloc` calls in
a C source and rewrites them.  Offsets count characters from the beginning of
the text.

The word characters of the regular expressions (`\w` of a `str` pattern) are a
parameter `isWord`: nothing below depends on the Unicode table behind it.

* `functionMatch`, `functionBody`: the first definition of a function, and its
  body up to the matching brace.
* `sourceOffset`: the offset of a line and column.
* `mallocCallExtent`: the whole call at an analysed span, by a scan that knows
  comments and literals (`closingParen`).
* `instrumentSite`, `markPreciseFunctionNoinline`, `instrumentLegacy`: the three
  rewrites.
-/

namespace InterSpec.Tools

open Fallible

/-- The word characters among the ASCII ones. -/
def asciiWord (c : Char) : Bool := c.isAlphanum || c == '_'

/-! ### Functions -/

section Functions

variable (isWord : Char → Bool)

/-- `\b` between two characters, or one and the edge of the text. -/
def wordBoundary (before after : Option Char) : Bool := before.any isWord != after.any isWord

/-- What follows the literal `word` at the head of the text. -/
def dropLiteral (word text : Str) : Option Str :=
  if word.isPrefixOf text then some (text.drop word.length) else none

/-- What follows a match of `function\s*\([^)]*\)\s*\{` at the head of the text.
No part of the pattern can match in two ways. -/
def matchDefinition (function text : Str) : Option Str := do
  let rest ← dropLiteral function text
  let rest ← dropLiteral ['('] (rest.dropWhile isSpace)
  let rest ← dropLiteral [')'] (rest.dropWhile (fun c => c != ')'))
  dropLiteral ['{'] (rest.dropWhile isSpace)

/-- The start and the end of the first match, in a text that starts at offset
`pos` after the character `before`. -/
def searchDefinition (function : Str) : Option Char → Nat → Str → Option (Nat × Nat)
  | _, _, [] => none
  | before, pos, c :: rest =>
    match if wordBoundary isWord before (some c) then matchDefinition function (c :: rest)
      else none with
    | some tail => some (pos, pos + (c :: rest).length - tail.length)
    | none => searchDefinition function (some c) (pos + 1) rest

def functionMatch (source function : Str) : Except PolicyError (Nat × Nat) :=
  match searchDefinition isWord function none 0 source with
  | some found => .ok found
  | none => .error (.functionNotFound function)

/-- The offset after the brace that brings the depth to 0. -/
def closingBrace : Nat → Nat → Str → Option Nat
  | 0, pos, _ => some pos
  | _ + 1, _, [] => none
  | depth + 1, pos, c :: rest =>
    closingBrace (if c = '{' then depth + 2 else if c = '}' then depth else depth + 1)
      (pos + 1) rest

/-- The body between the braces.  Braces in literals and comments count. -/
def functionBody (source function : Str) : Except PolicyError (Nat × Nat) := do
  let found ← functionMatch isWord source function
  match closingBrace 1 found.2 (source.drop found.2) with
  | some pos => return (found.2, pos - 1)
  | none => .error (.unterminatedFunction function)

def noinlineMarker : Str := "__attribute__((noinline)) ".toList

def markPreciseFunctionNoinline (source function : Str) : Except PolicyError Str := do
  let found ← functionMatch isWord source function
  if slice source (found.1 - noinlineMarker.length) found.1 = noinlineMarker then return source
  else return source.take found.1 ++ noinlineMarker ++ source.drop found.1

end Functions

/-! ### Locations -/

/-- The text without one trailing `c`. -/
def dropTrailing (c : Char) (text : Str) : Str :=
  if text.getLast? = some c then text.dropLast else text

def sourceOffset (source : Str) (line column : Int) (atEnd : Bool) : Except PolicyError Nat := do
  ensure (¬ (line < 1 ∨ column < 1)) .notOneBased
  let lines := splitLines source
  ensure (line ≤ lines.length) (.lineOutOfRange line)
  let text := lines.getD (line.toNat - 1) []
  let visible := dropTrailing '\r' (dropTrailing '\n' text)
  let maxColumn := visible.length + (if atEnd then 1 else 0)
  ensure (column ≤ maxColumn) (.columnOutOfRange line column)
  let base := ((lines.take (line.toNat - 1)).map List.length).sum
  return if atEnd then base + column.toNat else base + column.toNat - 1

/-! ### Calls of `malloc` -/

/-- Where the scan is: the flags `line_comment`, `block_comment`, `quote` and
`escaped` of the source. -/
inductive Lex
  | code
  | lineComment
  | blockComment
  | literal (quote : Char) (escaped : Bool)
deriving DecidableEq, Repr

/-- The offset of the parenthesis that brings the depth to 0, in a text that
starts at offset `pos`. -/
def closingParen : Lex → Int → Nat → Str → Option Nat
  | _, _, _, [] => none
  | .lineComment, depth, pos, c :: rest =>
    closingParen (if c = '\n' then .code else .lineComment) depth (pos + 1) rest
  | .blockComment, depth, pos, '*' :: '/' :: rest => closingParen .code depth (pos + 2) rest
  | .blockComment, depth, pos, _ :: rest => closingParen .blockComment depth (pos + 1) rest
  | .literal quote escaped, depth, pos, c :: rest =>
    closingParen
      (if escaped then .literal quote false
        else if c = '\x5c' then .literal quote true
        else if c = quote then .code
        else .literal quote false) depth (pos + 1) rest
  | .code, depth, pos, '/' :: '/' :: rest => closingParen .lineComment depth (pos + 2) rest
  | .code, depth, pos, '/' :: '*' :: rest => closingParen .blockComment depth (pos + 2) rest
  | .code, depth, pos, c :: rest =>
    if c = '\x22' ∨ c = '\x27' then closingParen (.literal c false) depth (pos + 1) rest
    else if c = '(' then closingParen .code (depth + 1) (pos + 1) rest
    else if c = ')' then
      if depth - 1 = 0 then some pos
      else if depth - 1 < 0 then none
      else closingParen .code (depth - 1) (pos + 1) rest
    else closingParen .code depth (pos + 1) rest

/-- The start and the end of the call at the anchor, and its argument. -/
def mallocCallExtent (source : Str) (anchorStart anchorEnd : Nat) :
    Except PolicyError (Nat × Nat × Str) := do
  ensure (anchorStart < anchorEnd ∧ ("malloc".toList).isPrefixOf (source.drop anchorStart) = true)
    (.anchorNotMalloc (slice source anchorStart anchorEnd))
  let nameEnd := anchorStart + "malloc".toList.length
  ensure (nameEnd ≤ anchorEnd) .truncatedMalloc
  let openParen := nameEnd + ((source.drop nameEnd).takeWhile isSpace).length
  ensure (source[openParen]? = some '(') .noArgumentList
  match closingParen .code 0 openParen (source.drop openParen) with
  | none => .error .unterminatedArguments
  | some pos =>
    let argument := strip (slice source (openParen + 1) pos)
    ensure (argument ≠ []) .emptySize
    let callEnd := pos + 1
    ensure (¬ (callEnd < anchorEnd ∧ strip (slice source callEnd anchorEnd) ≠ [])) .spanPastCall
    return (anchorStart, callEnd, argument)

/-! ### Precise sites -/

/-- The anchor of a site, `[start, end)`. -/
def siteAnchor (source : Str) (site : SourceSpan) : Except PolicyError (Nat × Nat) := do
  let anchorStart ← sourceOffset source site.startLine site.startColumn false
  let anchorEnd ← sourceOffset source site.endLine site.endColumn true
  return (anchorStart, anchorEnd)

/-- The call selected by an anchor, which must lie in the body of its function. -/
def selectedCall (isWord : Char → Bool) (source function : Str) (anchor : Nat × Nat) :
    Except PolicyError (Nat × Nat × Str) := do
  let body ← functionBody isWord source function
  ensure (body.1 ≤ anchor.1 ∧ anchor.2 ≤ body.2) (.siteEscapes function)
  let call ← mallocCallExtent source anchor.1 anchor.2
  ensure (call.2.1 ≤ body.2) (.callEscapes function)
  return call

/-- The labels at the beginning and the end of a site. -/
def siteSymbols (allocation : PolicyAllocation) (siteId : Nat) : Str × Str :=
  let stem := "interspec_alloc_site_".toList ++ symbol allocation.function ++ "_".toList ++
    digits siteId
  (stem ++ "_begin".toList, stem ++ "_end".toList)

def exportedLabelAsm (name : Str) : Str :=
  ".globl ".toList ++ name ++ "\\n.type ".toList ++ name ++ ",@function\\n".toList ++ name ++
    ":".toList

/-- The statement expression that replaces a call. -/
def siteExpression (beginSymbol endSymbol sizeExpr : Str) : Str :=
  "(\x7b uint32_t __interspec_size = (uint32_t)(".toList ++ sizeExpr ++
    "); uint32_t __interspec_ptr = 0; __asm__ __volatile__(\x22".toList ++
    exportedLabelAsm beginSymbol ++
    "\x22 ::: \x22memory\x22); __interspec_ptr = INTERSPEC_SITE_ALLOC(__interspec_size); ".toList ++
    "__asm__ __volatile__(\x22".toList ++ exportedLabelAsm endSymbol ++
    "\x22 ::: \x22memory\x22); (void*)(uintptr_t)__interspec_ptr; \x7d)".toList

def instrumentSite (isWord : Char → Bool) (source : Str) (allocation : PolicyAllocation)
    (site : SourceSpan) (siteId : Nat) : Except PolicyError Str := do
  let anchor ← siteAnchor source site
  ensure (anchor.1 < anchor.2) (.invalidSite allocation.function)
  let call ← selectedCall isWord source allocation.function anchor
  let symbols := siteSymbols allocation siteId
  return source.take call.1 ++ siteExpression symbols.1 symbols.2 call.2.2 ++ source.drop call.2.1

/-- A precise allocation with its number. -/
structure PreciseSite where
  siteId : Nat
  allocation : PolicyAllocation
  site : SourceSpan
deriving DecidableEq, Repr

/-- The precise allocations in policy order, numbered from `next`. -/
def preciseSites : Nat → List PolicyAllocation → List PreciseSite
  | _, [] => []
  | next, allocation :: rest =>
    match allocation.site with
    | some site => ⟨next, allocation, site⟩ :: preciseSites (next + 1) rest
    | none => preciseSites next rest

/-- `x` does not start before `y`. -/
def NotBefore (x y : PreciseSite) : Prop :=
  y.site.startLine < x.site.startLine ∨
    (y.site.startLine = x.site.startLine ∧ y.site.startColumn ≤ x.site.startColumn)

instance decidableNotBefore : DecidableRel NotBefore :=
  fun _ _ => inferInstanceAs (Decidable (_ ∨ _))

/-- Last position first, and sites at one position in policy order. -/
def rewriteOrder (sites : List PreciseSite) : List PreciseSite := sites.insertionSort NotBefore

/-! ### Allocations without a site -/

def isIdentStart (c : Char) : Bool := c.isAlpha || c == '_'

def isIdentChar (c : Char) : Bool := c.isAlphanum || c == '_'

def takeIdentifier : Str → Option (Str × Str)
  | [] => none
  | c :: rest =>
    if isIdentStart c then some (c :: rest.takeWhile isIdentChar, rest.dropWhile isIdentChar)
    else none

/-- `word` after white space. -/
def dropToken (word text : Str) : Option Str := dropLiteral word (text.dropWhile isSpace)

/-- `malloc\s*\(\s*sizeof\s*\(\s*\*\s*(name)\s*\)\s*\)`: the name and the rest. -/
def matchSizeof (text : Str) : Option (Str × Str) := do
  let rest ← dropLiteral "malloc".toList text
  let rest ← dropToken ['('] rest
  let rest ← dropToken "sizeof".toList rest
  let rest ← dropToken ['('] rest
  let rest ← dropToken ['*'] rest
  let named ← takeIdentifier (rest.dropWhile isSpace)
  let rest ← dropToken [')'] named.2
  let rest ← dropToken [')'] rest
  return (named.1, rest)

/-- `malloc\s*\(\s*(name)\s*\)`: the name and the rest. -/
def matchPlain (text : Str) : Option (Str × Str) := do
  let rest ← dropLiteral "malloc".toList text
  let rest ← dropToken ['('] rest
  let named ← takeIdentifier (rest.dropWhile isSpace)
  let rest ← dropToken [')'] named.2
  return (named.1, rest)

structure Match where
  start : Nat
  stop : Nat
  group : Str
deriving DecidableEq, Repr

/-- The matches from left to right, none beginning inside the one before; `skip`
characters of the last match are still ahead. -/
def findIter (matcher : Str → Option (Str × Str)) : Nat → Nat → Str → List Match
  | _, _, [] => []
  | skip + 1, pos, _ :: rest => findIter matcher skip (pos + 1) rest
  | 0, pos, c :: rest =>
    match matcher (c :: rest) with
    | some (group, tail) =>
      let length := (c :: rest).length - tail.length
      ⟨pos, pos + length, group⟩ :: findIter matcher (length - 1) (pos + 1) rest
    | none => findIter matcher 0 (pos + 1) rest

/-- The text with one match replaced. -/
def Match.replace (found : Match) (text new : Str) : Str :=
  text.take found.start ++ new ++ text.drop found.stop

def legacyCast (type : Str) : Str :=
  "(struct ".toList ++ type ++ "*)malloc(sizeof(struct ".toList ++ type ++ "))".toList

/-- The body with its one typed `malloc` rewritten: a cast call, or the only
`malloc(sizeof(*name))`, or the only `malloc(name)`. -/
def legacyBody (function type body : Str) : Except PolicyError Str :=
  let typeId := "INTERSPEC_TYPE_ID_".toList ++ macroName type
  let cast := fun text => (dropLiteral (legacyCast type) text).map (fun rest => ([], rest))
  match findIter cast 0 0 body with
  | [found] =>
    .ok (found.replace body ("(struct ".toList ++ type ++
      "*)(uintptr_t)typed_alloc(sizeof(struct ".toList ++ type ++ "), ".toList ++ typeId ++
      ")".toList))
  | _ =>
    match findIter matchSizeof 0 0 body with
    | [found] =>
      .ok (found.replace body ("(void*)(uintptr_t)typed_alloc(sizeof(*".toList ++ found.group ++
        "), ".toList ++ typeId ++ ")".toList))
    | _ =>
      match findIter matchPlain 0 0 body with
      | [found] =>
        .ok (found.replace body ("(void*)(uintptr_t)typed_alloc((uint32_t)(".toList ++
          found.group ++ "), ".toList ++ typeId ++ ")".toList))
      | _ => .error (.notOneTypedMalloc function)

def instrumentLegacy (isWord : Char → Bool) (source : Str) (allocation : PolicyAllocation) :
    Except PolicyError Str := do
  let span ← functionBody isWord source allocation.function
  let body ← legacyBody allocation.function allocation.type (slice source span.1 span.2)
  return source.take span.1 ++ body ++ source.drop span.2

end InterSpec.Tools
