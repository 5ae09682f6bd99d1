import InterSpec.Tools.Text

/-!
# Policies, boundaries and errors

The JSON inputs of the two generators, and what they raise.

`policy["types"]`, `policy["allocations"]` and `policy["uses"]` must be there; an
optional key is an `Option` (`"site"`, `"bytes"`) or a value with its default
(`"dynamic_bytes"`, the keys of the boundary).  Numbers are Python integers.
-/

namespace InterSpec.Tools

/-- `allocation["site"]`, one-based lines and columns. -/
structure SourceSpan where
  startLine : Int
  startColumn : Int
  endLine : Int
  endColumn : Int
deriving DecidableEq, Repr

structure PolicyAllocation where
  function : Str
  type : Str
  site : Option SourceSpan
deriving DecidableEq, Repr

structure PolicyUse where
  name : Str
  type : Str
  offset : Int
  bytes : Option Int
  dynamicBytes : Bool
deriving DecidableEq, Repr

structure Policy where
  types : List Str
  allocations : List PolicyAllocation
  uses : List PolicyUse
deriving DecidableEq, Repr

structure HelperSite where
  name : Str
  type : Str
deriving DecidableEq, Repr

/-- No boundary is the boundary without keys. -/
structure Boundary where
  types : List Str
  helperSites : List HelperSite
deriving DecidableEq, Repr

/-- The `ValueError`s of the generators, and the `KeyError` of a fixed use that
declares no bytes. -/
inductive PolicyError
  | functionNotFound (function : Str)
  | unterminatedFunction (function : Str)
  | notOneBased
  | lineOutOfRange (line : Int)
  | columnOutOfRange (line column : Int)
  | anchorNotMalloc (anchor : Str)
  | truncatedMalloc
  | noArgumentList
  | emptySize
  | spanPastCall
  | unterminatedArguments
  | invalidSite (function : Str)
  | siteEscapes (function : Str)
  | callEscapes (function : Str)
  | notOneTypedMalloc (function : Str)
  | duplicateType
  | hashCollision (first second : Str)
  | unknownAllocationType (type : Str)
  | unknownUseType (type : Str)
  | missingBytes
  | negativeRange (use : Str)
  | emptyBoundaryType
  | dynamicWithBytes (use : Str)
  | duplicateHelper (helper : Str)
  | unknownHelperType (type : Str)
  | emptyNamespace
  | baseOutOfRange
  | siteIdOverflow
  | noPreciseSite
deriving DecidableEq, Repr

namespace PolicyError

def int (n : Int) : Str := (toString n).toList

/-- The text of the exception; `repr` is Python's, which quotes a string. -/
def message (repr : Str → Str) : PolicyError → Str
  | functionNotFound function => "function not found: ".toList ++ function
  | unterminatedFunction function => "unterminated function: ".toList ++ function
  | notOneBased => "source locations are one-based".toList
  | lineOutOfRange line => "source line out of range: ".toList ++ int line
  | columnOutOfRange line column =>
    "source column out of range: ".toList ++ int line ++ ":".toList ++ int column
  | anchorNotMalloc anchor =>
    "allocation anchor does not start at malloc: ".toList ++ repr anchor
  | truncatedMalloc => "allocation span truncates the malloc token".toList
  | noArgumentList => "malloc anchor is not followed by an argument list".toList
  | emptySize => "empty malloc size expression".toList
  | spanPastCall => "allocation span extends past the selected malloc call".toList
  | unterminatedArguments => "unterminated malloc argument list".toList
  | invalidSite function => "invalid allocation site in ".toList ++ function
  | siteEscapes function => "allocation site escapes function ".toList ++ function
  | callEscapes function => "malloc call escapes function ".toList ++ function
  | notOneTypedMalloc function => "expected one typed malloc in ".toList ++ function
  | duplicateType => "duplicate type".toList
  | hashCollision first second =>
    "TypeHash collision between ".toList ++ repr first ++ " and ".toList ++ repr second
  | unknownAllocationType type => "unknown allocation type: ".toList ++ type
  | unknownUseType type => "unknown use type: ".toList ++ type
  | missingBytes => "'bytes'".toList
  | negativeRange use => "negative access range: ".toList ++ use
  | emptyBoundaryType => "boundary type names must be non-empty strings".toList
  | dynamicWithBytes use => "dynamic use must not also declare fixed bytes: ".toList ++ use
  | duplicateHelper helper => "duplicate helper site: ".toList ++ helper
  | unknownHelperType type => "unknown helper site type: ".toList ++ type
  | emptyNamespace => "empty wasm namespace".toList
  | baseOutOfRange => "wasm site-id base must fit uint32_t".toList
  | siteIdOverflow => "wasm site-id range overflows uint32_t".toList
  | noPreciseSite => "wasm-direct provenance requires a precise source allocation site".toList

end PolicyError

end InterSpec.Tools
