import InterSpec.Backend.Arena
import InterSpec.Backend.Isolation
import InterSpec.Bridge.AsWritten
import InterSpec.Bridge.Authorised
import InterSpec.Bridge.Contexts
import InterSpec.Bridge.Delivery
import InterSpec.Bridge.Lifetime
import InterSpec.Bridge.Marshalling
import InterSpec.Bridge.Options
import InterSpec.Bridge.Ownership
import InterSpec.Bridge.Session
import InterSpec.Bridge.Shadow
import InterSpec.Bridge.Strings
import InterSpec.Bridge.TypedHeap
import InterSpec.Data.Blocks
import InterSpec.Data.Dict
import InterSpec.Data.Fallible
import InterSpec.Data.Machine
import InterSpec.Data.Memory
import InterSpec.Data.Overlap
import InterSpec.Data.Owners
import InterSpec.Data.Pages
import InterSpec.Data.Ranges
import InterSpec.Data.Regex
import InterSpec.Data.SortedMap
import InterSpec.Data.Sorting
import InterSpec.Data.Splice
import InterSpec.Data.Statistics
import InterSpec.Data.Walk
import InterSpec.Data.Word
import InterSpec.Runtime.Accounting
import InterSpec.Runtime.Basic
import InterSpec.Runtime.Batch
import InterSpec.Runtime.Callback
import InterSpec.Runtime.Check
import InterSpec.Runtime.Heap
import InterSpec.Runtime.Layout
import InterSpec.Runtime.Move
import InterSpec.Runtime.PolicyRuntime
import InterSpec.Runtime.Provenance
import InterSpec.Runtime.Registration
import InterSpec.Runtime.Registry
import InterSpec.Runtime.Step
import InterSpec.Runtime.Threshold
import InterSpec.Runtime.ZeroReturn
import InterSpec.Tools.Accepted
import InterSpec.Tools.Access
import InterSpec.Tools.Anchors
import InterSpec.Tools.Authority
import InterSpec.Tools.Backends
import InterSpec.Tools.Balanced
import InterSpec.Tools.Baseline
import InterSpec.Tools.Braces
import InterSpec.Tools.Bridges
import InterSpec.Tools.Calls
import InterSpec.Tools.Compiled
import InterSpec.Tools.Coordinates
import InterSpec.Tools.Functions
import InterSpec.Tools.Generate
import InterSpec.Tools.Grammar
import InterSpec.Tools.Insertion
import InterSpec.Tools.Intervals
import InterSpec.Tools.Labels
import InterSpec.Tools.Lines
import InterSpec.Tools.Linked
import InterSpec.Tools.Macros
import InterSpec.Tools.Numbering
import InterSpec.Tools.Patches
import InterSpec.Tools.Pieces
import InterSpec.Tools.Policy
import InterSpec.Tools.Registered
import InterSpec.Tools.Replacement
import InterSpec.Tools.SiteLabels
import InterSpec.Tools.SiteMark
import InterSpec.Tools.Snapshot
import InterSpec.Tools.Source
import InterSpec.Tools.Summary
import InterSpec.Tools.Tables
import InterSpec.Tools.Text
import InterSpec.Tools.Tokens
import InterSpec.Tools.TypeNames
import InterSpec.Tools.Uses
import InterSpec.Tools.Wasm
