import RecordMap.Operator
import RecordMap.Owner.Invocation
import RecordMap.Owner.Typed
import RecordMap.Plan.Dump
import RecordMap.Proofs.Mapper.Construct
import RecordMap.Proofs.Owner.Frame
import RecordMap.Proofs.Owner.History
import RecordMap.Proofs.Owner.Identity
import RecordMap.Proofs.Owner.Nesting
import RecordMap.Proofs.Owner.Overlay
import RecordMap.Proofs.Owner.Typing
import RecordMap.Proofs.Plan.Absence
import RecordMap.Proofs.Plan.Accounting
import RecordMap.Proofs.Plan.Structure
import RecordMap.Proofs.Plan.WellFormed
import RecordMap.Proofs.Registry.Refinement
import RecordMap.Proofs.Synthesis
import RecordMap.Script.Callback
import RecordMap.Proofs.Nesting.Confined
import RecordMap.Proofs.Mapper.Parameter
import RecordMap.Proofs.Owner.Tour
import RecordMap.Proofs.Mapper.Blind
import RecordMap.Proofs.Owner.Interference
import RecordMap.Proofs.Nesting.Parts
import RecordMap.Proofs.Owner.Termination
import RecordMap.Proofs.Nesting.Retracing
import RecordMap.Proofs.Owner.Dropped
import RecordMap.Proofs.Path.Flattened
import RecordMap.Proofs.Path.Dotted
import RecordMap.Proofs.Plan.Nested
import RecordMap.Proofs.Plan.Constants
import RecordMap.Proofs.Config.Slots
import RecordMap.Proofs.Plan.Alike
import RecordMap.Proofs.Plan.Problems
import RecordMap.Proofs.Plan.Independent
import RecordMap.Proofs.Plan.Commuting
import RecordMap.Proofs.Plan.SelfNesting
import RecordMap.Proofs.Owner.Fallback
import RecordMap.Proofs.Conversion.Exact
import RecordMap.Proofs.Context.Store
import RecordMap.Proofs.Plan.Required
import RecordMap.Proofs.Owner.Course
import RecordMap.Proofs.Conversion.RoundTrip
import RecordMap.Proofs.Owner.Supported
import RecordMap.Proofs.Plan.Loosened
import RecordMap.Proofs.Registry.Overflow
