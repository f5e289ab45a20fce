import BuildVariants.BottomUp.Addition
import BuildVariants.BottomUp.Pass
import BuildVariants.Calendar
import BuildVariants.CommandLine.Arguments
import BuildVariants.CommandLine.Outcome
import BuildVariants.Declared.Decoding
import BuildVariants.Declared.Module
import BuildVariants.Declared.Pipeline
import BuildVariants.Failure
import BuildVariants.Graph
import BuildVariants.Graph.Loading
import BuildVariants.Graph.Report
import BuildVariants.Graph.VisitOrder
import BuildVariants.Json
import BuildVariants.Main
import BuildVariants.Module
import BuildVariants.Number.Decimal
import BuildVariants.Number.Nearest
import BuildVariants.Pipeline
import BuildVariants.Proofs.BottomUp.Negotiation
import BuildVariants.Proofs.BottomUp.Pass
import BuildVariants.Proofs.Failure
import BuildVariants.Proofs.Graph.Acyclic
import BuildVariants.Proofs.Graph.Loading
import BuildVariants.Proofs.Graph.VisitOrder
import BuildVariants.Proofs.Graph.WellFormed
import BuildVariants.Proofs.Pipeline.Acyclic
import BuildVariants.Proofs.Pipeline.External
import BuildVariants.Proofs.Pipeline.Far
import BuildVariants.Proofs.Pipeline.Run
import BuildVariants.Proofs.Text.Order
import BuildVariants.Proofs.Transition.Decision
import BuildVariants.Proofs.Transition.Pass
import BuildVariants.Proofs.Transition.Plan
import BuildVariants.Proofs.Transition.Propagation
import BuildVariants.Proofs.Transition.Rewiring
import BuildVariants.Proofs.Transition.Unfolding
import BuildVariants.Proofs.Variant
import BuildVariants.Reference
import BuildVariants.Ruled.Action
import BuildVariants.Ruled.Module
import BuildVariants.Ruled.Rule
import BuildVariants.Script.Answering
import BuildVariants.Script.Arithmetic
import BuildVariants.Script.Assembly
import BuildVariants.Script.Calling
import BuildVariants.Script.Datum
import BuildVariants.Script.Describing
import BuildVariants.Script.Execution
import BuildVariants.Script.Format
import BuildVariants.Script.Instruction
import BuildVariants.Script.Library.Basic
import BuildVariants.Script.Library.Builtins
import BuildVariants.Script.Library.Coroutine
import BuildVariants.Script.Library.Math
import BuildVariants.Script.Library.Packages
import BuildVariants.Script.Library.Packing
import BuildVariants.Script.Library.Random
import BuildVariants.Script.Library.Standard
import BuildVariants.Script.Library.Streams
import BuildVariants.Script.Library.System
import BuildVariants.Script.Library.Tables
import BuildVariants.Script.Library.Text
import BuildVariants.Script.Library.Utf8
import BuildVariants.Script.Loading
import BuildVariants.Script.Machine
import BuildVariants.Script.Numeral
import BuildVariants.Script.Operation
import BuildVariants.Script.Pattern
import BuildVariants.Script.Process
import BuildVariants.Script.Reading
import BuildVariants.Script.Registry
import BuildVariants.Script.Source
import BuildVariants.Script.Store
import BuildVariants.Script.Table
import BuildVariants.Script.Token
import BuildVariants.Script.Value
import BuildVariants.Script.World
import BuildVariants.Text.Bytes
import BuildVariants.Text.Hidden
import BuildVariants.Text.Quoted
import BuildVariants.Text.Sorted
import BuildVariants.Text.Utf8
import BuildVariants.Transition
import BuildVariants.Transition.Pass
import BuildVariants.Transition.Plan
import BuildVariants.Transition.Rewiring
import BuildVariants.Variant
import BuildVariants.Variant.Serialized
import BuildVariants.Proofs.Graph.Embedding
import BuildVariants.Proofs.Transition.Embedding
import BuildVariants.Proofs.Pipeline.Extension
import BuildVariants.Proofs.Graph.Renumbering
import BuildVariants.Proofs.BottomUp.Moving
import BuildVariants.Proofs.BottomUp.Renumbering
import BuildVariants.Proofs.Pipeline.Permutation
import BuildVariants.Proofs.Transition.Contents
import BuildVariants.Proofs.Pipeline.Relaxed
import BuildVariants.Proofs.Pipeline.Agreement
import BuildVariants.Proofs.Transition.Genuine
import BuildVariants.Proofs.Declared.LateEdges
import BuildVariants.Proofs.Pipeline.History
import BuildVariants.Proofs.Pipeline.Neutral
import BuildVariants.Proofs.Transition.Substituted
import BuildVariants.Proofs.BottomUp.Forward
import BuildVariants.Proofs.Pipeline.Forward
import BuildVariants.Proofs.Pipeline.Detached
import BuildVariants.Proofs.BottomUp.InPlace
import BuildVariants.Proofs.Graph.Cycle
import BuildVariants.Proofs.Graph.LoadOutcome
import BuildVariants.Proofs.BottomUp.AnyOrder
import BuildVariants.Proofs.Pipeline.Lineage
import BuildVariants.Proofs.Pipeline.Lookup
import BuildVariants.Proofs.Graph.Report
import BuildVariants.Proofs.CommandLine.Agreement
import BuildVariants.Proofs.Script.Host
import BuildVariants.Proofs.Script.Declarations
import BuildVariants.Proofs.Script.Evaluation
import BuildVariants.Proofs.Text.Lossy
import BuildVariants.Proofs.Declared.WellFormed
import BuildVariants.Proofs.Declared.Decoding
import BuildVariants.Proofs.Declared.Acceptance
import BuildVariants.Proofs.Failure.Collection
import BuildVariants.Proofs.Reference
import BuildVariants.Proofs.Variant.Identity
import BuildVariants.Proofs.Variant.Serialized
