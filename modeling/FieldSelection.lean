import FieldSelection.Main
import FieldSelection.Proofs.CommandLine.Agreement
import FieldSelection.Proofs.Compiler.Alarms
import FieldSelection.Proofs.Compiler.Associations
import FieldSelection.Proofs.Compiler.Attributes
import FieldSelection.Proofs.Compiler.Bounds
import FieldSelection.Proofs.Compiler.Containment
import FieldSelection.Proofs.Compiler.Exclusion
import FieldSelection.Proofs.Compiler.KeysMode
import FieldSelection.Proofs.Compiler.Listing
import FieldSelection.Proofs.Compiler.Nesting
import FieldSelection.Proofs.Compiler.Parameters
import FieldSelection.Proofs.Compiler.Promotion
import FieldSelection.Proofs.Compiler.Rendering
import FieldSelection.Proofs.Compiler.Reordering
import FieldSelection.Proofs.Compiler.Repetition
import FieldSelection.Proofs.Compiler.Report
import FieldSelection.Proofs.Compiler.Shapeless
import FieldSelection.Proofs.Compiler.Spans
import FieldSelection.Proofs.Compiler.Truncation
import FieldSelection.Proofs.Compiler.Unknown
import FieldSelection.Proofs.Compiler.Warnings
import FieldSelection.Proofs.Compiler.WellFormed
import FieldSelection.Proofs.Compiler.Writing
import FieldSelection.Proofs.Json.Merge
import FieldSelection.Proofs.Ordering
import FieldSelection.Proofs.Projection.Dotted
import FieldSelection.Proofs.Projection.Exactness
import FieldSelection.Proofs.Projection.Flattening
import FieldSelection.Proofs.Projection.Leaves
import FieldSelection.Proofs.Projection.Narrowing
import FieldSelection.Proofs.Projection.Noninterference
import FieldSelection.Proofs.Projection.Positions
import FieldSelection.Proofs.Query.Paging
import FieldSelection.Proofs.Schema.Pruning
import FieldSelection.Proofs.Selection.Closing
import FieldSelection.Proofs.Selection.Commas
import FieldSelection.Proofs.Selection.Coverage
import FieldSelection.Proofs.Selection.Written
import FieldSelection.Proofs.Shape.Declared
import FieldSelection.Proofs.Shape.Ordered
