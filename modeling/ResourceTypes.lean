import ResourceTypes.Files.Tree
import ResourceTypes.Main
import ResourceTypes.Text.Case
import ResourceTypes.Json.Reader
import ResourceTypes.Proofs.Decimal
import ResourceTypes.Proofs.Json.Text
import ResourceTypes.Proofs.Json.Canonical
import ResourceTypes.Proofs.Naming.Signature
import ResourceTypes.Proofs.Naming.Bytes
import ResourceTypes.Proofs.Lowering.Nodes
import ResourceTypes.Proofs.Naming.Registry
import ResourceTypes.Proofs.Lowering.Growth
import ResourceTypes.Proofs.Lowering.Outcome
import ResourceTypes.Proofs.Definition.Selection
import ResourceTypes.Proofs.Batch.Conflicts
import ResourceTypes.Proofs.Batch.Stages
import ResourceTypes.Proofs.Batch.Names
import ResourceTypes.Proofs.Batch.Shapes
import ResourceTypes.Proofs.Batch.References
import ResourceTypes.Proofs.Batch.Agreement
import ResourceTypes.Proofs.Batch.Sharing
import ResourceTypes.Proofs.Batch.Acceptance
import ResourceTypes.Proofs.Schema.Reading
import ResourceTypes.Proofs.Definition.Reading
import ResourceTypes.Proofs.Lowering.Widening
import ResourceTypes.Proofs.Batch.Appending
import ResourceTypes.Proofs.Batch.Order
import ResourceTypes.Proofs.Batch.Declarations
import ResourceTypes.Proofs.Batch.Identifiers
import ResourceTypes.Proofs.Lowering.Soundness
import ResourceTypes.Proofs.Lowering.Reachable
import ResourceTypes.Proofs.Value.Agreement
import ResourceTypes.Proofs.Value.KeyOrder
import ResourceTypes.Proofs.Schema.KeyOrder
import ResourceTypes.Proofs.Batch.KeyOrder
import ResourceTypes.Proofs.Code.Constants
import ResourceTypes.Proofs.Batch.Constants
import ResourceTypes.Proofs.Lowering.Leaves
import ResourceTypes.Proofs.Batch.Options
import ResourceTypes.Proofs.Path
import ResourceTypes.Proofs.Text.Quoted
import ResourceTypes.Proofs.Text.Case
import ResourceTypes.Proofs.Batch.Hierarchy
import ResourceTypes.Proofs.Code.Plan
import ResourceTypes.Proofs.Batch.Plan
import ResourceTypes.Proofs.Code.Variants
import ResourceTypes.Proofs.Code.Descriptions
import ResourceTypes.Proofs.Batch.Placement
import ResourceTypes.Proofs.Files.Laws
import ResourceTypes.Proofs.Files.Tree
import ResourceTypes.Proofs.CommandLine.Inputs
import ResourceTypes.Proofs.CommandLine.Arguments
import ResourceTypes.Proofs.CommandLine.Output
import ResourceTypes.Proofs.Code.FieldNames
import ResourceTypes.Proofs.Code.Fields
import ResourceTypes.Proofs.Batch.Dangling
import ResourceTypes.Proofs.Batch.Literals
import ResourceTypes.Proofs.Code.TypeText
import ResourceTypes.Proofs.Lowering.Conditions
import ResourceTypes.Proofs.Definition.Sources
import ResourceTypes.Proofs.Naming.Search
import ResourceTypes.Proofs.Code.SnakeCase
import ResourceTypes.Proofs.Code.Numbering
