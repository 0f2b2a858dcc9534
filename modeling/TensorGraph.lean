import TensorGraph.Configuration
import TensorGraph.Graph
import TensorGraph.Graph.Description
import TensorGraph.Graph.Descent
import TensorGraph.Lowering
import TensorGraph.Operation
import TensorGraph.Shape
import TensorGraph.Sharding
import TensorGraph.Workspace.Operations
import TensorGraph.Proofs.Effects
import TensorGraph.Proofs.ListRelations
import TensorGraph.Proofs.ShapeCache
import TensorGraph.Proofs.Graph.Order
import TensorGraph.Proofs.Graph.PostOrder
import TensorGraph.Proofs.Graph.Identity
import TensorGraph.Proofs.Graph.Structure
import TensorGraph.Proofs.Workspace.Construction
import TensorGraph.Proofs.Workspace.BuiltIn
import TensorGraph.Proofs.Workspace.Uncached
import TensorGraph.Proofs.Graph.Shapes
import TensorGraph.Proofs.Emission.Handles
import TensorGraph.Proofs.Emission.Block
import TensorGraph.Proofs.Emission.Growth
import TensorGraph.Proofs.Operation.Recording
import TensorGraph.Proofs.Term
import TensorGraph.Proofs.Lowering.Node
import TensorGraph.Proofs.Lowering.Placement
import TensorGraph.Proofs.Lowering.Meaning
import TensorGraph.Proofs.Lowering.Equivalence
import TensorGraph.Proofs.Lowering.Observation
import TensorGraph.Proofs.Lowering.Replacement
import TensorGraph.Proofs.Lowering.History
import TensorGraph.Proofs.Lowering.Visibility
import TensorGraph.Proofs.Graph.AnnotationSteps
import TensorGraph.Proofs.Graph.Shardings
import TensorGraph.Proofs.Workspace.Evolution
import TensorGraph.Proofs.Workspace.Transparency
import TensorGraph.Proofs.Workspace.FailedRequest
import TensorGraph.Proofs.Workspace.Shapes
import TensorGraph.Proofs.Graph.Congruence
import TensorGraph.Proofs.Lowering.Outcome
import TensorGraph.Proofs.Lowering.Program
import TensorGraph.Proofs.Lowering.Shapes
import TensorGraph.Proofs.Workspace.Cloning
import TensorGraph.Proofs.Lowering.Clones
import TensorGraph.Proofs.Graph.Search
import TensorGraph.Proofs.Graph.Provenance
import TensorGraph.Proofs.Workspace.Numbering
import TensorGraph.Proofs.Lowering.Atomicity
import TensorGraph.Proofs.Trace.Steps
import TensorGraph.Proofs.Trace.Calls
import TensorGraph.Proofs.OpKind.Storage
import TensorGraph.Proofs.OpKind
import TensorGraph.Proofs.OpKind.Reading
import TensorGraph.Proofs.Workspace.Outputs
import TensorGraph.Proofs.Workspace.Chains
import TensorGraph.Proofs.ShapeCache.Recency
import TensorGraph.Proofs.Workspace.Evaluations
import TensorGraph.Proofs.Digest
import TensorGraph.Proofs.Workspace.Separation
import TensorGraph.Proofs.Checked
import TensorGraph.Proofs.Sharding.Words
import TensorGraph.Proofs.Sharding.Nested
import TensorGraph.Proofs.Text.Reading
import TensorGraph.Proofs.Shape.Size
import TensorGraph.Proofs.Shape.Text
import TensorGraph.Proofs.Trace.Text
