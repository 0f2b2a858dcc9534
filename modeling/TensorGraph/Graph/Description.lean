import TensorGraph.Graph

/-!
# Descriptions and messages

The words for a node, and with them the words for every fault.
-/

namespace TensorGraph

variable {Metadata : Type}

namespace Entry

/-- What is described of every node: kind, shape, outputs if several, and dynamic dimensions. -/
def baseDescription (entry : Entry Metadata) : String :=
  let outputs := entry.node.outputs
  let dims := ", ".intercalate (entry.annotations.dynamicDims.map toString)
  entry.node.kind.text ++ ", xla_shape=" ++ entry.node.shape.text ++
    (if 1 < outputs then s!", num_outputs={outputs}" else "") ++ s!", dynamic_dims: ({dims})"

/-- The parameters of a reduction. -/
def reductionDescription (reduction : Reduction) (pinned : Bool) : String :=
  let code := reduction.kind.code
  let scale := reduction.scale.text
  let group (members : List Int) : String := "(" ++ ", ".intercalate (members.map toString) ++ ")"
  let groups := ",".intercalate (reduction.groups.map group)
  s!"reduce_type={code}, scale={scale}, pin_layout={pinned}, groups=({groups})"

/-- The base description followed by the parameters of the operation. -/
def description (entry : Entry Metadata) : String :=
  match entry.operation with
  | .deviceData name => entry.baseDescription ++ ", name=" ++ name
  | .allReduce reduction => entry.baseDescription ++ ", " ++ reductionDescription reduction false
  | .orderedAllReduce reduction pinned =>
    entry.baseDescription ++ ", " ++ reductionDescription reduction pinned
  | .token | .custom _ => entry.baseDescription

end Entry

namespace Graph

/-- The description of a node, empty if there is none of that identifier. -/
def describe (graph : Graph Metadata) (id : NodeId) : String :=
  ((graph.entryAt? id).map Entry.description).getD ""

/-- The text of the kind of a node. -/
def kindText (graph : Graph Metadata) (id : NodeId) : String :=
  ((graph.entryAt? id).map fun entry => entry.node.kind.text).getD ""

/-- A value by the kind and identifier of its node and the index of the output. -/
def valueText (graph : Graph Metadata) (value : Value) : String :=
  "<" ++ graph.kindText value.node ++ s!"#{value.node}:{value.index}>"

def violationMessage (graph : Graph Metadata) : Violation → String
  | .cacheCapacity => "Hash table capacity overflow"
  | .unknownNode id => s!"no node has the identifier {id}"
  | .outputRange kind outputs index =>
    s!"output index {index} out of range for {kind.text} with {outputs} outputs"
  | .shardingRange kind outputs index =>
    s!"sharding index {index} out of range for {kind.text} with {outputs} outputs"
  | .listRange length index =>
    s!"index out of bounds: the len is {length} but the index is {index}"
  | .noOutputs kind => kind.text ++ " must have at least one output"
  | .outputsMismatch kind outputs shape =>
    s!"{kind.text} declares {outputs} outputs but has shape {shape.text}"
  | .operandCount kind expected given =>
    s!"assertion `left == right` failed: {kind.text} takes {expected} operands\n" ++
      s!"  left: {given}\n right: {expected}"
  | .operandsOfSource kind => kind.text ++ " takes no operands"
  | .otherOperation kind expected id =>
    s!"{kind.text} node is not a {expected.fullName}: {graph.describe id}"

def failureMessage (graph : Graph Metadata) : Failure → String
  | .reported text => text
  | .unknownHandle refusal => refusal.message
  | .valueNotLowered value => "no backend op lowered for " ++ graph.valueText value
  | .operandNotLowered operand user =>
    s!"operand {graph.valueText operand} of {graph.describe user} has not been lowered"
  | .handleCount id produced =>
    let outputs := ((graph.entryAt? id).map fun entry => entry.node.outputs).getD 0
    s!"{graph.kindText id} produced {produced} ops for {outputs} outputs"
  | .handleMissing id index => s!"{graph.kindText id} never returned output {index}"
  | .noLowering id => "lowering not implemented for node: " ++ graph.describe id
  | .noCloning id => "cloning not implemented for node: " ++ graph.describe id
  | .inShape kind cause => s!"computing the shape of {kind.text}: " ++ graph.failureMessage cause
  | .inLowering id cause => s!"lowering {graph.describe id}: " ++ graph.failureMessage cause

/-- The words for a fault. -/
def faultMessage (graph : Graph Metadata) : Fault → String
  | .violation cause => graph.violationMessage cause
  | .failure cause => graph.failureMessage cause

end Graph

end TensorGraph
