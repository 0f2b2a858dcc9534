import TensorGraph.Digest

/-!
# Reductions

What a collective reduction computes: the combining operation, a scale factor
applied to the result, and the groups of replicas that reduce among themselves.
-/

namespace TensorGraph

/-- The operation that combines the values of the replicas. -/
inductive ReductionKind where
  | sum
  | product
  | conjunction
  | disjunction
  | minimum
  | maximum
  deriving DecidableEq

namespace ReductionKind

/-- The number of the kind, part of the identity of an operation. -/
def code : ReductionKind → Nat
  | .sum => 0
  | .product => 1
  | .conjunction => 2
  | .disjunction => 3
  | .minimum => 4
  | .maximum => 5

def text : ReductionKind → String
  | .sum => "sum"
  | .product => "mul"
  | .conjunction => "and"
  | .disjunction => "or"
  | .minimum => "min"
  | .maximum => "max"

def all : List ReductionKind :=
  [.sum, .product, .conjunction, .disjunction, .minimum, .maximum]

/-- The kind with the given text. -/
def ofText? (text : String) : Option ReductionKind := all.find? fun kind => kind.text == text

end ReductionKind

/-- The parameters of a collective reduction. -/
structure Reduction where
  kind : ReductionKind
  scale : Binary64
  groups : List (List Int)
  deriving DecidableEq

namespace Reduction

/-- The parameters as data for a digest. -/
def data (reduction : Reduction) : List Datum :=
  [.unsigned32 reduction.kind.code, .double reduction.scale,
    .list (reduction.groups.map fun group => .list (group.map .signed64))]

end Reduction

end TensorGraph
