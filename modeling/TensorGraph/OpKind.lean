import TensorGraph.Digest
import TensorGraph.Text.Quoted

/-!
# Operation kinds

The kind of an operation is a qualified name, a qualifier and a name joined by
a double colon. Two kinds are the same when their full texts are the same.

The built-in operations that a node can be recovered as are known by their forms;
each form has its kind, and a name by which diagnostics refer to it.
-/

namespace TensorGraph

/-- A qualified operation name. -/
structure OpKind where
  qualifier : String
  name : String

namespace OpKind

/-- Splits at the first double colon. -/
def splitQualified : List Char → Option (List Char × List Char)
  | ':' :: ':' :: rest => some ([], rest)
  | char :: rest => (splitQualified rest).map fun (left, right) => (char :: left, right)
  | [] => none

/-- The text contains a double colon. -/
def hasSeparator (text : String) : Bool := (splitQualified text.toList).isSome

/-- A qualifier or a name contains the separator. -/
structure SeparatorInside where
  qualifier : String
  name : String
  deriving DecidableEq

def SeparatorInside.message (refusal : SeparatorInside) : String :=
  "op kind parts must not contain '::': " ++ Text.quoted refusal.qualifier ++ ", " ++
    Text.quoted refusal.name

/-- The kind with the given parts, neither of which may contain the separator. -/
def ofParts (qualifier name : String) : Except SeparatorInside OpKind :=
  if hasSeparator qualifier || hasSeparator name then .error ⟨qualifier, name⟩
  else .ok ⟨qualifier, name⟩

/-- The qualifier of a name that is given without one. -/
def defaultQualifier : String := "aten"

/-- Reads a qualified name, divided at its first separator. -/
def ofText (text : String) : Except SeparatorInside OpKind :=
  match splitQualified text.toList with
  | some (qualifier, name) => ofParts (String.ofList qualifier) (String.ofList name)
  | none => ofParts defaultQualifier text

/-- The full text of the kind. -/
def text (kind : OpKind) : String := kind.qualifier ++ "::" ++ kind.name

/-- The full text with a tag that says what it names. -/
def taggedText (kind : OpKind) : String := "OpKind(" ++ kind.text ++ ")"

/-- Kinds are compared by their full text, so a colon may belong to either part. -/
instance : BEq OpKind := ⟨fun left right => left.text == right.text⟩

def digest (kind : OpKind) : Digest := .ofText kind.text

/-- The kind of reductions across replicas. -/
def crossReplicaSum : OpKind := ⟨"xla", "cross_replica_sum"⟩

/-- The kind of named inputs on the device. -/
def deviceData : OpKind := ⟨"xla", "device_data"⟩

/-- The kind of fresh ordering tokens. -/
def createToken : OpKind := ⟨"xla", "create_token"⟩

end OpKind

/-- A built-in operation, without its parameters. -/
inductive OperationForm where
  | allReduce
  | deviceData
  | token
  deriving DecidableEq

def OperationForm.all : List OperationForm := [.allReduce, .deviceData, .token]

/-- The full name of the form. -/
def OperationForm.fullName : OperationForm → String
  | .allReduce => "squall::ops::all_reduce::AllReduce"
  | .deviceData => "squall::ops::device_data::DeviceData"
  | .token => "squall::ops::token::Token"

/-- The kind of the nodes with an operation of this form. -/
def OperationForm.kind : OperationForm → OpKind
  | .allReduce => .crossReplicaSum
  | .deviceData => .deviceData
  | .token => .createToken

end TensorGraph
