import RuntimeLog.Bytes
import RuntimeLog.Text.Split
import RuntimeLog.Trace.MergePoint

/-!
# Operations of traces

A stage of a trace is a list of operations, between which merge points stand.
-/

namespace RuntimeLog

/-- A descriptor of an operation. -/
structure Descriptor where
  /-- The text shown for the descriptor. -/
  label : String
  /-- The number by which other records refer to the operation. -/
  number : UInt64
deriving DecidableEq, Repr

/-- The machine code of one operation. -/
structure CodeSnippet where
  /-- The place of the code behind the start of the code of its trace. -/
  offset : UInt16
  bytes : Bytes
deriving DecidableEq, Repr

/-- An operation of a stage. -/
structure Operation where
  /-- The number of operations before it in its stage. -/
  index : Nat
  opcode : UInt16
  /-- The name of the opcode. -/
  name : String
  arguments : List String
  result : Option String
  descriptor : Option Descriptor
  code : Option CodeSnippet
  /-- The values which are kept when a guard fails. -/
  failArguments : Option (List String)
deriving DecidableEq, Repr

/-- The parts of a logged argument list. -/
structure ArgumentList where
  result : Option String
  arguments : List String
  /-- The label of the descriptor. -/
  label : Option String
deriving DecidableEq, Repr

namespace ArgumentList

/-- Take apart the name of the result, the arguments and, for an operation with
a descriptor, its label, all between commas.  An empty name means that there is
no result. -/
def parse (list : String) (hasDescriptor : Bool) : ArgumentList :=
  match Text.split ',' list with
  | [] => { result := none, arguments := [], label := none }
  | result :: arguments =>
      { result := if result.isEmpty then none else some result
        arguments := if hasDescriptor then arguments.dropLast else arguments
        label := if hasDescriptor then arguments.getLast? else none }

/-- The values kept when a guard fails; an empty list is none. -/
def parseFail (list : String) : Option (List String) :=
  if list.isEmpty then none else some (Text.split ',' list)

/-- The input arguments of a trace. -/
def parseInput (list : String) : List String :=
  (Text.split ',' list).filter fun argument => !argument.isEmpty

end ArgumentList

namespace Operation

/-- Whether an operation is a guard. -/
def isGuard (operation : Operation) : Bool :=
  Text.startsWith operation.name "guard_"

/-- The text of an operation. -/
def text (operation : Operation) : String :=
  let result := match operation.result with
    | some result => result ++ " = "
    | none => ""
  let descriptor := match operation.descriptor with
    | some descriptor =>
        (if operation.arguments.isEmpty then "" else ", ") ++ "descr=" ++ descriptor.label
    | none => ""
  let failArguments := match operation.failArguments with
    | some arguments => " [" ++ ", ".intercalate arguments ++ "]"
    | none => ""
  result ++ operation.name ++ "(" ++ ", ".intercalate operation.arguments ++ descriptor ++ ")" ++
    failArguments

end Operation

/-- An entry of a stage. -/
inductive StageEntry where
  | operation (operation : Operation)
  | mergePoint (point : MergePoint)

namespace StageEntry

/-- The operation of an entry, if it is one. -/
def operation? : StageEntry → Option Operation
  | operation entry => some entry
  | mergePoint _ => none

/-- The merge point of an entry, if it is one. -/
def mergePoint? : StageEntry → Option MergePoint
  | operation _ => none
  | mergePoint point => some point

/-- The machine code of an entry. -/
def code? (entry : StageEntry) : Option CodeSnippet :=
  entry.operation?.bind Operation.code

/-- The descriptor of an entry. -/
def descriptor? (entry : StageEntry) : Option Descriptor :=
  entry.operation?.bind Operation.descriptor

/-- The source file and line of an entry. -/
def location? (entry : StageEntry) : Option (String × UInt64) :=
  entry.mergePoint?.bind MergePoint.location?

/-- The text of an entry. -/
def text : StageEntry → String
  | operation entry => entry.text
  | mergePoint point => point.text

end StageEntry
end RuntimeLog
