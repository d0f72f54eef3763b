import RuntimeLog.Trace.Stage
import RuntimeLog.Words
import Std.Data.ExtTreeSet

/-!
# Traces

A trace is a loop or a bridge which was compiled at run time.  It has stages, of
which one is active, and is linked to the traces which it transfers control to.
-/

namespace RuntimeLog

/-- What a trace was compiled for. -/
inductive TraceKind where
  | loop
  /-- The continuation of a failing guard. -/
  | bridge
deriving DecidableEq, Repr

namespace TraceKind

/-- The name of a kind. -/
def name : TraceKind → String
  | loop => "loop"
  | bridge => "bridge"

/-- The kind with a name. -/
def ofName? (name : String) : Option TraceKind :=
  if name = "loop" then some loop else if name = "bridge" then some bridge else none

@[simp] theorem ofName?_name (kind : TraceKind) : ofName? kind.name = some kind := by
  cases kind <;> rfl

end TraceKind

/-- A set of source lines for every file. -/
abbrev LineSets : Type := Std.ExtTreeMap String (Std.ExtTreeSet UInt64 compare) compare

/-- A compiled trace. -/
structure Trace where
  id : UInt64
  kind : TraceKind
  /-- The name of the driver which compiled the trace. -/
  driver : Option String
  /-- For a bridge, the number of the descriptor it was compiled for. -/
  attachedDescriptor : UInt64
  inputArguments : List String
  /-- The stages in the order in which they were first entered. -/
  stages : Journal Stage
  activeKind : Option StageKind
  /-- The start and the end of the machine code. -/
  bounds : Option (UInt64 × UInt64)
  /-- How often the trace was entered. -/
  enterCount : UInt64
  /-- How often operations were passed. -/
  pointCounts : Std.ExtTreeMap OpRef UInt64 compare
  linksOut : Journal TraceLink
  linksIn : Journal TraceLink
  /-- The source lines of the merge points. -/
  sourceLines : LineSets
  aborted : Bool
  /-- Whether the first stage was entered while it was active. -/
  unrolled : Bool

namespace Trace

/-- A trace about which nothing else was logged. -/
def start
    (id : UInt64)
    (kind : TraceKind)
    (attachedDescriptor : UInt64)
    (driver : Option String) : Trace :=
  { id
    kind
    driver
    attachedDescriptor
    inputArguments := []
    stages := .empty
    activeKind := none
    bounds := none
    enterCount := 0
    pointCounts := ∅
    linksOut := .empty
    linksIn := .empty
    sourceLines := ∅
    aborted := false
    unrolled := false }

/-- The stage of a kind, if it was entered. -/
def stage? (trace : Trace) (kind : StageKind) : Option Stage :=
  trace.stages.find? fun stage => stage.kind == kind

/-- The active stage. -/
def activeStage? (trace : Trace) : Option Stage :=
  trace.activeKind.bind trace.stage?

/-- Enter a stage.  Entering the first stage again while it is active only marks
the trace as unrolled. -/
def enterStage (trace : Trace) (kind : StageKind) : Trace :=
  if kind = .noopt ∧ trace.activeKind = some .noopt then { trace with unrolled := true }
  else
    { trace with
      stages :=
        match trace.stage? kind with
        | some _ => trace.stages
        | none => trace.stages.push (.empty kind)
      activeKind := some kind }

/-- Change the stage of a kind. -/
def modifyStage (trace : Trace) (kind : StageKind) (change : Stage → Stage) : Trace :=
  { trace with stages := trace.stages.modify (fun stage => stage.kind == kind) change }

/-- The operation which a reference names. -/
def operation? (trace : Trace) (ref : OpRef) : Option Operation :=
  (trace.stage? ref.stage).bind fun stage => stage.operation? ref.index

/-- Whether an address is in the machine code of a trace. -/
def contains (trace : Trace) (address : UInt64) : Bool :=
  match trace.bounds with
  | some (start, finish) => start ≤ address && address < finish
  | none => false

/-- How often an operation was passed. -/
def pointCount (trace : Trace) (ref : OpRef) : UInt64 :=
  trace.pointCounts.getD ref 0

/-- Count entries of the trace. -/
def countEntry (trace : Trace) (count : UInt64) : Trace :=
  { trace with enterCount := Ticks.add trace.enterCount count }

/-- Count passes of an operation. -/
def countPoint (trace : Trace) (ref : OpRef) (count : UInt64) : Trace :=
  { trace with
    pointCounts := trace.pointCounts.insert ref (Ticks.add (trace.pointCount ref) count) }

/-- Count entries of the trace or passes of one of its operations. -/
def count (trace : Trace) (operation : Option OpRef) (count : UInt64) : Trace :=
  match operation with
  | none => trace.countEntry count
  | some ref => trace.countPoint ref count

/-- Note the source line of a merge point. -/
def addSourceLine (trace : Trace) (file : String) (line : UInt64) : Trace :=
  { trace with
    sourceLines := trace.sourceLines.insert file ((trace.sourceLines.getD file ∅).insert line) }

/-- The trace which this one is attached to: the first other one which links to
it. -/
def parent? (trace : Trace) : Option UInt64 :=
  (trace.linksIn.toList.map fun link => link.origin.trace).find? (· != trace.id)

/-- The traces which this one transfers control to. -/
def bridges (trace : Trace) : List UInt64 :=
  trace.linksOut.toList.map fun link => link.target.trace

end Trace
end RuntimeLog
