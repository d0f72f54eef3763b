import RuntimeLog.Jitlog.Format
import RuntimeLog.Report.ProfileTree

/-!
# Listings of traces

A listing shows every trace of a log with its stages, operations, counters and
links.  Of machine code only its size is shown.
-/

namespace RuntimeLog
namespace Report

/-- The first line of a trace. -/
def traceTitle (forest : Forest) (trace : Trace) : String :=
  let driver := match trace.driver with
    | some driver => " (" ++ driver ++ ")"
    | none => ""
  let bounds := match trace.bounds with
    | some (start, finish) => " at " ++ Text.hex start.toNat ++ ".." ++ Text.hex finish.toNat
    | none => ""
  let parent := match forest.parent? trace with
    | some parent => ", attached to " ++ Text.hex parent.id.toNat
    | none => ""
  trace.kind.name ++ " " ++ Text.hex trace.id.toNat ++ driver ++ bounds ++ parent ++
    if trace.aborted then ", aborted" else ""

/-- The lines below an operation: its counter and its machine code. -/
def operationNotes (forest : Forest) (trace : Trace) (ref : OpRef) : List String :=
  let count := trace.pointCount ref
  let hits := if count = 0 then [] else ["      ^ hit " ++ toString count ++ " times"]
  let code := match forest.codeAt? trace.id ref forest.time with
    | some code =>
        ["      <" ++ toString code.length ++ " bytes of " ++ forest.header.machine ++ " code>"]
    | none => []
  hits ++ code

/-- The lines of an entry of a stage. -/
def entryLines (forest : Forest) (trace : Trace) (kind : StageKind) (entry : StageEntry) :
    List String :=
  let notes := match entry with
    | .operation operation =>
        operationNotes forest trace { stage := kind, index := operation.index }
    | .mergePoint _ => []
  ("    " ++ entry.text) :: notes

/-- The lines of a stage. -/
def stageLines (forest : Forest) (trace : Trace) (stage : Stage) : List String :=
  ("  " ++ stage.kind.name ++ ":") ::
    stage.entries.toList.flatMap (entryLines forest trace stage.kind)

/-- The lines of a trace. -/
def traceLines (forest : Forest) (trace : Trace) : List String :=
  [traceTitle forest trace, "  entered " ++ toString trace.enterCount ++ " times"] ++
    (if trace.inputArguments.isEmpty then []
      else ["  inputs: " ++ ", ".intercalate trace.inputArguments]) ++
    trace.stages.toList.flatMap (stageLines forest trace) ++
    (trace.linksOut.toList.map fun link => "  -> " ++ Text.hex link.target.trace.toNat) ++
    [""]

/-- The lines of a listing. -/
def listingLines (forest : Forest) : List String :=
  let header := forest.header
  ["jitlog version " ++ toString header.version ++ ", " ++ header.words.name ++
      " words, machine " ++ header.machine, ""] ++
    forest.traces.toList.flatMap (traceLines forest) ++
    (forest.anomalies.toList.map fun anomaly => "warning: " ++ anomaly.message) ++
    (forest.fault.map fun fault => "stopped early: " ++ fault.message).toList

/-- List the traces of a log. -/
def traceListing (jitlog : Bytes) : Except OpenError String :=
  (Jitlog.format.decodeBytes jitlog).map fun forest => textOfLines (listingLines forest)

end Report
end RuntimeLog
