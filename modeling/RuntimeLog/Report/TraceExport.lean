import RuntimeLog.Forest.Basic
import RuntimeLog.Jitlog.Format
import RuntimeLog.Text.Json

/-!
# Export of traces

The traces of a log and the source lines which belong to them as a JSON value.
-/

namespace RuntimeLog
namespace Report

open Text (Json)

/-- An address or an id. -/
def addressValue (address : UInt64) : Json :=
  .text (Text.hex address.toNat)

/-- The machine code of an operation, if it has any. -/
def codeValue? (operation : Operation) : Option Json :=
  operation.code.map fun code =>
    .object
      [("index", .number operation.index), ("offset", .number code.offset.toNat),
        ("bytes", .text (Text.hexBytes code.bytes))]

/-- A stage of a trace. -/
def stageValue (stage : Stage) : Json :=
  .object
    [("name", .text stage.kind.name),
      ("operations", .array (stage.entries.toList.map fun entry => .text entry.text)),
      ("machine_code", .array (stage.operations.filterMap codeValue?))]

/-- The name of the count of entries in a trace. -/
def enterCountName : String := "enter_count"

/-- A trace. -/
def traceValue (forest : Forest) (trace : Trace) : Json :=
  .object
    [("id", addressValue trace.id), ("kind", .text trace.kind.name),
      ("jit_driver", .optional .text trace.driver),
      ("start", .optional (fun bounds => addressValue bounds.1) trace.bounds),
      ("end", .optional (fun bounds => addressValue bounds.2) trace.bounds),
      ("parent", .optional (fun parent => addressValue parent.id) (forest.parent? trace)),
      (enterCountName, .number trace.enterCount.toNat), ("aborted", .boolean trace.aborted),
      ("stages", .array (trace.stages.toList.map stageValue)),
      ("bridges", .array (trace.bridges.map addressValue))]

/-- The lines of a source file. -/
def fileValue (lines : FileLines) : Json :=
  .array
    (lines.toList.map fun entry =>
      .object
        [("line", .number entry.1.toNat), ("indent", .number entry.2.indent.toNat),
          ("text", .text entry.2.text)])

/-- All traces and source lines of a log. -/
def forestValue (forest : Forest) : Json :=
  .object
    [("version", .number forest.header.version.toNat), ("machine", .text forest.header.machine),
      ("traces", .array (forest.traces.toList.map (traceValue forest))),
      ("source",
        .object
          (forest.sourceCache.files.toList.map fun entry => (entry.1, fileValue entry.2))),
      ("warnings",
        .array (forest.anomalies.toList.map fun anomaly => .text anomaly.message)),
      ("fault", .optional (fun fault : Fault => .text fault.message) forest.fault)]

end Report
end RuntimeLog
