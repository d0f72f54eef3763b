import RuntimeLog.Jitlog.Record
import RuntimeLog.LogReader

/-!
# The format of trace logs

What every record of a trace log does to the forest, and which records there are
in which version.
-/

namespace RuntimeLog
namespace Jitlog

/-- The first byte of every trace log. -/
def formatFlag : UInt8 := 0x23

/-- The markers of a version. -/
def markers? (version : UInt16) : Option (MarkerTable Marker) :=
  let table := fun (last : Marker) (markers : List Marker) =>
    (MarkerTable.empty version Marker.inputArguments.byte last.byte).insertAll
      (markers.map fun marker => (marker.byte, marker))
  if version == 1 || version == 2 then some (table .sourceLines Marker.early)
  else if version == 3 then some (table .patch (Marker.early ++ Marker.later))
  else none

/-- What a record does to a forest, given the offset of its payload. -/
def apply (offset : Nat) : Record → Update Forest Unit
  | .inputArguments list => Forest.setInputArguments list
  | .opcodes names => Forest.declareOpcodes names
  | .operation opcode arguments failArguments descriptor =>
      Forest.addOperation offset opcode arguments failArguments descriptor
  | .bounds start finish => Forest.setBounds start finish
  | .code code => Forest.attachCode code
  | .enterStage kind trace => Forest.enterStage trace kind
  | .stitchBridge descriptor address => Forest.stitchBridge descriptor address
  | .startTrace id kind attachedDescriptor driver =>
      Forest.startTrace id kind attachedDescriptor driver
  | .counter number kind count => modify fun forest => forest.addCounter number kind count
  | .layout declarations => Forest.declareLayout declarations
  | .mergePoint values => Forest.addMergePoint values
  | .sharedStart field start => Forest.declareSharedStart field start
  | .abortTrace id => modify fun forest => forest.abortTrace id
  | .sourceLines file lines => modify fun forest => forest.addSourceLines file lines
  | .redirect before after target => Forest.redirect before after target
  | .patch address bytes => modify fun forest => forest.addPatch address bytes

/-- The format of trace logs. -/
def format : LogFormat Marker Record Forest where
  flag := formatFlag
  markers? := markers?
  start := Forest.start
  payload header forest marker := Record.reading header.words header.version forest marker
  apply := apply
  advance forest offset := { forest with time := forest.time + 1, decodedUntil := offset }
  stop forest fault := { forest with fault := some fault }
  isComplete _ := false

end Jitlog
end RuntimeLog
