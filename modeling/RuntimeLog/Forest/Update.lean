import RuntimeLog.Fault
import RuntimeLog.Forest.Basic

/-!
# Growing a forest

What the records of a log do to a forest.  An update which cannot be made fails
with a decode error; an update which is merely odd is noted as an anomaly.
-/

namespace RuntimeLog
namespace Forest

/-! ## Parts of updates -/

/-- Note an anomaly. -/
def report (forest : Forest) (anomaly : Anomaly) : Forest :=
  { forest with anomalies := forest.anomalies.push anomaly }

/-- Change the trace with an id. -/
def modifyTrace (forest : Forest) (id : UInt64) (change : Trace → Trace) : Forest :=
  { forest with traces := forest.traces.modify (fun trace => trace.id == id) change }

/-- The trace which was started last. -/
def currentTrace (forest : Forest) : Except DecodeError Trace :=
  match forest.current with
  | none => .error .noCurrentTrace
  | some id =>
      match forest.trace? id with
      | none => .error (.unknownTrace id)
      | some trace => .ok trace

/-- The trace which was started last and its active stage. -/
def currentStage (forest : Forest) : Except DecodeError (Trace × Stage) := do
  let trace ← forest.currentTrace
  match trace.activeStage? with
  | none => throw (.noActiveStage trace.id)
  | some stage => return (trace, stage)

/-- Change a stage of a trace. -/
def modifyStage
    (forest : Forest)
    (id : UInt64)
    (kind : StageKind)
    (change : Stage → Stage) : Forest :=
  forest.modifyTrace id fun trace => trace.modifyStage kind change

/-- Register the point of a descriptor.  The first registration stays. -/
def registerDescriptor (forest : Forest) (descriptor : UInt64) (point : TracePoint) : Forest :=
  match forest.descriptorPoints[descriptor]? with
  | some kept => forest.report (.duplicateDescriptor descriptor kept)
  | none =>
      { forest with descriptorPoints := forest.descriptorPoints.insert descriptor point }

/-- Link two points of traces. -/
def link (forest : Forest) (origin target : TracePoint) : Forest :=
  let link : TraceLink := { origin, target }
  let forest := forest.modifyTrace origin.trace fun trace =>
    { trace with linksOut := trace.linksOut.push link }
  forest.modifyTrace target.trace fun trace => { trace with linksIn := trace.linksIn.push link }

/-- Drop a link at its target. -/
def dropIncoming (forest : Forest) (link : TraceLink) : Forest :=
  forest.modifyTrace link.target.trace fun trace =>
    { trace with linksIn := trace.linksIn.filter (· != link) }

/-- Drop all links out of a point. -/
def unlink (forest : Forest) (origin : TracePoint) : Forest :=
  match forest.trace? origin.trace with
  | none => forest
  | some trace =>
      let dropped := trace.linksOut.toList.filter fun link => link.origin == origin
      let kept := forest.modifyTrace origin.trace fun trace =>
        { trace with linksOut := trace.linksOut.filter fun link => link.origin != origin }
      dropped.foldl dropIncoming kept

/-! ## Traces and stages -/

/-- Declare the names of all opcodes, which is done once. -/
def declareOpcodes (names : List (UInt16 × String)) : Update Forest Unit := do
  match (← get).opcodes with
  | some _ => throw .opcodeTableRedeclared
  | none =>
      modify fun forest =>
        { forest with
          opcodes := some (names.foldl (fun map entry => map.insert entry.1 entry.2) ∅) }

/-- Start a trace, which then is the current one. -/
def startTrace
    (id : UInt64)
    (kindName : String)
    (attachedDescriptor : UInt64)
    (driver : Option String) : Update Forest Unit := do
  match TraceKind.ofName? kindName with
  | none => throw (.unknownTraceKind kindName)
  | some kind =>
      match (← get).trace? id with
      | some _ => throw (.duplicateTrace id)
      | none =>
          let driver := driver.filter fun name => !name.isEmpty
          modify fun forest =>
            { forest with
              traces := forest.traces.push (.start id kind attachedDescriptor driver)
              current := some id }

/-- Enter a stage of the current trace. -/
def enterStage (id : UInt64) (kind : StageKind) : Update Forest Unit := do
  let current := (← get).current
  if current = some id then
    let trace ← Update.look currentTrace
    modify fun forest => forest.modifyTrace trace.id fun trace => trace.enterStage kind
  else throw (.traceIdMismatch current id)

/-- Set the input arguments of the current trace. -/
def setInputArguments (list : String) : Update Forest Unit := do
  let trace ← Update.look currentTrace
  modify fun forest => forest.modifyTrace trace.id fun trace =>
    { trace with inputArguments := ArgumentList.parseInput list }

/-! ## Operations -/

/-- The name of the operation which marks a loop header. -/
def labelName : String := "label"

/-- The name of the operation which jumps to a loop header. -/
def jumpName : String := "jump"

/-- The name of the operation which counts passes. -/
def counterName : String := "increment_debug_counter"

/-- Index an operation with a descriptor. -/
def indexDescriptor (forest : Forest) (descriptor : UInt64) (name : String) (point : TracePoint) :
    Forest :=
  let forest := forest.registerDescriptor descriptor point
  if name = labelName then
    { forest with labels := (forest.labels.insertIfNew descriptor point) }
  else if name = jumpName then
    { forest with jumps := (forest.jumps.insertIfNew descriptor point) }
  else forest

/-- Append an operation to the active stage of the current trace.  Its record
starts its payload at an offset. -/
def addOperation
    (offset : Nat)
    (opcode : UInt16)
    (arguments : String)
    (failArguments : Option String)
    (descriptor : Option UInt64) : Update Forest Unit := do
  match (← get).opcodeName? opcode with
  | none => throw (.unknownOpcode opcode offset)
  | some name =>
      let (trace, stage) ← Update.look currentStage
      let list := ArgumentList.parse arguments descriptor.isSome
      let operation : Operation :=
        { index := stage.nextIndex
          opcode
          name
          arguments := list.arguments
          result := list.result
          descriptor := descriptor.map fun number => { label := list.label.getD "", number }
          code := none
          failArguments := failArguments.bind ArgumentList.parseFail }
      let point : TracePoint :=
        { trace := trace.id, operation := some { stage := stage.kind, index := stage.nextIndex } }
      let counted :=
        if name = counterName then stage.lastOperation?.bind Operation.descriptor else none
      modify fun forest =>
        forest.modifyStage trace.id stage.kind fun stage => stage.pushOperation operation
      if let some number := descriptor then
        modify fun forest => forest.indexDescriptor number name point
      if let some counted := counted then
        modify fun forest =>
          { forest with counterPoints := forest.counterPoints.insert counted.number point }

/-- Set the bounds of the machine code of the current trace.  The first bounds
stay. -/
def setBounds (start finish : UInt64) : Update Forest Unit := do
  let trace ← Update.look currentTrace
  match trace.bounds with
  | some _ => modify fun forest => forest.report (.boundsReassigned trace.id)
  | none =>
      modify fun forest => forest.modifyTrace trace.id fun trace =>
        { trace with bounds := some (start, finish) }
      let previous := (← get).byStart[start]?
      modify fun forest => { forest with byStart := forest.byStart.insert start trace.id }
      if let some previous := previous then
        unless previous = trace.id do
          modify fun forest => forest.report (.addressCollision start previous trace.id)

/-- Attach machine code to the last operation of the active stage.  The first
code stays. -/
def attachCode (code : CodeSnippet) : Update Forest Unit := do
  let (trace, stage) ← Update.look currentStage
  match stage.lastOperation? with
  | none => modify fun forest => forest.report (.codeWithoutOperation trace.id)
  | some operation =>
      if operation.code.isSome then
        modify fun forest => forest.report (.codeReassigned trace.id operation.index)
      else
        modify fun forest =>
          forest.modifyStage trace.id stage.kind fun stage => stage.attachCode code

/-! ## Merge points -/

/-- Declare the fields of the merge points of the active stage. -/
def declareLayout (declarations : List FieldDeclaration) : Update Forest Unit := do
  let (trace, stage) ← Update.look currentStage
  modify fun forest => forest.modifyStage trace.id stage.kind fun stage =>
    { stage with layout := some (declarations.map MergeField.declare) }

/-- The fields of the merge points of the active stage. -/
def currentLayout (forest : Forest) : Except DecodeError (List MergeField) := do
  let (_, stage) ← forest.currentStage
  match stage.layout with
  | some layout => return layout
  | none => throw .mergePointLayoutMissing

/-- Declare the start which the texts of a field share from now on. -/
def declareSharedStart (field : UInt8) (start : String) : Update Forest Unit := do
  let (trace, stage) ← Update.look currentStage
  match stage.layout with
  | none => throw .mergePointLayoutMissing
  | some layout =>
      match (layout[field.toNat]?).filter fun declared => declared.kind == .text with
      | none => throw (.invalidPrefixField field)
      | some declared =>
          let layout := layout.set field.toNat { declared with start := some start }
          modify fun forest => forest.modifyStage trace.id stage.kind fun stage =>
            { stage with layout := some layout }

/-- The values of a merge point whose fields are declared, from a position on. -/
def resolveFrom : UInt8 → List MergeField → List WrittenValue →
    Except DecodeError (List (FieldType × FieldValue))
  | position, field :: fields, written :: values =>
      match field.value? written with
      | none => .error (.missingCommonPrefix position)
      | some value => do
          return (field.type, value) :: (← resolveFrom (position + 1) fields values)
  | _, _, _ => .ok []

/-- Append a merge point to the active stage of the current trace.  Its source
line is noted before the stage is looked up. -/
def addMergePoint (written : List WrittenValue) : Update Forest Unit := do
  let layout ← Update.look currentLayout
  let values ← Update.look fun _ => resolveFrom 0 layout written
  let point : MergePoint := { index := 0, values := MergePoint.valuesOf values }
  let trace ← Update.look currentTrace
  if let some (file, line) := point.location? then
    modify fun forest => forest.modifyTrace trace.id fun trace => trace.addSourceLine file line
  let (trace, stage) ← Update.look currentStage
  modify fun forest =>
    forest.modifyStage trace.id stage.kind fun stage => stage.pushMergePoint point.values

/-! ## Links, counters and the rest -/

/-- Attach the trace at an address to the operation of a descriptor. -/
def stitchBridge (descriptor address : UInt64) : Update Forest Unit := do
  match (← get).byStart[address]? with
  | none => throw (.noTraceAtAddress address)
  | some bridge =>
      match (← get).descriptorPoints[descriptor]? with
      | none => modify fun forest => forest.report (.missingBridgeOrigin descriptor bridge)
      | some origin => modify fun forest => forest.link origin (.entry bridge)

/-- Lead the operation of a descriptor to another trace only, and register it
for a new descriptor. -/
def redirect (before after target : UInt64) : Update Forest Unit := do
  match (← get).trace? target with
  | none => throw (.unknownTrace target)
  | some _ =>
      match (← get).descriptorPoints[before]? with
      | none => modify fun forest => forest.report (.missingRedirectOrigin before)
      | some origin =>
          modify fun forest => (forest.unlink origin).link origin (.entry target)
          unless after = before do
            modify fun forest => forest.registerDescriptor after origin

/-- The trace to which a point was linked last. -/
def lastTarget? (forest : Forest) (origin : TracePoint) : Option UInt64 :=
  (forest.trace? origin.trace).bind fun trace =>
    (trace.linksOut.find? fun link => link.origin == origin).map fun link => link.target.trace

/-- The kind of a counter of entries. -/
def entryCounter : UInt8 := 0x65

/-- The kind of a counter of labels. -/
def labelCounter : UInt8 := 0x6c

/-- The kind of a counter of bridges. -/
def bridgeCounter : UInt8 := 0x62

/-- The point which a counter of some kind counts, for the number of a
descriptor. -/
def countedPoint? (forest : Forest) (descriptor : UInt64) (kind : UInt8) : Option TracePoint :=
  if kind == labelCounter then forest.labels[descriptor]?
  else if kind == entryCounter then forest.counterPoints[descriptor]?
  else if kind == bridgeCounter then
    forest.descriptorPoints[descriptor]?.map fun origin =>
      match forest.lastTarget? origin with
      | some target => .entry target
      | none => origin
  else none

/-- The point to which a counter is credited: a trace with the number of the
counter comes first. -/
def creditedPoint? (forest : Forest) (number : UInt64) (kind : UInt8) : Option TracePoint :=
  match forest.trace? number with
  | some _ => some (.entry number)
  | none =>
      (forest.countedPoint? number kind).filter fun point => (forest.trace? point.trace).isSome

/-- Credit a counter. -/
def addCounter (forest : Forest) (number : UInt64) (kind : UInt8) (count : UInt64) : Forest :=
  match forest.creditedPoint? number kind with
  | some point => forest.modifyTrace point.trace fun trace => trace.count point.operation count
  | none => forest.report (.unattributedCounter number kind count)

/-- Mark a trace as aborted. -/
def abortTrace (forest : Forest) (id : UInt64) : Forest :=
  match forest.trace? id with
  | some _ => forest.modifyTrace id fun trace => { trace with aborted := true }
  | none => forest.report (.unknownAbortedTrace id)

/-- Store lines of a source file. -/
def addSourceLines (forest : Forest) (file : String) (lines : List (UInt16 × SourceLine)) :
    Forest :=
  { forest with
    sourceCache :=
      lines.foldl (fun cache entry => cache.insert file entry.1 entry.2) forest.sourceCache }

/-- Note a patch of machine code. -/
def addPatch (forest : Forest) (address : UInt64) (bytes : Bytes) : Forest :=
  { forest with patches := forest.patches.push { time := forest.time, address, bytes } }

end Forest
end RuntimeLog
